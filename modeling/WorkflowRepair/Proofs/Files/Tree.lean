import WorkflowRepair.Files.Tree

/-!
# Paths in changing trees

Where a path leads does not depend on the bytes of files. So as long as everything in a tree stays
where it is and as what it is (`Tree.Persists`), a path that leads to something goes on leading there:

* `Tree.resolve_of_persists` — a path leads to the same location, whatever is stored there now;
* `Tree.read_of_persists`, `Tree.isDirectory_of_persists`, `Tree.contains_of_persists` — what that
  means for what is asked of a tree;
* `Tree.resolve_put_directory`, `Tree.resolve_put_file` — where a path to a free name leads once the
  name is given.
-/

namespace WorkflowRepair.Files

/-- Whether an entry is a file. -/
def Entry.isFile : Entry → Bool
  | .file _ => true
  | .directory => false

theorem Entry.exists_of_isFile {entry : Entry} (h : entry.isFile = true) :
    ∃ bytes, entry = .file bytes := by
  cases entry with
  | file bytes => exact ⟨bytes, rfl⟩
  | directory => cases h

theorem Entry.eq_directory_of_isFile {entry : Entry} (h : entry.isFile = false) :
    entry = .directory := by
  cases entry with
  | file bytes => cases h
  | directory => rfl

namespace Tree

/-! ## Locations -/

section

variable {tree : Tree} {location other : Location} {entry : Entry}

theorem mem_of_get? (h : tree.get? location = some entry) : (location, entry) ∈ tree.entries := by
  rcases Option.map_eq_some_iff.1 h with ⟨found, hfind, hentry⟩
  have hlocation : found.1 = location := by simpa using List.find?_some hfind
  have hfound : found = (location, entry) := Prod.ext hlocation hentry
  rw [← hfound]
  exact List.mem_of_find?_eq_some hfind

theorem get?_put_self (tree : Tree) (location : Location) (entry : Entry) :
    (tree.put location entry).get? location = some entry := by
  simp [get?, put]

theorem find?_filter_location (entries : List (Location × Entry)) (keep : Location → Bool)
    (location : Location) :
    (entries.filter fun e => keep e.1).find? (·.1 == location) =
      if keep location then entries.find? (·.1 == location) else none := by
  rw [List.find?_filter]
  split
  case isTrue hkeep =>
    congr 1
    funext e
    by_cases he : e.1 = location
    · simp [he, hkeep]
    · simp [he]
  case isFalse hkeep =>
    rw [List.find?_eq_none]
    intro e _ he
    rcases of_decide_eq_true he with ⟨hkept, hlocation⟩
    rw [eq_of_beq hlocation] at hkept
    exact hkeep hkept

theorem get?_put_ne (tree : Tree) (entry : Entry) (h : other ≠ location) :
    (tree.put location entry).get? other = tree.get? other := by
  have hkeep : (other != location) = true := bne_iff_ne.2 h
  rw [get?, put, List.find?_cons_of_neg (by simpa using h.symm),
    find?_filter_location tree.entries (· != location), if_pos hkeep, get?]

theorem mem_put {e : Location × Entry} :
    e ∈ (tree.put location entry).entries ↔
      e = (location, entry) ∨ e ∈ tree.entries ∧ e.1 ≠ location := by
  simp [put]

theorem get?_erase (tree : Tree) (location other : Location) :
    (tree.erase location).get? other =
      if location.isPrefixOf other then none else tree.get? other := by
  rw [get?, erase, find?_filter_location tree.entries (!location.isPrefixOf ·)]
  by_cases h : location.isPrefixOf other = true
  · simp [h]
  · simp [h, get?]

theorem mem_erase {e : Location × Entry} :
    e ∈ (tree.erase location).entries ↔ e ∈ tree.entries ∧ location.isPrefixOf e.1 = false := by
  simp [erase]

end

/-! ## Trees that keep what they have -/

/-- Everything in the first tree stands in the second where it stood, a file as a file, and relative
paths start where they started. -/
structure Persists (tree tree' : Tree) : Prop where
  workingDirectory : tree'.workingDirectory = tree.workingDirectory
  exists_entry : ∀ location entry, tree.get? location = some entry →
    ∃ entry', tree'.get? location = some entry' ∧ entry'.isFile = entry.isFile

theorem Persists.refl (tree : Tree) : tree.Persists tree where
  workingDirectory := rfl
  exists_entry _ entry h := ⟨entry, h, rfl⟩

theorem Persists.trans {tree tree' tree'' : Tree} (h : tree.Persists tree')
    (h' : tree'.Persists tree'') : tree.Persists tree'' where
  workingDirectory := h'.workingDirectory.trans h.workingDirectory
  exists_entry location entry hget := by
    rcases h.exists_entry location entry hget with ⟨entry', hget', hfile⟩
    rcases h'.exists_entry location entry' hget' with ⟨entry'', hget'', hfile'⟩
    exact ⟨entry'', hget'', hfile'.trans hfile⟩

theorem Persists.start_eq {tree tree' : Tree} (h : tree.Persists tree') (path : Path) :
    tree'.start path = tree.start path := by
  rw [start, start, h.workingDirectory]

end Tree

/-- A place as another tree fills it. -/
def Target.seenIn (tree : Tree) : Target → Target
  | .entry location stored => .entry location ((tree.get? location).getD stored)
  | target => target

/-- What a tree stores at a place is what the target says. -/
def Target.Holds (tree : Tree) : Target → Prop
  | .entry location stored => tree.get? location = some stored
  | .free location => tree.get? location = none
  | _ => True

/-- Whether a path with this target leads to nothing. -/
def Target.isFree : Target → Bool
  | .free _ => true
  | _ => false

namespace Tree

variable {tree tree' : Tree}

theorem holds_of_step (here : Location) (piece : List UInt8) :
    (tree.step here piece).Holds tree := by
  unfold step
  split
  · exact trivial
  · split
    · exact trivial
    · split
      case h_1 hget => exact hget
      case h_2 hget => exact hget

theorem holds_of_walk {here : Location} {pieces : List (List UInt8)} {target : Target}
    (h : tree.walk here pieces = .ok target) : target.Holds tree := by
  induction pieces generalizing here with
  | nil =>
    cases h
    exact trivial
  | cons piece rest ih =>
    cases rest with
    | nil =>
      cases h
      exact holds_of_step here piece
    | cons next rest =>
      unfold walk at h
      split at h
      case h_1 => exact ih h
      case h_2 => exact ih h
      case h_3 => cases h
      case h_4 => cases h

/-- What a path leads to is stored there, and a free name is free. -/
theorem holds_of_resolve {path : Path} {target : Target} (h : tree.resolve path = .ok target) :
    target.Holds tree := by
  unfold resolve at h
  split at h
  · cases h
  · split at h
    case h_1 hwalk =>
      split at h
      · cases h
      · cases h
        exact holds_of_walk hwalk
    case h_2 => exact holds_of_walk h

/-- A step to an entry finds it stored. -/
theorem get?_of_step {here location : Location} {piece : List UInt8} {entry : Entry}
    (h : tree.step here piece = .entry location entry) : tree.get? location = some entry := by
  have hholds : (tree.step here piece).Holds tree := holds_of_step here piece
  rwa [h] at hholds

theorem get?_of_resolve {path : Path} {location : Location} {entry : Entry}
    (h : tree.resolve path = .ok (.entry location entry)) : tree.get? location = some entry :=
  holds_of_resolve h

section

variable (h : tree.Persists tree')

include h

theorem step_of_persists {here : Location} {piece : List UInt8}
    (hfound : (tree.step here piece).isFree = false) :
    tree'.step here piece = (tree.step here piece).seenIn tree' := by
  unfold step at hfound ⊢
  split
  case isTrue => rfl
  case isFalse hnames =>
    rw [if_neg hnames] at hfound
    split
    case isTrue => rfl
    case isFalse hdots =>
      rw [if_neg hdots] at hfound
      -- only here the step depends on the entries
      cases hget : tree.get? (here ++ [piece]) with
      | some entry =>
        rcases h.exists_entry _ _ hget with ⟨entry', hget', -⟩
        simp [hget', Target.seenIn]
      | none =>
        rw [hget] at hfound
        cases hfound

theorem walk_of_persists {here : Location} {pieces : List (List UInt8)} {target : Target}
    (hwalk : tree.walk here pieces = .ok target) (hfound : target.isFree = false) :
    tree'.walk here pieces = .ok (target.seenIn tree') := by
  induction pieces generalizing here with
  | nil =>
    cases hwalk
    rfl
  | cons piece rest ih =>
    cases rest with
    | nil =>
      cases hwalk
      exact congrArg Except.ok (step_of_persists h hfound)
    | cons next rest =>
      unfold walk at hwalk ⊢
      split at hwalk
      case h_1 hstep =>
        rw [step_of_persists h (by rw [hstep]; rfl), hstep]
        exact ih hwalk
      case h_2 location hstep =>
        rcases h.exists_entry _ _ (get?_of_step hstep) with ⟨entry', hget', hfile⟩
        rw [step_of_persists h (by rw [hstep]; rfl), hstep, Target.seenIn, hget',
          Entry.eq_directory_of_isFile hfile]
        exact ih hwalk
      case h_3 => cases hwalk
      case h_4 => cases hwalk

/-- A path that leads to something still leads there. -/
theorem resolve_of_persists {path : Path} {target : Target}
    (hresolve : tree.resolve path = .ok target) (hfound : target.isFree = false) :
    tree'.resolve path = .ok (target.seenIn tree') := by
  unfold resolve at hresolve ⊢
  rw [h.start_eq]
  split at hresolve
  case isTrue => cases hresolve
  case isFalse hempty =>
    rw [if_neg hempty]
    split at hresolve
    case h_1 location bytes hwalk =>
      split at hresolve
      case isTrue => cases hresolve
      case isFalse hslash =>
        rcases h.exists_entry _ _ (holds_of_walk hwalk) with ⟨entry', hget', hfile⟩
        rcases Entry.exists_of_isFile hfile with ⟨bytes', rfl⟩
        cases hresolve
        simp [walk_of_persists h hwalk rfl, Target.seenIn, hget', hslash]
    case h_2 hnot =>
      have hwalk := walk_of_persists h hresolve hfound
      rw [hwalk]
      cases target with
      | entry location entry =>
        rcases h.exists_entry _ _ (holds_of_walk hresolve) with ⟨entry', hget', hfile⟩
        cases entry with
        | file bytes => exact absurd hresolve (hnot location bytes)
        | directory => simp [Target.seenIn, hget', Entry.eq_directory_of_isFile hfile]
      | _ => rfl

end

/-! ## New entries -/

/-- The walk along the pieces of a path to a free name ends there. -/
theorem walk_of_resolve_free {path : Path} {location : Location}
    (h : tree.resolve path = .ok (.free location)) :
    path.bytes.isEmpty = false ∧
      tree.walk (tree.start path) (withoutSlashes (pieces path.bytes)) = .ok (.free location) := by
  unfold resolve at h
  split at h
  case isTrue => cases h
  case isFalse hempty =>
    split at h
    case h_1 => split at h <;> cases h
    case h_2 => exact ⟨by simpa using hempty, h⟩

/-- Nothing is lost when an entry gets a free name. -/
theorem get?_put_of_free {location other : Location} {stored : Entry} (entry : Entry)
    (hfree : tree.get? location = none) (h : tree.get? other = some stored) :
    (tree.put location entry).get? other = some stored := by
  have hne : other ≠ location := by
    intro heq
    rw [heq, hfree] at h
    cases h
  rw [get?_put_ne tree entry hne, h]

theorem persists_put_of_free {location : Location} (entry : Entry)
    (hfree : tree.get? location = none) : tree.Persists (tree.put location entry) where
  workingDirectory := rfl
  exists_entry _ stored h := ⟨stored, get?_put_of_free entry hfree h, rfl⟩

/-- Other bytes in a file leave it a file. -/
theorem persists_put_file {location : Location} {old : ByteArray}
    (hget : tree.get? location = some (.file old)) (bytes : ByteArray) :
    tree.Persists (tree.put location (.file bytes)) where
  workingDirectory := rfl
  exists_entry other stored hother := by
    by_cases heq : other = location
    · subst heq
      rw [hget, Option.some.injEq] at hother
      rw [← hother]
      exact ⟨.file bytes, get?_put_self tree other _, rfl⟩
    · exact ⟨stored, (get?_put_ne tree _ heq).trans hother, rfl⟩

/-- A step to a free name leads to the entry that gets it. -/
theorem step_put_of_free {here location : Location} {piece : List UInt8} (entry : Entry)
    (h : tree.step here piece = .free location) :
    (tree.put location entry).step here piece = .entry location entry := by
  unfold step at h ⊢
  split at h
  case isTrue => cases h
  case isFalse hnames =>
    rw [if_neg hnames]
    split at h
    case isTrue => cases h
    case isFalse hdots =>
      rw [if_neg hdots]
      split at h
      case h_1 => cases h
      case h_2 =>
        cases h
        rw [get?_put_self]

theorem walk_put_of_free {here location : Location} {pieces : List (List UInt8)} (entry : Entry)
    (h : tree.walk here pieces = .ok (.free location)) :
    (tree.put location entry).walk here pieces = .ok (.entry location entry) := by
  have hpersists := persists_put_of_free entry (holds_of_walk h)
  induction pieces generalizing here with
  | nil => cases h
  | cons piece rest ih =>
    cases rest with
    | nil => exact congrArg Except.ok (step_put_of_free entry (Except.ok.inj h))
    | cons next rest =>
      -- all steps but the last lead to entries, and these are still there
      unfold walk at h ⊢
      split at h
      case h_1 hstep =>
        rw [step_of_persists hpersists (by rw [hstep]; rfl), hstep]
        exact ih h
      case h_2 hstep =>
        have hget := get?_put_of_free entry (holds_of_walk h) (get?_of_step hstep)
        rw [step_of_persists hpersists (by rw [hstep]; rfl), hstep, Target.seenIn, hget]
        exact ih h
      case h_3 => cases h
      case h_4 => cases h

/-- A path to a free name leads to the directory that gets the name. -/
theorem resolve_put_directory {path : Path} {location : Location}
    (h : tree.resolve path = .ok (.free location)) :
    (tree.put location .directory).resolve path = .ok (.entry location .directory) := by
  rcases walk_of_resolve_free h with ⟨hempty, hwalk⟩
  have hwalk' := walk_put_of_free .directory hwalk
  rw [← (persists_put_of_free .directory (holds_of_walk hwalk)).start_eq] at hwalk'
  rw [resolve, if_neg (by simp [hempty]), hwalk']

/-- A path to a free name, with no slash at its end, leads to the file that gets the name. -/
theorem resolve_put_file {path : Path} {location : Location} (bytes : ByteArray)
    (hslash : path.endsInSlash = false) (h : tree.resolve path = .ok (.free location)) :
    (tree.put location (.file bytes)).resolve path = .ok (.entry location (.file bytes)) := by
  rcases walk_of_resolve_free h with ⟨hempty, hwalk⟩
  have hwalk' := walk_put_of_free (.file bytes) hwalk
  rw [← (persists_put_of_free (.file bytes) (holds_of_walk hwalk)).start_eq] at hwalk'
  rw [resolve, if_neg (by simp [hempty]), hwalk']
  simp [hslash]

/-! ## What is asked of a tree -/

theorem read_eq_ok_iff {path : Path} {bytes : ByteArray} :
    tree.read path = .ok bytes ↔
      ∃ location, tree.resolve path = .ok (.entry location (.file bytes)) := by
  unfold read
  constructor
  · intro h
    split at h
    case h_2 location found hresolve =>
      cases h
      exact ⟨location, hresolve⟩
    all_goals cases h
  · rintro ⟨location, hresolve⟩
    rw [hresolve]

theorem isDirectory_of_persists {path : Path} (h : tree.Persists tree')
    (hdirectory : tree.isDirectory path = true) : tree'.isDirectory path = true := by
  unfold isDirectory at hdirectory ⊢
  split at hdirectory
  case h_1 location hresolve =>
    rcases h.exists_entry _ _ (get?_of_resolve hresolve) with ⟨entry', hget', hfile⟩
    rw [resolve_of_persists h hresolve rfl, Target.seenIn, hget', Entry.eq_directory_of_isFile hfile]
    rfl
  case h_2 hresolve => rw [resolve_of_persists h hresolve rfl]; rfl
  case h_3 => cases hdirectory

theorem contains_eq_true_iff {path : Path} :
    tree.contains path = true ↔ ∃ target, tree.resolve path = .ok target ∧ target.isFree = false := by
  unfold contains
  constructor
  · intro h
    split at h
    case h_1 => cases h
    case h_2 target hfree hresolve =>
      refine ⟨target, hresolve, ?_⟩
      cases target with
      | free location => exact absurd rfl (hfree location)
      | _ => rfl
    case h_3 => cases h
  · rintro ⟨target, hresolve, hfree⟩
    rw [hresolve]
    cases target with
    | free location => cases hfree
    | _ => rfl

theorem isFree_seenIn (target : Target) : (target.seenIn tree).isFree = target.isFree := by
  cases target <;> rfl

theorem contains_of_persists {path : Path} (h : tree.Persists tree')
    (hcontains : tree.contains path = true) : tree'.contains path = true := by
  rcases contains_eq_true_iff.1 hcontains with ⟨target, hresolve, hfree⟩
  exact contains_eq_true_iff.2
    ⟨_, resolve_of_persists h hresolve hfree, (isFree_seenIn target).trans hfree⟩

/-- What is under a path is read as before, if no file there has other bytes now. -/
theorem read_of_persists {path : Path} (h : tree.Persists tree')
    (hcontains : tree.contains path = true)
    (hsame : ∀ location bytes, tree.resolve path = .ok (.entry location (.file bytes)) →
      tree'.get? location = some (.file bytes)) : tree'.read path = tree.read path := by
  rcases contains_eq_true_iff.1 hcontains with ⟨target, hresolve, hfree⟩
  rw [read, read, hresolve, resolve_of_persists h hresolve hfree]
  cases target with
  | entry location entry =>
    cases entry with
    | file bytes =>
      rw [Target.seenIn, hsame location bytes hresolve]
      rfl
    | directory =>
      rcases h.exists_entry _ _ (get?_of_resolve hresolve) with ⟨entry', hget', hfile⟩
      rw [Target.seenIn, hget', Entry.eq_directory_of_isFile hfile]
      rfl
  | free location => cases hfree
  | _ => rfl

theorem contains_of_read {path : Path} {bytes : ByteArray} (h : tree.read path = .ok bytes) :
    tree.contains path = true := by
  rcases read_eq_ok_iff.1 h with ⟨location, hresolve⟩
  exact contains_eq_true_iff.2 ⟨_, hresolve, rfl⟩

/-- A file that can be read can still be read. -/
theorem exists_read_of_persists {path : Path} {bytes : ByteArray} (h : tree.Persists tree')
    (hread : tree.read path = .ok bytes) : ∃ bytes', tree'.read path = .ok bytes' := by
  rcases read_eq_ok_iff.1 hread with ⟨location, hresolve⟩
  rcases h.exists_entry _ _ (get?_of_resolve hresolve) with ⟨entry', hget', hfile⟩
  rcases Entry.exists_of_isFile hfile with ⟨bytes', rfl⟩
  refine ⟨bytes', read_eq_ok_iff.2 ⟨location, ?_⟩⟩
  rw [resolve_of_persists h hresolve rfl, Target.seenIn, hget']
  rfl

theorem mem_entriesAt {location : Location} {e : DirectoryEntry} :
    e ∈ tree.entriesAt location ↔
      ∃ found ∈ tree.entries, found.1.getLast? = some e.name ∧ found.1.dropLast = location ∧
        found.2.isFile = e.isFile := by
  unfold entriesAt
  rw [List.mem_filterMap]
  constructor
  · rintro ⟨⟨location', entry⟩, hmem, h⟩
    dsimp only at h
    split at h
    case h_1 name hname =>
      split at h
      case isTrue hdirectory =>
        cases h
        exact ⟨_, hmem, hname, eq_of_beq hdirectory, by cases entry <;> rfl⟩
      case isFalse => cases h
    case h_2 => cases h
  · rintro ⟨⟨location', entry⟩, hmem, hname, hdirectory, hfile⟩
    refine ⟨_, hmem, ?_⟩
    dsimp only at hname hdirectory hfile ⊢
    rw [hname, hdirectory]
    rcases e with ⟨name, isFile⟩
    cases entry <;> cases hfile <;> exact if_pos (beq_self_eq_true location)

end Tree

end WorkflowRepair.Files
