import WorkflowRepair.Proofs.Files.Change

/-!
# Trees that differ in the bytes of one file

`Tree.refill` puts other bytes in the file at one place. Names and directories stay, so paths lead
where they led (`Tree.resolve_refill`), and what an operation does to some other file it does in
both trees (`Tree.createTemporary_refill`, `Tree.appendAt_refill`, `Tree.moveTo_refill`).

An action is `Blind` on a tree if it does the same on the tree with the other bytes: it has the same
result, does the same to the rest of the state, and leaves a tree that again differs in the bytes at
the place only. If it does not change these bytes either, it `PassesBy` the file: `PassesBy.bind`
takes such actions apart, and `passesBy_save` is for saving another file.
-/

namespace WorkflowRepair.Files

/-! ## Other bytes in one file -/

/-- An entry at a location, with other bytes if it is the file at the place. -/
def Entry.refill (place : Location) (bytes : ByteArray) (location : Location) (entry : Entry) :
    Entry :=
  if location = place ∧ entry.isFile then .file bytes else entry

/-- A tree with other bytes in the file at the place, if there is one. -/
def Tree.refill (place : Location) (bytes : ByteArray) (tree : Tree) : Tree :=
  { tree with
    entries := tree.entries.map fun (location, entry) =>
      (location, entry.refill place bytes location) }

/-- A target in a tree with other bytes. -/
def Target.refill (place : Location) (bytes : ByteArray) : Target → Target
  | .entry location stored => .entry location (stored.refill place bytes location)
  | target => target

variable {place location : Location} {bytes : ByteArray} {entry : Entry} {tree : Tree} {path : Path}

/-- A file stays a file. -/
theorem Entry.exists_refill_file (place location : Location) (bytes old : ByteArray) :
    ∃ bytes', (Entry.file old).refill place bytes location = .file bytes' := by
  unfold Entry.refill
  split
  case isTrue => exact ⟨bytes, rfl⟩
  case isFalse => exact ⟨old, rfl⟩

theorem Entry.refill_of_ne (h : location ≠ place) : entry.refill place bytes location = entry :=
  if_neg fun hplace => h hplace.1

theorem Entry.refill_directory : Entry.directory.refill place bytes location = .directory :=
  if_neg fun h => Bool.false_ne_true h.2

namespace Tree

theorem get?_refill (location : Location) :
    (tree.refill place bytes).get? location =
      (tree.get? location).map fun entry => entry.refill place bytes location := by
  rw [get?, get?, refill, List.find?_map, Option.map_map, Option.map_map]
  cases hfind : tree.entries.find? (·.1 == location) with
  | none =>
    have hfind' : tree.entries.find? ((fun e : Location × Entry => e.1 == location) ∘ fun e =>
        (e.1, e.2.refill place bytes e.1)) = none := hfind
    rw [hfind']
    rfl
  | some e =>
    have hfind' : tree.entries.find? ((fun e : Location × Entry => e.1 == location) ∘ fun e =>
        (e.1, e.2.refill place bytes e.1)) = some e := hfind
    have hlocation : e.1 = location := by simpa using List.find?_some hfind
    rw [hfind', ← hlocation]
    rfl

theorem get?_refill_of_ne (hne : location ≠ place) :
    (tree.refill place bytes).get? location = tree.get? location := by
  have hkeeps : (fun entry => Entry.refill place bytes location entry) = id :=
    funext fun entry => Entry.refill_of_ne hne
  rw [get?_refill, hkeeps, Option.map_id_fun, id]

theorem put_refill :
    (tree.put location entry).refill place bytes =
      (tree.refill place bytes).put location (entry.refill place bytes location) := by
  simp only [put, refill, List.map_cons, List.filter_map]
  rfl

theorem erase_refill :
    (tree.erase location).refill place bytes = (tree.refill place bytes).erase location := by
  simp only [erase, refill, List.filter_map]
  rfl

/-! ## Paths -/

theorem step_refill (here : Location) (piece : List UInt8) :
    (tree.refill place bytes).step here piece = (tree.step here piece).refill place bytes := by
  unfold step
  split
  case isTrue => rfl
  case isFalse =>
    split
    case isTrue => rfl
    case isFalse =>
      rw [get?_refill]
      cases tree.get? (here ++ [piece]) <;> rfl

theorem walk_refill (here : Location) (pieces : List (List UInt8)) :
    (tree.refill place bytes).walk here pieces =
      (tree.walk here pieces).map (Target.refill place bytes) := by
  induction pieces generalizing here with
  | nil => rfl
  | cons piece rest ih =>
    cases rest with
    | nil => exact congrArg Except.ok (step_refill here piece)
    | cons next rest =>
      unfold walk
      rw [step_refill]
      cases hstep : tree.step here piece with
      | place here' => exact ih here'
      | free location => rfl
      | entry location entry =>
        cases entry with
        | directory =>
          simp only [Target.refill, Entry.refill_directory]
          exact ih location
        | file old =>
          simp only [Except.map, Target.refill]
          obtain ⟨bytes', hfile⟩ := Entry.exists_refill_file place location bytes old
          rw [hfile]

/-- Paths start where they started. -/
theorem start_refill (path : Path) : (tree.refill place bytes).start path = tree.start path :=
  rfl

/-- Paths lead where they led. -/
theorem resolve_refill (path : Path) :
    (tree.refill place bytes).resolve path =
      (tree.resolve path).map (Target.refill place bytes) := by
  unfold resolve
  split
  case isTrue => rfl
  case isFalse =>
    rw [start_refill, walk_refill]
    cases hwalk : tree.walk (tree.start path) (withoutSlashes (pieces path.bytes)) with
    | error fault => rfl
    | ok target =>
      cases target with
      | entry location entry =>
        cases entry with
        | directory => simp only [Except.map, Target.refill, Entry.refill_directory]
        | file old =>
          obtain ⟨bytes', hfile⟩ := Entry.exists_refill_file place location bytes old
          simp only [Except.map, Target.refill, hfile]
          split
          case isTrue => rfl
          case isFalse => simp only [hfile]
      | _ => rfl

theorem read_refill_of_ne
    (h : ∀ old, tree.resolve path ≠ .ok (.entry place (.file old))) :
    (tree.refill place bytes).read path = tree.read path := by
  rw [read, read, resolve_refill]
  cases hresolve : tree.resolve path with
  | error fault => rfl
  | ok target =>
    cases target with
    | entry location entry =>
      cases entry with
      | directory => simp only [Except.map, Target.refill, Entry.refill_directory]
      | file old =>
        have hne : location ≠ place := by
          rintro rfl
          exact h old hresolve
        simp only [Except.map, Target.refill, Entry.refill_of_ne hne]
    | _ => rfl

theorem read_refill_self {old : ByteArray}
    (h : tree.resolve path = .ok (.entry place (.file old))) :
    (tree.refill place bytes).read path = .ok bytes := by
  rw [read, resolve_refill, h]
  simp only [Except.map, Target.refill, Entry.refill, Entry.isFile, and_self, if_true]

theorem entriesAt_refill (location : Location) :
    (tree.refill place bytes).entriesAt location = tree.entriesAt location := by
  rw [entriesAt, entriesAt, refill, List.filterMap_map]
  refine congrArg (fun f => tree.entries.filterMap f) (funext fun e => ?_)
  obtain ⟨at_, entry⟩ := e
  cases entry with
  | directory => simp only [Function.comp_apply, Entry.refill_directory]
  | file old =>
    obtain ⟨bytes', hfile⟩ := Entry.exists_refill_file place at_ bytes old
    simp only [Function.comp_apply, hfile]

/-- Directories list what they listed. -/
theorem list_refill (path : Path) : (tree.refill place bytes).list path = tree.list path := by
  rw [list, list, resolve_refill]
  cases hresolve : tree.resolve path with
  | error fault => rfl
  | ok target =>
    cases target with
    | entry location entry =>
      cases entry with
      | directory =>
        simp only [Except.map, Target.refill, Entry.refill_directory]
        exact congrArg _ (entriesAt_refill location)
      | file old =>
        obtain ⟨bytes', hfile⟩ := Entry.exists_refill_file place location bytes old
        simp only [Except.map, Target.refill, hfile]
    | place location => exact congrArg _ (entriesAt_refill location)
    | _ => rfl

/-! ## Operations on other files -/

theorem freshName_refill : (tree.refill place bytes).freshName = tree.freshName := by
  rw [freshName, freshName, refill, List.flatMap_map]

/-- A temporary file stands where nothing stood. -/
theorem fresh_ne {stored : Entry} (hplace : tree.get? place = some stored) (above : Location) :
    above ++ [tree.freshName] ≠ place := by
  intro heq
  have hprefix := isPrefixOf_fresh (mem_of_get? hplace) above
  rw [heq, isPrefixOf_self] at hprefix
  cases hprefix

theorem createTemporary_refill {stored : Entry} (hplace : tree.get? place = some stored)
    (directory : Path) :
    (tree.refill place bytes).createTemporary directory =
      (tree.createTemporary directory).map fun created =>
        (created.1, created.2.refill place bytes) := by
  -- the name of a temporary file is made of the names in the tree, which stay
  have hput : ∀ above : Location,
      (tree.refill place bytes).put (above ++ [tree.freshName]) (.file .empty) =
        (tree.put (above ++ [tree.freshName]) (.file .empty)).refill place bytes := by
    intro above
    rw [put_refill, Entry.refill_of_ne (fresh_ne hplace above)]
  rw [createTemporary, createTemporary, resolve_refill, freshName_refill]
  simp only [hput]
  cases hresolve : tree.resolve directory with
  | error fault => rfl
  | ok target =>
    cases target with
    | entry location entry =>
      cases entry with
      | directory => simp only [Except.map, Target.refill, Entry.refill_directory]
      | file old =>
        obtain ⟨bytes', hfile⟩ := Entry.exists_refill_file place location bytes old
        simp only [Except.map, Target.refill, hfile]
    | _ => rfl

theorem appendAt_refill (hne : location ≠ place) (more : ByteArray) :
    (tree.refill place bytes).appendAt location more =
      (tree.appendAt location more).map (refill place bytes) := by
  rw [appendAt, appendAt, get?_refill]
  cases hget : tree.get? location with
  | none => rfl
  | some entry =>
    cases entry with
    | directory => simp only [Option.map_some, Entry.refill_directory, Except.map]
    | file old =>
      simp only [Option.map_some, Entry.refill_of_ne hne, Except.map, put_refill]

/-- A path leads to an entry at a location. -/
def Leads (tree : Tree) (path : Path) (location : Location) : Prop :=
  ∃ stored, tree.resolve path = .ok (.entry location stored)

theorem Leads.persists {tree' : Tree} (h : tree.Leads path location)
    (hpersists : tree.Persists tree') : tree'.Leads path location := by
  obtain ⟨stored, hresolve⟩ := h
  exact ⟨_, resolve_of_persists hpersists hresolve rfl⟩

theorem replace_refill (h : tree.Leads path location) (hne : location ≠ place)
    (new : ByteArray) :
    (tree.refill place bytes).replace path new =
      (tree.replace path new).map (refill place bytes) := by
  obtain ⟨stored, hresolve⟩ := h
  rw [replace, replace, resolve_refill, hresolve]
  cases stored with
  | directory => simp only [Target.refill, Entry.refill_directory, Except.map]
  | file old => simp only [Target.refill, Entry.refill_of_ne hne, Except.map, put_refill]

theorem moveTo_refill {spare : Location} (hspare : spare ≠ place) (h : tree.Leads path location)
    (hne : location ≠ place) :
    (tree.refill place bytes).moveTo spare path =
      (tree.moveTo spare path).map (refill place bytes) := by
  rw [moveTo, moveTo, get?_refill]
  cases hget : tree.get? spare with
  | none => rfl
  | some entry =>
    cases entry with
    | directory => simp only [Option.map_some, Entry.refill_directory, Except.map]
    | file new =>
      simp only [Option.map_some, Entry.refill_of_ne hspare, replace_refill h hne]
      cases tree.replace path new with
      | error fault => rfl
      | ok tree' => simp only [Except.map, erase_refill]

end Tree

/-! ## Actions that do not see the bytes -/

section

variable {σ α β : Type}

/-- An action does the same on the tree with the other bytes, and leaves it with the other bytes. -/
def Blind (place : Location) (bytes : ByteArray) (action : Machine σ α) (tree : Tree) : Prop :=
  ∀ state : σ, action (tree.refill place bytes) state =
    (((action tree state).1.1, (action tree state).1.2.refill place bytes), (action tree state).2)

theorem blind_pure (a : α) : Blind place bytes (pure a : Machine σ α) tree :=
  fun _ => rfl

theorem bind_apply (action : Machine σ α) (next : α → Machine σ β) (tree : Tree) (state : σ) :
    (action >>= next) tree state =
      next (action tree state).1.1 (action tree state).1.2 (action tree state).2 :=
  rfl

theorem Blind.bind {action : Machine σ α} {next : α → Machine σ β} {post : α → Tree → Prop}
    (h : Blind place bytes action tree) (hpost : Ensures action tree post)
    (hnext : ∀ a tree', post a tree' → Blind place bytes (next a) tree') :
    Blind place bytes (action >>= next) tree := by
  intro state
  rw [bind_apply, bind_apply, h state]
  exact hnext _ _ (hpost state) (action tree state).2

theorem blind_list (path : Path) :
    Blind place bytes (FileAccess.list path : Machine σ (Except Fault (List DirectoryEntry)))
      tree :=
  fun state => congrArg (fun result => ((result, tree.refill place bytes), state))
    (Tree.list_refill path)

theorem blind_read (h : ∀ old, tree.resolve path ≠ .ok (.entry place (.file old))) :
    Blind place bytes (FileAccess.read path : Machine σ (Except Fault ByteArray)) tree :=
  fun state => congrArg (fun result => ((result, tree.refill place bytes), state))
    (Tree.read_refill_of_ne h)

theorem blind_run {operation : Tree → Except Fault Tree}
    (h : operation (tree.refill place bytes) = (operation tree).map (Tree.refill place bytes)) :
    Blind place bytes (Tree.run operation : Machine σ (Except Fault Unit)) tree := by
  intro state
  unfold Tree.run
  rw [h]
  cases operation tree with
  | ok tree' => rfl
  | error fault => rfl

theorem blind_createTemporary {stored : Entry} (hplace : tree.get? place = some stored)
    (directory : Path) :
    Blind place bytes (FileAccess.createTemporary (m := Machine σ) directory) tree := by
  intro state
  simp only [FileAccess.createTemporary, Tree.createTemporary_refill hplace]
  cases tree.createTemporary directory with
  | ok created => rfl
  | error fault => rfl

theorem blind_discard (spare : Location) :
    Blind place bytes (FileAccess.discard (m := Machine σ) spare) tree :=
  fun state => congrArg (fun tree => (((), tree), state)) Tree.erase_refill.symm

/-- A path leads on to where it led while bytes are appended. -/
theorem ensures_append_leads {spare : Location} (hleads : tree.Leads path location)
    (more : ByteArray) :
    Ensures (FileAccess.append (m := Machine σ) spare more) tree fun _ tree' =>
      tree'.Leads path location := by
  refine ensures_run (fun tree' h => hleads.persists ?_) fun fault _ => hleads
  unfold Tree.appendAt at h
  split at h
  case h_1 old hget =>
    cases h
    exact Tree.persists_put_file hget _
  case h_2 => cases h

theorem blind_fillAndMove {spare : Location} (hspare : spare ≠ place)
    (hleads : tree.Leads path location) (hne : location ≠ place) (new : ByteArray) :
    Blind place bytes (fillAndMove (m := Machine σ) spare path new) tree := by
  have happend : Blind place bytes (FileAccess.append (m := Machine σ) spare new) tree :=
    blind_run (Tree.appendAt_refill hspare new)
  refine happend.bind (ensures_append_leads hleads new) fun result tree' hleads' => ?_
  cases result with
  | error fault => exact blind_pure _
  | ok _ =>
    exact Blind.bind (blind_pure _) (gives_synchronize spare) fun result tree'' heq => by
      obtain ⟨rfl, rfl⟩ := heq
      exact blind_run (Tree.moveTo_refill hspare hleads' hne)

/-- Saving another file. -/
theorem blind_save {stored : Entry} (hplace : tree.get? place = some stored)
    (hleads : tree.Leads path location) (hne : location ≠ place) (new : ByteArray) :
    Blind place bytes (save path new : Machine σ (Except Fault Unit)) tree := by
  have hcreated := ensures_createTemporary (σ := σ) tree path.directory
  refine (blind_createTemporary hplace path.directory).bind hcreated fun result tree' h => ?_
  cases result with
  | error fault => exact blind_pure _
  | ok spare =>
    obtain ⟨hfresh, rfl⟩ := h.2 spare rfl
    -- nothing stood where the temporary file is, so it is not the file at the place
    have hfree := Tree.get?_of_spare hfresh
    have hspare : spare ≠ place := by
      rintro rfl
      rw [hfree] at hplace
      cases hplace
    have hleads' := hleads.persists (Tree.persists_put_of_free (.file .empty) hfree)
    refine (blind_fillAndMove hspare hleads' hne new).bind (ensures_true _ _) ?_
    intro result tree' _
    cases result with
    | ok _ => exact blind_pure _
    | error fault =>
      exact (blind_discard spare).bind (ensures_true _ _) fun _ _ _ => blind_pure _

end

/-! ## Actions that leave the file alone -/

/-- The second tree has the same at a place as the first, and nothing that the first has not. -/
structure Tree.Spares (tree : Tree) (place : Location) (tree' : Tree) : Prop where
  stored : tree'.get? place = tree.get? place
  back : tree'.Persists tree

theorem Tree.Spares.refl (tree : Tree) (place : Location) : tree.Spares place tree where
  stored := rfl
  back := .refl tree

theorem Tree.Spares.trans {tree' tree'' : Tree} (h : tree.Spares place tree')
    (h' : tree'.Spares place tree'') : tree.Spares place tree'' where
  stored := h'.stored.trans h.stored
  back := h'.back.trans h.back

/-- A path that leads to a spared file led there before. -/
theorem Tree.Spares.resolve {tree' : Tree} {old : ByteArray} (h : tree.Spares place tree')
    (hresolve : tree'.resolve path = .ok (.entry place (.file old))) :
    tree.resolve path = .ok (.entry place (.file old)) := by
  have hstored := h.stored.symm.trans (Tree.get?_of_resolve hresolve)
  rw [Tree.resolve_of_persists h.back hresolve rfl, Target.seenIn, hstored]
  rfl

theorem Tree.Replaced.spares {tree' : Tree} {old new : ByteArray}
    (h : tree.Replaced location new tree') (hget : tree.get? location = some (.file old))
    (hne : location ≠ place) : tree.Spares place tree' where
  stored := h.elsewhere place hne.symm
  back.workingDirectory := h.workingDirectory.symm
  back.exists_entry other entry hother := by
    by_cases heq : other = location
    · subst heq
      rw [h.here, Option.some.injEq] at hother
      rw [← hother]
      exact ⟨.file old, hget, rfl⟩
    · exact ⟨entry, (h.elsewhere other heq).symm.trans hother, rfl⟩

section

variable {σ α β : Type}

/-- An action neither sees the bytes at a place nor changes them. -/
structure PassesBy (place : Location) (bytes : ByteArray) (action : Machine σ α) (tree : Tree) :
    Prop where
  blind : Blind place bytes action tree
  spares : Ensures action tree fun _ tree' => tree.Spares place tree'

theorem Blind.passesBy {action : Machine σ α} {a : α} (h : Blind place bytes action tree)
    (hgives : Gives action tree a tree) : PassesBy place bytes action tree where
  blind := h
  spares := hgives.mono fun _ tree' heq => by
    rw [heq.2]
    exact .refl tree place

theorem passesBy_pure (a : α) : PassesBy place bytes (pure a : Machine σ α) tree :=
  (blind_pure a).passesBy (gives_pure a)

theorem PassesBy.bind {action : Machine σ α} {next : α → Machine σ β} {post : α → Tree → Prop}
    (h : PassesBy place bytes action tree) (hpost : Ensures action tree post)
    (hnext : ∀ a tree', post a tree' → tree.Spares place tree' →
      PassesBy place bytes (next a) tree') :
    PassesBy place bytes (action >>= next) tree where
  blind := h.blind.bind (hpost.and h.spares) fun a tree' hboth =>
    (hnext a tree' hboth.1 hboth.2).blind
  spares := (hpost.and h.spares).bind fun a tree' hboth =>
    (hnext a tree' hboth.1 hboth.2).spares.mono fun _ _ hspares => hboth.2.trans hspares

/-- Saving a file passes by all others. -/
theorem passesBy_save {stored : Entry} {old : ByteArray} (hplace : tree.get? place = some stored)
    (hresolve : tree.resolve path = .ok (.entry location (.file old))) (hne : location ≠ place)
    (new : ByteArray) :
    PassesBy place bytes (save path new : Machine σ (Except Fault Unit)) tree where
  blind := blind_save hplace ⟨_, hresolve⟩ hne new
  spares := by
    refine (ensures_save_or hresolve new).mono fun result tree' hsaved => ?_
    rcases hsaved with ⟨-, hreplaced⟩ | ⟨-, rfl⟩
    · exact hreplaced.spares (Tree.get?_of_resolve hresolve) hne
    · exact .refl _ place

end

end WorkflowRepair.Files
