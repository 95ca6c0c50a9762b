import WorkflowRepair.Proofs.Files.Machine

/-!
# What operations do to a tree

Making directories and opening a log only add entries (`Tree.Extends`), and afterwards the directory
and the log are there, so that doing it once more changes nothing. Saving replaces the bytes of one
file and leaves everything else as it is (`ensures_save`): the temporary file had a name that no
entry has, and it is gone.
-/

namespace WorkflowRepair.Files

variable {σ : Type}

namespace Tree

/-- Everything in the first tree stands in the second as it was, and relative paths start where they
started. -/
structure Extends (tree tree' : Tree) : Prop where
  workingDirectory : tree'.workingDirectory = tree.workingDirectory
  get?_eq : ∀ location entry, tree.get? location = some entry → tree'.get? location = some entry

section

variable {tree tree' tree'' : Tree}

theorem Extends.refl (tree : Tree) : tree.Extends tree where
  workingDirectory := rfl
  get?_eq _ _ h := h

theorem Extends.trans (h : tree.Extends tree') (h' : tree'.Extends tree'') :
    tree.Extends tree'' where
  workingDirectory := h'.workingDirectory.trans h.workingDirectory
  get?_eq location entry hget := h'.get?_eq location entry (h.get?_eq location entry hget)

theorem Extends.persists (h : tree.Extends tree') : tree.Persists tree' where
  workingDirectory := h.workingDirectory
  exists_entry location entry hget := ⟨entry, h.get?_eq location entry hget, rfl⟩

theorem extends_put_of_free {location : Location} (entry : Entry)
    (hfree : tree.get? location = none) : tree.Extends (tree.put location entry) where
  workingDirectory := rfl
  get?_eq _ _ h := get?_put_of_free entry hfree h

/-- What is there to be seen is seen as it was. -/
theorem Extends.view {path : Path} (h : tree.Extends tree')
    (hcontains : tree.contains path = true) : tree'.view path = tree.view path := by
  unfold Tree.view
  rw [if_pos hcontains, if_pos (contains_of_persists h.persists hcontains)]
  refine congrArg some (read_of_persists h.persists hcontains fun location bytes hresolve => ?_)
  exact h.get?_eq location _ (get?_of_resolve hresolve)

/-! ## Directories -/

theorem makeDirectory_eq_ok {path : Path} (h : tree.makeDirectory path = .ok tree') :
    tree.Extends tree' ∧ tree'.isDirectory path = true := by
  unfold makeDirectory at h
  split at h
  case h_1 => cases h
  case h_2 location hresolve =>
    cases h
    refine ⟨extends_put_of_free _ (holds_of_resolve hresolve), ?_⟩
    rw [isDirectory, resolve_put_directory hresolve]
  case h_3 => cases h

theorem makeDirectory_of_isDirectory {path : Path} (h : tree.isDirectory path = true) :
    tree.makeDirectory path = .error .alreadyExists := by
  unfold isDirectory at h
  unfold makeDirectory
  split at h
  case h_1 hresolve => rw [hresolve]
  case h_2 hresolve => rw [hresolve]
  case h_3 => cases h

end

end Tree

/-- A directory that needs not be made. -/
def Made (path : Path) (tree : Tree) : Prop := path.bytes = [] ∨ tree.isDirectory path = true

theorem Made.persists {path : Path} {tree tree' : Tree} (h : Made path tree)
    (hpersists : tree.Persists tree') : Made path tree' :=
  h.imp_right (Tree.isDirectory_of_persists hpersists)

theorem ensures_isDirectory_or {tree : Tree} {path : Path} {fault : Fault} :
    Ensures (do if ← FileAccess.isDirectory path then return .ok () else return .error fault :
        Machine σ (Except Fault Unit)) tree
      fun result tree' => tree.Extends tree' ∧ (result = .ok () → Made path tree') := by
  refine (gives_isDirectory path).bind ?_
  split
  case isTrue h => exact ensures_pure ⟨.refl tree, fun _ => .inr h⟩
  case isFalse h => exact ensures_pure ⟨.refl tree, fun h => nomatch h⟩

theorem ensures_makeDirectoriesWithin (fuel : Nat) (path : Path) (tree : Tree) :
    Ensures (makeDirectoriesWithin fuel path : Machine σ (Except Fault Unit)) tree
      fun result tree' => tree.Extends tree' ∧ (result = .ok () → Made path tree') := by
  induction fuel generalizing path with
  | zero => exact ensures_pure ⟨.refl tree, fun h => nomatch h⟩
  | succ fuel ih =>
    unfold makeDirectoriesWithin
    split
    case isTrue hempty => exact ensures_pure ⟨.refl tree, fun _ => .inl (by simpa using hempty)⟩
    case isFalse hempty =>
      cases hmake : tree.makeDirectory path with
      | ok tree' =>
        rcases Tree.makeDirectory_eq_ok hmake with ⟨hextends, hmade⟩
        exact (gives_run_ok hmake).bind (ensures_pure ⟨hextends, fun _ => .inr hmade⟩)
      | error fault =>
        refine (gives_run_error hmake).bind ?_
        split
        case h_1 heq => cases heq
        case h_2 =>
          split
          case h_1 => exact ensures_pure ⟨.refl tree, fun h => nomatch h⟩
          case h_2 parent _ =>
            -- the directory is tried again once its parent is there
            refine (ih parent).bind fun result tree' hparent => ?_
            cases result with
            | error fault => exact ensures_pure ⟨hparent.1, fun h => nomatch h⟩
            | ok _ =>
              cases hagain : tree'.makeDirectory path with
              | ok tree'' =>
                rcases Tree.makeDirectory_eq_ok hagain with ⟨hextends, hmade⟩
                exact (gives_run_ok hagain).bind
                  (ensures_pure ⟨hparent.1.trans hextends, fun _ => .inr hmade⟩)
              | error fault =>
                refine (gives_run_error hagain).bind ?_
                exact ensures_isDirectory_or.mono fun _ _ h => ⟨hparent.1.trans h.1, h.2⟩
        case h_3 => exact ensures_isDirectory_or

/-- Directories are only added, and afterwards the directory is there. -/
theorem ensures_makeDirectories (path : Path) (tree : Tree) :
    Ensures (makeDirectories path : Machine σ (Except Fault Unit)) tree
      fun result tree' => tree.Extends tree' ∧ (result = .ok () → Made path tree') :=
  ensures_makeDirectoriesWithin _ path tree

/-- A directory that is there is not made again. -/
theorem gives_makeDirectories {path : Path} {tree : Tree} (h : Made path tree) :
    Gives (makeDirectories path : Machine σ (Except Fault Unit)) tree (.ok ()) tree := by
  unfold makeDirectories makeDirectoriesWithin
  rcases h with hempty | hdirectory
  · rw [if_pos (by simp [hempty])]
    exact gives_pure _
  · split
    · exact gives_pure _
    · refine (gives_run_error (Tree.makeDirectory_of_isDirectory hdirectory)).bind ?_
      refine (gives_isDirectory path).bind ?_
      rw [if_pos hdirectory]
      exact gives_pure _

/-! ## The log -/

theorem Tree.openLog_eq_ok {path : Path} {tree tree' : Tree} (h : tree.openLog path = .ok tree') :
    tree.Extends tree' ∧ ∃ bytes, tree'.read path = .ok bytes := by
  unfold openLog at h
  split at h
  case h_1 bytes hread =>
    cases h
    exact ⟨.refl tree, bytes, hread⟩
  case h_2 hread =>
    unfold write at h
    split at h
    case h_1 => cases h
    case h_2 hresolve =>
      have hok := read_eq_ok_iff.2 ⟨_, hresolve⟩
      rw [hread] at hok
      cases hok
    case h_3 location hresolve =>
      split at h
      case isTrue => cases h
      case isFalse hslash =>
        cases h
        refine ⟨extends_put_of_free _ (holds_of_resolve hresolve), .empty, ?_⟩
        exact read_eq_ok_iff.2
          ⟨location, resolve_put_file _ (by simpa using hslash) hresolve⟩
    case h_4 => cases h
  case h_3 => cases h

/-- Opening a log only adds it, and afterwards it is there. -/
theorem ensures_openLog (path : Path) (tree : Tree) :
    Ensures (FileAccess.openLog path : Machine σ (Except Fault Unit)) tree
      fun result tree' => tree.Extends tree' ∧
        (result = .ok () → ∃ bytes, tree'.read path = .ok bytes) := by
  refine ensures_run (fun tree' h => ?_) (fun fault h => ?_)
  · rcases Tree.openLog_eq_ok h with ⟨hextends, hread⟩
    exact ⟨hextends, fun _ => hread⟩
  · exact ⟨.refl tree, fun h => nomatch h⟩

theorem gives_openLog {path : Path} {tree : Tree} {bytes : ByteArray}
    (h : tree.read path = .ok bytes) :
    Gives (FileAccess.openLog path : Machine σ (Except Fault Unit)) tree (.ok ()) tree := by
  refine gives_run_ok ?_
  rw [Tree.openLog, h]

/-! ## Saving -/

namespace Tree

/-- A tree in which the bytes of the file at a location have been replaced. -/
structure Replaced (tree : Tree) (location : Location) (bytes : ByteArray) (tree' : Tree) :
    Prop where
  workingDirectory : tree'.workingDirectory = tree.workingDirectory
  here : tree'.get? location = some (.file bytes)
  elsewhere : ∀ other, other ≠ location → tree'.get? other = tree.get? other
  listed : ∀ e ∈ tree'.entries, ∃ e' ∈ tree.entries, e'.1 = e.1 ∧ e'.2.isFile = e.2.isFile

/-- The longest name has room in the fresh one. -/
theorem le_foldl_max {lengths : List Nat} {n start : Nat} (h : n ∈ lengths ∨ n ≤ start) :
    n ≤ lengths.foldl max start := by
  induction lengths generalizing start with
  | nil => exact h.resolve_left List.not_mem_nil
  | cons length lengths ih =>
    refine ih ?_
    rcases h with hmem | hstart
    · rcases List.mem_cons.1 hmem with rfl | hmem
      · exact .inr (Nat.le_max_right _ _)
      · exact .inl hmem
    · exact .inr (Nat.le_trans hstart (Nat.le_max_left _ _))

theorem length_lt_freshName {tree : Tree} {e : Location × Entry} {name : List UInt8}
    (he : e ∈ tree.entries) (hname : name ∈ e.1) : name.length < tree.freshName.length := by
  have hmem : name.length ∈ tree.entries.flatMap fun e => e.1.map List.length :=
    List.mem_flatMap.2 ⟨e, he, List.mem_map.2 ⟨name, hname, rfl⟩⟩
  have hle : name.length ≤ (tree.entries.flatMap fun e => e.1.map List.length).foldl max 0 :=
    le_foldl_max (.inl hmem)
  rw [freshName, List.length_cons, List.length_replicate]
  omega

/-- A location with a fresh name at its end leads nowhere. -/
theorem isPrefixOf_fresh {tree : Tree} {e : Location × Entry} (he : e ∈ tree.entries)
    (location : Location) : (location ++ [tree.freshName]).isPrefixOf e.1 = false := by
  rw [Bool.eq_false_iff]
  intro hprefix
  rcases List.isPrefixOf_iff_prefix.1 hprefix with ⟨rest, hrest⟩
  have hname : tree.freshName ∈ e.1 := by
    rw [← hrest]
    simp
  exact absurd (length_lt_freshName he hname) (Nat.lt_irrefl _)

theorem put_put (tree : Tree) (location : Location) (entry entry' : Entry) :
    (tree.put location entry).put location entry' = tree.put location entry' := by
  simp [put]

theorem createTemporary_eq_ok {tree tree' : Tree} {directory : Path} {spare : Location}
    (h : tree.createTemporary directory = .ok (spare, tree')) :
    ∃ location, spare = location ++ [tree.freshName] ∧ tree' = tree.put spare (.file .empty) := by
  unfold createTemporary at h
  split at h <;> cases h <;> exact ⟨_, rfl, rfl⟩

section

variable {tree : Tree} {spare location : Location} {bytes : ByteArray}

theorem isPrefixOf_of_get? {entry : Entry}
    (hspare : ∀ e ∈ tree.entries, spare.isPrefixOf e.1 = false)
    (h : tree.get? location = some entry) : spare.isPrefixOf location = false :=
  hspare _ (mem_of_get? h)

theorem isPrefixOf_self (spare : Location) : spare.isPrefixOf spare = true :=
  List.isPrefixOf_iff_prefix.2 (List.prefix_refl spare)

theorem get?_of_spare (hspare : ∀ e ∈ tree.entries, spare.isPrefixOf e.1 = false) :
    tree.get? spare = none := by
  cases h : tree.get? spare with
  | none => rfl
  | some entry =>
    have hprefix := isPrefixOf_of_get? hspare h
    rw [isPrefixOf_self] at hprefix
    cases hprefix

/-- The file has its new bytes once the temporary file is gone, and nothing else has changed. -/
theorem replaced_of_spare {old : ByteArray}
    (hspare : ∀ e ∈ tree.entries, spare.isPrefixOf e.1 = false)
    (hget : tree.get? location = some (.file old)) :
    tree.Replaced location bytes
      (((tree.put spare (.file bytes)).put location (.file bytes)).erase spare) where
  workingDirectory := rfl
  here := by
    rw [get?_erase, isPrefixOf_of_get? hspare hget, get?_put_self]
    rfl
  elsewhere other hne := by
    rw [get?_erase]
    split
    case isTrue hprefix =>
      -- under the spare name there was nothing before
      cases h : tree.get? other with
      | none => rfl
      | some entry =>
        rw [isPrefixOf_of_get? hspare h] at hprefix
        cases hprefix
    case isFalse hprefix =>
      have hother : other ≠ spare := by
        intro heq
        rw [heq, isPrefixOf_self] at hprefix
        exact hprefix rfl
      rw [get?_put_ne _ _ hne, get?_put_ne _ _ hother]
  listed e he := by
    rcases mem_erase.1 he with ⟨hput, hprefix⟩
    rcases mem_put.1 hput with rfl | ⟨hput, -⟩
    · exact ⟨_, mem_of_get? hget, rfl, rfl⟩
    · rcases mem_put.1 hput with rfl | ⟨hmem, -⟩
      · rw [isPrefixOf_self] at hprefix
        cases hprefix
      · exact ⟨e, hmem, rfl, rfl⟩

end

end Tree

theorem ensures_createTemporary (tree : Tree) (directory : Path) :
    Ensures (FileAccess.createTemporary (m := Machine σ) directory) tree
      fun result tree' => (∀ fault, result = .error fault → tree' = tree) ∧
        ∀ spare : Location, result = .ok spare →
          (∀ e ∈ tree.entries, spare.isPrefixOf e.1 = false) ∧
            tree' = tree.put spare (.file .empty) := by
  intro state
  cases hcreate : tree.createTemporary directory with
  | error fault =>
    simp only [FileAccess.createTemporary, hcreate]
    exact ⟨fun _ _ => rfl, fun _ h => nomatch h⟩
  | ok created =>
    rcases created with ⟨location, tree'⟩
    simp only [FileAccess.createTemporary, hcreate]
    refine ⟨fun _ h => (nomatch h), fun spare hresult => ?_⟩
    cases hresult
    rcases Tree.createTemporary_eq_ok hcreate with ⟨above, rfl, rfl⟩
    exact ⟨fun e he => Tree.isPrefixOf_fresh he above, rfl⟩

theorem gives_synchronize {tree : Tree} (spare : Location) :
    Gives (FileAccess.synchronize (m := Machine σ) spare) tree (.ok ()) tree :=
  gives_pure _

/-- The bytes of a temporary file take the place of those of a file. -/
theorem gives_fillAndMove {tree : Tree} {path : Path} {spare location : Location}
    {old : ByteArray} (hspare : ∀ e ∈ tree.entries, spare.isPrefixOf e.1 = false)
    (hresolve : tree.resolve path = .ok (.entry location (.file old))) (bytes : ByteArray) :
    Gives (fillAndMove (m := Machine σ) spare path bytes) (tree.put spare (.file .empty)) (.ok ())
      (((tree.put spare (.file bytes)).put location (.file bytes)).erase spare) := by
  have happend : (tree.put spare (.file .empty)).appendAt spare bytes =
      .ok (tree.put spare (.file bytes)) := by
    rw [Tree.appendAt, Tree.get?_put_self]
    dsimp only
    rw [Tree.put_put, ByteArray.empty_append]
  have hpersists := Tree.persists_put_of_free (.file bytes) (Tree.get?_of_spare hspare)
  have hstored := Tree.get?_put_of_free (.file bytes) (Tree.get?_of_spare hspare)
    (Tree.get?_of_resolve hresolve)
  have hmove : (tree.put spare (.file bytes)).moveTo spare path =
      .ok (((tree.put spare (.file bytes)).put location (.file bytes)).erase spare) := by
    rw [Tree.moveTo, Tree.get?_put_self]
    dsimp only
    rw [Tree.replace, Tree.resolve_of_persists hpersists hresolve rfl, Target.seenIn, hstored]
    rfl
  refine (gives_run_ok happend).bind ?_
  exact (gives_synchronize spare).bind (gives_run_ok hmove)

/-- Saving replaces the bytes of a file and changes nothing else, or fails and changes nothing. -/
theorem ensures_save_or {tree : Tree} {path : Path} {location : Location} {old : ByteArray}
    (hresolve : tree.resolve path = .ok (.entry location (.file old))) (bytes : ByteArray) :
    Ensures (save path bytes : Machine σ (Except Fault Unit)) tree fun result tree' =>
      result = .ok () ∧ tree.Replaced location bytes tree' ∨
        (∃ fault, result = .error fault) ∧ tree' = tree := by
  refine (ensures_createTemporary tree path.directory).bind fun result tree' hcreated => ?_
  cases result with
  | error fault => exact ensures_pure (.inr ⟨⟨fault, rfl⟩, hcreated.1 fault rfl⟩)
  | ok spare =>
    rcases hcreated.2 spare rfl with ⟨hspare, rfl⟩
    refine (gives_fillAndMove hspare hresolve bytes).bind (ensures_pure (.inl ⟨rfl, ?_⟩))
    exact Tree.replaced_of_spare hspare (Tree.get?_of_resolve hresolve)

/-- A save that succeeds has replaced the bytes of a file. -/
theorem ensures_save {tree : Tree} {path : Path} {location : Location} {old : ByteArray}
    (hresolve : tree.resolve path = .ok (.entry location (.file old))) (bytes : ByteArray) :
    Ensures (save path bytes : Machine σ (Except Fault Unit)) tree
      fun result tree' => result = .ok () → tree.Replaced location bytes tree' := by
  refine (ensures_save_or hresolve bytes).mono fun result tree' hsaved hresult => ?_
  rcases hsaved with ⟨-, hreplaced⟩ | ⟨⟨fault, hfault⟩, -⟩
  · exact hreplaced
  · rw [hfault] at hresult
    cases hresult

end WorkflowRepair.Files
