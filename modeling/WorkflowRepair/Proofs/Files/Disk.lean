import Mathlib.Logic.Function.Basic
import WorkflowRepair.Proofs.Files.Change

/-!
# Disks on which saving can fail

A disk is a map from paths to bytes, without directories or links. Saving a file goes wrong at any of
its steps, as the disk decides for each path, and the disk remembers what could be seen under the paths
after every operation.

* `Disk.Leads` — how a disk may change: no mishap is decided anew, no temporary file is left, and at
  every moment a path holds what it held at the beginning or what it holds at the end;
* `Disk.Leads.trans` — two such changes in a row, if no path is changed twice;
* `ensures_save_disk` — saving leads to the new bytes, or fails with the fault of the mishap.
-/

namespace WorkflowRepair.Files

/-- What can be seen under each path: the bytes of a file, or why there are none. -/
abbrev Contents := Path → Except Fault ByteArray

/-- The step at which saving a file goes wrong. -/
inductive Mishap where
  | create (fault : Fault)
  /-- Only the first `kept` bytes get into the temporary file. -/
  | append (kept : Nat) (fault : Fault)
  | synchronize (fault : Fault)
  | move (fault : Fault)
deriving DecidableEq, Repr

/-- What the failing step complains of. -/
def Mishap.fault : Mishap → Fault
  | .create fault => fault
  | .append _ fault => fault
  | .synchronize fault => fault
  | .move fault => fault

/-- A disk. Temporary files have numbers of their own, and stand under no path. -/
structure Disk where
  contents : Contents
  /-- How saving each file goes wrong, if it does. -/
  mishaps : Path → Option Mishap := fun _ => none
  temporaries : List (Nat × ByteArray) := []
  /-- The file that was read last: a save that follows is one of it. -/
  current : Path := ⟨[]⟩
  /-- What could be seen after each operation so far, the last one first. -/
  moments : List Contents := []

namespace Disk

/-- The mishap of the save that is going on. -/
def mishap? (disk : Disk) : Option Mishap := disk.mishaps disk.current

/-- The disk after an operation, which ends one moment. -/
def observed (disk : Disk) : Disk := { disk with moments := disk.contents :: disk.moments }

/-- The bytes of a temporary file. -/
def temporary? (disk : Disk) (number : Nat) : Option ByteArray :=
  (disk.temporaries.find? (·.1 == number)).map (·.2)

/-- The disk without a temporary file. -/
def dropTemporary (disk : Disk) (number : Nat) : Disk :=
  { disk with temporaries := disk.temporaries.filter (·.1 != number) }

/-- The disk with other bytes in a temporary file. -/
def setTemporary (disk : Disk) (number : Nat) (bytes : ByteArray) : Disk :=
  { disk with temporaries := (number, bytes) :: disk.temporaries.filter (·.1 != number) }

/-- A number that no temporary file has. -/
def freshNumber (disk : Disk) : Nat := (disk.temporaries.map (·.1)).foldl max 0 + 1

/-! ## Operations -/

/-- Look at what is under a path. -/
def read (disk : Disk) (path : Path) : Except Fault ByteArray × Disk :=
  (disk.contents path, { disk with current := path })

/-- Begin an empty temporary file. -/
def createTemporary (disk : Disk) : Except Fault Nat × Disk :=
  match disk.mishap? with
  | some (.create fault) => (.error fault, disk)
  | _ => (.ok disk.freshNumber, disk.setTemporary disk.freshNumber .empty)

/-- Append bytes to a temporary file, or only the first of them. -/
def append (disk : Disk) (number : Nat) (bytes : ByteArray) : Except Fault Unit × Disk :=
  match disk.temporary? number with
  | none => (.error .notFound, disk)
  | some old =>
    match disk.mishap? with
    | some (.append kept fault) =>
      (.error fault, disk.setTemporary number (old ++ bytes.extract 0 kept))
    | _ => (.ok (), disk.setTemporary number (old ++ bytes))

/-- Make sure that a temporary file will last. -/
def synchronize (disk : Disk) : Except Fault Unit × Disk :=
  match disk.mishap? with
  | some (.synchronize fault) => (.error fault, disk)
  | _ => (.ok (), disk)

/-- Put a temporary file in the place of what is under a path. -/
def moveTo (disk : Disk) (number : Nat) (path : Path) : Except Fault Unit × Disk :=
  match disk.temporary? number with
  | none => (.error .notFound, disk)
  | some bytes =>
    match disk.mishap? with
    | some (.move fault) => (.error fault, disk)
    | _ =>
      (.ok (), { disk.dropTemporary number with
        contents := Function.update disk.contents path (.ok bytes) })

/-- Make sure that there is a file to which text can be appended. -/
def openLog (disk : Disk) (path : Path) : Except Fault Unit × Disk :=
  match disk.contents path with
  | .ok _ => (.ok (), disk)
  | .error .notFound =>
    (.ok (), { disk with contents := Function.update disk.contents path (.ok .empty) })
  | .error fault => (.error fault, disk)

/-- Run an operation. -/
def run {m : Type → Type} [Monad m] {α : Type} (operation : Disk → α × Disk) : StateT Disk m α :=
  fun disk => pure ((operation disk).1, (operation disk).2.observed)

instance {m : Type → Type} [Monad m] : FileAccess (StateT Disk m) where
  Temporary := Nat
  exists? path := return match (← get).contents path with | .ok _ => true | .error _ => false
  isDirectory _ := return false
  read path := run (·.read path)
  list _ := return .error .notDirectory
  makeDirectory _ := return .error .notDirectory
  openLog path := run (·.openLog path)
  createTemporary _ := run createTemporary
  append number bytes := run (·.append number bytes)
  synchronize _ := run synchronize
  moveTo number path := run (·.moveTo number path)
  discard number := run fun disk => ((), disk.dropTemporary number)

end Disk

/-- Actions on a disk and on more state, in which there are no files. -/
abbrev DiskMachine (σ : Type) := StateT Disk (StateM σ)

variable {σ α : Type}

theorem gives_run_disk (operation : Disk → α × Disk) (disk : Disk) :
    Gives (Disk.run operation : DiskMachine σ α) disk (operation disk).1
      (operation disk).2.observed :=
  fun _ => ⟨rfl, rfl⟩

namespace Disk

/-! ## How a disk may change -/

/-- A disk that comes of another one by operations that are all over. -/
structure Leads (disk disk' : Disk) : Prop where
  mishaps : disk'.mishaps = disk.mishaps
  temporaries : disk'.temporaries = disk.temporaries
  moments : ∃ during, disk'.moments = during ++ disk.moments ∧
    ∀ moment ∈ during, ∀ path,
      moment path = disk.contents path ∨ moment path = disk'.contents path

variable {disk disk' disk'' : Disk}

theorem Leads.refl (disk : Disk) : disk.Leads disk where
  mishaps := rfl
  temporaries := rfl
  moments := ⟨[], rfl, fun _ h => absurd h List.not_mem_nil⟩

/-- One change after the other, as long as the second one spares what the first one has changed. -/
theorem Leads.trans (h : disk.Leads disk') (h' : disk'.Leads disk'')
    (hspares : ∀ path, disk'.contents path = disk.contents path ∨
      disk''.contents path = disk'.contents path) : disk.Leads disk'' where
  mishaps := h'.mishaps.trans h.mishaps
  temporaries := h'.temporaries.trans h.temporaries
  moments := by
    obtain ⟨before, hbefore, hseen⟩ := h.moments
    obtain ⟨behind, hbehind, hseen'⟩ := h'.moments
    refine ⟨behind ++ before, by rw [hbehind, hbefore, List.append_assoc], ?_⟩
    intro moment hmoment path
    have hends : disk'.contents path = disk.contents path ∨
        disk'.contents path = disk''.contents path := (hspares path).imp_right Eq.symm
    rcases List.mem_append.1 hmoment with hmem | hmem
    · rcases hseen' moment hmem path with hsame | hsame
      · rw [hsame]
        exact hends
      · exact .inr hsame
    · rcases hseen moment hmem path with hsame | hsame
      · exact .inl hsame
      · rw [hsame]
        exact hends

/-- An operation that changes no file is a moment like the one before. -/
theorem leads_observed (disk : Disk) (path : Path) :
    disk.Leads { disk with current := path : Disk }.observed where
  mishaps := rfl
  temporaries := rfl
  moments := by
    refine ⟨[disk.contents], rfl, ?_⟩
    intro moment hmoment path
    rw [List.mem_singleton.1 hmoment]
    exact .inl rfl

/-! ## Saving -/

/-- Whether saving a file succeeds. -/
def saveResult (disk : Disk) (path : Path) : Except Fault Unit :=
  match disk.mishaps path with
  | none => .ok ()
  | some mishap => .error mishap.fault

/-- A disk in the middle of a save: a temporary file holds some bytes, and no path has changed. -/
structure Writing (start : Disk) (number : Nat) (bytes : ByteArray) (disk : Disk) : Prop where
  fresh : ∀ e ∈ start.temporaries, e.1 ≠ number
  contents : disk.contents = start.contents
  mishaps : disk.mishaps = start.mishaps
  current : disk.current = start.current
  temporaries : disk.temporaries = (number, bytes) :: start.temporaries
  moments : ∃ during, disk.moments = during ++ start.moments ∧
    ∀ moment ∈ during, moment = start.contents

theorem freshNumber_ne {e : Nat × ByteArray} (he : e ∈ disk.temporaries) :
    e.1 ≠ disk.freshNumber := by
  have hle : e.1 ≤ (disk.temporaries.map (·.1)).foldl max 0 :=
    Tree.le_foldl_max (.inl (List.mem_map_of_mem he))
  unfold freshNumber
  omega

theorem filter_temporaries {temporaries : List (Nat × ByteArray)} {number : Nat}
    (h : ∀ e ∈ temporaries, e.1 ≠ number) :
    temporaries.filter (·.1 != number) = temporaries :=
  List.filter_eq_self.2 fun e he => bne_iff_ne.2 (h e he)

section

variable {start : Disk} {number : Nat} {bytes : ByteArray}

theorem writing_fresh (start : Disk) :
    Writing start start.freshNumber .empty
      (start.setTemporary start.freshNumber .empty).observed where
  fresh _ he := freshNumber_ne he
  contents := rfl
  mishaps := rfl
  current := rfl
  temporaries := congrArg _ (filter_temporaries fun _ he => freshNumber_ne he)
  moments := ⟨[start.contents], rfl, fun _ hmoment => List.mem_singleton.1 hmoment⟩

variable (h : Writing start number bytes disk)

include h

theorem Writing.temporary? : disk.temporary? number = some bytes := by
  simp [Disk.temporary?, h.temporaries]

theorem Writing.mishap? : disk.mishap? = start.mishap? := by
  rw [Disk.mishap?, Disk.mishap?, h.mishaps, h.current]

theorem Writing.exists_moments : ∃ during,
    disk.observed.moments = during ++ start.moments ∧ ∀ moment ∈ during, moment = start.contents := by
  obtain ⟨during, hduring, hseen⟩ := h.moments
  refine ⟨disk.contents :: during, congrArg _ hduring, ?_⟩
  intro moment hmoment
  rcases List.mem_cons.1 hmoment with rfl | hmem
  · exact h.contents
  · exact hseen moment hmem

theorem Writing.observed : Writing start number bytes disk.observed :=
  { h with moments := h.exists_moments }

theorem Writing.setTemporary (bytes' : ByteArray) :
    Writing start number bytes' (disk.setTemporary number bytes').observed where
  fresh := h.fresh
  contents := h.contents
  mishaps := h.mishaps
  current := h.current
  temporaries := by
    have hdrop : disk.temporaries.filter (·.1 != number) = start.temporaries := by
      rw [h.temporaries, List.filter_cons_of_neg (by simp), filter_temporaries h.fresh]
    exact congrArg _ hdrop
  moments := h.exists_moments

/-- A save that is given up leaves nothing behind. -/
theorem Writing.leads_dropTemporary : start.Leads (disk.dropTemporary number).observed where
  mishaps := h.mishaps
  temporaries := by
    change disk.temporaries.filter _ = _
    rw [h.temporaries, List.filter_cons_of_neg (by simp), filter_temporaries h.fresh]
  moments := by
    obtain ⟨during, hduring, hseen⟩ := h.exists_moments
    exact ⟨during, hduring, fun moment hmoment path => .inl (by rw [hseen moment hmoment])⟩

/-- A save that comes to its end has replaced one file at one stroke. -/
theorem Writing.leads_moveTo (path : Path) :
    start.Leads { disk.dropTemporary number with
      contents := Function.update disk.contents path (.ok bytes) : Disk }.observed where
  mishaps := h.mishaps
  temporaries := h.leads_dropTemporary.temporaries
  moments := by
    obtain ⟨during, hduring, hseen⟩ := h.moments
    refine ⟨Function.update disk.contents path (.ok bytes) :: during, congrArg _ hduring, ?_⟩
    intro moment hmoment path'
    rcases List.mem_cons.1 hmoment with rfl | hmem
    · exact .inr rfl
    · exact .inl (by rw [hseen moment hmem])

end

end Disk

namespace Disk

/-! ## The steps of a save -/

section

variable {start disk : Disk} {number : Nat} {held bytes : ByteArray} {path : Path}

theorem ensures_createTemporary_disk (directory : Path)
    (hmishap : ∀ fault, start.mishap? ≠ some (.create fault)) :
    Ensures (FileAccess.createTemporary (m := DiskMachine σ) directory) start fun result disk' =>
      result = .ok start.freshNumber ∧ Writing start start.freshNumber .empty disk' := by
  have hcreate : start.createTemporary =
      (.ok start.freshNumber, start.setTemporary start.freshNumber .empty) := by
    rw [createTemporary]
    split
    case h_1 fault heq => exact absurd heq (hmishap fault)
    case h_2 => rfl
  refine (gives_run_disk createTemporary start).mono ?_
  rintro result disk' ⟨rfl, rfl⟩
  rw [hcreate]
  exact ⟨rfl, writing_fresh start⟩

variable (h : Writing start number held disk)

include h

theorem Writing.ensures_append (hmishap : ∀ kept fault, start.mishap? ≠ some (.append kept fault)) :
    Ensures (FileAccess.append (m := DiskMachine σ) number bytes) disk fun result disk' =>
      result = .ok () ∧ Writing start number (held ++ bytes) disk' := by
  have happend : disk.append number bytes =
      (.ok (), disk.setTemporary number (held ++ bytes)) := by
    rw [append, h.temporary?, h.mishap?]
    dsimp only
    split
    case h_1 kept fault heq => exact absurd heq (hmishap kept fault)
    case h_2 => rfl
  refine (gives_run_disk (·.append number bytes) disk).mono ?_
  rintro result disk' ⟨rfl, rfl⟩
  rw [happend]
  exact ⟨rfl, h.setTemporary _⟩

theorem Writing.ensures_append_error {kept : Nat} {fault : Fault}
    (hmishap : start.mishap? = some (.append kept fault)) :
    Ensures (FileAccess.append (m := DiskMachine σ) number bytes) disk fun result disk' =>
      result = .error fault ∧ ∃ held', Writing start number held' disk' := by
  refine (gives_run_disk (·.append number bytes) disk).mono ?_
  rintro result disk' ⟨rfl, rfl⟩
  rw [append, h.temporary?, h.mishap?, hmishap]
  exact ⟨rfl, _, h.setTemporary _⟩

theorem Writing.ensures_synchronize
    (hmishap : ∀ fault, start.mishap? ≠ some (.synchronize fault)) :
    Ensures (FileAccess.synchronize (m := DiskMachine σ) number) disk fun result disk' =>
      result = .ok () ∧ Writing start number held disk' := by
  have hsynchronize : disk.synchronize = (.ok (), disk) := by
    rw [synchronize, h.mishap?]
    split
    case h_1 fault heq => exact absurd heq (hmishap fault)
    case h_2 => rfl
  refine (gives_run_disk synchronize disk).mono ?_
  rintro result disk' ⟨rfl, rfl⟩
  rw [hsynchronize]
  exact ⟨rfl, h.observed⟩

theorem Writing.ensures_synchronize_error {fault : Fault}
    (hmishap : start.mishap? = some (.synchronize fault)) :
    Ensures (FileAccess.synchronize (m := DiskMachine σ) number) disk fun result disk' =>
      result = .error fault ∧ ∃ held', Writing start number held' disk' := by
  refine (gives_run_disk synchronize disk).mono ?_
  rintro result disk' ⟨rfl, rfl⟩
  rw [synchronize, h.mishap?, hmishap]
  exact ⟨rfl, _, h.observed⟩

theorem Writing.ensures_moveTo (hmishap : ∀ fault, start.mishap? ≠ some (.move fault)) :
    Ensures (FileAccess.moveTo (m := DiskMachine σ) number path) disk fun result disk' =>
      result = .ok () ∧ start.Leads disk' ∧
        disk'.contents = Function.update start.contents path (.ok held) := by
  have hmove : disk.moveTo number path = (.ok (), { disk.dropTemporary number with
      contents := Function.update disk.contents path (.ok held) }) := by
    rw [moveTo, h.temporary?, h.mishap?]
    dsimp only
    split
    case h_1 fault heq => exact absurd heq (hmishap fault)
    case h_2 => rfl
  refine (gives_run_disk (·.moveTo number path) disk).mono ?_
  rintro result disk' ⟨rfl, rfl⟩
  rw [hmove]
  refine ⟨rfl, h.leads_moveTo path, ?_⟩
  change Function.update disk.contents path (.ok held) = _
  rw [h.contents]

theorem Writing.ensures_moveTo_error {fault : Fault}
    (hmishap : start.mishap? = some (.move fault)) :
    Ensures (FileAccess.moveTo (m := DiskMachine σ) number path) disk fun result disk' =>
      result = .error fault ∧ ∃ held', Writing start number held' disk' := by
  refine (gives_run_disk (·.moveTo number path) disk).mono ?_
  rintro result disk' ⟨rfl, rfl⟩
  rw [moveTo, h.temporary?, h.mishap?, hmishap]
  exact ⟨rfl, _, h.observed⟩

end

/-! ## A save as a whole -/

section

variable {start disk : Disk} {number : Nat} {path : Path} {bytes : ByteArray}
  (h : Writing start number .empty disk)

include h

/-- Without a mishap the temporary file is filled and takes its place. -/
theorem Writing.ensures_fillAndMove (hmishap : start.mishap? = none) :
    Ensures (fillAndMove (m := DiskMachine σ) number path bytes) disk fun result disk' =>
      result = .ok () ∧ start.Leads disk' ∧
        disk'.contents = Function.update start.contents path (.ok bytes) := by
  refine (h.ensures_append (by simp [hmishap])).bind ?_
  rintro result filled ⟨rfl, hfilled⟩
  refine (hfilled.ensures_synchronize (by simp [hmishap])).bind ?_
  rintro result lasting ⟨rfl, hlasting⟩
  have hmoves : ∀ fault, start.mishap? ≠ some (.move fault) := by simp [hmishap]
  rw [ByteArray.empty_append] at hlasting
  exact hlasting.ensures_moveTo hmoves

/-- With a mishap behind the creation of the temporary file, that file is all that has come of it. -/
theorem Writing.ensures_fillAndMove_error {mishap : Mishap} (hmishap : start.mishap? = some mishap)
    (hcreated : ∀ fault, mishap ≠ .create fault) :
    Ensures (fillAndMove (m := DiskMachine σ) number path bytes) disk fun result disk' =>
      result = .error mishap.fault ∧ ∃ held, Writing start number held disk' := by
  cases mishap with
  | create fault => exact absurd rfl (hcreated fault)
  | append kept fault =>
    refine (h.ensures_append_error hmishap).bind ?_
    rintro result disk' ⟨rfl, hheld⟩
    exact ensures_pure ⟨rfl, hheld⟩
  | synchronize fault =>
    refine (h.ensures_append (by simp [hmishap])).bind ?_
    rintro result filled ⟨rfl, hfilled⟩
    refine (hfilled.ensures_synchronize_error hmishap).bind ?_
    rintro result disk' ⟨rfl, hheld⟩
    exact ensures_pure ⟨rfl, hheld⟩
  | move fault =>
    refine (h.ensures_append (by simp [hmishap])).bind ?_
    rintro result filled ⟨rfl, hfilled⟩
    refine (hfilled.ensures_synchronize (by simp [hmishap])).bind ?_
    rintro result lasting ⟨rfl, hlasting⟩
    exact hlasting.ensures_moveTo_error hmishap

end

/-- What saving a file does to a disk: the file has its new bytes unless something went wrong, and
then nothing has changed. -/
structure Saved (start : Disk) (path : Path) (bytes : ByteArray) (result : Except Fault Unit)
    (disk : Disk) : Prop where
  result_eq : result = start.saveResult path
  leads : start.Leads disk
  stored : start.mishaps path = none →
    disk.contents = Function.update start.contents path (.ok bytes)
  kept : start.mishaps path ≠ none → disk.contents = start.contents

end Disk

/-- Saving the file that was read last goes through, or fails as the disk has decided. -/
theorem ensures_save_disk {disk : Disk} {path : Path} (hcurrent : disk.current = path)
    (bytes : ByteArray) :
    Ensures (save path bytes : DiskMachine σ (Except Fault Unit)) disk
      (disk.Saved path bytes) := by
  have hdecided : disk.mishap? = disk.mishaps path := by rw [Disk.mishap?, hcurrent]
  cases hmishap : disk.mishaps path with
  | none =>
    rw [hmishap] at hdecided
    refine (Disk.ensures_createTemporary_disk _ (by simp [hdecided])).bind ?_
    rintro result begun ⟨rfl, hbegun⟩
    refine (hbegun.ensures_fillAndMove hdecided).bind ?_
    rintro result disk' ⟨rfl, hleads, hcontents⟩
    refine ensures_pure ⟨?_, hleads, fun _ => hcontents, fun h => absurd hmishap h⟩
    rw [Disk.saveResult, hmishap]
  | some mishap =>
    rw [hmishap] at hdecided
    have hresult : Except.error mishap.fault = disk.saveResult path := by
      rw [Disk.saveResult, hmishap]
    have hfailed : ¬ disk.mishaps path = none := by simp [hmishap]
    -- only a temporary file that has been created is taken away again
    by_cases hcreate : ∃ fault, mishap = .create fault
    · obtain ⟨fault, rfl⟩ := hcreate
      refine (gives_run_disk Disk.createTemporary disk).bind ?_
      rw [Disk.createTemporary, hdecided]
      have hleads : disk.Leads disk.observed := Disk.leads_observed disk disk.current
      exact ensures_pure ⟨hresult, hleads, fun h => absurd h hfailed, fun _ => rfl⟩
    · have hcreated : ∀ fault, mishap ≠ .create fault := fun fault heq => hcreate ⟨fault, heq⟩
      refine (Disk.ensures_createTemporary_disk _ ?_).bind ?_
      · intro fault heq
        rw [hdecided, Option.some.injEq] at heq
        exact hcreated fault heq
      rintro result begun ⟨rfl, hbegun⟩
      refine (hbegun.ensures_fillAndMove_error hdecided hcreated).bind ?_
      rintro result disk' ⟨rfl, held, hheld⟩
      refine (gives_run_disk (fun disk => ((), disk.dropTemporary _)) disk').bind ?_
      exact ensures_pure
        ⟨hresult, hheld.leads_dropTemporary, fun h => absurd h hfailed, fun _ => hheld.contents⟩

end WorkflowRepair.Files
