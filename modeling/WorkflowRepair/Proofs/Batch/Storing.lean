import Mathlib.Data.List.Forall2
import WorkflowRepair.Proofs.Batch.Isolation

/-!
# When documents are stored

The rules settle the outcome of a document before it is stored. Storing it adds that the document was
written, or one error at the end, and what is under its path afterwards can be told from the outcome.

* `unstored_outcomeOn` — an outcome is the forecast but for what storing adds;
* `Handled` — how the outcome of a document, its errors and the bytes under its path hang together;
* `runFiles_stores` — they do so for every document of a run over distinct paths, whatever fails, and
  at no moment is anything else to be seen under a path than the bytes from before or all the new ones.
-/

namespace WorkflowRepair.Batch

open Files (Path Fault Contents Mishap Disk DiskMachine)
open Repair (RuleSet)
open Workflow (Document Failure)

variable {σ : Type}

/-! ## Before storing -/

/-- What goes wrong with the document under a path before it is stored: it cannot be read, or rules
fail. -/
def errorsIn (rules : RuleSet) (contents : Contents) (path : Path) : List String :=
  match documentIn contents path with
  | .error failure => [failure.message]
  | .ok document => (rules.patch document).2.failures.map Failure.message

section

variable (rules : RuleSet) (contents : Contents) (path : Path)

theorem path_forecast : (forecast rules contents path).path = path := by
  unfold forecast
  cases documentIn contents path with
  | error failure => rfl
  | ok document => rfl

theorem changed_forecast :
    (forecast rules contents path).changed = changedIn rules contents path := by
  unfold forecast changedIn
  cases documentIn contents path with
  | error failure => rfl
  | ok document => rfl

theorem errors_forecast :
    (forecast rules contents path).errors = errorsIn rules contents path := by
  unfold forecast errorsIn
  cases documentIn contents path with
  | error failure => rfl
  | ok document => rfl

variable {rules contents path}

/-- Only a document that can be read is changed. -/
theorem exists_patchedIn_of_changedIn (h : changedIn rules contents path = true) :
    ∃ bytes, patchedIn? rules contents path = some bytes := by
  unfold changedIn at h
  unfold patchedIn?
  cases hdocument : documentIn contents path with
  | error failure =>
    rw [hdocument] at h
    cases h
  | ok document => exact ⟨_, rfl⟩

end

/-! ## Storing -/

/-- An outcome without what storing the document has to do with. -/
def Outcome.unstored (outcome : Outcome) : Outcome := { outcome with written := false, errors := [] }

section

variable {rules : RuleSet} {mode : Mode} {disk left : Disk} {path : Path}

/-- Storing a document changes nothing else in its outcome. -/
theorem unstored_outcomeOn :
    (outcomeOn rules mode disk path).unstored = (forecast rules disk.contents path).unstored := by
  rw [outcomeOn, Disk.saveResult]
  split
  · cases disk.mishaps path with
    | none => rfl
    | some mishap => rfl
  · rfl

theorem path_outcomeOn : (outcomeOn rules mode disk path).path = path :=
  (congrArg Outcome.path unstored_outcomeOn).trans (path_forecast rules disk.contents path)

theorem changed_outcomeOn :
    (outcomeOn rules mode disk path).changed = changedIn rules disk.contents path :=
  (congrArg Outcome.changed unstored_outcomeOn).trans (changed_forecast rules disk.contents path)

theorem written_outcomeOn_iff : (outcomeOn rules mode disk path).written = true ↔
    Stores rules mode disk.contents path ∧ disk.mishaps path = none := by
  have hforecast := written_forecast rules disk.contents path
  rw [outcomeOn, Disk.saveResult]
  by_cases hstores : Stores rules mode disk.contents path
  · rw [if_pos hstores]
    cases disk.mishaps path with
    | none => exact iff_of_true rfl ⟨hstores, rfl⟩
    | some mishap => simp [Outcome.stored, hforecast]
  · rw [if_neg hstores, hforecast]
    simp [hstores]

/-- Without a save that fails there are no errors but those from before. -/
theorem errors_outcomeOn_of_saved
    (hsaved : Stores rules mode disk.contents path → disk.mishaps path = none) :
    (outcomeOn rules mode disk path).errors = errorsIn rules disk.contents path := by
  rw [outcomeOn]
  split
  case isTrue hstores =>
    rw [Disk.saveResult, hsaved hstores]
    exact errors_forecast rules disk.contents path
  case isFalse => exact errors_forecast rules disk.contents path

/-- A save that fails is one more error, behind the others. -/
theorem errors_outcomeOn_of_failed {mishap : Mishap}
    (hstores : Stores rules mode disk.contents path) (hmishap : disk.mishaps path = some mishap) :
    (outcomeOn rules mode disk path).errors = errorsIn rules disk.contents path ++
      [(Failure.write path mishap.fault).message] := by
  rw [outcomeOn, if_pos hstores, Disk.saveResult, hmishap, Outcome.stored, errors_forecast,
    path_forecast]

/-- What was written is the patched document as a whole. -/
theorem bytesOn_of_patchedIn {bytes : ByteArray}
    (hpatched : patchedIn? rules disk.contents path = some bytes)
    (h : (outcomeOn rules mode disk path).written = true) :
    bytesOn rules mode disk path = .ok bytes := by
  rw [bytesOn, if_pos h, hpatched]
  rfl

theorem bytesOn_of_written (h : (outcomeOn rules mode disk path).written = true) :
    ∃ bytes, patchedIn? rules disk.contents path = some bytes ∧
      bytesOn rules mode disk path = .ok bytes := by
  obtain ⟨⟨hchanged, -⟩, -⟩ := written_outcomeOn_iff.1 h
  obtain ⟨bytes, hpatched⟩ := exists_patchedIn_of_changedIn hchanged
  exact ⟨bytes, hpatched, bytesOn_of_patchedIn hpatched h⟩

end

/-- How the outcome of a document in a run that began with `disk` and ended with `left` agrees with
what is under its path. -/
structure Handled (rules : RuleSet) (mode : Mode) (disk left : Disk) (path : Path)
    (outcome : Outcome) : Prop where
  path_eq : outcome.path = path
  changed : outcome.changed = changedIn rules disk.contents path
  written_iff : outcome.written = true ↔
    outcome.changed = true ∧ mode = .write ∧ disk.mishaps path = none
  /-- A document that was written is there as a whole. -/
  stored : outcome.written = true →
    ∃ bytes, patchedIn? rules disk.contents path = some bytes ∧ left.contents path = .ok bytes
  kept : outcome.written = false → left.contents path = disk.contents path
  /-- The new bytes are there exactly if the document was written, or if they were there before. -/
  holds_iff : ∀ bytes, patchedIn? rules disk.contents path = some bytes →
    (left.contents path = .ok bytes ↔
      outcome.written = true ∨ disk.contents path = .ok bytes)
  /-- A document that no rule changed keeps its bytes, whatever they look like. -/
  unchanged : outcome.changed = false → left.contents path = disk.contents path
  /-- A save that fails is one more error, behind those of the rules. -/
  failed : ∀ mishap, Stores rules mode disk.contents path → disk.mishaps path = some mishap →
    outcome.changed = true ∧ outcome.written = false ∧
      outcome.errors = errorsIn rules disk.contents path ++
        [(Failure.write path mishap.fault).message]
  /-- Otherwise there are no other errors. -/
  unfailed : (Stores rules mode disk.contents path → disk.mishaps path = none) →
    outcome.errors = errorsIn rules disk.contents path

section

variable {rules : RuleSet} {mode : Mode} {disk left : Disk} {path : Path}

theorem handled_outcomeOn (hleft : left.contents path = bytesOn rules mode disk path) :
    Handled rules mode disk left path (outcomeOn rules mode disk path) where
  path_eq := path_outcomeOn
  changed := changed_outcomeOn
  written_iff := by rw [written_outcomeOn_iff, changed_outcomeOn, and_assoc]
  stored hwritten := by
    rw [hleft]
    exact bytesOn_of_written hwritten
  kept hkept := by rw [hleft, bytesOn_of_not_written hkept]
  holds_iff bytes hpatched := by
    rw [hleft]
    cases hwritten : (outcomeOn rules mode disk path).written with
    | true => exact iff_of_true (bytesOn_of_patchedIn hpatched hwritten) (.inl rfl)
    | false =>
      rw [bytesOn_of_not_written hwritten]
      simp
  unchanged hunchanged := by
    rw [hleft, bytesOn, if_neg]
    rw [written_outcomeOn_iff, Stores, ← changed_outcomeOn, hunchanged]
    simp
  failed mishap hstores hmishap := by
    refine ⟨changed_outcomeOn.trans hstores.1, ?_, ?_⟩
    · rw [Bool.eq_false_iff, ne_eq, written_outcomeOn_iff, hmishap]
      simp
    · exact errors_outcomeOn_of_failed hstores hmishap
  unfailed hsaved := errors_outcomeOn_of_saved hsaved

/-- What can be seen under a path as long as a run over some paths goes on. -/
def Visible (rules : RuleSet) (disk : Disk) (paths : List Path) (path : Path)
    (seen : Except Fault ByteArray) : Prop :=
  seen = disk.contents path ∨
    path ∈ paths ∧ ∃ bytes, patchedIn? rules disk.contents path = some bytes ∧ seen = .ok bytes

theorem Passed.visible {paths : List Path} (h : Passed rules mode disk paths left) (path : Path) :
    Visible rules disk paths path (left.contents path) := by
  rw [Visible, h.contents]
  split
  case isTrue hmem =>
    cases hwritten : (outcomeOn rules mode disk path).written with
    | true => exact .inr ⟨hmem, bytesOn_of_written hwritten⟩
    | false => exact .inl (bytesOn_of_not_written hwritten)
  case isFalse => exact .inl rfl

/-- At every moment of a run there is no half of a document to be seen. -/
theorem Passed.exists_moments {paths : List Path} (h : Passed rules mode disk paths left) :
    ∃ during, left.moments = during ++ disk.moments ∧
      ∀ moment ∈ during, ∀ path, Visible rules disk paths path (moment path) := by
  obtain ⟨during, hduring, hseen⟩ := h.leads.moments
  refine ⟨during, hduring, ?_⟩
  intro moment hmoment path
  rcases hseen moment hmoment path with hbefore | hbehind
  · exact .inl hbefore
  · rw [hbehind]
    exact h.visible path

end

/-- Whatever goes wrong with storing documents, a run over distinct paths shows at every moment the old
or the new bytes under each of them, leaves no temporary file, and has for each of them the outcome
that tells what has become of it. -/
theorem runFiles_stores (rules : RuleSet) (mode : Mode) (observe : Event → StateM σ Unit)
    (disk : Disk) (state : σ) {paths : List Path} (hdistinct : paths.Nodup) :
    let result := runOn disk state (runFiles rules mode (aside observe) paths)
    (∃ during, result.2.moments = during ++ disk.moments ∧
      ∀ moment ∈ during, ∀ path, Visible rules disk paths path (moment path)) ∧
      List.Forall₂ (Handled rules mode disk result.2) paths result.1.outcomes ∧
      result.2.temporaries = disk.temporaries := by
  intro result
  have houtcomes := outcomes_runFiles rules mode observe disk state hdistinct
  have hpassed : Passed rules mode disk paths result.2 :=
    (runOn_of_ensures (ensures_runFiles_disk rules mode observe hdistinct disk) state).2
  refine ⟨hpassed.exists_moments, ?_, hpassed.leads.temporaries⟩
  rw [houtcomes, List.forall₂_map_right_iff, List.forall₂_same]
  intro path hmem
  refine handled_outcomeOn ?_
  rw [hpassed.contents, if_pos hmem]

theorem runFiles_stores_mixedDisk :
    mixedPaths.Nodup ∧
      (∃ bytes, patchedIn? (.all {}) mixedDisk.contents (.ofString "W1.json") = some bytes ∧
        (mixedRun mixedPaths).2.contents (.ofString "W1.json") = .ok bytes) ∧
      (mixedRun mixedPaths).2.contents (.ofString "W4.json") =
        mixedDisk.contents (.ofString "W4.json") ∧
      (mixedRun mixedPaths).2.temporaries = [] := by
  have hdistinct : mixedPaths.Nodup := by decide +kernel
  have houtcomes := outcomes_mixedRun hdistinct
  obtain ⟨-, hhandled, htemporaries⟩ :=
    runFiles_stores (.all {}) .write unwatched mixedDisk () hdistinct
  rw [← mixedRun] at hhandled htemporaries
  rw [houtcomes, List.forall₂_map_right_iff, List.forall₂_same] at hhandled
  have hfirst := hhandled (.ofString "W1.json") (by decide +kernel)
  have hlast := hhandled (.ofString "W4.json") (by decide +kernel)
  have hwritten : (outcomeOn (.all {}) .write mixedDisk (.ofString "W1.json")).written = true := by
    decide +kernel
  have hfailed : (outcomeOn (.all {}) .write mixedDisk (.ofString "W4.json")).written = false := by
    decide +kernel
  exact ⟨hdistinct, hfirst.stored hwritten, hlast.kept hfailed, htemporaries⟩

/-- A document without nodes, in the form in which documents are stored. -/
def settledText : String := "\x7b\n  \"nodes\": []\n\x7d\n"

/-- A disk with this document, on which all saves succeed. -/
def settledDisk : Disk where
  contents path :=
    if path = .ofString "W1.json" then .ok settledText.toUTF8 else .error .notFound

/-- A document with nothing to repair may already be there in the form in which it would be stored:
then the bytes of the patched document are there, though nothing was written. -/
theorem holds_unwritten_settledDisk :
    let path := .ofString "W1.json"
    let result := runOn settledDisk () (runFiles (.all {}) .write (aside unwatched) [path])
    patchedIn? (.all {}) settledDisk.contents path = some settledText.toUTF8 ∧
      result.2.contents path = .ok settledText.toUTF8 ∧
      result.1.outcomes.map Outcome.written = [false] := by
  decide +kernel

end WorkflowRepair.Batch
