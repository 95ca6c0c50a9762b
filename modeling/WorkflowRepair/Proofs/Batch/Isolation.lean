import WorkflowRepair.Proofs.Batch.Run
import WorkflowRepair.Proofs.Files.Disk

/-!
# Documents of a run by themselves

On a disk, what becomes of a document depends on what is under its own path and on how saving it goes,
and on nothing else of the disk. `outcomeOn` and `bytesOn` say what becomes of it and of its path, and
the lemmas about runs carry that from one document to the next: a document that was taken has changed
nothing under the paths that are still to come.

* `ensures_patchFile_disk` — what one document does to a disk;
* `ensures_runFilesFrom_disk` — a run over distinct paths gives each document what it gets alone.
-/

namespace WorkflowRepair.Batch

open Files (Path Fault Contents Disk DiskMachine Ensures Gives FileAccess)
open Files (ensures_pure gives_run_disk ensures_save_disk)
open Repair (RuleSet Record)
open Workflow (Document Failure)
open Workflow.Document (ofBytes_eq_ok_iff)

variable {F σ : Type}

/-! ## Observers -/

/-- An observer with a state of its own, which no file is part of. -/
def aside (observe : Event → StateM σ Unit) (event : Event) : StateT F (StateM σ) Unit :=
  StateT.lift (observe event)

theorem quiet_aside (observe : Event → StateM σ Unit) :
    Quiet (aside observe : Event → StateT F (StateM σ) Unit) :=
  fun _ _ _ => ⟨rfl, rfl⟩

/-! ## One document -/

/-- The document under a path, or why there is none. -/
def documentIn (contents : Contents) (path : Path) : Except Failure Document :=
  match contents path with
  | .error fault => .error (.load path (.file fault))
  | .ok bytes => Document.ofBytes path bytes

/-- The text of the document under a path once the rules have been applied, if there is one. -/
def patchedIn? (rules : RuleSet) (contents : Contents) (path : Path) : Option ByteArray :=
  match documentIn contents path with
  | .error _ => none
  | .ok document => some (rules.patch document).1.toText.toUTF8

/-- The outcome of the document under a path before it is stored. -/
def forecast (rules : RuleSet) (contents : Contents) (path : Path) : Outcome :=
  match documentIn contents path with
  | .error failure => .ofFailure path failure
  | .ok document => .ofRecord path (rules.patch document).2

/-- Whether the rules change the document under a path. -/
def changedIn (rules : RuleSet) (contents : Contents) (path : Path) : Bool :=
  match documentIn contents path with
  | .error _ => false
  | .ok document => (rules.patch document).2.changed

/-- Whether the document under a path is to be stored. -/
abbrev Stores (rules : RuleSet) (mode : Mode) (contents : Contents) (path : Path) : Prop :=
  changedIn rules contents path = true ∧ mode = .write

/-- The outcome of a document as the disk decides it: the forecast, with the attempt to store the
document added if there is one. -/
def outcomeOn (rules : RuleSet) (mode : Mode) (disk : Disk) (path : Path) : Outcome :=
  if Stores rules mode disk.contents path then
    (forecast rules disk.contents path).stored (disk.saveResult path)
  else forecast rules disk.contents path

/-- What is under the path of a document afterwards. -/
def bytesOn (rules : RuleSet) (mode : Mode) (disk : Disk) (path : Path) : Except Fault ByteArray :=
  if (outcomeOn rules mode disk path).written then
    (patchedIn? rules disk.contents path).elim (disk.contents path) .ok
  else disk.contents path

section

variable {rules : RuleSet} {mode : Mode} {disk disk' : Disk} {path : Path}

theorem documentIn_congr {contents contents' : Contents} (h : contents' path = contents path) :
    documentIn contents' path = documentIn contents path := by
  rw [documentIn, documentIn, h]

theorem outcomeOn_congr (hcontents : disk'.contents path = disk.contents path)
    (hmishaps : disk'.mishaps = disk.mishaps) :
    outcomeOn rules mode disk' path = outcomeOn rules mode disk path := by
  have hforecast : forecast rules disk'.contents path = forecast rules disk.contents path := by
    rw [forecast, forecast, documentIn_congr hcontents]
  have hchanged : changedIn rules disk'.contents path = changedIn rules disk.contents path := by
    rw [changedIn, changedIn, documentIn_congr hcontents]
  simp only [outcomeOn, Stores, Disk.saveResult, hforecast, hchanged, hmishaps]

theorem bytesOn_congr (hcontents : disk'.contents path = disk.contents path)
    (hmishaps : disk'.mishaps = disk.mishaps) :
    bytesOn rules mode disk' path = bytesOn rules mode disk path := by
  rw [bytesOn, bytesOn, outcomeOn_congr hcontents hmishaps, patchedIn?, patchedIn?,
    documentIn_congr hcontents, hcontents]

theorem bytesOn_of_not_written (h : (outcomeOn rules mode disk path).written = false) :
    bytesOn rules mode disk path = disk.contents path := by
  rw [bytesOn, h]
  rfl

end

/-- What taking one document does to a disk. -/
structure Taken (rules : RuleSet) (mode : Mode) (disk : Disk) (path : Path) (outcome : Outcome)
    (disk' : Disk) : Prop where
  outcome_eq : outcome = outcomeOn rules mode disk path
  leads : disk.Leads disk'
  contents : disk'.contents = Function.update disk.contents path (bytesOn rules mode disk path)

section

variable {rules : RuleSet} {mode : Mode} {disk disk' : Disk} {path : Path}

/-- The disk that has just been asked for a file. -/
def opened (disk : Disk) (path : Path) : Disk := { disk with current := path : Disk }.observed

theorem gives_load_disk (disk : Disk) (path : Path) :
    Gives (load path : DiskMachine σ (Except Failure Document)) disk
      (documentIn disk.contents path) (opened disk path) := by
  refine (gives_run_disk (·.read path) disk).bind ?_
  unfold documentIn Disk.read
  dsimp only
  cases disk.contents path with
  | error fault => exact ensures_pure ⟨rfl, rfl⟩
  | ok bytes => exact ensures_pure ⟨rfl, rfl⟩

theorem written_forecast (rules : RuleSet) (contents : Contents) (path : Path) :
    (forecast rules contents path).written = false := by
  unfold forecast
  cases documentIn contents path with
  | error failure => rfl
  | ok document => rfl

/-- A document that is not stored leaves the disk as it was. -/
theorem taken_of_not_stores (hstores : ¬ Stores rules mode disk.contents path) :
    Taken rules mode disk path (forecast rules disk.contents path) (opened disk path) := by
  have houtcome : outcomeOn rules mode disk path = forecast rules disk.contents path :=
    if_neg hstores
  have hwritten : (outcomeOn rules mode disk path).written = false := by
    rw [houtcome, written_forecast]
  refine ⟨houtcome.symm, Disk.leads_observed disk path, ?_⟩
  rw [bytesOn_of_not_written hwritten, Function.update_eq_self]
  rfl

/-- A document that is stored has its new bytes, unless saving went wrong. -/
theorem taken_of_saved {result : Except Fault Unit} {bytes : ByteArray}
    (hstores : Stores rules mode disk.contents path)
    (hpatched : patchedIn? rules disk.contents path = some bytes)
    (h : (opened disk path).Saved path bytes result disk') :
    Taken rules mode disk path ((forecast rules disk.contents path).stored result) disk' := by
  have houtcome : outcomeOn rules mode disk path =
      (forecast rules disk.contents path).stored (disk.saveResult path) := if_pos hstores
  have hresult : result = disk.saveResult path := h.result_eq
  refine ⟨by rw [houtcome, hresult], ?leads, ?contents⟩
  case leads => exact (Disk.leads_observed disk path).trans h.leads fun _ => .inl rfl
  case contents =>
    cases hmishap : disk.mishaps path with
    | none =>
      have hwritten : (outcomeOn rules mode disk path).written = true := by
        rw [houtcome, Disk.saveResult, hmishap]
        rfl
      rw [h.stored hmishap, bytesOn, if_pos hwritten, hpatched]
      rfl
    | some mishap =>
      have hwritten : (outcomeOn rules mode disk path).written = false := by
        rw [houtcome, Disk.saveResult, hmishap]
        exact written_forecast rules disk.contents path
      have hfailed : (opened disk path).mishaps path ≠ none := by
        change disk.mishaps path ≠ none
        rw [hmishap]
        exact Option.some_ne_none mishap
      rw [h.kept hfailed, bytesOn_of_not_written hwritten, Function.update_eq_self]
      rfl

end

section

variable (rules : RuleSet) (mode : Mode) (observe : Event → StateM σ Unit)

/-- Taking one document has the outcome that its own path decides, and changes no other path. -/
theorem ensures_patchFile_disk (disk : Disk) (path : Path) :
    Ensures (patchFile rules mode (aside observe) path : DiskMachine σ Outcome) disk
      (Taken rules mode disk path) := by
  refine (gives_load_disk disk path).bind ?_
  cases hdocument : documentIn disk.contents path with
  | error failure =>
    have hforecast : forecast rules disk.contents path = .ofFailure path failure := by
      rw [forecast, hdocument]
    refine ensures_pure ?_
    rw [← hforecast]
    refine taken_of_not_stores ?_
    rw [Stores, changedIn, hdocument]
    exact fun h => Bool.false_ne_true h.1
  | ok document =>
    have hforecast : forecast rules disk.contents path = .ofRecord path (rules.patch document).2 := by
      rw [forecast, hdocument]
    have hchanged : changedIn rules disk.contents path = (rules.patch document).2.changed := by
      rw [changedIn, hdocument]
    dsimp only
    refine (gives_tellChanges (quiet_aside observe) path _ _).bind ?_
    rw [← hforecast, ← hchanged]
    split
    case isTrue hstores =>
      -- the document is stored where it has been read
      have hpath : (rules.patch document).1.path = path := by
        rw [path_patch]
        unfold documentIn at hdocument
        split at hdocument
        case h_1 => cases hdocument
        case h_2 => exact (ofBytes_eq_ok_iff.1 hdocument).2
      have hpatched : patchedIn? rules disk.contents path =
          some (rules.patch document).1.toText.toUTF8 := by
        rw [patchedIn?, hdocument]
      have hcurrent : (opened disk path).current = path := rfl
      rw [store, hpath]
      refine (ensures_save_disk hcurrent _).bind ?_
      intro result disk' hsaved
      exact ensures_pure (taken_of_saved hstores hpatched hsaved)
    case isFalse hstores => exact ensures_pure (taken_of_not_stores hstores)

theorem ensures_runFile_disk (disk : Disk) (path : Path) :
    Ensures (runFile rules mode (aside observe) path : DiskMachine σ Outcome) disk
      (Taken rules mode disk path) :=
  ensures_runFile (quiet_aside observe) (ensures_patchFile_disk rules mode observe disk path)

end

/-! ## Runs -/

/-- The summary of a run with these outcomes. -/
def summaryOf (mode : Mode) (outcomes : List Outcome) : Summary :=
  outcomes.foldl Summary.record { dryRun := mode = .dryRun }

theorem outcomes_foldl_record (outcomes : List Outcome) (summary : Summary) :
    (outcomes.foldl Summary.record summary).outcomes = summary.outcomes ++ outcomes := by
  induction outcomes generalizing summary with
  | nil => exact (List.append_nil _).symm
  | cons outcome outcomes ih =>
    rw [List.foldl_cons, ih]
    exact List.append_assoc _ [outcome] outcomes

theorem outcomes_summaryOf (mode : Mode) (outcomes : List Outcome) :
    (summaryOf mode outcomes).outcomes = outcomes :=
  outcomes_foldl_record outcomes _

/-- What a run over distinct paths does to a disk. -/
structure Passed (rules : RuleSet) (mode : Mode) (disk : Disk) (paths : List Path) (disk' : Disk) :
    Prop where
  leads : disk.Leads disk'
  contents : ∀ path, disk'.contents path =
    if path ∈ paths then bytesOn rules mode disk path else disk.contents path

section

variable {rules : RuleSet} {mode : Mode} {disk disk' disk'' : Disk} {path : Path}
  {paths : List Path} {outcome : Outcome}

theorem Taken.contents_of_ne (h : Taken rules mode disk path outcome disk') {other : Path}
    (hne : other ≠ path) : disk'.contents other = disk.contents other := by
  rw [h.contents, Function.update_of_ne hne]

/-- A document that was taken leaves the outcomes of the others as they were. -/
theorem Taken.map_outcomeOn (h : Taken rules mode disk path outcome disk') (hnot : path ∉ paths) :
    paths.map (outcomeOn rules mode disk') = paths.map (outcomeOn rules mode disk) := by
  refine List.map_congr_left fun other hother => ?_
  have hne : other ≠ path := fun heq => hnot (heq ▸ hother)
  exact outcomeOn_congr (h.contents_of_ne hne) h.leads.mishaps

theorem passed_nil (disk : Disk) : Passed rules mode disk [] disk where
  leads := .refl disk
  contents _ := (if_neg List.not_mem_nil).symm

theorem Passed.cons (h : Taken rules mode disk path outcome disk') (hnot : path ∉ paths)
    (h' : Passed rules mode disk' paths disk'') : Passed rules mode disk (path :: paths) disk'' where
  leads := by
    refine h.leads.trans h'.leads fun other => ?_
    by_cases heq : other = path
    · -- the path that was taken is not taken again
      refine .inr ?_
      rw [h'.contents, if_neg (heq ▸ hnot)]
    · exact .inl (h.contents_of_ne heq)
  contents other := by
    rw [h'.contents]
    by_cases heq : other = path
    · rw [if_neg (heq ▸ hnot), if_pos (List.mem_cons.2 (.inl heq)), h.contents, heq,
        Function.update_self]
    · have hother := h.contents_of_ne heq
      by_cases hmem : other ∈ paths
      · rw [if_pos hmem, if_pos (List.mem_cons_of_mem _ hmem)]
        exact bytesOn_congr hother h.leads.mishaps
      · have hnone : other ∉ path :: paths := by
          intro hcons
          exact (List.mem_cons.1 hcons).elim heq hmem
        rw [if_neg hmem, if_neg hnone, hother]

end

section

variable (rules : RuleSet) (mode : Mode) (observe : Event → StateM σ Unit)

/-- A run over distinct paths gives each of them the outcome and the bytes that it gets alone. -/
theorem ensures_runFilesFrom_disk (summary : Summary) {paths : List Path} (hdistinct : paths.Nodup)
    (disk : Disk) :
    Ensures (runFilesFrom rules mode (aside observe) summary paths : DiskMachine σ Summary) disk
      fun summary' disk' =>
        summary' = (paths.map (outcomeOn rules mode disk)).foldl Summary.record summary ∧
          Passed rules mode disk paths disk' := by
  induction paths generalizing summary disk with
  | nil => exact ensures_pure ⟨rfl, passed_nil disk⟩
  | cons path paths ih =>
    obtain ⟨hnot, hrest⟩ := List.nodup_cons.1 hdistinct
    refine (ensures_runFile_disk rules mode observe disk path).bind ?_
    intro outcome disk' htaken
    -- the others are taken on another disk, on which they have the same outcomes
    refine (ih (summary.record outcome) hrest disk').mono ?_
    rintro summary' disk'' ⟨rfl, hpassed⟩
    refine ⟨?_, .cons htaken hnot hpassed⟩
    rw [htaken.map_outcomeOn hnot, htaken.outcome_eq, List.map_cons, List.foldl_cons]

/-- The same with the events around a whole run. -/
theorem ensures_runFiles_disk {paths : List Path} (hdistinct : paths.Nodup) (disk : Disk) :
    Ensures (runFiles rules mode (aside observe) paths : DiskMachine σ Summary) disk
      fun summary disk' => summary = summaryOf mode (paths.map (outcomeOn rules mode disk)) ∧
        Passed rules mode disk paths disk' := by
  refine (ensures_runFilesFrom_disk rules mode observe _ hdistinct disk).bind ?_
  rintro summary disk' ⟨rfl, hpassed⟩
  refine (quiet_aside observe _ disk').bind ?_
  exact ensures_pure ⟨rfl, hpassed⟩

end

/-! ## Isolation -/

/-- What an action on a disk results in, and the disk that it leaves. -/
def runOn {α : Type} (disk : Disk) (state : σ) (action : DiskMachine σ α) : α × Disk :=
  (action disk state).1

theorem runOn_of_ensures {α : Type} {disk : Disk} {action : DiskMachine σ α}
    {post : α → Disk → Prop} (h : Ensures action disk post) (state : σ) :
    post (runOn disk state action).1 (runOn disk state action).2 :=
  h state

theorem outcomes_runFiles (rules : RuleSet) (mode : Mode) (observe : Event → StateM σ Unit)
    (disk : Disk) (state : σ) {paths : List Path} (hdistinct : paths.Nodup) :
    (runOn disk state (runFiles rules mode (aside observe) paths)).1.outcomes =
      paths.map (outcomeOn rules mode disk) := by
  have hsummary := (runOn_of_ensures (ensures_runFiles_disk rules mode observe hdistinct disk) state).1
  rw [hsummary, outcomes_summaryOf]

/-- Each document of a run over distinct paths has the outcome that it has when it is taken alone, and
its path holds the same bytes afterwards; all other paths hold what they held. So the order of the
paths makes no difference to the outcome of any of them, or to what they hold. -/
theorem runFiles_isolated (rules : RuleSet) (mode : Mode) (observe : Event → StateM σ Unit)
    (disk : Disk) (state state' : σ) {paths : List Path} (hdistinct : paths.Nodup) :
    let run (paths : List Path) := runOn disk state (runFiles rules mode (aside observe) paths)
    let alone (path : Path) := runOn disk state' (runFile rules mode (aside observe) path)
    (run paths).1.outcomes = paths.map (fun path => (alone path).1) ∧
      (∀ path ∈ paths, (run paths).2.contents path = (alone path).2.contents path) ∧
      (∀ path ∉ paths, (run paths).2.contents path = disk.contents path) ∧
      ∀ paths', paths'.Perm paths →
        (run paths').1.outcomes = paths'.map (fun path => (alone path).1) ∧
          (run paths').2.contents = (run paths).2.contents := by
  intro run alone
  have halone : ∀ path, Taken rules mode disk path (alone path).1 (alone path).2 := fun path =>
    runOn_of_ensures (ensures_runFile_disk rules mode observe disk path) state'
  have hrun : ∀ paths : List Path, paths.Nodup →
      (run paths).1.outcomes = paths.map (fun path => (alone path).1) ∧
        Passed rules mode disk paths (run paths).2 := by
    intro paths hdistinct
    have hpassed :=
      (runOn_of_ensures (ensures_runFiles_disk rules mode observe hdistinct disk) state).2
    refine ⟨?_, hpassed⟩
    rw [outcomes_runFiles rules mode observe disk state hdistinct]
    exact List.map_congr_left fun path _ => (halone path).outcome_eq.symm
  obtain ⟨houtcomes, hpassed⟩ := hrun paths hdistinct
  refine ⟨houtcomes, ?_, ?_, ?_⟩
  · intro path hpath
    rw [hpassed.contents, if_pos hpath, (halone path).contents, Function.update_self]
  · intro path hpath
    rw [hpassed.contents, if_neg hpath]
  · intro paths' hperm
    obtain ⟨houtcomes', hpassed'⟩ := hrun paths' (hperm.nodup_iff.2 hdistinct)
    refine ⟨houtcomes', funext fun path => ?_⟩
    rw [hpassed'.contents, hpassed.contents]
    simp only [hperm.mem_iff]

/-- A document with a node that lacks its credential. -/
def lackingText : String := "\x7b\"nodes\": [\x7b\"type\": \"n8n-nodes-base.postgres\"\x7d]\x7d"

/-- A disk with two such documents, one of which cannot be moved to its place, a text that is no JSON,
and nothing else. -/
def mixedDisk : Disk where
  contents path :=
    if path = .ofString "W1.json" ∨ path = .ofString "W4.json" then .ok lackingText.toUTF8
    else if path = .ofString "W3.json" then .ok "\x7b".toUTF8
    else .error .notFound
  mishaps path :=
    if path = .ofString "W4.json" then some (.move (.other "Permission denied (os error 13)"))
    else none

/-- The paths of a run over this disk. -/
def mixedPaths : List Path :=
  [.ofString "W1.json", .ofString "W2.json", .ofString "W3.json", .ofString "W4.json"]

/-- An observer that looks away. -/
def unwatched (_ : Event) : StateM Unit Unit := pure ()

/-- The run over these paths on this disk. -/
def mixedRun (paths : List Path) : Summary × Disk :=
  runOn mixedDisk () (runFiles (.all {}) .write (aside unwatched) paths)

theorem outcomes_mixedRun (h : mixedPaths.Nodup) : (mixedRun mixedPaths).1.outcomes =
    mixedPaths.map (outcomeOn (.all {}) .write mixedDisk) := by
  rw [mixedRun, outcomes_runFiles (.all {}) .write unwatched mixedDisk () h]

theorem runFiles_isolated_mixedDisk :
    mixedPaths.Nodup ∧
      (mixedRun mixedPaths).1.outcomes.map (fun outcome =>
        (outcome.written, outcome.errors.length)) =
          [(true, 0), (false, 1), (false, 1), (false, 1)] ∧
      (mixedRun mixedPaths.reverse).1.outcomes = (mixedRun mixedPaths).1.outcomes.reverse ∧
      (mixedRun mixedPaths.reverse).2.contents = (mixedRun mixedPaths).2.contents := by
  have hdistinct : mixedPaths.Nodup := by decide +kernel
  have houtcomes := outcomes_mixedRun hdistinct
  obtain ⟨halone, -, -, hperm⟩ :=
    runFiles_isolated (.all {}) .write unwatched mixedDisk () () hdistinct
  obtain ⟨halone', hcontents⟩ := hperm mixedPaths.reverse (List.reverse_perm _)
  refine ⟨hdistinct, ?_, ?_, ?_⟩
  · rw [houtcomes]
    decide +kernel
  · unfold mixedRun
    rw [halone', halone, List.map_reverse]
  · unfold mixedRun
    beta_reduce at hcontents
    exact hcontents

end WorkflowRepair.Batch
