import WorkflowRepair.Proofs.Batch.Storing

/-!
# Dry runs

What a dry run says of a document is what a run that stores says of it, apart from storing it: that
adds that the document was written, or one error. So both runs count the same changes, although the
one that stores changes the disk under the documents that are still to come.

* `Foretells` — how the two outcomes of a document agree, and `Foretold` the same for whole runs;
* `ensures_runDirectory_dryRun` — a dry run over a directory that finds nothing to change leaves
  nothing to do for a run that stores, on trees with directories as well.
-/

namespace WorkflowRepair.Batch

open Files (Path Tree Disk Machine Ensures Gives FileAccess DirectoryEntry)
open Files (ensures_pure gives_pure gives_list)
open Repair (RuleSet)
open Workflow (Document Failure)

variable {σ : Type}

/-! ## Totals -/

theorem filesChanged_foldl_record (outcomes : List Outcome) (summary : Summary) :
    (outcomes.foldl Summary.record summary).filesChanged =
      summary.filesChanged + outcomes.countP (·.changed) := by
  induction outcomes generalizing summary with
  | nil => rfl
  | cons outcome outcomes ih =>
    rw [List.foldl_cons, ih, List.countP_cons, Summary.record]
    dsimp only
    omega

theorem errors_foldl_record (outcomes : List Outcome) (summary : Summary) :
    (outcomes.foldl Summary.record summary).errors = summary.errors ++
      outcomes.flatMap fun outcome => outcome.errors.map fun message => ⟨outcome.file, message⟩ := by
  induction outcomes generalizing summary with
  | nil => exact (List.append_nil _).symm
  | cons outcome outcomes ih =>
    rw [List.foldl_cons, ih, List.flatMap_cons, ← List.append_assoc]
    rfl

/-- The changes of a run are those of its documents, in whatever mode. -/
theorem filesChanged_summaryOf (mode : Mode) (outcomes : List Outcome) :
    (summaryOf mode outcomes).filesChanged = outcomes.countP (·.changed) := by
  rw [summaryOf, filesChanged_foldl_record]
  exact Nat.zero_add _

/-- The errors of a run are those of its documents, in whatever mode. -/
theorem errors_summaryOf (mode mode' : Mode) (outcomes : List Outcome) :
    (summaryOf mode outcomes).errors = (summaryOf mode' outcomes).errors := by
  rw [summaryOf, summaryOf, errors_foldl_record, errors_foldl_record]

/-! ## On a disk -/

/-- What the outcome of a document in a dry run tells of its outcome in a run that stores. -/
structure Foretells (disk : Disk) (dry real : Outcome) : Prop where
  file : real.file = dry.file
  path : real.path = dry.path
  changed : real.changed = dry.changed
  changes : real.changes = dry.changes
  written_iff : real.written = true ↔ dry.changed = true ∧ disk.mishaps dry.path = none
  /-- Without a save that fails, the errors are the same. -/
  saved : (dry.changed = true → disk.mishaps dry.path = none) → real.errors = dry.errors
  /-- A save that fails is one error more. -/
  failed : ∀ mishap, dry.changed = true → disk.mishaps dry.path = some mishap →
    real.errors = dry.errors ++ [(Failure.write dry.path mishap.fault).message]

section

variable {rules : RuleSet} {disk : Disk} {path : Path}

theorem foretells_outcomeOn :
    Foretells disk (outcomeOn rules .dryRun disk path) (outcomeOn rules .write disk path) := by
  have hsame : (outcomeOn rules .write disk path).unstored =
      (outcomeOn rules .dryRun disk path).unstored := by
    rw [unstored_outcomeOn, unstored_outcomeOn]
  rw [Outcome.unstored, Outcome.unstored, Outcome.mk.injEq] at hsame
  obtain ⟨hfile, hsamePath, hsameChanged, -, hchanges, -⟩ := hsame
  have hpath : (outcomeOn rules .dryRun disk path).path = path := path_outcomeOn
  have hstores : (outcomeOn rules .dryRun disk path).changed = true ↔
      Stores rules .write disk.contents path := by
    rw [changed_outcomeOn, Stores, and_iff_left rfl]
  have herrors : (outcomeOn rules .dryRun disk path).errors =
      errorsIn rules disk.contents path :=
    errors_outcomeOn_of_saved fun hnever => Mode.noConfusion hnever.2
  refine ⟨hfile, hsamePath, hsameChanged, hchanges, ?written_iff, ?saved, ?failed⟩
  case written_iff => rw [written_outcomeOn_iff, hstores, hpath]
  case saved =>
    rw [hstores, hpath, herrors]
    exact errors_outcomeOn_of_saved
  case failed =>
    intro mishap
    rw [hstores, hpath, herrors]
    exact errors_outcomeOn_of_failed

/-- A dry run leaves what is under each path as it is. -/
theorem bytesOn_dryRun : bytesOn rules .dryRun disk path = disk.contents path := by
  refine bytesOn_of_not_written (Bool.eq_false_iff.2 fun hwritten => ?_)
  exact Mode.noConfusion (written_outcomeOn_iff.1 hwritten).1.2

end

/-- What a dry run over distinct paths tells of a run over the same paths that stores: the outcomes
agree one by one, and so do the totals. Meanwhile the dry run has changed nothing. -/
structure Foretold (disk : Disk) (dry real : Summary × Disk) : Prop where
  contents : dry.2.contents = disk.contents
  temporaries : dry.2.temporaries = disk.temporaries
  outcomes : List.Forall₂ (Foretells disk) dry.1.outcomes real.1.outcomes
  filesChanged : real.1.filesChanged = dry.1.filesChanged

theorem foretold_runFiles (rules : RuleSet) (observe observe' : Event → StateM σ Unit)
    (disk : Disk) (state state' : σ) {paths : List Path} (hdistinct : paths.Nodup) :
    Foretold disk (runOn disk state (runFiles rules .dryRun (aside observe) paths))
      (runOn disk state' (runFiles rules .write (aside observe') paths)) := by
  obtain ⟨hdry, hpassed⟩ :=
    runOn_of_ensures (ensures_runFiles_disk rules .dryRun observe hdistinct disk) state
  obtain ⟨hreal, -⟩ :=
    runOn_of_ensures (ensures_runFiles_disk rules .write observe' hdistinct disk) state'
  refine ⟨?contents, hpassed.leads.temporaries, ?outcomes, ?filesChanged⟩
  case contents =>
    funext path
    rw [hpassed.contents, bytesOn_dryRun, ite_self]
  case outcomes =>
    rw [hdry, hreal, outcomes_summaryOf, outcomes_summaryOf, List.forall₂_map_left_iff,
      List.forall₂_map_right_iff, List.forall₂_same]
    exact fun path _ => foretells_outcomeOn
  case filesChanged =>
    rw [hdry, hreal, filesChanged_summaryOf, filesChanged_summaryOf, List.countP_map,
      List.countP_map]
    refine List.countP_congr fun path _ => ?_
    rw [Function.comp_apply, Function.comp_apply, foretells_outcomeOn.changed]

/-! ## On a tree -/

section

variable {tree : Tree} {path : Path}

theorem exists_gives_load (tree : Tree) (path : Path) :
    ∃ result, Gives (load path : Machine σ (Except Failure Document)) tree result tree := by
  cases hread : tree.read path with
  | error fault => exact ⟨_, gives_load_error hread⟩
  | ok bytes => exact ⟨_, gives_load hread⟩

theorem exists_gives_discover (tree : Tree) (directory : Path) (pattern : String) :
    ∃ result, Gives (discover directory pattern : Machine σ (Except Failure (List Path))) tree
      result tree := by
  unfold discover
  cases Glob.read pattern with
  | error fault => exact ⟨_, gives_pure _⟩
  | ok glob =>
    cases hlist : tree.list directory with
    | error fault =>
      refine ⟨.error (.discovery directory (.file fault)), (gives_list directory).bind ?_⟩
      rw [hlist]
      exact gives_pure _
    | ok entries =>
      refine ⟨.ok ((selectNames glob entries).map fun name => directory.join ⟨name⟩),
        (gives_list directory).bind ?_⟩
      rw [hlist]
      exact gives_pure _

end

section

variable {tell tell' : Event → Machine σ Unit} (htell : Quiet tell) (htell' : Quiet tell')
  (rules : RuleSet)

include htell htell'

/-- A document that a dry run does not change is not changed by a run that stores. -/
theorem ensures_patchFile_dryRun (tree : Tree) (path : Path) :
    Ensures (patchFile rules .dryRun tell path) tree fun outcome tree' => tree' = tree ∧
      (outcome.changed = false → Gives (patchFile rules .write tell' path) tree outcome tree) := by
  obtain ⟨result, hload⟩ := exists_gives_load (σ := σ) tree path
  refine hload.bind ?_
  unfold patchFile
  cases result with
  | error failure => exact ensures_pure ⟨rfl, fun _ => hload.bind (gives_pure _)⟩
  | ok document =>
    dsimp only
    refine (gives_tellChanges htell path _ tree).bind ?_
    rw [if_neg fun hnever => Mode.noConfusion hnever.2]
    refine ensures_pure ⟨rfl, fun hchanged => hload.bind ?_⟩
    dsimp only
    refine (gives_tellChanges htell' path _ tree).bind ?_
    rw [if_neg fun hstores => Bool.false_ne_true (hchanged.symm.trans hstores.1)]
    exact gives_pure _

/-- The same for documents in a row, with all their outcomes. -/
theorem ensures_runFilesFrom_dryRun (summary : Summary) (paths : List Path) (tree : Tree) :
    Ensures (runFilesFrom rules .dryRun tell summary paths) tree fun summary' tree' =>
      tree' = tree ∧ ∃ outcomes : List Outcome, summary' = outcomes.foldl Summary.record summary ∧
        (outcomes.countP (·.changed) = 0 → ∀ start,
          Gives (runFilesFrom rules .write tell' start paths) tree
            (outcomes.foldl Summary.record start) tree) := by
  induction paths generalizing summary with
  | nil => exact ensures_pure ⟨rfl, [], rfl, fun _ start => gives_pure start⟩
  | cons path paths ih =>
    refine (ensures_runFile htell (ensures_patchFile_dryRun htell htell' rules tree path)).bind ?_
    rintro outcome tree' ⟨rfl, hfirst⟩
    -- the tree is still the same, so both runs go on in step
    refine (ih _).mono ?_
    rintro summary' tree'' ⟨rfl, outcomes, rfl, hrest⟩
    refine ⟨rfl, outcome :: outcomes, rfl, fun hnone start => ?_⟩
    rw [List.countP_cons] at hnone
    have hunchanged : outcome.changed = false := by
      by_contra hchanged
      rw [if_pos (Bool.eq_true_of_not_eq_false hchanged)] at hnone
      omega
    have hothers : outcomes.countP (·.changed) = 0 := by omega
    exact Gives.bind (ensures_runFile htell' (hfirst hunchanged)) (hrest hothers _)

/-- A dry run over a directory that finds nothing to change does what a run that stores does. -/
theorem ensures_runDirectory_dryRun (tree : Tree) (directory : Path) (pattern : String) :
    Ensures (runDirectory rules .dryRun tell directory pattern) tree fun result tree' =>
      tree' = tree ∧ ∀ summary, result = .ok summary → summary.filesChanged = 0 →
        ∃ summary', Gives (runDirectory rules .write tell' directory pattern) tree (.ok summary')
          tree ∧ summary'.errors = summary.errors := by
  obtain ⟨result, hfound⟩ := exists_gives_discover (σ := σ) tree directory pattern
  refine hfound.bind ?_
  cases result with
  | error failure => exact ensures_pure ⟨rfl, fun summary h => nomatch h⟩
  | ok paths =>
    have hfiles := ensures_runFilesFrom_dryRun htell htell' rules { dryRun := true } paths tree
    refine Ensures.bind (hfiles.bind fun summary tree' hrun =>
      (htell _ tree').bind (ensures_pure hrun)) ?_
    rintro summary tree' ⟨rfl, outcomes, rfl, hstores⟩
    refine ensures_pure ⟨rfl, fun summary' h hnone => ?_⟩
    cases h
    have hunchanged : outcomes.countP (·.changed) = 0 := by
      rw [← filesChanged_summaryOf .dryRun]
      exact hnone
    refine ⟨summaryOf .write outcomes, ?_, errors_summaryOf .write .dryRun outcomes⟩
    refine hfound.bind (Gives.bind ((hstores hunchanged _).bind ?_) (gives_pure _))
    exact (htell' _ tree').bind (gives_pure _)

end

end WorkflowRepair.Batch
