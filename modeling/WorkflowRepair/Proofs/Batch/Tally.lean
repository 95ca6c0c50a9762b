import WorkflowRepair.Proofs.Batch.Rehearsal

/-!
# One outcome for each document

Whatever the files are like and whatever an observer does, a run has one outcome for each of its
paths, in their order, and its totals are the totals over these outcomes
(`ensures_runFiles_tallies`, and `ensures_runFiles_accounts` field by field).
So a run has an error, or a change, exactly if one of its documents has one
(`Tallies.hasErrors_iff`, `Tallies.hasChanges_iff`).
-/

namespace WorkflowRepair.Batch

open Files (Path Fault Ensures FileAccess)
open Files (ensures_true ensures_pure)
open Repair (RuleSet)
open Workflow (Document Failure)

variable {F σ : Type}

theorem filesScanned_foldl_record (outcomes : List Outcome) (summary : Summary) :
    (outcomes.foldl Summary.record summary).filesScanned =
      summary.filesScanned + outcomes.length := by
  induction outcomes generalizing summary with
  | nil => rfl
  | cons outcome outcomes ih =>
    rw [List.foldl_cons, ih, Summary.record, List.length_cons]
    dsimp only
    omega

theorem dryRun_foldl_record (outcomes : List Outcome) (summary : Summary) :
    (outcomes.foldl Summary.record summary).dryRun = summary.dryRun := by
  induction outcomes generalizing summary with
  | nil => rfl
  | cons outcome outcomes ih =>
    rw [List.foldl_cons, ih, Summary.record]

/-- An outcome regards the document under a path, and tells truly whether it was changed. -/
structure Regards (path : Path) (outcome : Outcome) : Prop where
  path_eq : outcome.path = path
  changed_eq : outcome.changed = !outcome.changes.isEmpty

/-- What may become of a document: it cannot be read, the rules are applied to it, or it is stored as
well, with or without success. -/
inductive Becomes (mode : Mode) (path : Path) : Outcome → Prop where
  | failed (failure : Failure) : Becomes mode path (.ofFailure path failure)
  | patched (record : Repair.Record) : Becomes mode path (.ofRecord path record)
  | stored (record : Repair.Record) (result : Except Fault Unit) (hchanged : record.changed = true)
      (hmode : mode = .write) : Becomes mode path ((Outcome.ofRecord path record).stored result)

namespace Becomes

variable {mode : Mode} {path : Path} {outcome : Outcome}

theorem regards (h : Becomes mode path outcome) : Regards path outcome := by
  cases h with
  | failed failure => exact ⟨rfl, rfl⟩
  | patched record => exact ⟨rfl, rfl⟩
  | stored record result hchanged hmode => cases result <;> exact ⟨rfl, rfl⟩

/-- Only a document that was changed is stored, and none in a dry run. -/
theorem of_written (h : Becomes mode path outcome) (hwritten : outcome.written = true) :
    outcome.changed = true ∧ mode = .write := by
  cases h with
  | failed failure => cases hwritten
  | patched record => cases hwritten
  | stored record result hchanged hmode =>
    cases result with
    | error fault => cases hwritten
    | ok _ => exact ⟨hchanged, hmode⟩

end Becomes

/-- The summary of a run over paths: an outcome for each path, and the totals over them. -/
structure Tallies (mode : Mode) (paths : List Path) (summary : Summary) : Prop where
  regards : List.Forall₂ Regards paths summary.outcomes
  summary_eq : summary = summaryOf mode summary.outcomes

theorem exists_of_mem_forall₂ {α β : Type} {R : α → β → Prop} {l : List α} {l' : List β}
    (h : List.Forall₂ R l l') {b : β} (hb : b ∈ l') : ∃ a, R a b := by
  obtain ⟨n, hn, rfl⟩ := List.mem_iff_getElem.1 hb
  exact ⟨_, h.get (by rwa [h.length_eq]) hn⟩

namespace Tallies

variable {mode : Mode} {paths : List Path} {summary : Summary}

theorem paths_eq (h : Tallies mode paths summary) : summary.outcomes.map (·.path) = paths := by
  have hsame : List.Forall₂ (· = ·) (summary.outcomes.map (·.path)) paths :=
    List.forall₂_map_left_iff.2 (h.regards.flip.imp fun _ _ h => h.path_eq)
  rwa [List.forall₂_eq_eq_eq] at hsame

theorem changed_eq (h : Tallies mode paths summary) {outcome : Outcome}
    (hmem : outcome ∈ summary.outcomes) : outcome.changed = !outcome.changes.isEmpty := by
  obtain ⟨path, hregards⟩ := exists_of_mem_forall₂ h.regards hmem
  exact hregards.changed_eq

theorem filesScanned_eq (h : Tallies mode paths summary) :
    summary.filesScanned = summary.outcomes.length := by
  rw [h.summary_eq, summaryOf, filesScanned_foldl_record, outcomes_foldl_record]
  exact Nat.zero_add _

theorem filesChanged_eq (h : Tallies mode paths summary) :
    summary.filesChanged = summary.outcomes.countP (·.changed) := by
  rw [h.summary_eq, filesChanged_summaryOf, outcomes_summaryOf]

theorem dryRun_eq (h : Tallies mode paths summary) :
    summary.dryRun = decide (mode = .dryRun) := by
  rw [h.summary_eq, summaryOf, dryRun_foldl_record]

theorem errors_eq (h : Tallies mode paths summary) :
    summary.errors = summary.outcomes.flatMap fun outcome =>
      outcome.errors.map fun message => ⟨outcome.file, message⟩ := by
  have herrors : summary.errors = (summaryOf mode summary.outcomes).errors :=
    congrArg Summary.errors h.summary_eq
  rw [herrors, summaryOf, errors_foldl_record, List.nil_append]

theorem filesChanged_le (h : Tallies mode paths summary) :
    summary.filesChanged ≤ summary.filesScanned := by
  rw [h.filesChanged_eq, h.filesScanned_eq]
  exact List.countP_le_length

theorem hasErrors_iff (h : Tallies mode paths summary) :
    summary.hasErrors = true ↔ ∃ outcome ∈ summary.outcomes, outcome.errors ≠ [] := by
  rw [Summary.hasErrors, h.errors_eq]
  simp

theorem hasChanges_iff (h : Tallies mode paths summary) :
    summary.hasChanges = true ↔ ∃ outcome ∈ summary.outcomes, outcome.changes ≠ [] := by
  rw [Summary.hasChanges, bne_iff_ne, h.filesChanged_eq, ← Nat.pos_iff_ne_zero, List.countP_pos_iff]
  refine exists_congr fun outcome => and_congr_right fun hmem => ?_
  simp [h.changed_eq hmem]

end Tallies

/-- The summary of a run over paths has their outcomes in order, and says in total what these say. -/
structure Accounts (mode : Mode) (paths : List Path) (summary : Summary) : Prop where
  paths : summary.outcomes.map (·.path) = paths
  dryRun : summary.dryRun = decide (mode = .dryRun)
  filesScanned : summary.filesScanned = summary.outcomes.length
  filesChanged : summary.filesChanged = summary.outcomes.countP (·.changed)
  changed_iff : ∀ outcome ∈ summary.outcomes, outcome.changed = true ↔ outcome.changes ≠ []
  of_written : ∀ outcome ∈ summary.outcomes, outcome.written = true →
    outcome.changed = true ∧ summary.dryRun = false
  errors : summary.errors = summary.outcomes.flatMap fun outcome =>
    outcome.errors.map fun message => ⟨outcome.file, message⟩

section

variable [FileAccess (StateT F (StateM σ))] (rules : RuleSet) (mode : Mode)
  (tell : Event → StateT F (StateM σ) Unit)

theorem ensures_patchFile_becomes (path : Path) (files : F) :
    Ensures (patchFile rules mode tell path) files fun outcome _ => Becomes mode path outcome := by
  refine (ensures_true (load path) files).bind fun result files' _ => ?_
  cases result with
  | error failure => exact ensures_pure (.failed failure)
  | ok document =>
    dsimp only
    refine (ensures_true (tellChanges tell path _) files').bind fun _ files'' _ => ?_
    split
    case isTrue hstores =>
      refine (ensures_true (store _) files'').bind fun result _ _ => ?_
      exact ensures_pure (.stored _ result hstores.1 hstores.2)
    case isFalse => exact ensures_pure (.patched _)

theorem ensures_runFile_becomes (path : Path) (files : F) :
    Ensures (runFile rules mode tell path) files fun outcome _ => Becomes mode path outcome := by
  refine (ensures_true (tell _) files).bind fun _ files' _ => ?_
  refine (ensures_patchFile_becomes rules mode tell path files').bind fun outcome files'' h => ?_
  exact (ensures_true (tell _) files'').bind fun _ _ _ => ensures_pure h

theorem ensures_runFilesFrom_becomes (summary : Summary) (paths : List Path) (files : F) :
    Ensures (runFilesFrom rules mode tell summary paths) files fun summary' _ =>
      ∃ outcomes, List.Forall₂ (Becomes mode) paths outcomes ∧
        summary' = outcomes.foldl Summary.record summary := by
  induction paths generalizing summary files with
  | nil => exact ensures_pure ⟨[], .nil, rfl⟩
  | cons path paths ih =>
    refine (ensures_runFile_becomes rules mode tell path files).bind fun outcome files' hfirst => ?_
    refine (ih _ files').mono ?_
    rintro summary' _ ⟨outcomes, hrest, rfl⟩
    exact ⟨outcome :: outcomes, .cons hfirst hrest, rfl⟩

/-- A run has an outcome for each path, and its totals are those over the outcomes. -/
theorem ensures_runFiles_becomes (paths : List Path) (files : F) :
    Ensures (runFiles rules mode tell paths) files fun summary _ =>
      List.Forall₂ (Becomes mode) paths summary.outcomes ∧
        summary = summaryOf mode summary.outcomes := by
  refine (ensures_runFilesFrom_becomes rules mode tell _ paths files).bind ?_
  rintro summary files' ⟨outcomes, hbecomes, rfl⟩
  have houtcomes : (summaryOf mode outcomes).outcomes = outcomes := outcomes_summaryOf mode outcomes
  refine (ensures_true (tell _) files').bind fun _ _ _ => ensures_pure ⟨?_, ?_⟩
  · exact houtcomes.symm ▸ hbecomes
  · exact (congrArg (summaryOf mode) houtcomes).symm

/-- A run over paths tallies them. -/
theorem ensures_runFiles_tallies (paths : List Path) (files : F) :
    Ensures (runFiles rules mode tell paths) files fun summary _ =>
      Tallies mode paths summary := by
  refine (ensures_runFiles_becomes rules mode tell paths files).mono ?_
  rintro summary _ ⟨hbecomes, hsummary⟩
  exact ⟨hbecomes.imp fun _ _ h => h.regards, hsummary⟩

/-- A run accounts for its paths, whatever the files are like and whatever the observer does. -/
theorem ensures_runFiles_accounts (paths : List Path) (files : F) :
    Ensures (runFiles rules mode tell paths) files fun summary _ =>
      Accounts mode paths summary := by
  refine (ensures_runFiles_becomes rules mode tell paths files).mono ?_
  rintro summary _ ⟨hbecomes, hsummary⟩
  have htallies : Tallies mode paths summary := ⟨hbecomes.imp fun _ _ h => h.regards, hsummary⟩
  constructor
  case paths => exact htallies.paths_eq
  case dryRun => exact htallies.dryRun_eq
  case filesScanned => exact htallies.filesScanned_eq
  case filesChanged => exact htallies.filesChanged_eq
  case changed_iff =>
    intro outcome hmem
    simp [htallies.changed_eq hmem]
  case of_written =>
    intro outcome hmem hwritten
    obtain ⟨path, h⟩ := exists_of_mem_forall₂ hbecomes hmem
    obtain ⟨hchanged, rfl⟩ := h.of_written hwritten
    exact ⟨hchanged, htallies.dryRun_eq⟩
  case errors => exact htallies.errors_eq

/-- Wherever the documents of a directory can be found, a run over them tallies them. -/
theorem ensures_runDirectory_tallies (directory : Path) (pattern : String) (files : F) :
    Ensures (runDirectory rules mode tell directory pattern) files fun result _ =>
      ∀ summary, result = .ok summary → ∃ paths, Tallies mode paths summary := by
  refine (ensures_true (discover directory pattern) files).bind fun result files' _ => ?_
  cases result with
  | error failure => exact ensures_pure fun summary h => nomatch h
  | ok paths =>
    refine (ensures_runFiles_tallies rules mode tell paths files').bind fun summary _ htallies => ?_
    refine ensures_pure fun summary' h => ?_
    cases h
    exact ⟨paths, htallies⟩

end

end WorkflowRepair.Batch
