import WorkflowRepair.Proofs.Batch.Rehearsal
import WorkflowRepair.Proofs.Command.Again

/-!
# Checking before patching

A check is a dry run, and tells what a patch with the same arguments will do. On a disk it does so for
every document, with the one exception of saves that fail; and if a check succeeds, a patch succeeds
too and finds nothing to write (`patch_of_check`).
-/

namespace WorkflowRepair.Command

open Batch (Event Foretold Summary aside outcomes_runFiles runFiles runOn)
open Batch (mixedDisk mixedPaths mixedRun unwatched)
open Files (Disk Path Tree Machine Ensures Gives)
open Files (ensures_pure gives_pure)
open Repair (RuleSet)

variable {environment : Settings.Environment} {corpus : Corpus} {verbose : Bool} {tree : Tree}

/-- A dry run over a corpus that finds nothing to change does what a run that stores does. -/
theorem ensures_runCorpus_dryRun (tree : Tree) :
    Ensures (runCorpus environment corpus .dryRun : Process (Except Fatal Summary)) tree
      fun result tree' => tree' = tree ∧ ∀ summary, result = .ok summary →
        summary.filesChanged = 0 → ∃ summary', summary'.errors = summary.errors ∧
          Gives (runCorpus environment corpus .write : Process (Except Fatal Summary)) tree
            (.ok summary') tree := by
  refine ((looksAt_loadSettings environment corpus).ensures_gives tree).bind ?_
  rintro result tree' ⟨rfl, hloads⟩
  cases result with
  | error fault => exact ensures_pure ⟨rfl, fun summary h => nomatch h⟩
  | ok settings =>
    have hquiet := quiet_print (corpus.form.format .write).describe
    refine (Batch.ensures_runDirectory_dryRun (quiet_print _) hquiet _ tree' _ _).bind ?_
    rintro result tree'' ⟨rfl, hrun⟩
    cases result with
    | error failure => exact ensures_pure ⟨rfl, fun summary h => nomatch h⟩
    | ok summary =>
      refine ensures_pure ⟨rfl, fun summary' h hunchanged => ?_⟩
      cases h
      obtain ⟨summary', hgives, herrors⟩ := hrun summary rfl hunchanged
      exact ⟨summary', herrors, hloads.bind (hgives.bind (gives_pure _))⟩

/-- Where a check succeeds, a patch succeeds and changes nothing. -/
theorem ensures_run_check (tree : Tree) :
    Ensures (run environment (.check corpus) : Process (Except Fatal Status)) tree
      fun result tree' => result = .ok .success → tree' = tree ∧
        Gives (run environment (.patch corpus false) : Process (Except Fatal Status)) tree
          (.ok .success) tree := by
  refine (ensures_runCorpus_dryRun tree).bind ?_
  rintro result tree' ⟨rfl, hrun⟩
  cases result with
  | error fatal => exact ensures_pure fun h => nomatch h
  | ok summary =>
    refine ensures_pure fun hsuccess => ⟨rfl, ?_⟩
    have hclean : summary.errors = [] ∧ summary.filesChanged = 0 := by
      simpa [Except.map, Status.ofFailed, Summary.hasErrors, Summary.hasChanges] using hsuccess
    obtain ⟨summary', herrors, hgives⟩ := hrun summary rfl hclean.2
    refine hgives.bind (ensures_pure ⟨?_, rfl⟩)
    simp [Except.map, Status.ofFailed, Summary.hasErrors, herrors, hclean.1]

/-! ## Requests -/

/-- A request whose action succeeds without a change, once it has begun to log, leaves what it found
then. -/
theorem serve_of_gives {request : Request} {log : Option Path}
    (hlog : resultOn tree (Log.begin request.action.settingsFile request.verbose) = .ok log)
    (hrun : Gives (run environment request.action : Process (Except Fatal Status))
      (treeAfter tree (Log.begin request.action.settingsFile request.verbose)) (.ok .success)
      (treeAfter tree (Log.begin request.action.settingsFile request.verbose))) :
    resultOn tree (serve environment request) = 0 ∧ treeAfter tree (serve environment request) =
      treeAfter tree (Log.begin request.action.settingsFile request.verbose) := by
  refine of_ensures_next (?_ : Ensures _ _ fun code tree' => code = 0 ∧ tree' = _)
  rw [hlog]
  exact hrun.bind (gives_pure 0)

/-- Beginning to log leaves everything that was there. -/
theorem extends_treeBegun (tree : Tree) (corpus : Corpus) (verbose : Bool) :
    tree.Extends (treeBegun tree corpus verbose) :=
  Log.ensures_begin_extends corpus.settingsFile verbose tree ({} : Screen)

/-- If a check succeeds then a patch with the same arguments succeeds, and like the check it leaves
the files as it found them once it had begun to log. -/
theorem patch_of_check
    (hcheck : resultOn tree (serve environment ⟨verbose, .check corpus⟩) = 0) :
    treeAfter tree (serve environment ⟨verbose, .check corpus⟩) = treeBegun tree corpus verbose ∧
      resultOn tree (serve environment ⟨verbose, .patch corpus false⟩) = 0 ∧
      treeAfter tree (serve environment ⟨verbose, .patch corpus false⟩) =
        treeBegun tree corpus verbose := by
  let patch : Request := ⟨verbose, .patch corpus false⟩
  refine @of_serve_eq_zero environment ⟨verbose, .check corpus⟩ tree
    (fun tree' => tree' = treeBegun tree corpus verbose ∧
      resultOn tree (serve environment patch) = 0 ∧
      treeAfter tree (serve environment patch) = treeBegun tree corpus verbose) ?_ hcheck
  intro log hlog
  refine (ensures_run_check _).mono ?_
  intro result tree' hsuccess hresult
  obtain ⟨hsame, hrun⟩ := hsuccess hresult
  exact ⟨hsame, serve_of_gives hlog hrun⟩

/-- A dry run over distinct paths foretells a run that stores, and leaves all files as they are. And
if a check succeeds, a patch with the same arguments succeeds and changes nothing that was there. -/
theorem dryRun_foretells {σ : Type} (rules : RuleSet) (observe observe' : Event → StateM σ Unit)
    (disk : Disk) (state state' : σ) {paths : List Path} (hdistinct : paths.Nodup)
    (environment : Settings.Environment) (corpus : Corpus) (verbose : Bool) (tree : Tree) :
    Foretold disk (runOn disk state (runFiles rules .dryRun (aside observe) paths))
        (runOn disk state' (runFiles rules .write (aside observe') paths)) ∧
      (resultOn tree (serve environment ⟨verbose, .check corpus⟩) = 0 →
        resultOn tree (serve environment ⟨verbose, .patch corpus false⟩) = 0 ∧
          treeAfter tree (serve environment ⟨verbose, .patch corpus false⟩) =
            treeBegun tree corpus verbose ∧
          tree.Extends (treeBegun tree corpus verbose)) := by
  refine ⟨Batch.foretold_runFiles rules observe observe' disk state state' hdistinct, ?_⟩
  intro hcheck
  obtain ⟨-, hzero, hafter⟩ := patch_of_check hcheck
  exact ⟨hzero, hafter, extends_treeBegun tree corpus verbose⟩

/-- The directory of one document that needs no repair, as a program sees it that works in there. -/
def healthyTree : Tree :=
  let directory := Text.encode "corpus"
  let text := "\x7b\"nodes\":[\x7b\"name\":\"Set\",\"type\":\"n8n-nodes-base.set\"\x7d]\x7d"
  { entries := [([directory], .directory), ([directory, Text.encode "W1.json"], .file text.toUTF8)]
    workingDirectory := [directory] }

/-- The dry run over the paths of the mixed disk. -/
def mixedRehearsal : Summary × Disk :=
  runOn mixedDisk () (runFiles (.all {}) .dryRun (aside unwatched) mixedPaths)

theorem dryRun_foretells_mixedDisk :
    mixedPaths.Nodup ∧
      mixedRehearsal.1.outcomes.map (fun outcome => (outcome.changed, outcome.errors.length)) =
        [(true, 0), (false, 1), (false, 1), (true, 0)] ∧
      Foretold mixedDisk mixedRehearsal (mixedRun mixedPaths) ∧
      resultOn healthyTree (serve noOverrides ⟨false, .check rootedCorpus⟩) = 0 ∧
      resultOn healthyTree (serve noOverrides ⟨false, .patch rootedCorpus false⟩) = 0 := by
  have hdistinct : mixedPaths.Nodup := by decide +kernel
  have hcheck : resultOn healthyTree (serve noOverrides ⟨false, .check rootedCorpus⟩) = 0 := by
    decide +kernel
  obtain ⟨hforetold, hpatch⟩ := dryRun_foretells (.all {}) unwatched unwatched mixedDisk () ()
    hdistinct noOverrides rootedCorpus false healthyTree
  rw [← mixedRun, ← mixedRehearsal] at hforetold
  refine ⟨hdistinct, ?_, hforetold, hcheck, (hpatch hcheck).1⟩
  rw [mixedRehearsal, outcomes_runFiles (.all {}) .dryRun unwatched mixedDisk () hdistinct]
  decide +kernel

end WorkflowRepair.Command
