import WorkflowRepair.Proofs.Batch.Tally
import WorkflowRepair.Proofs.Command.Printing

/-!
# What breaks a run off, and what does not

Everything that can break a run over a directory off comes before its first document: then the run
has done nothing but look at the settings file and list the directory, and it complains
(`does_afterLog`). Once both went well, whatever the documents are like, each of them gets its outcome
(`exists_summary_of_discover`), and the exit code tells whether one of them failed
(`code_status_eq_one_iff`). Both together are `serve_contained`.
-/

namespace WorkflowRepair.Command

open Batch (Event Mode Outcome Summary Tallies)
open Files (Path Tree Fault FileAccess)
open Repair (RuleSet)
open Workflow (Failure)

/-- The corpus that an action runs over, and whether it stores changed documents. -/
def Action.over? : Action → Option (Corpus × Mode)
  | .patch corpus dryRun => some (corpus, if dryRun then .dryRun else .write)
  | .check corpus => some (corpus, .dryRun)
  | .validateContract .. => none

/-- Whether an action fails on account of an outcome: a check minds changes, too. -/
def Action.Minds : Action → Outcome → Prop
  | .check _, outcome => outcome.errors ≠ [] ∨ outcome.changes ≠ []
  | _, outcome => outcome.errors ≠ []

/-- What a run over a corpus may look at before it comes to the documents. -/
def looksAhead (corpus : Corpus) : List Deed :=
  settingsLooks corpus.settingsFile ++ [.list corpus.directory]

/-- Nothing has been done but to look ahead and to complain. -/
def OnlyLooked (corpus : Corpus) (deeds : List Deed) : Prop :=
  ∃ looks complaint, looks.Sublist (looksAhead corpus) ∧ deeds = looks ++ [.complain complaint]

variable {W : Type} [FileAccess (StateM W)]

/-! ## Breaking off -/

theorem does_runDirectory (rules : RuleSet) (mode : Mode) (describe : Event → String)
    (directory : Path) (pattern : String) :
    Does (Batch.runDirectory rules mode (telling describe) directory pattern :
        Acting W (Except Failure Summary)) fun result deeds =>
      ∀ failure, result = .error failure → deeds.Sublist [.list directory] := by
  refine Does.bind (confined_discover directory pattern) fun result first hfirst => ?_
  cases result with
  | error failure =>
    refine does_pure fun _ _ => ?_
    rwa [List.append_nil]
  | ok paths =>
    -- once the documents are found there is no error any more
    refine Does.bind (prints_runFiles describe rules mode paths) fun summary deeds _ => ?_
    exact does_pure fun failure h => nomatch h

variable (environment : Settings.Environment)

/-- A run over a corpus that is broken off has only looked. -/
theorem does_runCorpus (corpus : Corpus) (mode : Mode) :
    Does (runCorpus environment corpus mode : Acting W (Except Fatal Summary)) fun result deeds =>
      ∀ fatal, result = .error fatal → deeds.Sublist (looksAhead corpus) := by
  refine Does.bind (confined_loadSettings corpus environment) fun result first hfirst => ?_
  cases result with
  | error fault =>
    refine does_pure fun _ _ => ?_
    rw [List.append_nil]
    exact hfirst.trans (List.sublist_append_left _ _)
  | ok settings =>
    refine Does.bind (does_runDirectory _ _ _ _ _) fun result second hsecond => ?_
    cases result with
    | error failure =>
      refine does_pure fun _ _ => ?_
      rw [List.append_nil]
      exact hfirst.append (hsecond failure rfl)
    | ok summary => exact does_pure fun fatal h => nomatch h

omit [FileAccess (StateM W)] in
theorem does_giveUp (message : String) :
    Does (giveUp message : Acting W Nat) fun code deeds =>
      code = fatalCode ∧ ∃ complaint, deeds = [.complain complaint] := by
  refine Does.bind (does_perform _ _ fun _ => rfl) ?_
  rintro _ _ rfl
  exact does_pure ⟨rfl, _, rfl⟩

/-- What follows once a request has begun to log. -/
def afterLog (action : Action) (begun : Except Log.Fault (Option Path)) : Acting W Nat := do
  match begun with
  | .error fault => giveUp ("failed to initialize logging: " ++ fault.message)
  | .ok _ =>
    match ← run environment action with
    | .error fatal => giveUp fatal.message
    | .ok status => return status.code

theorem serve_eq (verbose : Bool) (action : Action) :
    (serve environment ⟨verbose, action⟩ : Acting W Nat) =
      Log.begin action.settingsFile verbose >>= afterLog environment action :=
  rfl

/-- The status of an action over a corpus. -/
def Action.status : Action → Summary → Status
  | .check _, summary => .ofFailed (summary.hasErrors || summary.hasChanges)
  | _, summary => .ofFailed summary.hasErrors

variable {environment} {action : Action} {corpus : Corpus} {mode : Mode}

/-- Both actions over a corpus run over it, and differ in what they make of the summary. -/
theorem run_eq (haction : action.over? = some (corpus, mode)) :
    (run environment action : Acting W (Except Fatal Status)) = do
      return (← runCorpus environment corpus mode).map action.status := by
  cases action <;> cases haction <;> rfl

theorem does_run (haction : action.over? = some (corpus, mode)) :
    Does (run environment action : Acting W (Except Fatal Status)) fun result deeds =>
      ∀ fatal, result = .error fatal → deeds.Sublist (looksAhead corpus) := by
  rw [run_eq haction]
  refine Does.bind (does_runCorpus environment corpus mode) fun result deeds hlooks => ?_
  cases result with
  | error fatal =>
    refine does_pure fun _ _ => ?_
    rw [List.append_nil]
    exact hlooks fatal rfl
  | ok summary => exact does_pure fun fatal h => nomatch h

theorem Status.code_eq_zero_or_one (status : Status) : status.code = 0 ∨ status.code = 1 := by
  cases status <;> decide

theorem Status.code_ne_fatalCode (status : Status) : status.code ≠ fatalCode := by
  cases status <;> decide

/-- Who exits with two has only looked, once the log has begun. -/
theorem does_afterLog (haction : action.over? = some (corpus, mode))
    (begun : Except Log.Fault (Option Path)) :
    Does (afterLog environment action begun : Acting W Nat) fun code deeds =>
      code = fatalCode → OnlyLooked corpus deeds := by
  unfold afterLog
  cases begun with
  | error fault =>
    refine (does_giveUp _).mono ?_
    rintro code _ ⟨-, complaint, rfl⟩ -
    exact ⟨[], complaint, List.nil_sublist _, rfl⟩
  | ok log =>
    refine Does.bind (does_run haction) fun result looks hlooks => ?_
    cases result with
    | error fatal =>
      refine (does_giveUp _).mono ?_
      rintro code _ ⟨-, complaint, rfl⟩ -
      exact ⟨looks, complaint, hlooks fatal rfl, rfl⟩
    | ok status => exact does_pure fun hcode => absurd hcode status.code_ne_fatalCode

/-! ## Going through -/

section

variable {settings : Settings} {paths : List Path} {scene : Scene W}

/-- Once the settings are loaded and the documents are found, a run over a corpus has an outcome for
each of them. -/
theorem exists_summary_of_discover (mode : Mode)
    (hsettings : (play scene (loadSettings corpus environment)).1 = .ok settings)
    (hpaths : (play (play scene (loadSettings corpus environment)).2
      (Batch.discover corpus.directory settings.batch.pattern)).1 = .ok paths) :
    ∃ summary, (play scene (runCorpus environment corpus mode)).1 = .ok summary ∧
      Tallies mode paths summary := by
  let looked := play scene (loadSettings corpus environment)
  let found := play looked.2 (Batch.discover corpus.directory settings.batch.pattern)
  let tell : Event → Acting W Unit := telling (corpus.form.format mode).describe
  -- the summary is that of the run over the documents that were found
  refine ⟨(play found.2 (Batch.runFiles (.all settings) mode tell paths)).1, ?_, ?_⟩
  · rw [runCorpus, play_bind, hsettings]
    dsimp only
    rw [play_bind, Batch.runDirectory, play_bind, hpaths]
    rfl
  · exact play_of_ensures _ fun deeds => Batch.ensures_runFiles_tallies _ _ _ paths deeds

/-- A run that was not broken off exits with the code of its status. -/
theorem play_afterLog (haction : action.over? = some (corpus, mode)) {summary : Summary}
    {log : Option Path}
    (hrun : (play scene (runCorpus environment corpus mode)).1 = .ok summary) :
    (play scene (afterLog environment action (.ok log))).1 = (action.status summary).code := by
  rw [afterLog, run_eq haction, play_bind, play_bind, hrun]
  rfl

omit [FileAccess (StateM W)] in
theorem code_ofFailed_eq_one_iff {failed : Bool} :
    (Status.ofFailed failed).code = 1 ↔ failed = true := by
  cases failed <;> decide

/-- An action over documents exits with one if it minds one of their outcomes. -/
theorem code_status_eq_one_iff (haction : action.over? = some (corpus, mode)) {summary : Summary}
    (h : Tallies mode paths summary) :
    (action.status summary).code = 1 ↔ ∃ outcome ∈ summary.outcomes, action.Minds outcome := by
  cases action with
  | patch corpus dryRun => exact code_ofFailed_eq_one_iff.trans h.hasErrors_iff
  | check corpus =>
    refine code_ofFailed_eq_one_iff.trans ?_
    rw [Bool.or_eq_true, h.hasErrors_iff, h.hasChanges_iff, ← exists_or]
    exact exists_congr fun outcome => and_or_left.symm
  | validateContract schema payloads => cases haction

end

/-- Whatever a world with files is like: a run over a directory that exits with two has done nothing
since the log began but to look at the settings file, list the directory and complain. And once the
log has begun, the settings are loaded and the documents are found, it exits with zero or one: it
has one outcome for each document that was found, and exits with one exactly if some outcome has an
error or, for a check, a change. -/
theorem serve_contained (environment : Settings.Environment) (verbose : Bool)
    (haction : action.over? = some (corpus, mode)) (scene : Scene W) :
    let begun := play scene (Log.begin (some corpus.settingsFile) verbose)
    let served := play scene (serve environment ⟨verbose, action⟩)
    (served.1 = 2 → ∃ deeds, served.2.deeds = begun.2.deeds ++ deeds ∧ OnlyLooked corpus deeds) ∧
      ∀ log settings paths, begun.1 = .ok log →
        let looked := play begun.2 (loadSettings corpus environment)
        looked.1 = .ok settings →
          (play looked.2 (Batch.discover corpus.directory settings.batch.pattern)).1 = .ok paths →
            (served.1 = 0 ∨ served.1 = 1) ∧
              ∃ summary, (play begun.2 (runCorpus environment corpus mode)).1 = .ok summary ∧
                summary.outcomes.map (·.path) = paths ∧
                (served.1 = 1 ↔ ∃ outcome ∈ summary.outcomes, action.Minds outcome) := by
  have hfile : action.settingsFile = some corpus.settingsFile := by
    cases action <;> cases haction <;> rfl
  intro begun served
  have hserved : served = play begun.2 (afterLog environment action begun.1) := by
    rw [← play_bind, ← hfile, ← serve_eq]
  refine ⟨fun hcode => ?_, ?_⟩
  · have hdoes : Does (afterLog environment action begun.1 : Acting W Nat) _ :=
      does_afterLog haction begun.1
    obtain ⟨deeds, hdeeds, honly⟩ := hdoes.play begun.2
    rw [hserved] at hcode ⊢
    exact ⟨deeds, hdeeds, honly hcode⟩
  · intro log settings paths hlog looked hsettings hpaths
    obtain ⟨summary, hrun, htallies⟩ := exists_summary_of_discover mode hsettings hpaths
    have hcode : served.1 = (action.status summary).code := by
      rw [hserved, hlog, play_afterLog haction hrun]
    rw [hcode]
    exact ⟨(action.status summary).code_eq_zero_or_one, summary, hrun, htallies.paths_eq,
      code_status_eq_one_iff haction htallies⟩

/-- A request for a check of the directory of one document. -/
def bareCheck : Acting Tree Nat := serve noOverrides ⟨false, .check bareCorpus⟩

/-- A check of a document that lacks a credential minds it, and a check without a directory has only
looked. -/
theorem serve_contained_bareCheck :
    let begin : Acting Tree _ := Log.begin (some bareCorpus.settingsFile) false
    let begun := play { world := bareTree none } begin
    (begun.1 = .ok none ∧
        (play { world := bareTree none } bareCheck).1 = 1 ∧
        ∃ summary, (play begun.2 (runCorpus noOverrides bareCorpus .dryRun)).1 = .ok summary ∧
          ∃ outcome ∈ summary.outcomes, (Action.check bareCorpus).Minds outcome) ∧
      (play { world := {} } bareCheck).1 = 2 ∧
      ∃ deeds, (play { world := {} } bareCheck).2.deeds =
        (play { world := {} } begin).2.deeds ++ deeds ∧ OnlyLooked bareCorpus deeds := by
  intro begin begun
  have hruns : begun.1 = .ok none ∧
      (play begun.2 (loadSettings bareCorpus noOverrides)).1 = .ok {} ∧
      (play (play begun.2 (loadSettings bareCorpus noOverrides)).2
        (Batch.discover bareCorpus.directory ({} : Settings).batch.pattern)).1 =
          .ok [.ofString "corpus/W1.json"] ∧
      (play { world := bareTree none } bareCheck).1 = 1 ∧
      (play { world := {} } bareCheck).1 = 2 := by
    decide +kernel
  obtain ⟨hlog, hsettings, hpaths, hone, htwo⟩ := hruns
  have hcheck : (Action.check bareCorpus).over? = some (bareCorpus, .dryRun) := rfl
  obtain ⟨-, hthrough⟩ := serve_contained noOverrides false hcheck { world := bareTree none }
  obtain ⟨-, summary, hsummary, -, hminds⟩ := hthrough none {} _ hlog hsettings hpaths
  obtain ⟨hoff, -⟩ := serve_contained noOverrides false hcheck { world := ({} : Tree) }
  exact ⟨⟨hlog, hone, summary, hsummary, hminds.1 hone⟩, htwo, hoff htwo⟩

end WorkflowRepair.Command
