import WorkflowRepair.Command.Run
import WorkflowRepair.Proofs.Batch.Run
import WorkflowRepair.Proofs.Log.Begin
import WorkflowRepair.Proofs.Settings.Loading
import WorkflowRepair.Proofs.Toml.Objects

/-!
# Running again

A run that patched a corpus and did not fail leaves it repaired (`repaired_of_serve`): the log is
there, the settings can be loaded, and every document that matches is final. On a repaired corpus
every later run exits with zero, finds nothing to change and leaves all files as they are
(`gives_serve_of_repaired`). Both together are `serve_after_patch`.

The one thing that a later run must not do is to log less: the level in the settings file is checked
only if the run is not verbose (`serve_quietly_after_patch`).

If the settings name a directory for the log, every run opens its log file there and adds lines to it
as it goes on. The file is part of the tree, but the lines, which tell the time, are not: bytes that
stay as they are do so as if nothing was logged.
-/

namespace WorkflowRepair.Command

open Batch (Event FinalAt Idle Listed Matched Mode Quiet Summary WholeAt)
open Files (Path Tree Machine Ensures Gives LooksAt)
open Files (ensures_true ensures_pure gives_pure looksAt_pure)
open Repair (FinalCorrections)
open Workflow.Document (Encodes)

/-- Actions on a tree in front of a screen. -/
abbrev Process (α : Type) := Machine Screen α

/-- The settings file of a corpus. -/
def Corpus.settingsFile (corpus : Corpus) : Path :=
  corpus.config.getD (Settings.defaultFile corpus.directory)

section

variable {F : Type} {files : F}

theorem gives_print (text : String) :
    Gives (Console.print text : StateT F (StateM Screen) Unit) files () files :=
  fun _ => ⟨rfl, rfl⟩

theorem gives_giveUp (message : String) :
    Gives (giveUp message : StateT F (StateM Screen) Nat) files fatalCode files :=
  fun _ => ⟨rfl, rfl⟩

end

theorem quiet_print (describe : Event → String) :
    Quiet fun event => (Console.print (describe event) : Process Unit) :=
  fun _ _ => gives_print _

/-- Who gives up does not exit with zero. -/
theorem ensures_giveUp (message : String) (tree : Tree) :
    Ensures (giveUp message : Process Nat) tree fun code _ => code ≠ 0 := by
  refine (gives_giveUp message).mono ?_
  rintro code tree' ⟨rfl, -⟩
  decide

/-! ## Settings -/

section

variable (environment : Settings.Environment) (corpus : Corpus)

/-- Loading the settings of a run looks at the settings file only. -/
theorem looksAt_loadSettings :
    LooksAt corpus.settingsFile
      (loadSettings corpus environment : Process (Except Settings.Fault Settings)) := by
  refine (Settings.looksAt_load _ _ _).bind fun result => ?_
  cases result <;> exact looksAt_pure _ _

/-- With the built-in variable and marker, the settings of a run make final corrections. -/
theorem ensures_loadSettings (tree : Tree) :
    Ensures (loadSettings corpus environment : Process (Except Settings.Fault Settings)) tree
      fun result _ => ∀ settings, result = .ok settings →
        settings.declaration.variableName = ({} : DeclarationSettings).variableName →
        settings.declaration.marker = ({} : DeclarationSettings).marker →
          FinalCorrections settings := by
  refine (Settings.ensures_load _ _ _ tree).bind fun result tree' hvalid => ?_
  cases result with
  | error fault => exact ensures_pure fun settings h => nomatch h
  | ok settings =>
    refine ensures_pure fun settings' h hname hmarker rule => ?_
    cases h
    have hfinal := Repair.finalCorrections_of_validate (hvalid settings rfl) hname hmarker
    -- no correction depends on the pattern
    cases rule with
    | credential => exact hfinal .credential
    | expression => exact hfinal .expression
    | declaration => exact hfinal .declaration

end

/-! ## Patching -/

variable {environment : Settings.Environment} {corpus : Corpus}

/-- The settings of a run can be loaded. -/
abbrev Loads (environment : Settings.Environment) (corpus : Corpus) (settings : Settings)
    (tree : Tree) : Prop :=
  Gives (loadSettings corpus environment : Process (Except Settings.Fault Settings)) tree
    (.ok settings) tree

/-- What the settings and the documents of a run have to be like: the variable and the marker are the
built-in ones, and the numbers of all documents that match stand for integers. -/
structure Suits (corpus : Corpus) (settings : Settings) (tree : Tree) : Prop where
  variableName : settings.declaration.variableName = ({} : DeclarationSettings).variableName
  marker : settings.declaration.marker = ({} : DeclarationSettings).marker
  whole : ∀ path, Matched tree corpus.directory settings.batch.pattern path → WholeAt tree path

/-- The documents of a run can be found, and all of them are final. -/
structure Done (environment : Settings.Environment) (corpus : Corpus) (settings : Settings)
    (tree : Tree) : Prop where
  loads : Loads environment corpus settings tree
  listed : Listed tree corpus.directory settings.batch.pattern
  final : ∀ path, Matched tree corpus.directory settings.batch.pattern path →
    FinalAt (.all settings) tree path

theorem not_encodes_of_isConfiguration {bytes : ByteArray} (h : Log.IsConfiguration bytes)
    (root : Json.Members) : ¬ Encodes root bytes := by
  rcases h with ⟨text, table, htext, htable⟩
  rintro ⟨text', htext', hread⟩
  rw [htext, Option.some.injEq] at htext'
  rw [← htext'] at hread
  rw [Toml.read_eq_none_of_object hread] at htable
  cases htable

section

variable {settings : Settings} {tree : Tree} (hloads : Loads environment corpus settings tree)
  (hsuits : Suits corpus settings tree)
  (hconfiguration : ∀ bytes, tree.read corpus.settingsFile = .ok bytes →
    Log.IsConfiguration bytes)

include hloads hsuits hconfiguration

/-- A run that patches without an error leaves final documents, and the settings file as it was. -/
theorem ensures_runCorpus :
    Ensures (runCorpus environment corpus .write : Process (Except Fatal Summary)) tree
      fun result tree' => ∀ summary, result = .ok summary → summary.errors = [] →
        tree.Persists tree' ∧ tree'.view corpus.settingsFile = tree.view corpus.settingsFile ∧
          Done environment corpus settings tree' := by
  have hfinal : FinalCorrections settings :=
    hloads.elim (ensures_loadSettings environment corpus tree) {} settings rfl hsuits.variableName
      hsuits.marker
  refine hloads.bind ?_
  refine (Batch.ensures_runDirectory (quiet_print _) hfinal hsuits.whole).bind
    fun result tree' hrun => ?_
  cases result with
  | error failure => exact ensures_pure fun summary h => nomatch h
  | ok summary =>
    refine ensures_pure fun summary' h herrors => ?_
    cases h
    rcases hrun summary rfl herrors with ⟨hadvances, hlisted, hfinalAt⟩
    have hview : tree'.view corpus.settingsFile = tree.view corpus.settingsFile :=
      hadvances.view fun bytes root hread =>
        not_encodes_of_isConfiguration (hconfiguration bytes hread) root
    refine ⟨hadvances.persists, hview, ?_, hadvances.listed_directory hlisted, ?_⟩
    · exact (looksAt_loadSettings environment corpus).gives hview hloads
    · exact fun path hpath => hfinalAt path (hadvances.matched hlisted hpath)

theorem ensures_run_patch :
    Ensures (run environment (.patch corpus false) : Process (Except Fatal Status)) tree
      fun result tree' => result = .ok .success →
        tree.Persists tree' ∧ tree'.view corpus.settingsFile = tree.view corpus.settingsFile ∧
          Done environment corpus settings tree' := by
  refine (ensures_runCorpus hloads hsuits hconfiguration).bind fun result tree' hrun => ?_
  cases result with
  | error fatal => exact ensures_pure fun h => nomatch h
  | ok summary =>
    refine ensures_pure fun h => hrun summary rfl ?_
    cases herrors : summary.errors with
    | nil => rfl
    | cons e errors => simp [Except.map, Status.ofFailed, Summary.hasErrors, herrors] at h

end

section

variable {settings : Settings} {tree : Tree} (h : Done environment corpus settings tree)
  (form : ReportForm)

include h

/-- Where a run is done, a run with any report and in any mode has nothing to do. -/
theorem ensures_runCorpus_of_done (mode : Mode) :
    Ensures (runCorpus environment { corpus with form } mode : Process (Except Fatal Summary)) tree
      fun result tree' => tree' = tree ∧ ∃ summary, result = .ok summary ∧ Idle summary := by
  refine h.loads.bind ?_
  refine (Batch.ensures_runDirectory_of_finalAt (quiet_print _) mode h.listed h.final).bind
    fun result tree' hrun => ?_
  rcases hrun with ⟨rfl, summary, rfl, hidle⟩
  exact ensures_pure ⟨rfl, summary, rfl, hidle⟩

/-- Where a run is done, both commands for a corpus succeed and change nothing. -/
theorem gives_run_of_done {action : Action}
    (haction : action = .check { corpus with form } ∨ action = .patch { corpus with form } false) :
    Gives (run environment action : Process (Except Fatal Status)) tree (.ok .success) tree := by
  rcases haction with rfl | rfl
  all_goals
    refine (ensures_runCorpus_of_done h form _).bind fun result tree' hrun => ?_
    rcases hrun with ⟨rfl, summary, rfl, hidle⟩
    refine ensures_pure ⟨?_, rfl⟩
    simp [Except.map, Status.ofFailed, Summary.hasErrors, Summary.hasChanges, hidle.errors,
      hidle.filesChanged]

end

/-! ## Commands -/

section

variable {α : Type} {action : Process α} {tree tree' : Tree}

/-- The result of an action that begins with an empty screen. -/
def resultOn (tree : Tree) (action : Process α) : α := (action tree {}).1.1

/-- The tree that an action leaves. -/
def treeAfter (tree : Tree) (action : Process α) : Tree := (action tree {}).1.2

/-- An action that follows another one begins with what that one leaves. -/
theorem of_ensures_next {β : Type} {next : α → Process β} {post : β → Tree → Prop}
    (h : Ensures (next (resultOn tree action)) (treeAfter tree action) post) :
    post (resultOn tree (action >>= next)) (treeAfter tree (action >>= next)) :=
  h _

/-- What an action that looks at one file gives can be read off one run. -/
theorem gives_of_resultOn {path : Path} {a : α} (hlooks : LooksAt path action)
    (h : resultOn tree action = a) : Gives action tree a tree := by
  have hgives := (hlooks.ensures_gives tree {}).2
  change Gives action tree (resultOn tree action) tree at hgives
  rwa [h] at hgives

theorem resultOn_of_gives {a : α} (h : Gives action tree a tree') : resultOn tree action = a :=
  (h {}).1

theorem treeAfter_of_gives {a : α} (h : Gives action tree a tree') : treeAfter tree action = tree' :=
  (h {}).2

end

/-- What holds once a request has exited with zero holds once its action has succeeded. -/
theorem of_serve_eq_zero {request : Request} {tree : Tree} {post : Tree → Prop}
    (hrun : ∀ log, resultOn tree (Log.begin request.action.settingsFile request.verbose) = .ok log →
      Ensures (run environment request.action : Process (Except Fatal Status))
        (treeAfter tree (Log.begin request.action.settingsFile request.verbose))
        fun result tree' => result = .ok .success → post tree')
    (hzero : resultOn tree (serve environment request) = 0) :
    post (treeAfter tree (serve environment request)) := by
  refine of_ensures_next (?_ : Ensures _ _ fun code tree' => code = 0 → post tree') hzero
  cases hlog : resultOn tree (Log.begin request.action.settingsFile request.verbose) with
  | error fault =>
    exact (ensures_giveUp _ _).mono fun _ _ hcode h => absurd h hcode
  | ok log =>
    refine (hrun log hlog).bind fun result tree' hpost => ?_
    cases result with
    | error fatal =>
      exact (ensures_giveUp _ _).mono fun _ _ hcode h => absurd h hcode
    | ok status =>
      cases status with
      | success => exact ensures_pure fun _ => hpost rfl
      | failed => exact ensures_pure fun h => nomatch h

theorem gives_serve {request : Request} {tree : Tree} {log : Option Path}
    (hbegin : Gives (Log.begin request.action.settingsFile request.verbose :
      Process (Except Log.Fault (Option Path))) tree (.ok log) tree)
    (hrun : Gives (run environment request.action : Process (Except Fatal Status)) tree
      (.ok .success) tree) :
    Gives (serve environment request : Process Nat) tree 0 tree :=
  hbegin.bind (hrun.bind (gives_pure 0))

/-- The tree that a run over a corpus finds once it has begun to log, which may have added
directories and an empty log. -/
def treeBegun (tree : Tree) (corpus : Corpus) (verbose : Bool) : Tree :=
  treeAfter tree (Log.begin (some corpus.settingsFile) verbose)

/-- What a run that patched without an error leaves: the log is there, and nothing is left to do. -/
structure Repaired (environment : Settings.Environment) (corpus : Corpus) (verbose : Bool)
    (settings : Settings) (tree : Tree) : Prop where
  begun : ∃ stated, Log.Begun Screen corpus.settingsFile verbose stated tree
  done : Done environment corpus settings tree

variable {verbose : Bool} {settings : Settings} {tree : Tree}

/-- A run that does not fail leaves a repaired corpus. -/
theorem repaired_of_serve (hload : resultOn tree (loadSettings corpus environment) = .ok settings)
    (hsuits : Suits corpus settings (treeBegun tree corpus verbose))
    (hpatch : resultOn tree (serve environment ⟨verbose, .patch corpus false⟩) = 0) :
    Repaired environment corpus verbose settings
      (treeAfter tree (serve environment ⟨verbose, .patch corpus false⟩)) := by
  refine of_serve_eq_zero (fun log hlog => ?_) hpatch
  rcases Log.ensures_begin corpus.settingsFile verbose tree ({} : Screen) log hlog with
    ⟨hview, ⟨stated, hbegun⟩, hconfiguration⟩
  have hlooks := looksAt_loadSettings environment corpus
  have hloads : Loads environment corpus settings (treeBegun tree corpus verbose) :=
    hlooks.gives hview (gives_of_resultOn hlooks hload)
  refine (ensures_run_patch hloads hsuits hconfiguration).mono fun result tree' hrun hsuccess => ?_
  rcases hrun hsuccess with ⟨hpersists, hview', hdone⟩
  exact ⟨⟨stated, hbegun.persists hview' hpersists⟩, hdone⟩

/-- On a repaired corpus both commands exit with zero and change nothing, if as much is logged. -/
theorem gives_serve_of_repaired (h : Repaired environment corpus verbose settings tree)
    {verbose' : Bool} (hverbose : verbose = true → verbose' = true) (form : ReportForm)
    {action : Action}
    (haction : action = .check { corpus with form } ∨ action = .patch { corpus with form } false) :
    Gives (serve environment ⟨verbose', action⟩ : Process Nat) tree 0 tree := by
  rcases h.begun with ⟨stated, hbegun⟩
  have hbegun' : Log.Begun Screen corpus.settingsFile verbose' stated tree := by
    cases verbose with
    | true => rwa [hverbose rfl]
    | false =>
      cases verbose' with
      | true => exact hbegun.louder
      | false => exact hbegun
  rcases Log.gives_begin hbegun' with ⟨log, hbegin⟩
  have hfile : action.settingsFile = some corpus.settingsFile := by
    rcases haction with rfl | rfl <;> rfl
  rw [← hfile] at hbegin
  exact gives_serve hbegin (gives_run_of_done h.done form haction)

/-- A run that patched and did not fail is followed by runs that have nothing to do, as long as they
do not log less: a check finds nothing to change and no error, and another patch leaves all files as
they are, apart from the lines that every run adds to its log. -/
theorem serve_after_patch (hload : resultOn tree (loadSettings corpus environment) = .ok settings)
    (hsuits : Suits corpus settings (treeBegun tree corpus verbose))
    (hpatch : resultOn tree (serve environment ⟨verbose, .patch corpus false⟩) = 0)
    {verbose' : Bool} (hverbose : verbose = true → verbose' = true) (form : ReportForm) :
    let patched := treeAfter tree (serve environment ⟨verbose, .patch corpus false⟩)
    let check := serve environment ⟨verbose', .check { corpus with form }⟩
    let patch := serve environment ⟨verbose', .patch { corpus with form } false⟩
    (resultOn patched check = 0 ∧ treeAfter patched check = patched) ∧
      (∃ summary, resultOn patched (runCorpus environment { corpus with form } .dryRun) =
        .ok summary ∧ Idle summary) ∧
      resultOn patched patch = 0 ∧ treeAfter patched patch = patched := by
  have hrepaired := repaired_of_serve hload hsuits hpatch
  have hcheck := gives_serve_of_repaired hrepaired hverbose form (.inl rfl)
  have hagain := gives_serve_of_repaired hrepaired hverbose form (.inr rfl)
  have hsummary := (ensures_runCorpus_of_done hrepaired.done form .dryRun {}).2
  exact ⟨⟨resultOn_of_gives hcheck, treeAfter_of_gives hcheck⟩, hsummary,
    resultOn_of_gives hagain, treeAfter_of_gives hagain⟩

/-! ## A directory of one document -/

theorem wholeAt_of_entries {tree : Tree}
    (h : ∀ location bytes root, (location, .file bytes) ∈ tree.entries → Encodes root bytes →
      (Json.Value.object root).AllWhole) (path : Path) : WholeAt tree path := by
  intro bytes root hread hroot
  rcases Tree.read_eq_ok_iff.1 hread with ⟨location, hresolve⟩
  have hget := Tree.get?_of_resolve hresolve
  rcases Option.map_eq_some_iff.1 hget with ⟨⟨location', e⟩, hfind, rfl⟩
  exact h location' bytes root (List.mem_of_find?_eq_some hfind) hroot

/-- A document with a node that lacks its credential. -/
def bareText : String :=
  "\x7b\"nodes\": [\x7b\"type\": \"n8n-nodes-base.postgres\"\x7d], \"n\": 7\x7d"

/-- The members of this document. -/
def bareRoot : Json.Members :=
  [("nodes", .array [.object [("type", .string "n8n-nodes-base.postgres")]]),
    ("n", .number (.integer 7))]

theorem encodes_bareText : Encodes bareRoot bareText.toUTF8 :=
  ⟨bareText, Workflow.Document.fromUTF8?_toUTF8 _, rfl⟩

theorem allWhole_bareRoot : (Json.Value.object bareRoot).AllWhole := by
  have hall : (Json.Value.object bareRoot).AllIntegers := by
    refine Workflow.Document.allIntegers_object ?_
    simp only [bareRoot, List.forall_mem_cons]
    exact ⟨Workflow.Document.allIntegers_array
      (List.forall_mem_singleton.2 (Workflow.Document.allIntegers_object
        (List.forall_mem_singleton.2 (Workflow.Document.allIntegers_string _)))),
      Workflow.Document.allIntegers_integer 7, fun _ h => absurd h List.not_mem_nil⟩
  intro position n hn
  rcases hall position n hn with ⟨i, rfl⟩
  exact ⟨i, rfl⟩

/-- A directory with this document and perhaps a settings file. -/
def bareTree (settings : Option String) : Tree :=
  let directory := Text.encode "corpus"
  { entries := ([directory], .directory) ::
      ([directory, Text.encode "W1.json"], .file bareText.toUTF8) ::
      (settings.map fun text => ([directory, Text.encode "flowpatch.toml"],
        Files.Entry.file text.toUTF8)).toList }

/-- The documents of this directory. -/
def bareCorpus : Corpus where
  directory := .ofString "corpus"

/-- The same documents, named from the root. -/
def rootedCorpus : Corpus where
  directory := .ofString "/corpus"

/-- An environment that overrides nothing. -/
def noOverrides : Settings.Environment := fun _ => none

theorem suits_of_entries {corpus : Corpus} {tree : Tree} {text : String}
    {fault : Json.SyntaxError} (htree : tree.entries = (bareTree (some text)).entries)
    (htext : Json.readText text = .error fault) : Suits corpus {} tree where
  variableName := rfl
  marker := rfl
  whole path _ := by
    refine wholeAt_of_entries (fun location bytes root hmem hroot => ?_) path
    rw [htree] at hmem
    simp only [bareTree, Option.map_some, Option.toList_some, List.mem_cons, Prod.mk.injEq,
      reduceCtorEq, and_false, false_or, Files.Entry.file.injEq, List.not_mem_nil, or_false] at hmem
    rcases hmem with ⟨-, rfl⟩ | ⟨-, rfl⟩
    · rw [hroot.unique encodes_bareText]
      exact allWhole_bareRoot
    · rcases hroot with ⟨text', htext', hread⟩
      rw [Workflow.Document.fromUTF8?_toUTF8, Option.some.injEq] at htext'
      rw [← htext', htext] at hread
      cases hread

/-- The directory as a program sees it that works in there. -/
def insideTree : Tree := { bareTree (some "") with workingDirectory := [Text.encode "corpus"] }

/-- The documents named from the root, and the settings file by way of the directory above. -/
def roundaboutCorpus : Corpus :=
  { rootedCorpus with config := some (.ofString "../corpus/flowpatch.toml") }

theorem serve_after_patch_insideTree :
    let patch := serve noOverrides ⟨false, .patch roundaboutCorpus false⟩
    let check := serve noOverrides ⟨true, .check { roundaboutCorpus with form := .json }⟩
    resultOn insideTree patch = 0 ∧
      (treeAfter insideTree patch).entries ≠ insideTree.entries ∧
      resultOn (treeAfter insideTree patch) check = 0 := by
  have hruns : resultOn insideTree (loadSettings roundaboutCorpus noOverrides) = .ok {} ∧
      (treeBegun insideTree roundaboutCorpus false).entries = insideTree.entries ∧
      resultOn insideTree (serve noOverrides ⟨false, .patch roundaboutCorpus false⟩) = 0 ∧
      (treeAfter insideTree (serve noOverrides ⟨false, .patch roundaboutCorpus false⟩)).entries ≠
        insideTree.entries := by
    decide +kernel
  rcases hruns with ⟨hload, hbegun, hpatch, hchanged⟩
  have hsuits : Suits roundaboutCorpus {} (treeBegun insideTree roundaboutCorpus false) :=
    suits_of_entries hbegun rfl
  have hverbose : false = true → true = true := fun _ => rfl
  exact ⟨hpatch, hchanged, (serve_after_patch hload hsuits hpatch hverbose .json).1.1⟩

/-- Settings with a level that is none. -/
def loudSettings : String := "[logging]\ndefault_level = \"flowpatch=loud\"\n"

/-- A verbose run does not mind a bad level, but a run after it that logs less does. -/
theorem serve_quietly_after_patch :
    let tree := bareTree (some loudSettings)
    let patch := serve noOverrides ⟨true, .patch bareCorpus false⟩
    resultOn tree (loadSettings bareCorpus noOverrides) = .ok {} ∧
      Suits bareCorpus {} (treeBegun tree bareCorpus true) ∧
      resultOn tree patch = 0 ∧
      resultOn (treeAfter tree patch) (serve noOverrides ⟨false, .check bareCorpus⟩) = 2 := by
  have hruns : resultOn (bareTree (some loudSettings)) (loadSettings bareCorpus noOverrides) =
        .ok {} ∧
      (treeBegun (bareTree (some loudSettings)) bareCorpus true).entries =
        (bareTree (some loudSettings)).entries ∧
      resultOn (bareTree (some loudSettings))
        (serve noOverrides ⟨true, .patch bareCorpus false⟩) = 0 ∧
      resultOn (treeAfter (bareTree (some loudSettings))
          (serve noOverrides ⟨true, .patch bareCorpus false⟩))
        (serve noOverrides ⟨false, .check bareCorpus⟩) = 2 := by
    decide +kernel
  rcases hruns with ⟨hload, hbegun, hpatch, hcheck⟩
  exact ⟨hload, suits_of_entries hbegun rfl, hpatch, hcheck⟩

end WorkflowRepair.Command
