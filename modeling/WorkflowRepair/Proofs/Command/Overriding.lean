import WorkflowRepair.Proofs.Batch.Beside
import WorkflowRepair.Proofs.Command.Again
import WorkflowRepair.Proofs.Settings.Overriding

/-!
# Settings that have no effect

A setting that the environment gives is put in its place before the settings are checked, so its
value in the settings file has no effect. A pattern among the arguments is put in its place
afterwards: the pattern in the layers below still decides whether the settings are refused, and
nothing else.

* `DifferInPattern.sameRun` — two runs that differ in the lower pattern do the same, as long as they
  judge their settings alike;
* `judgedAlike_of_resultOn` — and if they do not, their results differ;
* `overridden_without_effect` — both layers together;
* `overridden_pattern_refused` — a run that is broken off because of a pattern that it would not
  have used.
-/

namespace WorkflowRepair.Command

open Batch (Event Matched Mode NoDocument ReadsAlike Summary)
open Files (Path Tree Location Entry Machine Ensures Gives Blind PassesBy FileAccess)
open Files (ensures_true ensures_pure gives_pure blind_pure bind_apply)
open Settings (AlikeResults SameTextBut Usable finish given? load readBase readFile verdict)

/-! ## Looking -/

/-- An action that changes nothing, on the screen or elsewhere. -/
def Still {α : Type} (action : Process α) : Prop :=
  ∀ tree screen, action tree screen = (((action tree screen).1.1, tree), screen)

section

variable {α β : Type}

theorem still_pure (a : α) : Still (pure a : Process α) := fun _ _ => rfl

theorem Still.bind {action : Process α} {next : α → Process β} (h : Still action)
    (hnext : ∀ a, Still (next a)) : Still (action >>= next) := by
  intro tree screen
  rw [bind_apply, h tree screen]
  exact hnext _ tree screen

end

theorem still_readText (path : Path) :
    Still (Files.readText path : Process (Except Files.Fault String)) := by
  have hread : Still (FileAccess.read path : Process (Except Files.Fault ByteArray)) :=
    fun _ _ => rfl
  refine hread.bind fun result => ?_
  cases result with
  | error fault => exact still_pure _
  | ok bytes =>
    dsimp only
    cases String.fromUTF8? bytes <;> exact still_pure _

theorem still_readFile (path : Path) :
    Still (readFile path : Process (Except Settings.Fault (Option Settings))) := by
  have hexists : Still (FileAccess.exists? path : Process Bool) := fun _ _ => rfl
  refine hexists.bind fun found => ?_
  split
  case isTrue =>
    refine (still_readText path).bind fun result => ?_
    cases result with
    | error cause => exact still_pure _
    | ok text =>
      dsimp only
      split <;> exact still_pure _
  case isFalse => exact still_pure _

theorem still_load (asked : Option Path) (directory : Path) (environment : Settings.Environment) :
    Still (load asked directory environment : Process (Except Settings.Fault Settings)) := by
  refine Still.bind ((still_readFile _).bind fun result => ?_) fun base => ?_
  · cases result with
    | error fault => exact still_pure _
    | ok settings =>
      cases settings with
      | some settings => exact still_pure _
      | none => cases asked <;> exact still_pure _
  · cases base <;> exact still_pure _

/-! ## What a run does -/

section

variable {α : Type}

/-- The screen that an action leaves. -/
def screenAfter (tree : Tree) (action : Process α) : Screen := (action tree {}).2

/-- What an action puts at a location, if it leaves something else there than it found. -/
def written (tree : Tree) (action : Process α) (location : Location) : Option Entry :=
  if (treeAfter tree action).get? location = tree.get? location then none
  else (treeAfter tree action).get? location

/-- Two actions on two trees do the same. -/
structure SameRun (tree tree' : Tree) (action action' : Process α) : Prop where
  result : resultOn tree' action' = resultOn tree action
  screen : screenAfter tree' action' = screenAfter tree action
  written : ∀ location, written tree' action' location = written tree action location

variable {tree tree' : Tree} {action action' : Process α}

theorem SameRun.refl (tree : Tree) (action : Process α) : SameRun tree tree action action where
  result := rfl
  screen := rfl
  written _ := rfl

theorem SameRun.congr {next next' : Process α} (h : SameRun tree tree' next next')
    (haction : action tree {} = next tree {}) (haction' : action' tree' {} = next' tree' {}) :
    SameRun tree tree' action action' where
  result := by rw [resultOn, resultOn, haction, haction']; exact h.result
  screen := by rw [screenAfter, screenAfter, haction, haction']; exact h.screen
  written location := by
    have hsame := h.written location
    unfold Command.written treeAfter at hsame ⊢
    rw [haction, haction', hsame]

theorem sameRun_of_passesBy {place : Location} {bytes : ByteArray}
    (h : PassesBy place bytes action tree) :
    SameRun tree (tree.refill place bytes) action action := by
  have hblind : treeAfter (tree.refill place bytes) action =
      (treeAfter tree action).refill place bytes := congrArg (·.1.2) (h.blind {})
  refine ⟨congrArg (·.1.1) (h.blind {}), congrArg (·.2) (h.blind {}), fun location => ?_⟩
  by_cases hplace : location = place
  · have hstored : (treeAfter tree action).get? place = tree.get? place := (h.spares {}).stored
    rw [written, written, hblind, hplace, Tree.get?_refill, Tree.get?_refill, hstored, if_pos rfl,
      if_pos rfl]
  · rw [written, written, hblind, Tree.get?_refill_of_ne hplace, Tree.get?_refill_of_ne hplace]

end

/-! ## Runs with a pattern of their own -/

/-- The rest of a run, once its settings are loaded. -/
def proceed (corpus : Corpus) (mode : Mode) :
    Except Settings.Fault Settings → Process (Except Fatal Summary)
  | .error fault => return .error (.settings corpus.directory fault)
  | .ok settings => do
    let tell (event : Event) : Process Unit :=
      Console.print ((corpus.form.format mode).describe event)
    let pattern := settings.batch.pattern
    match ← Batch.runDirectory (.all settings) mode tell corpus.directory pattern with
    | .error failure => return .error (.failure failure)
    | .ok summary => return .ok summary

/-- Settings with the pattern put in its place. -/
def withPattern (pattern : String) (result : Except Settings.Fault Settings) :
    Except Settings.Fault Settings :=
  result.map fun settings => Settings.Override.put pattern settings .pattern

section

variable {environment : Settings.Environment} {corpus : Corpus} {pattern : String} {tree : Tree}
  (mode : Mode)

theorem runCorpus_apply (hpattern : corpus.pattern = some pattern)
    {result : Except Settings.Fault Settings}
    (h : Gives (load corpus.config corpus.directory environment :
      Process (Except Settings.Fault Settings)) tree result tree) :
    (runCorpus environment corpus mode : Process (Except Fatal Summary)) tree {} =
      proceed corpus mode (withPattern pattern result) tree {} := by
  have hload : (load corpus.config corpus.directory environment :
      Process (Except Settings.Fault Settings)) tree {} = ((result, tree), {}) := by
    rw [still_load _ _ _ tree {}, (h {}).1]
  have hrun : (runCorpus environment corpus mode : Process (Except Fatal Summary)) =
      load corpus.config corpus.directory environment >>= fun result =>
        proceed corpus mode (result.map fun settings =>
          { settings with batch := ⟨corpus.pattern.getD settings.batch.pattern⟩ }) := by
    unfold runCorpus loadSettings
    rw [bind_assoc]
    refine congrArg _ (funext fun result => ?_)
    cases result <;> rfl
  rw [hrun, bind_apply, hload, hpattern]
  rfl

/-- Results that differ at most in the pattern are the same with a pattern put in. -/
theorem withPattern_eq {result result' : Except Settings.Fault Settings}
    (h : AlikeResults .pattern result result') :
    withPattern pattern result' = withPattern pattern result := by
  cases h with
  | error fault => rfl
  | ok halike => exact congrArg Except.ok (halike pattern)

/-- The rest of a run does not see the bytes of a file that is no document. -/
theorem passesBy_proceed (pattern : String) {place : Location} {bytes old : ByteArray}
    (hno : NoDocument place old tree)
    (halike : ∀ path, Matched tree corpus.directory pattern path → ReadsAlike place bytes tree path)
    (result : Except Settings.Fault Settings) :
    PassesBy place bytes (proceed corpus mode (withPattern pattern result)) tree := by
  cases result with
  | error fault => exact Files.passesBy_pure _
  | ok settings =>
    have hblind : ∀ (event : Event) (tree : Tree), Blind place bytes
        (Console.print ((corpus.form.format mode).describe event) : Process Unit) tree :=
      fun _ _ _ => rfl
    refine PassesBy.bind (Batch.passesBy_runDirectory (quiet_print _) hblind _ mode hno halike)
      (ensures_true _ _) fun result tree' _ _ => ?_
    cases result <;> exact Files.passesBy_pure _

end

/-- Only settings that are refused break a run off with a fault of theirs. -/
theorem resultOn_proceed_eq_error_iff (corpus : Corpus) (mode : Mode) (pattern : String)
    (tree : Tree) {result : Except Settings.Fault Settings} {fault : Settings.Fault} :
    resultOn tree (proceed corpus mode (withPattern pattern result)) =
      .error (.settings corpus.directory fault) ↔ result = .error fault := by
  cases result with
  | error fault' =>
    constructor
    · intro h
      cases h
      rfl
    · intro h
      cases h
      rfl
  | ok settings =>
    have hproceed : Ensures (proceed corpus mode (withPattern pattern (.ok settings))) tree
        fun result _ => result ≠ .error (.settings corpus.directory fault) := by
      refine (ensures_true _ _).bind fun result tree' _ => ?_
      cases result <;> exact ensures_pure nofun
    exact iff_of_false (hproceed {}) nofun

/-! ## What differs in the pattern only -/

/-- A tree in which the settings file of a corpus could have another pattern: `text` is what it
holds and `text'` what it might hold. If the run takes the settings file for a document, both are
refused with the same complaint. -/
structure PatternVaries (corpus : Corpus) (pattern : String) (location : Location)
    (text text' : String) (tree : Tree) : Prop where
  resolve : tree.resolve corpus.settingsFile = .ok (.entry location (.file text.toUTF8))
  same : SameTextBut .pattern text text'
  alike : ∀ path, Matched tree corpus.directory pattern path →
    ReadsAlike location text'.toUTF8 tree path

theorem PatternVaries.noDocument {corpus : Corpus} {pattern : String} {location : Location}
    {text text' : String} {tree : Tree}
    (h : PatternVaries corpus pattern location text text' tree) :
    NoDocument location text.toUTF8 tree where
  stored := Tree.get?_of_resolve h.resolve
  refused := by
    obtain ⟨table, -, htable, -⟩ := h.same
    exact not_encodes_of_isConfiguration
      ⟨text, table, Workflow.Document.fromUTF8?_toUTF8 text, htable⟩

/-- Two runs over a corpus, in these environments and on these trees, differ at most in the pattern
of the settings file or of the environment. -/
structure DifferInPattern (corpus : Corpus) (pattern : String)
    (environment environment' : Settings.Environment) (tree tree' : Tree) : Prop where
  environment : ∀ override ≠ .pattern, environment' override = environment override
  tree : tree' = tree ∨ ∃ location text text',
    PatternVaries corpus pattern location text text' tree ∧
      tree' = tree.refill location text'.toUTF8

/-- Two runs judge what their layers give alike: both take it, or both refuse it with one fault. -/
def JudgedAlike (corpus : Corpus) (environment environment' : Settings.Environment)
    (tree tree' : Tree) : Prop :=
  verdict (resultOn tree' (load corpus.config corpus.directory environment')) =
    verdict (resultOn tree (load corpus.config corpus.directory environment))

/-- The pattern that the layers below the arguments give is usable. -/
def LowerUsable (corpus : Corpus) (environment : Settings.Environment) (tree : Tree) : Prop :=
  ∀ settings, resultOn tree (readBase corpus.config corpus.directory) = .ok settings →
    Usable (Settings.applyOverrides environment settings).batch.pattern

section

variable {environment environment' : Settings.Environment} {corpus : Corpus} {pattern : String}
  {tree tree' : Tree}

/-- What is loaded comes of what the file and the defaults give. -/
theorem gives_load_of_resultOn (environment : Settings.Environment) (corpus : Corpus)
    (tree : Tree) :
    Gives (load corpus.config corpus.directory environment :
        Process (Except Settings.Fault Settings)) tree
      ((resultOn tree (readBase corpus.config corpus.directory)).bind (finish environment)) tree :=
  Settings.gives_load_of_base (gives_of_resultOn (Settings.looksAt_readBase _ _) rfl) environment

theorem resultOn_load (environment : Settings.Environment) (corpus : Corpus) (tree : Tree) :
    resultOn tree (load corpus.config corpus.directory environment) =
      (resultOn tree (readBase corpus.config corpus.directory)).bind (finish environment) :=
  resultOn_of_gives (gives_load_of_resultOn environment corpus tree)

theorem resultOn_readBase {text : String}
    (hread : tree.read corpus.settingsFile = .ok text.toUTF8) :
    resultOn tree (readBase corpus.config corpus.directory) =
      Settings.baseOf corpus.settingsFile text :=
  resultOn_of_gives (Settings.gives_readBase_text hread)

variable (h : DifferInPattern corpus pattern environment environment' tree tree')

include h

theorem DifferInPattern.base :
    AlikeResults .pattern (resultOn tree (readBase corpus.config corpus.directory))
      (resultOn tree' (readBase corpus.config corpus.directory)) := by
  rcases h.tree with rfl | ⟨location, text, text', hvaries, rfl⟩
  · exact .refl _ _
  · rw [resultOn_readBase (Tree.read_eq_ok_iff.2 ⟨_, hvaries.resolve⟩),
      resultOn_readBase (Tree.read_refill_self hvaries.resolve)]
    exact hvaries.same.alikeResults _

/-- Patterns that are usable are judged alike. -/
theorem DifferInPattern.judgedAlike (husable : LowerUsable corpus environment tree)
    (husable' : LowerUsable corpus environment' tree') :
    JudgedAlike corpus environment environment' tree tree' := by
  rw [JudgedAlike, resultOn_load, resultOn_load]
  exact h.base.verdict_eq h.environment husable husable'

/-- Runs that judge alike do the same. -/
theorem DifferInPattern.sameRun (hpattern : corpus.pattern = some pattern) (mode : Mode)
    (halike : JudgedAlike corpus environment environment' tree tree') :
    SameRun tree tree' (runCorpus environment corpus mode)
      (runCorpus environment' corpus mode) := by
  rw [JudgedAlike, resultOn_load, resultOn_load] at halike
  have hload := h.base.finish h.environment halike
  have hrun := runCorpus_apply mode hpattern (gives_load_of_resultOn environment corpus tree)
  have hrun' := runCorpus_apply mode hpattern (gives_load_of_resultOn environment' corpus tree')
  -- from here on both runs have the same settings, and only the trees differ
  rw [withPattern_eq hload] at hrun'
  rcases h.tree with rfl | ⟨location, text, text', hvaries, rfl⟩
  · exact (SameRun.refl _ _).congr hrun hrun'
  · have hpasses := passesBy_proceed mode pattern hvaries.noDocument hvaries.alike
    exact (sameRun_of_passesBy (hpasses _)).congr hrun hrun'

omit h in
theorem resultOn_runCorpus_eq_error_iff (hpattern : corpus.pattern = some pattern) {mode : Mode}
    {fault : Settings.Fault} :
    resultOn tree (runCorpus environment corpus mode) =
      .error (.settings corpus.directory fault) ↔
        resultOn tree (load corpus.config corpus.directory environment) = .error fault := by
  have hrun := congrArg (·.1.1)
    (runCorpus_apply mode hpattern (gives_load_of_resultOn environment corpus tree))
  rw [resultOn_load, ← resultOn_proceed_eq_error_iff corpus mode pattern tree]
  exact iff_of_eq (congrArg (· = _) hrun)

omit h in
/-- Runs with the same result have judged alike. -/
theorem judgedAlike_of_resultOn (hpattern : corpus.pattern = some pattern) {mode : Mode}
    (hsame : resultOn tree' (runCorpus environment' corpus mode) =
      resultOn tree (runCorpus environment corpus mode)) :
    JudgedAlike corpus environment environment' tree tree' := by
  -- a run hands a fault of its settings on, and ends with such a fault for no other reason
  have hfaults : ∀ fault,
      resultOn tree' (load corpus.config corpus.directory environment') = .error fault ↔
        resultOn tree (load corpus.config corpus.directory environment) = .error fault := by
    intro fault
    rw [← resultOn_runCorpus_eq_error_iff hpattern, ← resultOn_runCorpus_eq_error_iff hpattern,
      hsame]
  unfold JudgedAlike
  cases hload : resultOn tree (load corpus.config corpus.directory environment) with
  | error fault => rw [(hfaults fault).2 hload]
  | ok settings =>
    cases hload' : resultOn tree' (load corpus.config corpus.directory environment') with
    | error fault =>
      rw [(hfaults fault).1 hload'] at hload
      cases hload
    | ok settings' => rfl

end

/-! ## Overriding -/

/-- A setting that the environment gives has no effect in the settings file. A pattern that is given
among the arguments leaves to the one below it only whether it is refused: two runs that differ in
that one have the same result exactly if they judge alike. They do if both patterns are usable, and
then they print and store the same, too. -/
theorem overridden_without_effect (environment : Settings.Environment) (corpus : Corpus)
    (mode : Mode) (tree tree' : Tree) :
    (∀ override value text text', given? environment override = some value →
      tree.read corpus.settingsFile = .ok text.toUTF8 →
      tree'.read corpus.settingsFile = .ok text'.toUTF8 → SameTextBut override text text' →
        resultOn tree' (load corpus.config corpus.directory environment) =
          resultOn tree (load corpus.config corpus.directory environment)) ∧
    ∀ pattern environment', corpus.pattern = some pattern →
      DifferInPattern corpus pattern environment environment' tree tree' →
        (resultOn tree' (runCorpus environment' corpus mode) =
            resultOn tree (runCorpus environment corpus mode) ↔
          JudgedAlike corpus environment environment' tree tree') ∧
        (JudgedAlike corpus environment environment' tree tree' →
          SameRun tree tree' (runCorpus environment corpus mode)
            (runCorpus environment' corpus mode)) ∧
        (LowerUsable corpus environment tree → LowerUsable corpus environment' tree' →
          JudgedAlike corpus environment environment' tree tree') := by
  constructor
  · intro override value text text' hgiven hread hread' hsame
    obtain ⟨result, hload, hload'⟩ :=
      Settings.exists_gives_load (σ := Screen) hgiven hread hread' hsame
    rw [resultOn_of_gives hload, resultOn_of_gives hload']
  · intro pattern environment' hpattern hdiffer
    refine ⟨⟨judgedAlike_of_resultOn hpattern, ?_⟩, hdiffer.sameRun hpattern mode,
      hdiffer.judgedAlike⟩
    exact fun halike => (hdiffer.sameRun hpattern mode halike).result

/-! ## A pattern that is not used -/

/-- The directory of one document with a pattern among the arguments. -/
def patternCorpus : Corpus := { bareCorpus with pattern := some "W*.json" }

/-- A settings file with a pattern that is usable. -/
def anySettings : String := "[batch]\npattern = \"*.json\"\n"

/-- A settings file with a pattern that is none. -/
def openSettings : String := "[batch]\npattern = \"W[\"\n"

/-- What a settings file says that has nothing but a pattern. -/
def patternTable (pattern : String) : Toml.Table :=
  [("batch", .table [("pattern", .string pattern)])]

/-- The pattern of a settings file that says nothing else. -/
def patternAlone? : Toml.Table → Option String
  | [("batch", .table [("pattern", .string pattern)])] => some pattern
  | _ => none

theorem read_of_patternAlone? {text pattern : String}
    (h : (Toml.read text).bind patternAlone? = some pattern) :
    Toml.read text = some (patternTable pattern) := by
  obtain ⟨table, hread, halone⟩ := Option.bind_eq_some_iff.1 h
  unfold patternAlone? at halone
  split at halone
  · cases halone
    exact hread
  · cases halone

theorem read_anySettings : Toml.read anySettings = some (patternTable "*.json") :=
  read_of_patternAlone? (by decide +kernel)

theorem read_openSettings : Toml.read openSettings = some (patternTable "W[") :=
  read_of_patternAlone? (by decide +kernel)

theorem sameTableBut_patternTable (pattern pattern' : String) :
    Settings.SameTableBut .pattern (patternTable pattern) (patternTable pattern') where
  group := by
    refine ⟨.named [("pattern", .string pattern)], .named [("pattern", .string pattern')], rfl, rfl,
      ⟨pattern, rfl⟩, ⟨pattern', rfl⟩, fun key position hkey _ => ?_⟩
    have hother : ¬ "pattern" = key := hkey.symm
    simp only [Toml.Section.get?, Toml.Table.get?, if_neg hother]
  others key hkey := by
    have hother : ¬ "batch" = key := hkey.symm
    simp only [patternTable, Toml.Table.get?, if_neg hother]

theorem sameTextBut_openSettings : SameTextBut .pattern anySettings openSettings :=
  ⟨_, _, read_anySettings, read_openSettings, sameTableBut_patternTable _ _⟩

/-- Where the settings file of the directory stands. -/
def settingsPlace : Location := [Text.encode "corpus", Text.encode "flowpatch.toml"]

theorem refill_bareTree (text text' : String) :
    (bareTree (some text)).refill settingsPlace text'.toUTF8 = bareTree (some text') := by
  have hkeeps : ∀ location ≠ settingsPlace, ∀ entry : Entry,
      entry.refill settingsPlace text'.toUTF8 location = entry :=
    fun _ hne _ => Entry.refill_of_ne hne
  simp only [bareTree, Tree.refill, Option.map_some, Option.toList_some, List.map_cons,
    List.map_nil]
  rw [hkeeps _ (by decide), hkeeps _ (by decide)]
  rfl

/-- The pattern among the arguments does not stand for the settings file. -/
theorem patternVaries_bareTree {text text' : String} (hsame : SameTextBut .pattern text text') :
    PatternVaries patternCorpus "W*.json" settingsPlace text text' (bareTree (some text)) where
  resolve := rfl
  same := hsame
  alike := by
    rintro path ⟨glob, entries, hglob, hlist, e, he, -, haccepts, rfl⟩ old hresolve
    have hlisted : (bareTree (some text)).list patternCorpus.directory =
        .ok [⟨Text.encode "W1.json", true⟩, ⟨Text.encode "flowpatch.toml", true⟩] := rfl
    rw [hlisted, Except.ok.injEq] at hlist
    subst hlist
    simp only [List.mem_cons, List.not_mem_nil, or_false] at he
    rcases he with rfl | rfl
    · have hplace : (bareTree (some text)).resolve
          (patternCorpus.directory.join ⟨Text.encode "W1.json"⟩) = .ok (.entry
            [Text.encode "corpus", Text.encode "W1.json"] (.file bareText.toUTF8)) := rfl
      rw [hplace, Except.ok.injEq, Files.Target.entry.injEq] at hresolve
      exact absurd hresolve.1 (by decide)
    · have hrefused : (Glob.read "W*.json").map (Glob.accepts · (Text.encode "flowpatch.toml")) =
          .ok false := by decide +kernel
      rw [hglob, Except.map, haccepts] at hrefused
      cases hrefused

theorem differInPattern_bareTree (environment : Settings.Environment) :
    DifferInPattern patternCorpus "W*.json" environment environment
      (bareTree (some anySettings)) (bareTree (some openSettings)) where
  environment _ _ := rfl
  tree := .inr ⟨settingsPlace, _, _, patternVaries_bareTree sameTextBut_openSettings,
    (refill_bareTree _ _).symm⟩

/-- A run is broken off because of a pattern in the settings file that it would not have used. -/
theorem overridden_pattern_refused :
    DifferInPattern patternCorpus "W*.json" noOverrides noOverrides (bareTree (some anySettings))
        (bareTree (some openSettings)) ∧
      (resultOn (bareTree (some anySettings))
        (runCorpus noOverrides patternCorpus .write)).toOption.isSome ∧
      resultOn (bareTree (some openSettings)) (runCorpus noOverrides patternCorpus .write) =
        .error (.settings bareCorpus.directory (.badPattern ⟨"W[", .unclosedClass⟩)) := by
  refine ⟨differInPattern_bareTree _, ?_⟩
  decide +kernel

/-! ## A bad pattern below a good one -/

/-- An environment that gives a pattern. -/
def givesPattern : Settings.Environment := fun override =>
  if override = .pattern then some "*.json" else none

theorem given?_givesPattern : given? givesPattern .pattern = some "*.json" := by decide +kernel

theorem lowerUsable_givesPattern (tree : Tree) :
    LowerUsable patternCorpus givesPattern tree := by
  intro settings _
  have hpattern : (Settings.applyOverrides givesPattern settings).batch.pattern = "*.json" := by
    simp only [Settings.applyOverrides, Settings.Override.all, List.foldl_cons,
      given?_givesPattern]
    rfl
  rw [hpattern]
  exact ⟨by decide +kernel, _, rfl⟩

theorem read_bareTree (text : String) :
    (bareTree (some text)).read patternCorpus.settingsFile = .ok text.toUTF8 :=
  Tree.read_eq_ok_iff.2 ⟨settingsPlace, rfl⟩

/-- Once the environment gives a pattern, the one in the settings file may be bad. -/
theorem overridden_without_effect_bareTree :
    resultOn (bareTree (some openSettings)) (load none bareCorpus.directory givesPattern) =
        resultOn (bareTree (some anySettings)) (load none bareCorpus.directory givesPattern) ∧
      SameRun (bareTree (some anySettings)) (bareTree (some openSettings))
        (runCorpus givesPattern patternCorpus .write)
        (runCorpus givesPattern patternCorpus .write) := by
  have hall := overridden_without_effect givesPattern patternCorpus .write
    (bareTree (some anySettings)) (bareTree (some openSettings))
  obtain ⟨-, hrun, hjudged⟩ := hall.2 "W*.json" givesPattern rfl (differInPattern_bareTree _)
  refine ⟨hall.1 .pattern "*.json" _ _ given?_givesPattern (read_bareTree _) (read_bareTree _)
    sameTextBut_openSettings, hrun (hjudged ?_ ?_)⟩
  · exact lowerUsable_givesPattern _
  · exact lowerUsable_givesPattern _

end WorkflowRepair.Command
