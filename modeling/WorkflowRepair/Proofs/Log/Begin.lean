import WorkflowRepair.Log.Settings
import WorkflowRepair.Proofs.Files.Change

/-!
# Beginning to log

Beginning to log looks at the settings file, and then makes sure that there is a log. So once a run
has begun to log, the log is there, and a later run that sees the same settings file begins to log
without changing anything (`ensures_begin`, `gives_begin`).
-/

namespace WorkflowRepair.Log

open Files (Path Tree Machine Ensures Gives LooksAt FileAccess Made)
open Files (ensures_true ensures_pure gives_pure gives_exists gives_readText textOf
  textOf_eq_ok_iff looksAt_pure
  looksAt_text ensures_makeDirectories ensures_openLog gives_makeDirectories gives_openLog)

variable {σ : Type}

/-! ## The settings of a log -/

/-- The bytes of a text that is a TOML table. -/
def IsConfiguration (bytes : ByteArray) : Prop :=
  ∃ text table, String.fromUTF8? bytes = some text ∧ Toml.read text = some table

theorem looksAt_readFile (path : Path) :
    LooksAt path (readFile path : Machine σ (Except Fault Stated)) := by
  refine looksAt_text (fun text => ?_) ⟨_, fun tree => gives_pure _⟩
  cases text with
  | error cause => exact ⟨_, fun tree => gives_pure _⟩
  | ok text =>
    dsimp only
    split <;> exact ⟨_, fun tree => gives_pure _⟩

/-- A file states something only if it is a configuration, and a missing one states nothing. -/
theorem ensures_readFile (path : Path) (tree : Tree) :
    Ensures (readFile path : Machine σ (Except Fault Stated)) tree fun result tree' =>
      tree' = tree ∧ ∀ stated, result = .ok stated →
        (∃ bytes, tree.read path = .ok bytes ∧ IsConfiguration bytes) ∨
          tree.contains path = false ∧ stated = {} := by
  refine (gives_exists path).bind ?_
  split
  case isTrue hcontains =>
    refine (gives_readText tree path).bind ?_
    cases htext : textOf (tree.read path) with
    | error cause => exact ensures_pure ⟨rfl, fun stated h => nomatch h⟩
    | ok text =>
      rcases textOf_eq_ok_iff.1 htext with ⟨bytes, hread, htext⟩
      dsimp only
      cases hstated : readStated text with
      | none => exact ensures_pure ⟨rfl, fun stated h => nomatch h⟩
      | some stated =>
        cases htable : Toml.read text with
        | none => simp [readStated, htable] at hstated
        | some table =>
          exact ensures_pure ⟨rfl, fun _ _ => .inl ⟨bytes, hread, text, table, htext, htable⟩⟩
  case isFalse hcontains =>
    refine ensures_pure ⟨rfl, fun stated h => .inr ⟨by simpa using hcontains, ?_⟩⟩
    cases h
    rfl

/-! ## The log -/

/-- The log that settings ask for is there. -/
def Ready (settings : Settings) (tree : Tree) : Prop :=
  ∀ directory, settings.directory = some directory →
    Made ((fileIn directory).parent?.getD ⟨Files.dot⟩) tree ∧
      ∃ bytes, tree.read (fileIn directory) = .ok bytes

theorem Ready.persists {settings : Settings} {tree tree' : Tree} (h : Ready settings tree)
    (hpersists : tree.Persists tree') : Ready settings tree' := by
  intro directory hdirectory
  rcases h directory hdirectory with ⟨hmade, bytes, hread⟩
  exact ⟨hmade.persists hpersists, Tree.exists_read_of_persists hpersists hread⟩

/-- Opening the log adds what is missing, which is nothing if no log is asked for. -/
theorem ensures_openFile (settings : Settings) (tree : Tree) :
    Ensures (openFile settings : Machine σ (Except Fault (Option Path))) tree fun result tree' =>
      tree.Extends tree' ∧ (settings.directory = none → tree' = tree) ∧
        ∀ log, result = .ok log → Ready settings tree' := by
  unfold openFile
  cases hdirectory : settings.directory with
  | none =>
    refine ensures_pure ⟨.refl tree, fun _ => rfl, fun log _ directory h => ?_⟩
    rw [hdirectory] at h
    cases h
  | some directory =>
    refine (ensures_makeDirectories _ tree).bind fun result tree' hmade => ?_
    cases result with
    | error cause =>
      exact ensures_pure ⟨hmade.1, fun h => (nomatch h), fun log h => (nomatch h)⟩
    | ok _ =>
      refine (ensures_openLog (fileIn directory) tree').bind fun result tree'' hopened => ?_
      have hextends := hmade.1.trans hopened.1
      cases result with
      | error cause => exact ensures_pure ⟨hextends, fun h => (nomatch h), fun log h => (nomatch h)⟩
      | ok _ =>
        refine ensures_pure ⟨hextends, fun h => (nomatch h), fun log _ directory' h => ?_⟩
        rw [hdirectory] at h
        cases h
        exact ⟨(hmade.2 rfl).persists hopened.1.persists, hopened.2 rfl⟩

/-- A log that is there is opened without a change. -/
theorem gives_openFile {settings : Settings} {tree : Tree} (h : Ready settings tree) :
    ∃ log, Gives (openFile settings : Machine σ (Except Fault (Option Path))) tree (.ok log) tree := by
  unfold openFile
  cases hdirectory : settings.directory with
  | none => exact ⟨none, gives_pure _⟩
  | some directory =>
    rcases h directory hdirectory with ⟨hmade, bytes, hread⟩
    exact ⟨some (fileIn directory), (gives_makeDirectories hmade).bind
      ((gives_openLog hread).bind (gives_pure _))⟩

/-! ## Beginning -/

/-- The settings of a log, given what the settings file under a path states. -/
def settingsFrom (path : Path) (verbose : Bool) (stated : Stated) : Settings :=
  .withVerbose verbose (.apply (path.parent?.getD ⟨Files.dot⟩) stated {})

theorem gives_load {path : Path} {stated : Stated} {tree : Tree} (verbose : Bool)
    (h : Gives (readFile path : Machine σ (Except Fault Stated)) tree (.ok stated) tree) :
    Gives (load (some path) verbose : Machine σ (Except Fault Settings)) tree
      (settingsFrom path verbose stated).check tree :=
  h.bind (gives_pure _)

variable (σ) in
/-- A run that reads the settings file under a path can log as the file states, and the log is
there. -/
structure Begun (path : Path) (verbose : Bool) (stated : Stated) (tree : Tree) : Prop where
  states : Gives (readFile path : Machine σ (Except Fault Stated)) tree (.ok stated) tree
  directive : isDirective (settingsFrom path verbose stated).level = true
  directives : areDirectives (settingsFrom path verbose stated).level = true
  ready : Ready (settingsFrom path verbose stated) tree

variable {path : Path} {verbose : Bool} {stated : Stated} {tree tree' : Tree}

theorem Begun.persists (h : Begun σ path verbose stated tree)
    (hview : tree'.view path = tree.view path) (hpersists : tree.Persists tree') :
    Begun σ path verbose stated tree' where
  states := (looksAt_readFile path).gives hview h.states
  directive := h.directive
  directives := h.directives
  ready := h.ready.persists hpersists

/-- What can be logged as the file states can be logged with more, too. -/
theorem Begun.louder (h : Begun σ path false stated tree) : Begun σ path true stated tree where
  states := h.states
  directive := by
    have hlevel : (settingsFrom path true stated).level = "info" := rfl
    rw [hlevel]
    decide +kernel
  directives := by
    have hlevel : (settingsFrom path true stated).level = "info" := rfl
    rw [hlevel]
    decide +kernel
  ready := h.ready

/-- Where a run has begun to log, the next one begins without a change. -/
theorem gives_begin (h : Begun σ path verbose stated tree) :
    ∃ log, Gives (Log.begin (some path) verbose : Machine σ (Except Fault (Option Path))) tree
      (.ok log) tree := by
  rcases gives_openFile (σ := σ) h.ready with ⟨log, hopen⟩
  refine ⟨log, (gives_load verbose h.states).bind ?_⟩
  rw [Settings.check, if_pos h.directive]
  dsimp only
  rw [if_pos h.directives]
  exact hopen

theorem directory_settingsFrom_empty (path : Path) (verbose : Bool) :
    (settingsFrom path verbose {}).directory = none := by
  cases verbose <;> rfl

theorem ensures_load (path : Path) (verbose : Bool) (tree : Tree) :
    Ensures (load (some path) verbose : Machine σ (Except Fault Settings)) tree
      fun result tree' => tree' = tree ∧ ∀ settings, result = .ok settings →
        ∃ stated, settings = settingsFrom path verbose stated ∧
          Gives (readFile path : Machine σ (Except Fault Stated)) tree (.ok stated) tree ∧
          isDirective settings.level = true ∧
          ((∃ bytes, tree.read path = .ok bytes ∧ IsConfiguration bytes) ∨
            tree.contains path = false ∧ stated = {}) := by
  refine (((looksAt_readFile path).ensures_gives tree).and (ensures_readFile path tree)).bind ?_
  rintro result tree' ⟨⟨rfl, hstates⟩, -, hfound⟩
  cases result with
  | error fault => exact ensures_pure ⟨rfl, fun settings h => nomatch h⟩
  | ok stated =>
    refine ensures_pure ⟨rfl, fun settings h => ?_⟩
    unfold Settings.check at h
    split at h
    case isTrue hdirective =>
      cases h
      exact ⟨stated, rfl, hstates, hdirective, hfound stated rfl⟩
    case isFalse => cases h

/-- Beginning to log only adds what is missing, whether it succeeds or not. -/
theorem ensures_begin_extends (path : Path) (verbose : Bool) (tree : Tree) :
    Ensures (Log.begin (some path) verbose : Machine σ (Except Fault (Option Path))) tree
      fun _ begun => tree.Extends begun := by
  refine (ensures_load path verbose tree).bind ?_
  rintro result tree' ⟨rfl, -⟩
  cases result with
  | error fault => exact ensures_pure (.refl tree')
  | ok settings =>
    dsimp only
    split
    case isTrue => exact (ensures_openFile settings tree').mono fun _ _ hopened => hopened.1
    case isFalse => exact ensures_pure (.refl tree')

/-- Beginning to log leaves a log, and the settings file as it was. -/
theorem ensures_begin (path : Path) (verbose : Bool) (tree : Tree) :
    Ensures (Log.begin (some path) verbose : Machine σ (Except Fault (Option Path))) tree
      fun result begun => ∀ log, result = .ok log →
        begun.view path = tree.view path ∧ (∃ stated, Begun σ path verbose stated begun) ∧
          ∀ bytes, begun.read path = .ok bytes → IsConfiguration bytes := by
  refine (ensures_load path verbose tree).bind ?_
  rintro result tree' ⟨rfl, hloaded⟩
  cases result with
  | error fault => exact ensures_pure fun log h => nomatch h
  | ok settings =>
    rcases hloaded settings rfl with ⟨stated, rfl, hstates, hdirective, hfound⟩
    dsimp only
    split
    case isFalse => exact ensures_pure fun log h => nomatch h
    case isTrue hdirectives =>
      refine (ensures_openFile _ tree').mono ?_
      rintro result begun ⟨hextends, hsame, hready⟩ log hlog
      -- opening the log adds entries only, and none at all without settings from a file
      have hview : begun.view path = tree'.view path := by
        rcases hfound with ⟨bytes, hread, -⟩ | ⟨-, rfl⟩
        · exact hextends.view (Tree.contains_of_read hread)
        · rw [hsame (directory_settingsFrom_empty path verbose)]
      refine ⟨hview, ⟨stated, (looksAt_readFile path).gives hview hstates, hdirective, hdirectives,
        hready log hlog⟩, fun bytes hread => ?_⟩
      have hread' := Tree.read_of_view hview.symm hread
      rcases hfound with ⟨bytes', hread'', hconfiguration⟩ | ⟨hmissing, -⟩
      · rw [hread'] at hread''
        cases hread''
        exact hconfiguration
      · rw [Tree.contains_of_read hread'] at hmissing
        cases hmissing

end WorkflowRepair.Log
