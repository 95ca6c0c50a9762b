import WorkflowRepair.Proofs.Command.Again

/-!
# Deeds

A command runs in a world of which nothing is known: a type of states and an answer to every
operation on files, which may be any fault. What the command does there, one operation after the
other, is put down as a list of deeds.

`Does` says of an action which deeds it adds, with what result, and `Confined` that it adds only
deeds of a given list, in the order of that list; an error leaves out the rest of them. So what a
sequence of actions does is put together from what each of them does (`Does.bind`,
`Confined.bind`), and no lemma about a command looks into the world.

* `confined_loadSettings` — loading the settings of a run looks at nothing but their file;
* `confined_discover` — finding its documents does nothing but list their directory.
-/

namespace WorkflowRepair.Command

open Files (Path Fault FileAccess DirectoryEntry Ensures)
open Files (ensures_pure)
open Workflow (Failure)

/-- One operation, on the files or on the console. -/
inductive Deed where
  /-- Ask whether a path leads to something. -/
  | probe (path : Path)
  | probeDirectory (path : Path)
  | read (path : Path)
  | list (directory : Path)
  | makeDirectory (path : Path)
  | openLog (path : Path)
  | createTemporary (directory : Path)
  | append (bytes : ByteArray)
  | synchronize
  | moveTo (path : Path)
  | discard
  | print (text : String)
  | complain (text : String)

/-- Actions in a world whose states are `W`, with the deeds so far. -/
abbrev Acting (W : Type) := StateT (List Deed) (StateM W)

variable {W α β : Type}

/-- Do a deed. -/
def perform (deed : Deed) (operation : StateM W α) : Acting W α := fun deeds => do
  let a ← operation
  return (a, deeds ++ [deed])

/-- The files of a world, with every operation put down. -/
instance [FileAccess (StateM W)] : FileAccess (Acting W) where
  Temporary := FileAccess.Temporary (StateM W)
  exists? path := perform (.probe path) (FileAccess.exists? path)
  isDirectory path := perform (.probeDirectory path) (FileAccess.isDirectory path)
  read path := perform (.read path) (FileAccess.read path)
  list directory := perform (.list directory) (FileAccess.list directory)
  makeDirectory path := perform (.makeDirectory path) (FileAccess.makeDirectory path)
  openLog path := perform (.openLog path) (FileAccess.openLog path)
  createTemporary directory :=
    perform (.createTemporary directory) (FileAccess.createTemporary directory)
  append temporary bytes := perform (.append bytes) (FileAccess.append temporary bytes)
  synchronize temporary := perform .synchronize (FileAccess.synchronize temporary)
  moveTo temporary path := perform (.moveTo path) (FileAccess.moveTo temporary path)
  discard temporary := perform .discard (FileAccess.discard temporary)

/-- A console that only puts down what it is told. -/
instance : Console (Acting W) where
  print text := perform (.print text) (pure ())
  complain text := perform (.complain text) (pure ())

/-! ## What an action does -/

/-- Whatever was done before and whatever the world is like, an action does deeds that satisfy a
condition together with its result. -/
def Does (action : Acting W α) (post : α → List Deed → Prop) : Prop :=
  ∀ before, Ensures action before fun a after => ∃ deeds, after = before ++ deeds ∧ post a deeds

/-- An action does nothing but the given deeds at most, in this order. -/
abbrev Confined (action : Acting W α) (allowed : List Deed) : Prop :=
  Does action fun _ deeds => deeds.Sublist allowed

section

variable {action : Acting W α} {post : α → List Deed → Prop} {allowed : List Deed}

theorem Does.mono {post' : α → List Deed → Prop} (h : Does action post)
    (himp : ∀ a deeds, post a deeds → post' a deeds) : Does action post' := by
  refine fun before => (h before).mono ?_
  rintro a after ⟨deeds, rfl, hpost⟩
  exact ⟨deeds, rfl, himp a deeds hpost⟩

theorem does_pure {a : α} (h : post a []) : Does (pure a : Acting W α) post :=
  fun before => ensures_pure ⟨[], (List.append_nil before).symm, h⟩

/-- A deed is put down whatever the world answers. -/
theorem does_perform (deed : Deed) (operation : StateM W α) (h : ∀ a, post a [deed]) :
    Does (perform deed operation) post :=
  fun _ _ => ⟨[deed], rfl, h _⟩

theorem Does.bind {next : α → Acting W β} {post' : β → List Deed → Prop} (h : Does action post)
    (hnext : ∀ a first, post a first → Does (next a) fun b rest => post' b (first ++ rest)) :
    Does (action >>= next) post' := by
  refine fun before => (h before).bind ?_
  rintro a after ⟨first, rfl, hpost⟩
  -- the second action goes on from the deeds of the first
  refine (hnext a first hpost (before ++ first)).mono ?_
  rintro b after' ⟨rest, rfl, hpost'⟩
  exact ⟨first ++ rest, List.append_assoc before first rest, hpost'⟩

theorem confined_pure (a : α) (allowed : List Deed) : Confined (pure a : Acting W α) allowed :=
  does_pure allowed.nil_sublist

theorem confined_perform (deed : Deed) (operation : StateM W α) :
    Confined (perform deed operation) [deed] :=
  does_perform deed operation fun _ => .refl [deed]

theorem Confined.bind {next : α → Acting W β} {allowed' : List Deed} (h : Confined action allowed)
    (hnext : ∀ a, Confined (next a) allowed') :
    Confined (action >>= next) (allowed ++ allowed') := by
  refine Does.bind h fun a first hfirst => (hnext a).mono fun b rest hrest => ?_
  exact hfirst.append hrest

/-- What follows may come without a further deed. -/
theorem Confined.finish {next : α → Acting W β} (h : Confined action allowed)
    (hnext : ∀ a, Confined (next a) []) : Confined (action >>= next) allowed :=
  (h.bind hnext).mono fun _ _ hdeeds => allowed.append_nil ▸ hdeeds

end

/-! ## Playing an action -/

/-- What has been done, and the state that the world is in. -/
structure Scene (W : Type) where
  deeds : List Deed := []
  world : W

/-- What an action results in, and the scene that it leaves. -/
def play (scene : Scene W) (action : Acting W α) : α × Scene W :=
  let ((a, deeds), world) := action scene.deeds scene.world
  (a, ⟨deeds, world⟩)

section

variable {action : Acting W α} (scene : Scene W)

theorem play_bind (next : α → Acting W β) :
    play scene (action >>= next) = play (play scene action).2 (next (play scene action).1) :=
  rfl

/-- The deeds that an action does are added to those before it. -/
theorem Does.play {post : α → List Deed → Prop} (h : Does action post) :
    ∃ deeds, (Command.play scene action).2.deeds = scene.deeds ++ deeds ∧
      post (Command.play scene action).1 deeds :=
  h scene.deeds scene.world

theorem play_of_ensures {post : α → Prop}
    (h : ∀ deeds, Ensures action deeds fun a _ => post a) : post (play scene action).1 :=
  h scene.deeds scene.world

end

/-! ## Looking -/

section

variable [FileAccess (StateM W)]

theorem confined_readText (path : Path) :
    Confined (Files.readText path : Acting W (Except Fault String)) [.read path] := by
  refine (confined_perform (.read path) _).finish fun result => ?_
  cases result with
  | error fault => exact confined_pure _ []
  | ok bytes =>
    dsimp only
    split <;> exact confined_pure _ []

/-- What loading the settings of a run may look at. -/
def settingsLooks (file : Path) : List Deed := [.probe file, .read file]

theorem confined_readFile (path : Path) :
    Confined (Settings.readFile path : Acting W (Except Settings.Fault (Option Settings)))
      (settingsLooks path) := by
  refine Confined.bind (confined_perform (.probe path) _) fun found => ?_
  split
  case isTrue =>
    refine (confined_readText path).finish fun result => ?_
    cases result with
    | error cause => exact confined_pure _ []
    | ok text =>
      dsimp only
      split <;> exact confined_pure _ []
  case isFalse => exact confined_pure _ _

theorem confined_readBase (asked : Option Path) (directory : Path) :
    Confined (Settings.readBase asked directory : Acting W (Except Settings.Fault Settings))
      (settingsLooks (asked.getD (Settings.defaultFile directory))) := by
  refine (confined_readFile _).finish fun result => ?_
  rcases result with fault | _ | settings
  · exact confined_pure _ []
  · cases asked <;> exact confined_pure _ []
  · exact confined_pure _ []

/-- Loading the settings of a run only looks at the settings file. -/
theorem confined_loadSettings (corpus : Corpus) (environment : Settings.Environment) :
    Confined (loadSettings corpus environment : Acting W (Except Settings.Fault Settings))
      (settingsLooks corpus.settingsFile) := by
  have hload : Confined (Settings.load corpus.config corpus.directory environment :
      Acting W (Except Settings.Fault Settings)) (settingsLooks corpus.settingsFile) := by
    refine (confined_readBase _ _).finish fun result => ?_
    cases result <;> exact confined_pure _ []
  refine hload.finish fun result => ?_
  cases result <;> exact confined_pure _ []

/-- Finding the documents of a run only lists the directory. -/
theorem confined_discover (directory : Path) (pattern : String) :
    Confined (Batch.discover directory pattern : Acting W (Except Failure (List Path)))
      [.list directory] := by
  unfold Batch.discover
  split
  case h_1 => exact confined_pure _ _
  case h_2 glob hglob =>
    refine (confined_perform (.list directory) _).finish fun result => ?_
    cases result <;> exact confined_pure _ []

end

end WorkflowRepair.Command
