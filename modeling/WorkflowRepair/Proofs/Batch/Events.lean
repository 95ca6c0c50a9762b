import WorkflowRepair.Proofs.Files.Machine
import WorkflowRepair.Batch.Run

/-!
# What a run tells its observer

A run over documents passes on the events of its outcomes, document by document, and the summary at
the end (`Summary.events`). Nothing else is passed on, whatever the files are like: a document that
cannot be read, or cannot be stored, has its events like any other.

What an observer keeps of the events is a matter of the observer. So the lemmas about runs are about
a *register*, some part of a state to which notes are added. They ask of the observer no more than
that each event adds one note, and of the operations on files that they add none (`Observes`).

* `Register.Notes` — which notes an action adds, whatever else is in the state;
* `Observes.runFiles` — a run adds the notes for the events of its summary, in their order.
-/

namespace WorkflowRepair.Batch

open Files (Path Fault Ensures FileAccess)
open Files (ensures_pure)
open Repair (RuleSet Change)
open Workflow (Document Failure)

variable {F σ α α' β : Type}

/-- What an observer is told of a document, given its outcome. -/
def Outcome.events (outcome : Outcome) : List Event :=
  .started outcome.path :: (outcome.changes.map (.applied outcome.path) ++ [.finished outcome])

/-- What an observer is told of a run, given its summary. -/
def Summary.events (summary : Summary) : List Event :=
  summary.outcomes.flatMap Outcome.events ++ [.completed summary]

/-! ## Registers -/

/-- A part of a state in which notes are kept: `Adds` says which notes lead from one state to
another. -/
structure Register (F β : Type) where
  Adds : F → List β → F → Prop
  nothing : ∀ state, Adds state [] state
  more : ∀ {before first between rest after}, Adds before first between →
    Adds between rest after → Adds before (first ++ rest) after

namespace Register

variable (register : Register F β)

/-- An action adds notes that satisfy a condition together with its result. -/
def Notes (action : StateT F (StateM σ) α) (post : α → List β → Prop) : Prop :=
  ∀ before, Ensures action before fun a after =>
    ∃ notes, register.Adds before notes after ∧ post a notes

/-- An action adds no notes. -/
abbrev Silent (action : StateT F (StateM σ) α) : Prop :=
  register.Notes action fun _ notes => notes = []

variable {register} {action : StateT F (StateM σ) α} {post : α → List β → Prop}

theorem Notes.mono {post' : α → List β → Prop} (h : register.Notes action post)
    (himp : ∀ a notes, post a notes → post' a notes) : register.Notes action post' := by
  intro before
  refine (h before).mono ?_
  rintro a after ⟨notes, hadds, hpost⟩
  exact ⟨notes, hadds, himp a notes hpost⟩

theorem notes_pure {a : α} (h : post a []) :
    register.Notes (pure a : StateT F (StateM σ) α) post :=
  fun before => ensures_pure ⟨[], register.nothing before, h⟩

theorem Notes.bind {next : α → StateT F (StateM σ) α'} {post' : α' → List β → Prop}
    (h : register.Notes action post)
    (hnext : ∀ a first, post a first → register.Notes (next a) fun b rest =>
      post' b (first ++ rest)) : register.Notes (action >>= next) post' := by
  intro before
  refine (h before).bind ?_
  rintro a between ⟨first, hfirst, hpost⟩
  -- the second action goes on from the notes of the first
  refine (hnext a first hpost between).mono ?_
  rintro b after ⟨rest, hrest, hpost'⟩
  exact ⟨first ++ rest, register.more hfirst hrest, hpost'⟩

/-- What comes behind a silent action adds all the notes. -/
theorem Silent.bind {next : α → StateT F (StateM σ) α'} {post' : α' → List β → Prop}
    (h : register.Silent action) (hnext : ∀ a, register.Notes (next a) post') :
    register.Notes (action >>= next) post' := by
  apply Notes.bind h
  rintro a _ rfl
  exact hnext a

theorem silent_pure (a : α) : register.Silent (pure a : StateT F (StateM σ) α) :=
  notes_pure rfl

end Register

open Register (notes_pure silent_pure)

/-! ## Runs -/

/-- An observer adds one note for each event, and the operations of a run on files add none. -/
structure Observes [FileAccess (StateT F (StateM σ))] (register : Register F β)
    (tell : Event → StateT F (StateM σ) Unit) (describe : Event → β) : Prop where
  tell : ∀ event, register.Notes (tell event) fun _ notes => notes = [describe event]
  read : ∀ path, register.Silent (FileAccess.read path : StateT F (StateM σ) _)
  createTemporary : ∀ directory,
    register.Silent (FileAccess.createTemporary directory : StateT F (StateM σ) _)
  append : ∀ temporary bytes,
    register.Silent (FileAccess.append temporary bytes : StateT F (StateM σ) _)
  synchronize : ∀ temporary,
    register.Silent (FileAccess.synchronize temporary : StateT F (StateM σ) _)
  moveTo : ∀ temporary path,
    register.Silent (FileAccess.moveTo temporary path : StateT F (StateM σ) _)
  discard : ∀ temporary,
    register.Silent (FileAccess.discard temporary : StateT F (StateM σ) _)

namespace Observes

variable [FileAccess (StateT F (StateM σ))] {register : Register F β}
  {tell : Event → StateT F (StateM σ) Unit} {describe : Event → β}
  (h : Observes register tell describe)

include h

theorem load (path : Path) :
    register.Silent (Batch.load path : StateT F (StateM σ) (Except Failure Document)) := by
  apply Register.Silent.bind (h.read path)
  intro result
  cases result <;> exact silent_pure _

theorem fillAndMove (temporary : FileAccess.Temporary (StateT F (StateM σ))) (path : Path)
    (bytes : ByteArray) :
    register.Silent (Files.fillAndMove temporary path bytes :
      StateT F (StateM σ) (Except Fault Unit)) := by
  apply Register.Silent.bind (h.append temporary bytes)
  intro appended
  cases appended with
  | error fault => exact silent_pure _
  | ok _ =>
    apply Register.Silent.bind (h.synchronize temporary)
    intro synchronized
    cases synchronized with
    | error fault => exact silent_pure _
    | ok _ => exact h.moveTo temporary path

theorem save (path : Path) (bytes : ByteArray) :
    register.Silent (Files.save path bytes : StateT F (StateM σ) (Except Fault Unit)) := by
  apply Register.Silent.bind (h.createTemporary path.directory)
  intro created
  cases created with
  | error fault => exact silent_pure _
  | ok temporary =>
    apply Register.Silent.bind (h.fillAndMove temporary path bytes)
    intro moved
    cases moved with
    | ok _ => exact silent_pure _
    | error fault => exact Register.Silent.bind (h.discard temporary) fun _ => silent_pure _

theorem store (document : Document) :
    register.Silent (Batch.store document : StateT F (StateM σ) (Except Fault Unit)) :=
  h.save document.path _

theorem tellChanges (path : Path) (changes : List Change) :
    register.Notes (Batch.tellChanges tell path changes) fun _ notes =>
      notes = changes.map fun change => describe (.applied path change) := by
  induction changes with
  | nil => exact notes_pure rfl
  | cons change changes ih =>
    apply Register.Notes.bind (h.tell _)
    rintro _ _ rfl
    apply ih.mono
    rintro _ rest rfl
    rfl

variable (rules : RuleSet) (mode : Mode)

/-- A document adds the notes for its changes, whether it can be stored or not. -/
theorem patchFile (path : Path) :
    register.Notes (Batch.patchFile rules mode tell path) fun outcome notes =>
      outcome.path = path ∧
        notes = outcome.changes.map fun change => describe (.applied path change) := by
  apply Register.Silent.bind (h.load path)
  intro result
  cases result with
  | error failure => exact notes_pure ⟨rfl, rfl⟩
  | ok document =>
    dsimp only
    apply Register.Notes.bind (h.tellChanges path _)
    rintro _ _ rfl
    split
    case isTrue hstores =>
      apply Register.Silent.bind (h.store _)
      intro stored
      -- storing adds no change to the outcome
      cases stored <;> exact notes_pure ⟨rfl, List.append_nil _⟩
    case isFalse hstores => exact notes_pure ⟨rfl, List.append_nil _⟩

theorem runFile (path : Path) :
    register.Notes (Batch.runFile rules mode tell path) fun outcome notes =>
      notes = outcome.events.map describe := by
  apply Register.Notes.bind (h.tell _)
  rintro _ _ rfl
  apply Register.Notes.bind (h.patchFile rules mode path)
  rintro outcome _ ⟨rfl, rfl⟩
  apply Register.Notes.bind (h.tell _)
  rintro _ _ rfl
  apply notes_pure
  simp [Outcome.events, Function.comp_def]

theorem runFilesFrom (summary : Summary) (paths : List Path) :
    register.Notes (Batch.runFilesFrom rules mode tell summary paths) fun summary' notes =>
      ∃ outcomes, summary'.outcomes = summary.outcomes ++ outcomes ∧
        notes = (outcomes.flatMap Outcome.events).map describe := by
  induction paths generalizing summary with
  | nil => exact notes_pure ⟨[], (List.append_nil _).symm, rfl⟩
  | cons path paths ih =>
    apply Register.Notes.bind (h.runFile rules mode path)
    rintro outcome _ rfl
    apply (ih (summary.record outcome)).mono
    rintro summary' _ ⟨outcomes, houtcomes, rfl⟩
    refine ⟨outcome :: outcomes, ?_, ?_⟩
    · rw [houtcomes, Summary.record, List.append_assoc, List.singleton_append]
    · rw [List.flatMap_cons, List.map_append]

/-- A run adds the notes for the events that belong to its summary. -/
theorem runFiles (paths : List Path) :
    register.Notes (Batch.runFiles rules mode tell paths) fun summary notes =>
      notes = summary.events.map describe := by
  apply Register.Notes.bind (h.runFilesFrom rules mode _ paths)
  rintro summary _ ⟨outcomes, houtcomes, rfl⟩
  apply Register.Notes.bind (h.tell _)
  rintro _ _ rfl
  apply notes_pure
  rw [Summary.events, houtcomes]
  simp

end Observes

end WorkflowRepair.Batch
