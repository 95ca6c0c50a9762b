import WorkflowRepair.Proofs.Batch.Events
import WorkflowRepair.Proofs.Command.Deeds

/-!
# What a run prints

An observer of a run that prints has the texts among the deeds for its register (`printing`). So
what a run prints are the descriptions of the events that belong to its summary, in their order, and
nothing else (`prints_runFiles`). A report in whatever form is determined by the summary of the run.
-/

namespace WorkflowRepair.Command

open Batch (Event Mode Observes Register Summary)
open Files (Path FileAccess)
open Repair (RuleSet)
open Workflow (Failure)

/-- What a deed prints. -/
def Deed.text? : Deed → Option String
  | .print text => some text
  | _ => none

/-- What deeds print, one text after the other. -/
def prints (deeds : List Deed) : List String := deeds.filterMap Deed.text?

@[simp]
theorem prints_append (first rest : List Deed) :
    prints (first ++ rest) = prints first ++ prints rest :=
  List.filterMap_append

variable {W α β : Type}

/-- An action prints texts that satisfy a condition together with its result. -/
abbrev Prints (action : Acting W α) (post : α → List String → Prop) : Prop :=
  Does action fun a deeds => post a (prints deeds)

theorem prints_pure {a : α} {post : α → List String → Prop} (h : post a []) :
    Prints (pure a : Acting W α) post :=
  does_pure h

theorem Prints.bind {action : Acting W α} {next : α → Acting W β} {post : α → List String → Prop}
    {post' : β → List String → Prop} (h : Prints action post)
    (hnext : ∀ a first, post a first → Prints (next a) fun b rest => post' b (first ++ rest)) :
    Prints (action >>= next) post' := by
  refine Does.bind h fun a first hfirst => (hnext a _ hfirst).mono fun b rest hrest => ?_
  rwa [prints_append]

/-- Nothing is printed if only deeds are done that print nothing. -/
theorem Confined.prints_nothing {action : Acting W α} {allowed : List Deed}
    (h : Confined action allowed) (hallowed : prints allowed = []) :
    Prints action fun _ texts => texts = [] := by
  refine h.mono fun a deeds hdeeds => ?_
  exact List.sublist_nil.1 (hallowed ▸ hdeeds.filterMap Deed.text?)

/-! ## The register of texts -/

/-- The notes that a command makes by printing. -/
def printing : Register (List Deed) String where
  Adds before texts after := ∃ deeds, after = before ++ deeds ∧ prints deeds = texts
  nothing before := ⟨[], (List.append_nil before).symm, rfl⟩
  more := by
    rintro before first _ rest _ ⟨deeds, rfl, rfl⟩ ⟨deeds', rfl, rfl⟩
    exact ⟨deeds ++ deeds', List.append_assoc before deeds deeds', prints_append deeds deeds'⟩

section

variable {action : Acting W α} {post : α → List String → Prop}

theorem notes_printing (h : Prints action post) : printing.Notes action post := by
  intro before
  refine (h before).mono ?_
  rintro a _ ⟨deeds, rfl, hpost⟩
  exact ⟨prints deeds, ⟨deeds, rfl, rfl⟩, hpost⟩

theorem prints_of_notes (h : printing.Notes action post) : Prints action post := by
  intro before
  refine (h before).mono ?_
  rintro a _ ⟨_, ⟨deeds, rfl, rfl⟩, hpost⟩
  exact ⟨deeds, rfl, hpost⟩

theorem silent_perform (deed : Deed) (operation : StateM W α) (hdeed : prints [deed] = []) :
    printing.Silent (perform deed operation) :=
  notes_printing ((confined_perform deed operation).prints_nothing hdeed)

end

/-! ## Runs -/

section

variable (describe : Event → String)

/-- An observer that prints a description of what it is told. -/
abbrev telling (event : Event) : Acting W Unit := Console.print (describe event)

theorem prints_telling (event : Event) :
    Prints (telling describe event : Acting W Unit) fun _ texts => texts = [describe event] :=
  does_perform _ _ fun _ => rfl

variable [FileAccess (StateM W)]

theorem observes_telling :
    Observes printing (telling describe : Event → Acting W Unit) describe where
  tell event := notes_printing (prints_telling describe event)
  read path := silent_perform (.read path) _ rfl
  createTemporary directory := silent_perform (.createTemporary directory) _ rfl
  append _ bytes := silent_perform (.append bytes) _ rfl
  synchronize _ := silent_perform .synchronize _ rfl
  moveTo _ path := silent_perform (.moveTo path) _ rfl
  discard _ := silent_perform .discard _ rfl

variable (rules : RuleSet) (mode : Mode)

/-- A run prints the descriptions of the events that belong to its summary. -/
theorem prints_runFiles (paths : List Path) :
    Prints (Batch.runFiles rules mode (telling describe) paths : Acting W Summary)
      fun summary texts => texts = summary.events.map describe :=
  prints_of_notes ((observes_telling describe).runFiles rules mode paths)

theorem prints_runDirectory (directory : Path) (pattern : String) :
    Prints (Batch.runDirectory rules mode (telling describe) directory pattern :
        Acting W (Except Failure Summary)) fun result texts =>
      ∀ summary, result = .ok summary → texts = summary.events.map describe := by
  refine Prints.bind ((confined_discover directory pattern).prints_nothing rfl) ?_
  rintro result _ rfl
  cases result with
  | error failure => exact prints_pure fun summary h => nomatch h
  | ok paths =>
    refine Prints.bind (prints_runFiles describe rules mode paths) ?_
    rintro summary _ rfl
    refine prints_pure fun summary' h => ?_
    cases h
    exact List.append_nil _

/-- A run over a corpus prints the descriptions of its events in the form that is asked for. -/
theorem prints_runCorpus (environment : Settings.Environment) (corpus : Corpus) :
    Prints (runCorpus environment corpus mode : Acting W (Except Fatal Summary)) fun result texts =>
      ∀ summary, result = .ok summary →
        texts = summary.events.map (corpus.form.format mode).describe := by
  refine Prints.bind ((confined_loadSettings corpus environment).prints_nothing rfl) ?_
  rintro result _ rfl
  cases result with
  | error fault => exact prints_pure fun summary h => nomatch h
  | ok settings =>
    refine Prints.bind (prints_runDirectory _ _ mode _ _) ?_
    intro result texts hrun
    cases result with
    | error failure => exact prints_pure fun summary h => nomatch h
    | ok summary =>
      refine prints_pure fun summary' h => ?_
      cases h
      rw [List.append_nil]
      exact hrun summary rfl

end

end WorkflowRepair.Command
