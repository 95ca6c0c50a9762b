import WorkflowRepair.Proofs.Batch.Events
import WorkflowRepair.Proofs.Batch.Tally
import WorkflowRepair.Report.Sink

/-!
# Sinks

A sink takes the events of a run one by one into a state of its own. The state it ends up in is
determined by the summary of the run (`state_watched`), as the events are. So a report, which is a
sink that writes, says nothing that could not be written down afterwards with the summary alone
(`Format.transcript`).

* `foldl_reporting` — a report writes the texts for the events, as far as there is room;
* `runFiles_told` — what a sink is told in a run, what the summary says, and what a report in lines
  says agree.
-/

namespace WorkflowRepair.Report

open Batch (Event Summary)

/-- The report of a run in full, given its summary. -/
def Format.transcript (format : Format) (summary : Summary) : String :=
  String.join (summary.events.map format.describe)

/-- A sink that writes what a report says about each event. -/
def reporting (format : Format) (output : Output) (event : Event) : Output :=
  output.write (Text.encode (format.describe event))

theorem Output.write_nil (output : Output) : output.write [] = output := by
  unfold Output.write
  obtain ⟨written, _ | room⟩ := output <;> simp

/-- It makes no difference in how many pieces bytes are written, even if the room ends in one. -/
theorem Output.write_write (output : Output) (first rest : List UInt8) :
    (output.write first).write rest = output.write (first ++ rest) := by
  unfold Output.write
  obtain ⟨written, _ | room⟩ := output
  · simp
  · simp [List.take_append, Nat.sub_sub]

theorem encode_append (first rest : String) :
    Text.encode (first ++ rest) = Text.encode first ++ Text.encode rest := by
  unfold Text.encode
  simp

theorem foldl_reporting (format : Format) (events : List Event) (output : Output) :
    events.foldl (reporting format) output =
      output.write (Text.encode (String.join (events.map format.describe))) := by
  induction events generalizing output with
  | nil => exact output.write_nil.symm
  | cons event events ih =>
    rw [List.foldl_cons, ih, reporting, Output.write_write, ← encode_append, List.map_cons,
      String.join_cons]

end WorkflowRepair.Report

namespace WorkflowRepair.Batch

open Files (Path Ensures FileAccess)
open Repair (RuleSet)
open Report (Format Output reporting foldl_reporting)

variable {W S α : Type}

/-- The state that a sink has for itself. -/
structure Sink (S : Type) where
  state : S

/-- The files of a world, with a sink that they have nothing to do with. -/
instance [FileAccess (StateM W)] : FileAccess (StateT (Sink S) (StateM W)) where
  Temporary := FileAccess.Temporary (StateM W)
  exists? path := StateT.lift (FileAccess.exists? path)
  isDirectory path := StateT.lift (FileAccess.isDirectory path)
  read path := StateT.lift (FileAccess.read path)
  list path := StateT.lift (FileAccess.list path)
  makeDirectory path := StateT.lift (FileAccess.makeDirectory path)
  openLog path := StateT.lift (FileAccess.openLog path)
  createTemporary directory := StateT.lift (FileAccess.createTemporary directory)
  append temporary bytes := StateT.lift (FileAccess.append temporary bytes)
  synchronize temporary := StateT.lift (FileAccess.synchronize temporary)
  moveTo temporary path := StateT.lift (FileAccess.moveTo temporary path)
  discard temporary := StateT.lift (FileAccess.discard temporary)

/-- An observer that takes each event into the state of a sink, and also does something in the
world. -/
def feeding (sink : S → Event → S) (observe : Event → StateM W Unit) (event : Event) :
    StateT (Sink S) (StateM W) Unit := do
  modify fun kept => ⟨sink kept.state event⟩
  StateT.lift (observe event)

/-- The notes of a sink are the events it has been told. -/
def fed (sink : S → Event → S) : Register (Sink S) Event where
  Adds before events after := after.state = events.foldl sink before.state
  nothing _ := rfl
  more hfirst hrest := by rw [hrest, hfirst, List.foldl_append]

theorem silent_lift (sink : S → Event → S) (operation : StateM W α) :
    (fed sink).Silent (StateT.lift operation : StateT (Sink S) (StateM W) α) :=
  fun _ _ => ⟨[], rfl, rfl⟩

theorem observes_feeding [FileAccess (StateM W)] (sink : S → Event → S)
    (observe : Event → StateM W Unit) : Observes (fed sink) (feeding sink observe) id where
  tell event := fun _ _ => ⟨[event], rfl, rfl⟩
  read _ := silent_lift sink _
  createTemporary _ := silent_lift sink _
  append _ _ := silent_lift sink _
  synchronize _ := silent_lift sink _
  moveTo _ _ := silent_lift sink _
  discard _ := silent_lift sink _

/-- The summary of a run over paths, and the state in which it leaves a sink. -/
def watched [FileAccess (StateM W)] (rules : RuleSet) (mode : Mode) (sink : S → Event → S)
    (observe : Event → StateM W Unit) (paths : List Path) (start : S) (world : W) : Summary × S :=
  let ((summary, kept), _) := runFiles rules mode (feeding sink observe) paths ⟨start⟩ world
  (summary, kept.state)

section

variable [FileAccess (StateM W)] (rules : RuleSet) (mode : Mode) (sink : S → Event → S)
  (observe : Event → StateM W Unit) (paths : List Path) (start : S) (world : W)

/-- What a run leaves of a sink is determined by its summary. -/
theorem state_watched :
    (watched rules mode sink observe paths start world).2 =
      (watched rules mode sink observe paths start world).1.events.foldl sink start := by
  have hrun := (observes_feeding sink observe).runFiles rules mode paths ⟨start⟩ world
  obtain ⟨notes, hadds, rfl⟩ := hrun
  rw [List.map_id] at hadds
  exact hadds

theorem accounts_watched :
    Accounts mode paths (watched rules mode sink observe paths start world).1 :=
  ensures_runFiles_accounts rules mode (feeding sink observe) paths ⟨start⟩ world

end

/-- A sink that puts down what it is told. -/
def recording (told : List Event) (event : Event) : List Event := told ++ [event]

theorem foldl_recording (events : List Event) : events.foldl recording [] = events := by
  unfold recording
  rw [List.foldl_append_eq_append, List.nil_append, ← List.flatMap_def, List.flatMap_singleton']

section

variable [FileAccess (StateM W)] (rules : RuleSet) (mode : Mode)
  (observe : Event → StateM W Unit) (paths : List Path) (output : Output) (world : W)

theorem told_watched :
    (watched rules mode recording observe paths [] world).2 =
      (watched rules mode recording observe paths [] world).1.events := by
  rw [state_watched, foldl_recording]

/-- The report in lines can be written down afterwards. -/
theorem report_watched :
    (watched rules mode (reporting (.text (mode = .dryRun))) observe paths output world).2 =
      let summary :=
        (watched rules mode (reporting (.text (mode = .dryRun))) observe paths output world).1
      output.write (Text.encode (Format.transcript (.text summary.dryRun) summary)) := by
  have haccounts := accounts_watched rules mode (reporting (.text (mode = .dryRun))) observe paths
    output world
  dsimp only
  rw [state_watched, foldl_reporting, haccounts.dryRun, Format.transcript]

end

/-- Whatever the files are like, whatever an observer does in the world, and however often a path
is repeated: a sink is told the events of the summary and nothing else, the summary accounts for the
paths, and the report in lines is the transcript of the summary, as far as the output has room. -/
theorem runFiles_told [FileAccess (StateM W)] (rules : RuleSet) (mode : Mode)
    (observe : Event → StateM W Unit) (paths : List Path) (output : Output) (world : W) :
    let (summary, told) := watched rules mode recording observe paths [] world
    let (summary', output') :=
      watched rules mode (reporting (.text (mode = .dryRun))) observe paths output world
    told = summary.events ∧ Accounts mode paths summary ∧
      output' = output.write (Text.encode (Format.transcript (.text summary'.dryRun) summary')) := by
  have htold := told_watched rules mode observe paths world
  have haccounts := accounts_watched rules mode recording observe paths [] world
  have hreport := report_watched rules mode observe paths output world
  exact ⟨htold, haccounts, hreport⟩

end WorkflowRepair.Batch
