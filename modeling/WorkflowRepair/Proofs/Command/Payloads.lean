import WorkflowRepair.Proofs.Batch.Isolation
import WorkflowRepair.Proofs.Command.Again

/-!
# Validating payloads

The schema is read before the first payload, but whether its value is a contract is asked only when
there is the value of a payload to judge. So the exit code tells apart payloads that fail and a schema
that cannot be used, but not if no payload can be read (`exit_validateContract`): a schema that is no
contract then goes unnoticed (`badSchema_unnoticed`).

`ensures_validatePayloads` says how the payloads settle a run, for any judge.
-/

namespace WorkflowRepair.Command

open Batch (runOn runOn_of_ensures)
open Contract (Violation)
open Files (Path Fault Contents Disk DiskMachine Ensures Gives)
open Files (ensures_pure gives_pure gives_run_disk)
open Json (Value)
open Workflow (Failure)

/-! ## Reading values -/

/-- The JSON value in the file under a path, or why there is none. -/
def valueIn (contents : Contents) (path : Path) : Except Failure Value :=
  match Files.textOf (contents path) with
  | .error fault => .error (.load path (.file fault))
  | .ok text =>
    match Json.readText text with
    | .ok v => .ok v
    | .error fault => .error (.load path (.syntactic fault))

variable {σ : Type}

theorem ensures_readText_disk (disk : Disk) (path : Path) :
    Ensures (Files.readText path : DiskMachine σ (Except Fault String)) disk fun result disk' =>
      result = Files.textOf (disk.contents path) ∧ disk'.contents = disk.contents := by
  refine (gives_run_disk (·.read path) disk).bind ?_
  unfold Files.textOf Disk.read
  dsimp only
  cases disk.contents path with
  | error fault => exact ensures_pure ⟨rfl, rfl⟩
  | ok bytes =>
    dsimp only
    cases String.fromUTF8? bytes with
    | none => exact ensures_pure ⟨rfl, rfl⟩
    | some text => exact ensures_pure ⟨rfl, rfl⟩

theorem ensures_loadValue_disk (disk : Disk) (path : Path) :
    Ensures (loadValue path : DiskMachine σ (Except Failure Value)) disk fun result disk' =>
      result = valueIn disk.contents path ∧ disk'.contents = disk.contents := by
  refine (ensures_readText_disk disk path).bind ?_
  rintro text disk' ⟨rfl, hcontents⟩
  unfold valueIn
  cases Files.textOf (disk.contents path) with
  | error fault => exact ensures_pure ⟨rfl, hcontents⟩
  | ok text =>
    dsimp only
    cases Json.readText text with
    | error fault => exact ensures_pure ⟨rfl, hcontents⟩
    | ok v => exact ensures_pure ⟨rfl, hcontents⟩

/-! ## Judging payloads -/

/-- A payload has a value of which the judge says something. -/
def Judged (judge : Value → Except Fatal (List Violation)) (contents : Contents) (payload : Path)
    (verdict : Except Fatal (List Violation)) : Prop :=
  ∃ v, valueIn contents payload = .ok v ∧ judge v = verdict

/-- A run over payloads succeeds if the judge finds no violation in any of them, and is broken off if
there is one that the judge refuses to judge. -/
theorem ensures_validatePayloads (judge : Value → Except Fatal (List Violation)) (failed : Bool)
    (payloads : List Path) (disk : Disk) :
    Ensures (validatePayloads judge failed payloads : DiskMachine Screen (Except Fatal Status)) disk
      fun result _ =>
        (result = .ok .success ↔
          failed = false ∧ ∀ payload ∈ payloads, Judged judge disk.contents payload (.ok [])) ∧
        ((∃ fatal, result = .error fatal) ↔
          ∃ payload ∈ payloads, ∃ fatal, Judged judge disk.contents payload (.error fatal)) := by
  induction payloads generalizing failed disk with
  | nil =>
    refine ensures_pure ⟨?_, by simp⟩
    cases failed <;> simp [Status.ofFailed]
  | cons payload payloads ih =>
    refine (ensures_loadValue_disk disk payload).bind ?_
    rintro result disk' ⟨rfl, hcontents⟩
    rw [← hcontents]
    simp only [List.forall_mem_cons, List.exists_mem_cons_iff]
    cases hvalue : valueIn disk'.contents payload with
    | error failure =>
      -- a payload without a value fails, and is not judged
      have hnot : ∀ verdict, ¬ Judged judge disk'.contents payload verdict := by
        rintro verdict ⟨v, hv, -⟩
        rw [hvalue] at hv
        cases hv
      refine Gives.bind (gives_print _) ((ih true disk').mono ?_)
      rintro result disk'' ⟨hsuccess, hfatal⟩
      rw [hsuccess, hfatal]
      simp [hnot]
    | ok v =>
      have hjudged : ∀ verdict, Judged judge disk'.contents payload verdict ↔ judge v = verdict := by
        intro verdict
        rw [Judged, hvalue]
        simp
      simp only [hjudged]
      cases judge v with
      | error fatal => exact ensures_pure (by simp)
      | ok violations =>
        refine Gives.bind (gives_print _) ((ih _ disk').mono ?_)
        rintro result disk'' ⟨hsuccess, hfatal⟩
        rw [hsuccess, hfatal]
        simp [and_assoc]

/-! ## Exit codes -/

section

variable (contents : Contents) (schema payload : Path)

/-- There is a JSON value in the file. -/
def Readable : Prop := ∃ v, valueIn contents payload = .ok v

/-- The value in the file of a schema is no contract. -/
def Rejected : Prop := ∃ s, valueIn contents schema = .ok s ∧ Contract.read s = none

/-- A schema that is of no use: its file holds no value, or one that is no contract. -/
def Unusable : Prop := ¬ Readable contents schema ∨ Rejected contents schema

/-- The file holds a value without violations of the contract. -/
def Fulfils : Prop :=
  ∃ s contract, valueIn contents schema = .ok s ∧ Contract.read s = some contract ∧
    ∃ v, valueIn contents payload = .ok v ∧ contract.violations v = []

variable {contents schema} {s : Value} (hschema : valueIn contents schema = .ok s)

include hschema

theorem judged_nil_iff :
    Judged (judgeBy (Contract.read s)) contents payload (.ok []) ↔
      Fulfils contents schema payload := by
  simp only [Judged, Fulfils, hschema, Except.ok.injEq, existsAndEq, true_and]
  cases Contract.read s with
  | none => simp [judgeBy]
  | some contract => simp [judgeBy]

theorem exists_judged_error_iff :
    (∃ fatal, Judged (judgeBy (Contract.read s)) contents payload (.error fatal)) ↔
      Rejected contents schema ∧ Readable contents payload := by
  simp only [Judged, Rejected, Readable, hschema, Except.ok.injEq, existsAndEq, true_and]
  cases Contract.read s with
  | none => simp [judgeBy]
  | some contract => simp [judgeBy]

end

theorem ensures_validateContract (schema : Path) (payloads : List Path) (disk : Disk) :
    Ensures (validateContract schema payloads : DiskMachine Screen (Except Fatal Status)) disk
      fun result _ =>
        (result = .ok .success ↔ Readable disk.contents schema ∧
          ∀ payload ∈ payloads, Fulfils disk.contents schema payload) ∧
        ((∃ fatal, result = .error fatal) ↔ ¬ Readable disk.contents schema ∨
          Rejected disk.contents schema ∧ ∃ payload ∈ payloads, Readable disk.contents payload) := by
  refine (ensures_loadValue_disk disk schema).bind ?_
  rintro result disk' ⟨rfl, hcontents⟩
  rw [← hcontents]
  cases hschema : valueIn disk'.contents schema with
  | error failure => exact ensures_pure (by simp [Readable, hschema])
  | ok s =>
    refine (ensures_validatePayloads _ false payloads disk').mono ?_
    rintro result disk'' ⟨hsuccess, hfatal⟩
    have hreadable : Readable disk'.contents schema := ⟨s, hschema⟩
    rw [hsuccess, hfatal]
    simp only [judged_nil_iff _ hschema, exists_judged_error_iff _ hschema, hreadable, true_and,
      not_true_eq_false, false_or]
    constructor
    · rintro ⟨payload, hmem, hrejected, hvalue⟩
      exact ⟨hrejected, payload, hmem, hvalue⟩
    · rintro ⟨hrejected, payload, hmem, hvalue⟩
      exact ⟨payload, hmem, hrejected, hvalue⟩

/-- A validation has no settings, so it always begins to log, and without a file. -/
theorem gives_begin_disk (verbose : Bool) (disk : Disk) :
    Gives (Log.begin none verbose : DiskMachine Screen (Except Log.Fault (Option Path))) disk
      (.ok none) disk := by
  intro screen
  cases verbose <;> exact ⟨rfl, rfl⟩

theorem ensures_serve_validateContract (environment : Settings.Environment) (verbose : Bool)
    (schema : Path) (payloads : List Path) (disk : Disk) :
    Ensures (serve environment ⟨verbose, .validateContract schema payloads⟩ : DiskMachine Screen Nat)
      disk fun code _ =>
        (code = 0 ↔ Readable disk.contents schema ∧
          ∀ payload ∈ payloads, Fulfils disk.contents schema payload) ∧
        (code = 2 ↔ ¬ Readable disk.contents schema ∨
          Rejected disk.contents schema ∧ ∃ payload ∈ payloads, Readable disk.contents payload) ∧
        code ≤ 2 := by
  refine (gives_begin_disk verbose disk).bind ?_
  refine (ensures_validateContract schema payloads disk).bind ?_
  rintro result disk' ⟨hsuccess, hfatal⟩
  rw [← hsuccess, ← hfatal]
  cases result with
  | error fatal =>
    refine (gives_giveUp _).mono ?_
    rintro code disk'' ⟨rfl, -⟩
    simp [fatalCode]
  | ok status => cases status <;> exact ensures_pure (by simp [Status.code])

/-- The exit code of a validation is 2 only if the schema is of no use, and it is so for all of these
schemas but those that are no contract where no payload can be read. Otherwise it is 1 or 0, by
whether some payload fails. -/
theorem exit_validateContract (environment : Settings.Environment) (verbose : Bool) (schema : Path)
    (payloads : List Path) (disk : Disk) (screen : Screen) :
    let code :=
      (runOn disk screen (serve environment ⟨verbose, .validateContract schema payloads⟩)).1
    (code = 2 ↔ Unusable disk.contents schema ∧ (Rejected disk.contents schema →
        ∃ payload ∈ payloads, Readable disk.contents payload)) ∧
      (code = 1 ↔ code ≠ 2 ∧ ∃ payload ∈ payloads, ¬ Fulfils disk.contents schema payload) ∧
      (code = 0 ↔ code ≠ 2 ∧ ∀ payload ∈ payloads, Fulfils disk.contents schema payload) ∧
      ((code = 2 ↔ Unusable disk.contents schema) ↔ (Rejected disk.contents schema →
        ∃ payload ∈ payloads, Readable disk.contents payload)) := by
  intro code
  have hcode := runOn_of_ensures
    (ensures_serve_validateContract environment verbose schema payloads disk) screen
  change (code = 0 ↔ _) ∧ (code = 2 ↔ _) ∧ code ≤ 2 at hcode
  clear_value code
  obtain ⟨hzero, htwo, hle⟩ := hcode
  have hfatal : code = 2 ↔ Unusable disk.contents schema ∧ (Rejected disk.contents schema →
      ∃ payload ∈ payloads, Readable disk.contents payload) := by
    rw [htwo]
    constructor
    · rintro (hnot | ⟨hrejected, hjudged⟩)
      · exact ⟨.inl hnot, fun ⟨s, hs, _⟩ => absurd ⟨s, hs⟩ hnot⟩
      · exact ⟨.inr hrejected, fun _ => hjudged⟩
    · rintro ⟨hnot | hrejected, hjudged⟩
      · exact .inl hnot
      · exact .inr ⟨hrejected, hjudged hrejected⟩
  have hsuccess : code = 0 ↔ code ≠ 2 ∧
      ∀ payload ∈ payloads, Fulfils disk.contents schema payload := by
    constructor
    · intro h
      exact ⟨by omega, (hzero.1 h).2⟩
    · rintro ⟨hne, hall⟩
      have hreadable : Readable disk.contents schema := by
        by_contra hnot
        exact hne (htwo.2 (.inl hnot))
      exact hzero.2 ⟨hreadable, hall⟩
  have hfailed : code = 1 ↔ code ≠ 2 ∧
      ∃ payload ∈ payloads, ¬ Fulfils disk.contents schema payload := by
    have hone : code = 1 ↔ code ≠ 2 ∧ code ≠ 0 := by omega
    rw [hone]
    refine and_congr_right fun hne => ?_
    have hall := hsuccess.trans (and_iff_right hne)
    rw [ne_eq, hall]
    simp only [not_forall, exists_prop]
  refine ⟨hfatal, hfailed, hsuccess, ?_⟩
  rw [hfatal]
  constructor
  · intro hiff hrejected
    exact (hiff.2 (.inr hrejected)).2 hrejected
  · intro hjudged
    exact ⟨And.left, fun hunusable => ⟨hunusable, hjudged⟩⟩

/-- A disk with a schema that is no contract, and nothing else. -/
def badSchemaDisk : Disk where
  contents path :=
    if path = .ofString "schema.json" then .ok "\x7b\"type\": 12\x7d".toUTF8 else .error .notFound

/-- Whether the schema is a contract is not asked where no payload can be read. -/
theorem badSchema_unnoticed :
    let code (payloads : List Path) := (runOn badSchemaDisk ({} : Screen)
      (serve noOverrides ⟨false, .validateContract (.ofString "schema.json") payloads⟩)).1
    Rejected badSchemaDisk.contents (.ofString "schema.json") ∧
      code [.ofString "missing.json"] = 1 ∧
      code [.ofString "missing.json", .ofString "schema.json"] = 2 := by
  refine ⟨⟨.object [("type", .number (.integer 12))], ?_⟩, ?_⟩
  · exact ⟨rfl, rfl⟩
  · decide +kernel

end WorkflowRepair.Command
