import WorkflowRepair.Proofs.Report.Decoding

/-!
# Complete reports

A report as JSON is complete exactly if every path in it is text (`renders_json_iff`). Then it is
one object and a line end, and the summary can be read back from it. Otherwise the report breaks
off behind the name of a member, and what is there is no JSON at all (`exists_readText_json_iff`).
-/

namespace WorkflowRepair.Report

open Batch Json
open Files (Path)
open Repair (Change)

/-- Every document of a run has a path that is text. -/
def AllText (summary : Summary) : Prop := ∀ outcome ∈ summary.outcomes, outcome.path.text?.isSome

/-- A text is a report of a summary: one JSON object and a line end, from which the summary can be
read back. -/
def Renders (summary : Summary) (text : String) : Prop :=
  ∃ body members, text = body ++ "\n" ∧ readText body = .ok (.object members) ∧
    summaryOf? (.object members) = some summary

/-- Both counts of a summary fit into a machine word. -/
structure Countable (summary : Summary) : Prop where
  filesScanned : summary.filesScanned < 2 ^ 64
  filesChanged : summary.filesChanged < 2 ^ 64

/-! ## Values -/

section

variable {N : Number → Prop} (depth : Nat)

theorem within_textsValue (texts : List String) : (textsValue texts).Within N (depth + 1) := by
  simp [textsValue, Value.Within]

theorem within_changeValue (change : Change) : (changeValue change).Within N (depth + 1) := by
  simp [changeValue, Value.Within, Members.keys]

theorem within_errorValue (entry : ErrorEntry) : (errorValue entry).Within N (depth + 1) := by
  simp [errorValue, Value.Within, Members.keys]

theorem within_outcomeHead (text : String) (outcome : Outcome) :
    (Value.object (outcomeHead (.string text) outcome)).Within N (depth + 1) := by
  simp [outcomeHead, Value.Within, Members.keys]

theorem within_outcomeValue (text : String) (outcome : Outcome) :
    (outcomeValue (.string text) outcome).Within N (depth + 3) := by
  simp [outcomeValue, outcomeHead, Value.Within, Members.keys, within_changeValue,
    within_textsValue]

variable {depth} {summary : Summary} {values : List Value}
  (hscanned : N (.integer summary.filesScanned)) (hchanged : N (.integer summary.filesChanged))
  (hvalues : ∀ v ∈ values, v.Within N (depth + 3))

include hscanned hchanged hvalues

theorem within_summaryHead : (Value.object (summaryHead summary values)).Within N (depth + 5) := by
  simpa [summaryHead, Value.ofNat, Value.Within, Members.keys, hscanned, hchanged] using hvalues

theorem within_summaryValue : (summaryValue summary values).Within N (depth + 5) := by
  simpa [summaryValue, summaryHead, Value.ofNat, Value.Within, Members.keys, within_errorValue,
    hscanned, hchanged] using hvalues

end

theorem storedWhole_ofNat {n : Nat} (h : n < 2 ^ 64) : Number.StoredWhole (.integer n) :=
  ⟨⟨by omega, by omega⟩, n, rfl⟩

/-! ## Outcomes -/

/-- The value of an outcome whose path is text. -/
def valueOf (outcome : Outcome) : Value :=
  outcomeValue (.string (outcome.path.text?.getD "")) outcome

theorem ofString_of_text? {path : Path} {text : String} (h : path.text? = some text) :
    Path.ofString text = path := by
  unfold Path.text? Text.decode? String.fromUTF8? at h
  split at h
  case isTrue hvalid =>
    rw [← Option.some.inj h]
    rfl
  case isFalse => cases h

theorem outcomeOf?_valueOf {outcome : Outcome} (h : outcome.path.text?.isSome) :
    outcomeOf? (valueOf outcome) = some outcome := by
  obtain ⟨text, htext⟩ := Option.isSome_iff_exists.1 h
  rw [valueOf, outcomeOf?_outcomeValue, htext, Option.getD_some, ofString_of_text? htext]

/-- Outcomes whose paths are all text are all written. -/
theorem splitOutcomes_of_allText {outcomes : List Outcome}
    (h : ∀ outcome ∈ outcomes, outcome.path.text?.isSome) :
    splitOutcomes outcomes = (outcomes.map valueOf, none) := by
  induction outcomes with
  | nil => rfl
  | cons outcome outcomes ih =>
    obtain ⟨hfirst, hrest⟩ := List.forall_mem_cons.1 h
    obtain ⟨text, htext⟩ := Option.isSome_iff_exists.1 hfirst
    rw [splitOutcomes, htext, ih hrest, List.map_cons, valueOf, htext]
    rfl

/-- Outcomes are written up to the first one whose path is no text. -/
theorem exists_splitOutcomes {outcomes : List Outcome}
    (h : ¬ ∀ outcome ∈ outcomes, outcome.path.text?.isSome) :
    ∃ before stop, splitOutcomes outcomes = (List.map valueOf before, some stop) := by
  induction outcomes with
  | nil => exact absurd (fun _ hmem => absurd hmem List.not_mem_nil) h
  | cons outcome outcomes ih =>
    cases htext : outcome.path.text? with
    | none => exact ⟨[], outcome, by rw [splitOutcomes, htext]; rfl⟩
    | some text =>
      have hrest : ¬ ∀ outcome ∈ outcomes, outcome.path.text?.isSome := by
        intro hall
        refine h (List.forall_mem_cons.2 ⟨?_, hall⟩)
        rw [htext]
        rfl
      obtain ⟨before, stop, hsplit⟩ := ih hrest
      refine ⟨outcome :: before, stop, ?_⟩
      rw [splitOutcomes, htext, hsplit, List.map_cons, valueOf, htext]
      rfl

/-! ## Reports -/

section

variable {summary : Summary}

/-- A report in which every path is text is complete. -/
theorem renders_json (hcount : Countable summary) (h : AllText summary) :
    Renders summary (json summary) := by
  have hsplit := splitOutcomes_of_allText h
  have hwithin : (summaryValue summary (summary.outcomes.map valueOf)).Within Number.StoredWhole
      (122 + 5) :=
    within_summaryValue (storedWhole_ofNat hcount.filesScanned)
      (storedWhole_ofNat hcount.filesChanged)
      (List.forall_mem_map.2 fun outcome _ => within_outcomeValue 122 _ outcome)
  refine ⟨_, _, ?_, readText_pretty_alone hwithin, ?_⟩
  · rw [json, hsplit]
    rfl
  · exact summaryOf?_summaryValue summary
      (listOf?_array fun outcome hmem => outcomeOf?_valueOf (h outcome hmem))

/-- A begun outcome stands at the end of a begun summary, with its empty text at the end of it. -/
theorem exists_prettyChars_begun (summary : Summary) (values : List Value) (outcome : Outcome) :
    ∃ front, (Value.object (summaryHead summary (values ++
      [.object (outcomeHead (.string "") outcome)]))).prettyChars 0 =
        front ++ '"' :: '"' :: closing := by
  obtain ⟨front, hfront⟩ := exists_prettyChars_object_concat 0
    [("dry_run", .bool summary.dryRun), ("files_scanned", .ofNat summary.filesScanned),
      ("files_changed", .ofNat summary.filesChanged)] "outcomes"
    (.array (values ++ [.object (outcomeHead (.string "") outcome)]))
  obtain ⟨middle, hmiddle⟩ := exists_prettyChars_array_concat 1 values
    (.object (outcomeHead (.string "") outcome))
  obtain ⟨back, hback⟩ := exists_prettyChars_object_concat 2 [("file", .string outcome.file)] "path"
    (.string "")
  have houtcome : (Value.object (outcomeHead (.string "") outcome)).prettyChars (1 + 1) =
      back ++ ('"' :: '"' :: (newline 2 ++ ['}'])) := hback
  refine ⟨front ++ (middle ++ back), hfront.trans ?_⟩
  rw [hmiddle, houtcome]
  simp [closing]

/-- A report that breaks off lacks an empty text and what closes the containers around it. -/
theorem exists_json_append (h : ¬ AllText summary) :
    ∃ values, (∀ v ∈ values, v.Within Number.StoredWhole (122 + 3)) ∧
      json summary ++ String.ofList ('"' :: '"' :: closing) =
        (Value.object (summaryHead summary values)).pretty := by
  obtain ⟨before, stop, hsplit⟩ := exists_splitOutcomes h
  obtain ⟨front, hfront⟩ := exists_prettyChars_begun summary (before.map valueOf) stop
  refine ⟨before.map valueOf ++ [.object (outcomeHead (.string "") stop)], ?_, ?_⟩
  · rw [List.forall_mem_append, List.forall_mem_map, List.forall_mem_singleton]
    exact ⟨fun outcome _ => within_outcomeValue 122 _ outcome, within_outcomeHead 124 "" stop⟩
  · have hlength : front.length =
        (front ++ '"' :: '"' :: closing).length - (2 + closing.length) := by
      simp only [List.length_append, List.length_cons]
      omega
    rw [json, hsplit, Value.pretty]
    dsimp only
    rw [hfront, List.take_left' hlength, ← String.ofList_append]

/-- A report that breaks off is no JSON. -/
theorem not_readText_json (hcount : Countable summary) (h : ¬ AllText summary) (v : Value) :
    readText (json summary) ≠ .ok v := by
  obtain ⟨values, hvalues, happend⟩ := exists_json_append h
  intro hread
  have hwithin : (Value.object (summaryHead summary values)).Within Number.StoredWhole (122 + 5) :=
    within_summaryHead (storedWhole_ofNat hcount.filesScanned)
      (storedWhole_ofNat hcount.filesChanged) hvalues
  have hwhole := readText_pretty_alone hwithin
  rw [← happend] at hwhole
  exact not_readText_append hread ('"' :: closing) (by decide) (by decide) _ hwhole

/-- What renders a summary is JSON. -/
theorem Renders.exists_readText {text : String} (h : Renders summary text) :
    ∃ v, readText text = .ok v := by
  obtain ⟨body, members, rfl, hread, -⟩ := h
  exact ⟨_, readText_append_blank hread blank_lineEnd⟩

theorem exists_readText_json_iff (hcount : Countable summary) :
    (∃ v, readText (json summary) = .ok v) ↔ AllText summary := by
  refine ⟨fun ⟨v, hread⟩ => ?_, fun h => (renders_json hcount h).exists_readText⟩
  by_contra hnot
  exact not_readText_json hcount hnot v hread

theorem renders_json_iff (hcount : Countable summary) :
    Renders summary (json summary) ↔ AllText summary :=
  ⟨fun h => (exists_readText_json_iff hcount).1 h.exists_readText, renders_json hcount⟩

end

end WorkflowRepair.Report
