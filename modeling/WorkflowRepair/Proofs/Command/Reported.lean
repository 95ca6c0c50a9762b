import WorkflowRepair.Proofs.Batch.Tally
import WorkflowRepair.Proofs.Command.Printing
import WorkflowRepair.Proofs.Report.Complete

/-!
# Runs that report as JSON

A run over a directory that is asked for JSON prints the report of its summary and nothing else
(`printed_runCorpus`). So what it prints is complete exactly if the paths of all documents that were
found are text (`report_complete_iff`). A file system admits other names, too, and for them the
report breaks off (`report_unfinished`).
-/

namespace WorkflowRepair.Command

open Batch (Event Mode Outcome Summary Tallies)
open Files (Path Tree FileAccess Ensures)
open Files (ensures_true ensures_pure)
open Report (AllText Countable Format Renders)

variable {W α : Type}

/-- What an action prints in a world. -/
def printed (world : W) (action : Acting W α) : String :=
  String.join (prints (play { world } action).2.deeds)

/-! ## Reports -/

/-- Texts that are empty add nothing. -/
theorem foldl_append_empty {texts : List String} (h : ∀ text ∈ texts, text = "") (start : String) :
    texts.foldl (· ++ ·) start = start := by
  induction texts generalizing start with
  | nil => rfl
  | cons text texts ih =>
    obtain ⟨rfl, hrest⟩ := List.forall_mem_cons.1 h
    rw [List.foldl_cons, String.append_empty, ih hrest]

theorem describe_json_of_mem_events {outcome : Outcome} {event : Event}
    (h : event ∈ outcome.events) : Format.json.describe event = "" := by
  simp only [Outcome.events, List.mem_cons, List.mem_append, List.mem_map, List.not_mem_nil,
    or_false] at h
  rcases h with rfl | ⟨change, -, rfl⟩ | rfl <;> rfl

/-- The report of a summary is all that is said as JSON about the events of a run. -/
theorem join_describe_json (summary : Summary) :
    String.join (summary.events.map Format.json.describe) = Report.json summary := by
  have hbefore : ∀ text ∈ (summary.outcomes.flatMap Outcome.events).map Format.json.describe,
      text = "" := by
    rw [List.forall_mem_map]
    intro event hevent
    obtain ⟨outcome, -, hmem⟩ := List.mem_flatMap.1 hevent
    exact describe_json_of_mem_events hmem
  rw [Summary.events, List.map_append, String.join, List.foldl_append, foldl_append_empty hbefore]
  exact String.empty_append

variable [FileAccess (StateM W)] {environment : Settings.Environment} {corpus : Corpus}
  {mode : Mode}

/-- A run that is asked for JSON prints the report of its summary. -/
theorem printed_runCorpus (hform : corpus.form = .json) {world : W} {summary : Summary}
    (hrun : (play { world } (runCorpus environment corpus mode)).1 = .ok summary) :
    printed world (runCorpus environment corpus mode) = Report.json summary := by
  obtain ⟨deeds, hdeeds, hprints⟩ :=
    (prints_runCorpus mode environment corpus).play { world : Scene W }
  have htexts : prints deeds = summary.events.map Format.json.describe := by
    rw [hprints summary hrun, hform]
    rfl
  rw [printed, hdeeds, List.nil_append, htexts, join_describe_json]

/-- A run over a corpus tallies the documents that it found. -/
theorem ensures_runCorpus_tallies (deeds : List Deed) :
    Ensures (runCorpus environment corpus mode : Acting W (Except Fatal Summary)) deeds
      fun result _ => ∀ summary, result = .ok summary → ∃ paths, Tallies mode paths summary := by
  refine (ensures_true (loadSettings corpus environment) deeds).bind fun result deeds' _ => ?_
  cases result with
  | error fault => exact ensures_pure fun summary h => nomatch h
  | ok settings =>
    refine (Batch.ensures_runDirectory_tallies _ mode _ _ _ deeds').bind fun result _ htallies => ?_
    cases result with
    | error failure => exact ensures_pure fun summary h => nomatch h
    | ok summary =>
      refine ensures_pure fun summary' h => ?_
      cases h
      exact htallies summary rfl

/-- A run that is asked for JSON prints a complete report of its summary exactly if every path in it
is text; if one is not, what it prints is no JSON. The counts are held in machine words. -/
theorem report_complete_iff (environment : Settings.Environment) (corpus : Corpus) (mode : Mode)
    (hform : corpus.form = .json) (world : W) {summary : Summary}
    (hrun : (play { world } (runCorpus environment corpus mode)).1 = .ok summary)
    (hcount : summary.filesScanned < 2 ^ 64) :
    let text := printed world (runCorpus environment corpus mode)
    (Renders summary text ↔ AllText summary) ∧
      ((∃ v, Json.readText text = .ok v) ↔ AllText summary) := by
  intro text
  have htext : text = Report.json summary := printed_runCorpus hform hrun
  obtain ⟨paths, htallies⟩ := play_of_ensures _ ensures_runCorpus_tallies summary hrun
  have hcountable : Countable summary :=
    ⟨hcount, Nat.lt_of_le_of_lt htallies.filesChanged_le hcount⟩
  rw [htext]
  exact ⟨Report.renders_json_iff hcountable, Report.exists_readText_json_iff hcountable⟩

/-- The corpus of one document, with a report as JSON. -/
def jsonCorpus : Corpus := { bareCorpus with form := .json }

/-- What a check finds there. -/
def bareSummary : Summary where
  dryRun := true
  filesScanned := 1
  filesChanged := 1
  outcomes := [{
    file := "W1.json"
    path := .ofString "corpus/W1.json"
    changed := true
    changes := [⟨"FP-CRED-001", "node_0", "Added credentials to"⟩] }]

theorem report_complete_iff_bareTree :
    (play { world := bareTree none } (runCorpus noOverrides jsonCorpus .dryRun)).1 =
        .ok bareSummary ∧
      Renders bareSummary (printed (bareTree none) (runCorpus noOverrides jsonCorpus .dryRun)) := by
  have hrun : (play { world := bareTree none } (runCorpus noOverrides jsonCorpus .dryRun)).1 =
      .ok bareSummary := by
    decide +kernel
  have htext : AllText bareSummary := by
    unfold AllText
    decide +kernel
  have hcomplete := report_complete_iff noOverrides jsonCorpus .dryRun rfl (bareTree none) hrun
    (by decide)
  exact ⟨hrun, hcomplete.1.2 htext⟩

/-- A directory of a document with nothing to repair, the name of which is not UTF-8. -/
def oddlyNamedTree : Tree :=
  let directory := Text.encode "corpus"
  let name := Text.encode "W" ++ 0xFF :: Text.encode ".json"
  { entries :=
      [([directory], .directory), ([directory, name], .file "\x7b\"nodes\":[]\x7d".toUTF8)] }

/-- What a check prints about it. -/
def unfinishedText : String :=
  "\x7b\n  \"dry_run\": true,\n  \"files_scanned\": 1,\n  \"files_changed\": 0,\n" ++
    "  \"outcomes\": [\n    \x7b\n      \"file\": \"W\uFFFD.json\",\n      \"path\": "

/-- A check of this directory succeeds, and its report ends where the path should stand: it is no
JSON, and no summary can be read back from it. -/
theorem report_unfinished :
    (play { world := oddlyNamedTree } (serve noOverrides ⟨false, .check jsonCorpus⟩)).1 = 0 ∧
      printed oddlyNamedTree (runCorpus noOverrides jsonCorpus .dryRun) = unfinishedText ∧
      (∃ fault, Json.readText unfinishedText = .error fault) ∧
      ∀ summary, ¬ Renders summary unfinishedText := by
  have hruns : (play { world := oddlyNamedTree }
        (serve noOverrides ⟨false, .check jsonCorpus⟩)).1 = 0 ∧
      printed oddlyNamedTree (runCorpus noOverrides jsonCorpus .dryRun) = unfinishedText ∧
      (Json.readText unfinishedText).isOk = false := by
    decide +kernel
  obtain ⟨hcode, hprinted, hread⟩ := hruns
  refine ⟨hcode, hprinted, ?_, fun summary hrenders => ?_⟩
  · cases htext : Json.readText unfinishedText with
    | error fault => exact ⟨fault, rfl⟩
    | ok v =>
      rw [htext] at hread
      cases hread
  · obtain ⟨v, htext⟩ := hrenders.exists_readText
    rw [htext] at hread
    cases hread

end WorkflowRepair.Command
