import WorkflowRepair.Proofs.Rules.Accounting
import WorkflowRepair.Proofs.Rules.Idempotence

/-!
# The order of rules

No two rules serve the same capability, and no rule changes the type of a node. So a node sees only
one of the rules of a list, as often as the list repeats it (`filter_serves_eq_replicate`), and the
repetitions find nothing more to repair (`runRules_replicate`). Where a rule stands in a list and how
often makes no difference to documents and changes (`patch_congr_rules`); failures are reported once
for every repetition.
-/

namespace WorkflowRepair.Repair

open Json Workflow

/-! ## Lists of rules at one node -/

/-- The rules of a list that serve a capability are all the same rule. -/
theorem filter_serves_eq_replicate (rules : List Rule) (capability : Capability) :
    rules.filter (fun rule => rule.serves = capability) =
      match ruleFor capability with
      | none => []
      | some rule => List.replicate (rules.count rule) rule := by
  cases hrule : ruleFor capability with
  | none =>
    rw [List.filter_eq_nil_iff]
    intro rule _ hserves
    rw [ruleFor_eq_some_iff.2 (of_decide_eq_true hserves)] at hrule
    cases hrule
  | some rule =>
    have hsame : ∀ other : Rule, decide (other.serves = capability) = (other == rule) := by
      intro other
      rw [Bool.eq_iff_iff, decide_eq_true_iff, beq_iff_eq, ← ruleFor_eq_some_iff, hrule,
        Option.some.injEq, eq_comm]
    simp only [hsame]
    exact List.filter_beq rule

/-- A rule that has been run and is run again and again makes no more changes. -/
theorem runRules_replicate {settings : Settings} (hfinal : FinalCorrections settings)
    (label : String) (rule : Rule) (node : Node) (n : Nat) :
    (RuleSet.runRules settings label (List.replicate (n + 1) rule) node).1 =
        (RuleSet.runRule settings label rule node).1 ∧
      (RuleSet.runRules settings label (List.replicate (n + 1) rule) node).2.changes =
        (RuleSet.runRule settings label rule node).2.changes := by
  induction n generalizing node with
  | zero => exact ⟨rfl, List.append_nil _⟩
  | succ n ih =>
    have hagain := runRule_runRule hfinal label rule node
    obtain ⟨hnode, hchanges⟩ := ih (RuleSet.runRule settings label rule node).1
    rw [hagain] at hnode hchanges
    rw [List.replicate_succ, RuleSet.runRules]
    refine ⟨hnode, ?_⟩
    rw [Record.changes_append, hchanges]
    exact List.append_nil _

/-! ## Lists of rules with the same members -/

/-- Two results with the same changes, and with the same failures if `same` holds. -/
structure Alike {α : Type} (same : Prop) (a b : α × Record) : Prop where
  result : a.1 = b.1
  changes : a.2.changes = b.2.changes
  failures : same → a.2.failures = b.2.failures

theorem Alike.refl {α : Type} {same : Prop} (a : α × Record) : Alike same a a :=
  ⟨rfl, rfl, fun _ => rfl⟩

section

variable {settings : Settings} (hfinal : FinalCorrections settings) {rules rules' : List Rule}
  (hmem : ∀ rule, rule ∈ rules ↔ rule ∈ rules')

include hfinal hmem

theorem alike_patchNode (node : Node) :
    Alike (rules.Perm rules') (RuleSet.patchNode ⟨settings, rules⟩ node)
      (RuleSet.patchNode ⟨settings, rules'⟩ node) := by
  unfold RuleSet.patchNode
  dsimp only
  rw [filter_serves_eq_replicate, filter_serves_eq_replicate]
  cases ruleFor (node.capability settings.nodeTypes) with
  | none => exact .refl _
  | some rule =>
    dsimp only
    have hcount : 0 < rules.count rule ↔ 0 < rules'.count rule := by
      rw [List.count_pos_iff, List.count_pos_iff, hmem]
    cases hn : rules.count rule with
    | zero =>
      have hn' : rules'.count rule = 0 := by omega
      rw [hn']
      exact .refl _
    | succ n =>
      obtain ⟨n', hn'⟩ : ∃ n', rules'.count rule = n' + 1 :=
        Nat.exists_eq_succ_of_ne_zero (by omega)
      rw [hn']
      obtain ⟨hnode, hchanges⟩ := runRules_replicate hfinal node.name rule node n
      obtain ⟨hnode', hchanges'⟩ := runRules_replicate hfinal node.name rule node n'
      refine ⟨hnode.trans hnode'.symm, hchanges.trans hchanges'.symm, fun hperm => ?_⟩
      have hsame : n = n' := by
        have := hperm.count_eq rule
        omega
      rw [hsame]

theorem alike_patchEntry (index : Nat) (entry : Value) :
    Alike (rules.Perm rules') (RuleSet.patchEntry ⟨settings, rules⟩ index entry)
      (RuleSet.patchEntry ⟨settings, rules'⟩ index entry) := by
  cases entry with
  | object fields =>
    have hnode := alike_patchNode hfinal hmem ⟨index, fields⟩
    simp only [RuleSet.patchEntry, hnode.result]
    exact ⟨rfl, hnode.changes, hnode.failures⟩
  | _ => exact .refl _

theorem alike_patchEntries (index : Nat) (entries : List Value) :
    Alike (rules.Perm rules') (RuleSet.patchEntries ⟨settings, rules⟩ index entries)
      (RuleSet.patchEntries ⟨settings, rules'⟩ index entries) := by
  induction entries generalizing index with
  | nil => exact .refl _
  | cons entry entries ih =>
    have hfirst := alike_patchEntry hfinal hmem index entry
    have hrest := ih (index + 1)
    simp only [RuleSet.patchEntries]
    refine ⟨?result, ?changes, fun hperm => ?failures⟩
    case result => rw [hfirst.result, hrest.result]
    case changes => rw [Record.changes_append, Record.changes_append, hfirst.changes, hrest.changes]
    case failures =>
      rw [Record.failures_append, Record.failures_append, hfirst.failures hperm,
        hrest.failures hperm]

theorem alike_patch (document : Document) :
    Alike (rules.Perm rules') (RuleSet.patch ⟨settings, rules⟩ document)
      (RuleSet.patch ⟨settings, rules'⟩ document) := by
  cases hnodes : Members.get? "nodes" document.root with
  | none =>
    rw [patch_of_nodes_eq_none _ hnodes, patch_of_nodes_eq_none _ hnodes]
    exact .refl _
  | some v =>
    by_cases harray : ∃ entries, v = .array entries
    · obtain ⟨entries, rfl⟩ := harray
      have hentries := alike_patchEntries hfinal hmem 0 entries
      rw [patch_of_nodes_eq_array _ hnodes, patch_of_nodes_eq_array _ hnodes, hentries.result]
      exact ⟨rfl, hentries.changes, hentries.failures⟩
    · have hv : ∀ entries, v ≠ .array entries := fun entries h => harray ⟨entries, h⟩
      rw [patch_of_nodes_ne_array _ hnodes hv, patch_of_nodes_ne_array _ hnodes hv]
      exact .refl _

end

/-- With the built-in variable and marker, lists of the same rules, in any order and with any
repetitions, patch a document alike. Without repetitions they report the same failures, too. -/
theorem patch_congr_rules {settings : Settings} (hvalid : Settings.validate settings = .ok ())
    (hname : settings.declaration.variableName = ({} : DeclarationSettings).variableName)
    (hmarker : settings.declaration.marker = ({} : DeclarationSettings).marker)
    {rules rules' : List Rule} (hmem : ∀ rule, rule ∈ rules ↔ rule ∈ rules')
    (document : Document) :
    let first := RuleSet.patch ⟨settings, rules⟩ document
    let second := RuleSet.patch ⟨settings, rules'⟩ document
    first.1 = second.1 ∧ first.2.changes = second.2.changes ∧
      (rules.Nodup → rules'.Nodup → first.2.failures = second.2.failures) := by
  have halike := alike_patch (finalCorrections_of_validate hvalid hname hmarker) hmem document
  refine ⟨halike.result, halike.changes, fun hnodup hnodup' => halike.failures ?_⟩
  exact (List.perm_ext_iff_of_nodup hnodup hnodup').2 hmem

/-- A list of all rules in another order, with repetitions. -/
def shuffledRules : List Rule :=
  [.declaration, .credential, .declaration, .expression, .credential]

/-- A document with a node of each kind that needs a repair, and one whose parameters are no
object. -/
def crossedDocument : Document :=
  ⟨default, [("nodes", .array
    [.object [("type", .string "n8n-nodes-base.code"),
        ("parameters", .object
          [("jsCode", .string "if (denyReason == '') \x7b\x7d\nlet denyReason = 1")])],
      .object [("type", .string "n8n-nodes-base.executeWorkflow"), ("parameters", .null)],
      .object [("type", .string "n8n-nodes-base.executeWorkflow"),
        ("parameters", .object [("workflowId", .string "\x7b$env.ID\x7d")])],
      .object [("type", .string "n8n-nodes-base.postgres")]])]⟩

theorem patch_congr_rules_crossedDocument :
    (∀ rule, rule ∈ shuffledRules ↔ rule ∈ (RuleSet.all {}).rules) ∧
      (RuleSet.patch ⟨{}, shuffledRules⟩ crossedDocument).2.changes.length = 3 ∧
      (RuleSet.patch ⟨{}, shuffledRules⟩ crossedDocument).1 =
        (RuleSet.patch (.all {}) crossedDocument).1 ∧
      (RuleSet.patch ⟨{}, (RuleSet.all {}).rules.reverse⟩ crossedDocument).2.failures =
        (RuleSet.patch (.all {}) crossedDocument).2.failures := by
  have hmem : ∀ rule, rule ∈ shuffledRules ↔ rule ∈ (RuleSet.all {}).rules := by
    intro rule
    cases rule <;> decide
  have hreverse : ∀ rule, rule ∈ (RuleSet.all {}).rules.reverse ↔ rule ∈ (RuleSet.all {}).rules :=
    fun rule => List.mem_reverse
  have hvalid : Settings.validate {} = .ok () := rfl
  have hshuffled := patch_congr_rules hvalid rfl rfl hmem crossedDocument
  have hreversed := patch_congr_rules hvalid rfl rfl hreverse crossedDocument
  refine ⟨hmem, by decide +kernel, hshuffled.1, hreversed.2.2 ?_ ?_⟩
  · decide
  · decide

end WorkflowRepair.Repair
