import WorkflowRepair.Proofs.Rules.Correction

/-!
# Which rule serves a node

With all rules, at most one serves a node (`patchNode_all`), so what happens to a node is one run of
one rule or nothing at all.
-/

namespace WorkflowRepair.Repair

open Json Workflow

/-! ## Records -/

namespace Record

@[simp]
theorem changes_append (a b : Record) : (a ++ b).changes = a.changes ++ b.changes := rfl

@[simp]
theorem failures_append (a b : Record) : (a ++ b).failures = a.failures ++ b.failures := rfl

theorem append_empty (a : Record) : a ++ ({} : Record) = a := by
  obtain ⟨changes, failures⟩ := a
  show (⟨changes ++ [], failures ++ []⟩ : Record) = ⟨changes, failures⟩
  rw [List.append_nil, List.append_nil]

/-- The record of a run that did nothing but fail. -/
def failuresOnly (record : Record) : Record := { failures := record.failures }

theorem failuresOnly_append (a b : Record) :
    (a ++ b).failuresOnly = a.failuresOnly ++ b.failuresOnly := rfl

end Record

/-! ## One rule for each capability -/

/-- The rule that serves a capability. -/
def ruleFor : Capability → Option Rule
  | .database => some .credential
  | .subWorkflow => some .expression
  | .script => some .declaration
  | .other => none

theorem ruleFor_eq_some_iff {capability : Capability} {rule : Rule} :
    ruleFor capability = some rule ↔ rule.serves = capability := by
  cases capability <;> cases rule <;> simp [ruleFor, Rule.serves]

theorem filter_serves (settings : Settings) (capability : Capability) :
    (RuleSet.all settings).rules.filter (fun rule => rule.serves = capability) =
      (ruleFor capability).toList := by
  cases capability <;> rfl

/-- The rule set runs the one rule that serves a node. -/
theorem patchNode_all (settings : Settings) (node : Node) :
    (RuleSet.all settings).patchNode node =
      match ruleFor (node.capability settings.nodeTypes) with
      | none => (node, {})
      | some rule => RuleSet.runRule settings node.name rule node := by
  show RuleSet.runRules settings node.name ((RuleSet.all settings).rules.filter fun rule =>
    rule.serves = node.capability settings.nodeTypes) node = _
  rw [filter_serves]
  cases ruleFor (node.capability settings.nodeTypes) with
  | none => rfl
  | some rule => simp [RuleSet.runRules, Record.append_empty]

/-! ## Entries -/

theorem length_patchEntries (set : RuleSet) (index : Nat) (entries : List Value) :
    (set.patchEntries index entries).1.length = entries.length := by
  induction entries generalizing index with
  | nil => rfl
  | cons entry entries ih => simp [RuleSet.patchEntries, ih]

end WorkflowRepair.Repair
