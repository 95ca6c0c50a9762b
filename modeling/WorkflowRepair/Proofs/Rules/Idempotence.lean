import WorkflowRepair.Proofs.Rules.Dispatch

/-!
# Patching twice

A second run over a patched document finds nothing to repair. It changes nothing, and it reports the
faults of the first run once more. `runRule_runRule` says so for one rule and one node; nodes,
entries and documents follow the recursion of the run.
-/

namespace WorkflowRepair.Repair

open Json Workflow

section

variable {settings : Settings} (hfinal : FinalCorrections settings)

include hfinal

theorem runRule_runRule (label : String) (rule : Rule) (node : Node) :
    RuleSet.runRule settings label rule (RuleSet.runRule settings label rule node).1 =
      ((RuleSet.runRule settings label rule node).1,
        (RuleSet.runRule settings label rule node).2.failuresOnly) := by
  cases happly : rule.apply settings node with
  | error fault => simp [RuleSet.runRule, happly, Record.failuresOnly]
  | ok result =>
    cases result with
    | none => simp [RuleSet.runRule, happly, Record.failuresOnly]
    | some node' =>
      have hnone := apply_eq_none_of_apply hfinal happly
      simp [RuleSet.runRule, happly, hnone, Record.failuresOnly]

omit hfinal in
/-- A run of a rule keeps the place, the label and the type of a node. -/
theorem runRule_frame (settings : Settings) (label : String) (rule : Rule) (node : Node) :
    (RuleSet.runRule settings label rule node).1.index = node.index ∧
      (RuleSet.runRule settings label rule node).1.name = node.name ∧
      (RuleSet.runRule settings label rule node).1.typeTag = node.typeTag := by
  cases happly : rule.apply settings node with
  | error fault => simp [RuleSet.runRule, happly]
  | ok result =>
    cases result with
    | none => simp [RuleSet.runRule, happly]
    | some node' => simpa [RuleSet.runRule, happly] using apply_frame happly

theorem patchNode_patchNode (node : Node) :
    (RuleSet.all settings).patchNode ((RuleSet.all settings).patchNode node).1 =
      (((RuleSet.all settings).patchNode node).1,
        ((RuleSet.all settings).patchNode node).2.failuresOnly) := by
  rw [patchNode_all settings node]
  cases hrule : ruleFor (node.capability settings.nodeTypes) with
  | none =>
    rw [patchNode_all, hrule]
    rfl
  | some rule =>
    obtain ⟨-, hname, htype⟩ := runRule_frame settings node.name rule node
    have hcapability : Node.capability settings.nodeTypes
        (RuleSet.runRule settings node.name rule node).1 = node.capability settings.nodeTypes := by
      rw [Node.capability, Node.capability, htype]
    rw [patchNode_all, hcapability, hrule]
    simp only [hname]
    exact runRule_runRule hfinal node.name rule node

omit hfinal in
theorem mk_fields_eq {node : Node} {index : Nat} (h : node.index = index) :
    (⟨index, node.fields⟩ : Node) = node := by
  rw [← h]

theorem patchEntry_patchEntry (index : Nat) (entry : Value) :
    (RuleSet.all settings).patchEntry index ((RuleSet.all settings).patchEntry index entry).1 =
      (((RuleSet.all settings).patchEntry index entry).1,
        ((RuleSet.all settings).patchEntry index entry).2.failuresOnly) := by
  cases entry with
  | object fields =>
    have hagain := patchNode_patchNode hfinal ⟨index, fields⟩
    have hindex : ((RuleSet.all settings).patchNode ⟨index, fields⟩).1.index = index := by
      rw [patchNode_all]
      split
      · rfl
      · exact (runRule_frame settings _ _ _).1
    have hnode := mk_fields_eq hindex
    simp only [RuleSet.patchEntry, hnode, hagain]
  | _ => rfl

theorem patchEntries_patchEntries (index : Nat) (entries : List Value) :
    (RuleSet.all settings).patchEntries index
        ((RuleSet.all settings).patchEntries index entries).1 =
      (((RuleSet.all settings).patchEntries index entries).1,
        ((RuleSet.all settings).patchEntries index entries).2.failuresOnly) := by
  induction entries generalizing index with
  | nil => rfl
  | cons entry entries ih =>
    simp only [RuleSet.patchEntries, patchEntry_patchEntry hfinal, ih, Record.failuresOnly_append]

end

/-- Patching a patched document changes nothing and fails where it failed before. -/
theorem patch_patch {settings : Settings} (hvalid : Settings.validate settings = .ok ())
    (hname : settings.declaration.variableName = ({} : DeclarationSettings).variableName)
    (hmarker : settings.declaration.marker = ({} : DeclarationSettings).marker)
    (document : Document) :
    (RuleSet.all settings).patch ((RuleSet.all settings).patch document).1 =
      (((RuleSet.all settings).patch document).1,
        { changes := [], failures := ((RuleSet.all settings).patch document).2.failures }) := by
  have hfinal := finalCorrections_of_validate hvalid hname hmarker
  cases hnodes : Members.get? "nodes" document.root with
  | none => simp [RuleSet.patch, hnodes]
  | some v =>
    cases v with
    | array entries =>
      have hagain := patchEntries_patchEntries hfinal 0 entries
      simp only [RuleSet.patch, hnodes, Members.get?_insert_self, hagain, Members.insert_insert]
      rfl
    | _ => simp [RuleSet.patch, hnodes]

/-- A document with a node to repair, a script to repair and an entry that is no node. -/
def mixedDocument : Document :=
  ⟨default, [("nodes", .array
    [.object [("type", .string "n8n-nodes-base.postgres")],
      .object [("type", .string "n8n-nodes-base.code"),
        ("parameters", .object
          [("jsCode", .string "if (denyReason == '') \x7b\x7d\nlet denyReason = 1")])],
      .null])]⟩

theorem patch_patch_mixedDocument :
    ((RuleSet.all {}).patch mixedDocument).2.changes.length = 2 ∧
      ((RuleSet.all {}).patch mixedDocument).2.failures.length = 1 ∧
      (RuleSet.all {}).patch ((RuleSet.all {}).patch mixedDocument).1 =
        (((RuleSet.all {}).patch mixedDocument).1,
          { changes := [], failures := ((RuleSet.all {}).patch mixedDocument).2.failures }) := by
  refine ⟨by decide +kernel, by decide +kernel, ?_⟩
  exact patch_patch rfl rfl rfl mixedDocument

end WorkflowRepair.Repair
