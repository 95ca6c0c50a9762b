import Mathlib.Logic.ExistsUnique
import WorkflowRepair.Proofs.Rules.Dispatch

/-!
# What a run leaves alone, and what it records

A run over a document writes to the array of nodes only. Every entry of the array is treated in
exactly one of three ways (`existsUnique_treats`), and the record of the run is the records of the
entries one behind the other (`patchEntries_spec`).
-/

namespace WorkflowRepair.Repair

open Json Workflow

/-! ## Treatments of an entry -/

/-- What a run does with an entry. -/
inductive Treatment where
  /-- The entry stays, and nothing is recorded. -/
  | untouched
  /-- The entry stays, and a failure is recorded. -/
  | refused
  /-- The entry is repaired, and a change is recorded. -/
  | changed
deriving DecidableEq

/-- Why an entry is refused: it is no object, or a rule would have to correct a parameter and its
parameters are no object. -/
inductive Refuses (settings : Settings) (index : Nat) (entry : Value) : Failure → Prop
  | notObject (hentry : ∀ fields, entry ≠ .object fields) :
      Refuses settings index entry
        (.rule "document" (Node.fallbackName index) (.notObject entry.kind))
  | parameters {fields : Members} {rule : Rule} {v : Value} (hentry : entry = .object fields)
      (hserves : rule.serves = Node.capability settings.nodeTypes ⟨index, fields⟩)
      (hrule : rule.serves = .subWorkflow ∨ rule.serves = .script)
      (hparams : Members.get? "parameters" fields = some v) (hv : ∀ params, v ≠ .object params) :
      Refuses settings index entry
        (.rule rule.code (Node.name ⟨index, fields⟩) (.parametersNotObject v.kind))

/-- The difference that a rule makes to a node: the credentials as its new last member, or another
text under its parameter. -/
inductive Repairs (settings : Settings) : Rule → Members → Members → Prop
  | credential {fields : Members} (habsent : Members.contains "credentials" fields = false) :
      Repairs settings .credential fields
        (fields ++ [("credentials", Rule.credentials settings.credential)])
  | text {rule : Rule} {parameter : String} {fields fields' params params' : Members}
      {text text' : String} (hrule : rule.parameter? settings = some parameter)
      (hfields : Members.DiffersAt "parameters" (.object params) (.object params') fields fields')
      (hparams : Members.DiffersAt parameter (.string text) (.string text') params params')
      (hcorrect : rule.correction settings text = some text') (hne : text' ≠ text) :
      Repairs settings rule fields fields'

/-- What each treatment does and records. -/
def Treats (settings : Settings) (index : Nat) (entry entry' : Value) (record : Record) :
    Treatment → Prop
  | .untouched =>
    entry' = entry ∧ (∀ failure, ¬ Refuses settings index entry failure) ∧ record = {}
  | .refused =>
    entry' = entry ∧ ∃ failure, Refuses settings index entry failure ∧
      record = { failures := [failure] }
  | .changed =>
    entry' ≠ entry ∧ (∀ failure, ¬ Refuses settings index entry failure) ∧
      ∃ fields fields' rule, entry = .object fields ∧ entry' = .object fields' ∧
        rule.serves = Node.capability settings.nodeTypes ⟨index, fields⟩ ∧
        Repairs settings rule fields fields' ∧
        record = { changes := [⟨rule.code, Node.name ⟨index, fields⟩, rule.notice settings⟩] }

variable {settings : Settings} {index : Nat} {entry entry' : Value} {record : Record}

theorem Treats.unique {treatment treatment' : Treatment}
    (h : Treats settings index entry entry' record treatment)
    (h' : Treats settings index entry entry' record treatment') : treatment = treatment' := by
  cases treatment with
  | untouched =>
    cases treatment' with
    | untouched => rfl
    | refused =>
      obtain ⟨failure, hrefuses, -⟩ := h'.2
      exact absurd hrefuses (h.2.1 failure)
    | changed => exact absurd h.1 h'.1
  | refused =>
    cases treatment' with
    | untouched =>
      obtain ⟨failure, hrefuses, -⟩ := h.2
      exact absurd hrefuses (h'.2.1 failure)
    | refused => rfl
    | changed => exact absurd h.1 h'.1
  | changed =>
    cases treatment' with
    | untouched => exact absurd h'.1 h.1
    | refused => exact absurd h'.1 h.1
    | changed => rfl

/-- A repair makes a difference. -/
theorem Repairs.ne {rule : Rule} {fields fields' : Members}
    (h : Repairs settings rule fields fields') : fields' ≠ fields := by
  cases h with
  | credential =>
    intro heq
    have := congrArg List.length heq
    simp at this
  | text _ hfields hparams _ hne =>
    refine hfields.ne fun heq => ?_
    injection heq with heq
    refine hparams.ne (fun heq => ?_) heq
    injection heq with heq
    exact hne heq

/-- Among the objects only those are refused whose parameters are no object though their rule needs
them. -/
theorem Refuses.exists_of_object {fields : Members} {failure : Failure}
    (h : Refuses settings index (.object fields) failure) :
    ∃ rule v, ruleFor (Node.capability settings.nodeTypes ⟨index, fields⟩) = some rule ∧
      (rule.serves = .subWorkflow ∨ rule.serves = .script) ∧
      Members.get? "parameters" fields = some v ∧ ∀ params, v ≠ .object params := by
  cases h with
  | notObject hentry => exact absurd rfl (hentry fields)
  | parameters hentry hserves hrule hparams hv =>
    injection hentry with hentry
    subst hentry
    exact ⟨_, _, ruleFor_eq_some_iff.2 hserves, hrule, hparams, hv⟩

theorem serves_of_parameter? {rule : Rule} {parameter : String}
    (h : rule.parameter? settings = some parameter) :
    rule.serves = .subWorkflow ∨ rule.serves = .script := by
  cases rule with
  | credential => simp [Rule.parameter?] at h
  | expression => exact Or.inl rfl
  | declaration => exact Or.inr rfl

/-- An object is refused only for the sake of the parameters that its rule needs. -/
theorem not_refuses {rule : Rule} {fields : Members}
    (hserves : rule.serves = Node.capability settings.nodeTypes ⟨index, fields⟩)
    (hparams : rule.serves = .subWorkflow ∨ rule.serves = .script →
      ∀ v, Members.get? "parameters" fields = some v → ∃ params, v = .object params)
    (failure : Failure) : ¬ Refuses settings index (.object fields) failure := by
  intro hrefuses
  obtain ⟨rule', v, hsome, hneeds, hget, hv⟩ := hrefuses.exists_of_object
  rw [ruleFor_eq_some_iff.2 hserves, Option.some.injEq] at hsome
  subst hsome
  obtain ⟨params, rfl⟩ := hparams hneeds v hget
  exact hv params rfl

/-- An object that its rule repairs is changed, if it is not refused. -/
theorem Repairs.treats_changed {rule : Rule} {fields fields' : Members}
    (h : Repairs settings rule fields fields')
    (hserves : rule.serves = Node.capability settings.nodeTypes ⟨index, fields⟩)
    (hnot : ∀ failure, ¬ Refuses settings index (.object fields) failure) :
    Treats settings index (.object fields) (.object fields')
      { changes := [⟨rule.code, Node.name ⟨index, fields⟩, rule.notice settings⟩] } .changed := by
  refine ⟨fun heq => ?_, hnot, fields, fields', rule, rfl, rfl, hserves, h, rfl⟩
  injection heq with heq
  exact h.ne heq

/-- One of the treatments is given to an object. -/
theorem exists_treats_object (hfinal : FinalCorrections settings) (fields : Members) :
    ∃ treatment, Treats settings index (.object fields)
      (.object ((RuleSet.all settings).patchNode ⟨index, fields⟩).1.fields)
      ((RuleSet.all settings).patchNode ⟨index, fields⟩).2 treatment := by
  rw [patchNode_all]
  cases hrule : ruleFor (Node.capability settings.nodeTypes ⟨index, fields⟩) with
  | none =>
    refine ⟨.untouched, rfl, fun failure hrefuses => ?_, rfl⟩
    obtain ⟨rule, _, hsome, -⟩ := hrefuses.exists_of_object
    simp [hrule] at hsome
  | some rule =>
    have hserves := ruleFor_eq_some_iff.1 hrule
    have hcases := applies_apply settings rule ⟨index, fields⟩
    simp only [RuleSet.runRule]
    generalize happly : rule.apply settings ⟨index, fields⟩ = result at hcases
    cases hcases with
    | complete =>
      refine ⟨.untouched, rfl, not_refuses hserves fun hneeds => ?_, rfl⟩
      simp [Rule.serves] at hneeds
    | added h =>
      have habsent : Members.contains "credentials" fields = false := h
      rw [Members.insert_of_not_contains _ habsent]
      refine ⟨.changed, (Repairs.credential habsent).treats_changed hserves
        (not_refuses hserves fun hneeds => ?_)⟩
      simp [Rule.serves] at hneeds
    | text hparameter hcorrects =>
      cases hcorrects with
      | malformed hparams hv =>
        exact ⟨.refused, rfl, _,
          .parameters rfl hserves (serves_of_parameter? hparameter) hparams hv, rfl⟩
      | nothing hparams => exact ⟨.untouched, rfl, not_refuses hserves fun _ => hparams, rfl⟩
      | corrected hparams htext hcorrect =>
        have hrepairs : Repairs settings rule fields _ :=
          .text hparameter (Members.differsAt_insert hparams _)
            (Members.differsAt_insert htext _) hcorrect ((hfinal rule).ne hcorrect)
        refine ⟨.changed, hrepairs.treats_changed hserves (not_refuses hserves fun _ v hv => ?_)⟩
        rw [hparams, Option.some.injEq] at hv
        exact ⟨_, hv.symm⟩

/-- Every entry is treated in exactly one way. -/
theorem existsUnique_treats (hfinal : FinalCorrections settings) (index : Nat) (entry : Value) :
    ∃! treatment, Treats settings index entry ((RuleSet.all settings).patchEntry index entry).1
      ((RuleSet.all settings).patchEntry index entry).2 treatment := by
  have hexists : ∃ treatment, Treats settings index entry
      ((RuleSet.all settings).patchEntry index entry).1
      ((RuleSet.all settings).patchEntry index entry).2 treatment := by
    cases entry with
    | object fields => exact exists_treats_object hfinal fields
    | _ => exact ⟨.refused, rfl, _, .notObject (by simp), rfl⟩
  obtain ⟨treatment, h⟩ := hexists
  exact ⟨treatment, h, fun treatment' h' => h'.unique h⟩

/-! ## Entries and documents -/

/-- The entries are patched one by one, and the record is made of theirs. -/
theorem patchEntries_spec (set : RuleSet) (index : Nat) (entries : List Value) :
    ∃ records : List Record, records.length = entries.length ∧
      (set.patchEntries index entries).2.changes = records.flatMap Record.changes ∧
      (set.patchEntries index entries).2.failures = records.flatMap Record.failures ∧
      ∀ i entry entry' record, entries[i]? = some entry →
        (set.patchEntries index entries).1[i]? = some entry' → records[i]? = some record →
        set.patchEntry (index + i) entry = (entry', record) := by
  induction entries generalizing index with
  | nil => exact ⟨[], rfl, rfl, rfl, by simp⟩
  | cons first rest ih =>
    obtain ⟨records, hlength, hchanges, hfailures, hrecords⟩ := ih (index + 1)
    refine ⟨(set.patchEntry index first).2 :: records, by simp [hlength], ?_, ?_, ?_⟩
    · simp [RuleSet.patchEntries, hchanges]
    · simp [RuleSet.patchEntries, hfailures]
    · intro i entry entry' record hentry hentry' hrecord
      cases i with
      | zero =>
        simp only [RuleSet.patchEntries, List.getElem?_cons_zero,
          Option.some.injEq] at hentry hentry' hrecord
        rw [← hentry, ← hentry', ← hrecord]
        rfl
      | succ i =>
        rw [Nat.add_comm i 1, ← Nat.add_assoc]
        exact hrecords i entry entry' record hentry hentry' hrecord

theorem patch_of_nodes_eq_none (set : RuleSet) {document : Document}
    (h : Members.get? "nodes" document.root = none) : set.patch document = (document, {}) := by
  simp [RuleSet.patch, h]

theorem patch_of_nodes_ne_array (set : RuleSet) {document : Document} {v : Value}
    (h : Members.get? "nodes" document.root = some v) (hv : ∀ entries, v ≠ .array entries) :
    set.patch document = (document, { failures := [.shape document.path v.kind] }) := by
  simp only [RuleSet.patch, h]

theorem patch_of_nodes_eq_array (set : RuleSet) {document : Document} {entries : List Value}
    (h : Members.get? "nodes" document.root = some (.array entries)) :
    set.patch document =
      ({ document with
          root := Members.insert "nodes" (.array (set.patchEntries 0 entries).1) document.root },
        (set.patchEntries 0 entries).2) := by
  simp only [RuleSet.patch, h]

/-- A run keeps the path of a document, its keys and their order, and all values but the nodes. -/
theorem patch_frame (set : RuleSet) (document : Document) :
    (set.patch document).1.path = document.path ∧
    Members.keys (set.patch document).1.root = Members.keys document.root ∧
    ∀ key ≠ "nodes",
      Members.get? key (set.patch document).1.root = Members.get? key document.root := by
  cases hnodes : Members.get? "nodes" document.root with
  | none =>
    rw [patch_of_nodes_eq_none set hnodes]
    exact ⟨rfl, rfl, fun _ _ => rfl⟩
  | some v =>
    by_cases harray : ∃ entries, v = .array entries
    · obtain ⟨entries, rfl⟩ := harray
      have hdiffers := Members.differsAt_insert hnodes (.array (set.patchEntries 0 entries).1)
      rw [patch_of_nodes_eq_array set hnodes]
      exact ⟨rfl, hdiffers.keys_eq, fun _ hne => hdiffers.get?_ne hne⟩
    · rw [patch_of_nodes_ne_array set hnodes fun entries h => harray ⟨entries, h⟩]
      exact ⟨rfl, rfl, fun _ _ => rfl⟩

/-- A run writes to the array of nodes only, and accounts for each of its entries. -/
theorem patch_accounts (hvalid : Settings.validate settings = .ok ())
    (hname : settings.declaration.variableName = ({} : DeclarationSettings).variableName)
    (hmarker : settings.declaration.marker = ({} : DeclarationSettings).marker)
    {document document' : Document}
    (hpatch : (RuleSet.all settings).patch document = (document', record)) :
    document'.path = document.path ∧
    Members.keys document'.root = Members.keys document.root ∧
    (∀ key ≠ "nodes", Members.get? key document'.root = Members.get? key document.root) ∧
    (Members.get? "nodes" document.root = none → document' = document ∧ record = {}) ∧
    (∀ v, Members.get? "nodes" document.root = some v → (∀ entries, v ≠ .array entries) →
      document' = document ∧ record = { failures := [.shape document.path v.kind] }) ∧
    (∀ entries, Members.get? "nodes" document.root = some (.array entries) →
      ∃ (entries' : List Value) (records : List Record),
        Members.DiffersAt "nodes" (.array entries) (.array entries') document.root document'.root ∧
        entries'.length = entries.length ∧ records.length = entries.length ∧
        record.changes = records.flatMap Record.changes ∧
        record.failures = records.flatMap Record.failures ∧
        ∀ i entry entry' r, entries[i]? = some entry → entries'[i]? = some entry' →
          records[i]? = some r → ∃! treatment, Treats settings i entry entry' r treatment) := by
  have hfinal := finalCorrections_of_validate hvalid hname hmarker
  have hframe := patch_frame (RuleSet.all settings) document
  rw [hpatch] at hframe
  refine ⟨hframe.1, hframe.2.1, hframe.2.2, fun hnodes => ?_, fun v hnodes hv => ?_,
    fun entries hnodes => ?_⟩
  · rw [patch_of_nodes_eq_none _ hnodes, Prod.mk.injEq] at hpatch
    exact ⟨hpatch.1.symm, hpatch.2.symm⟩
  · rw [patch_of_nodes_ne_array _ hnodes hv, Prod.mk.injEq] at hpatch
    exact ⟨hpatch.1.symm, hpatch.2.symm⟩
  · rw [patch_of_nodes_eq_array _ hnodes, Prod.mk.injEq] at hpatch
    obtain ⟨rfl, rfl⟩ := hpatch
    obtain ⟨records, hlength, hchanges, hfailures, hrecords⟩ :=
      patchEntries_spec (RuleSet.all settings) 0 entries
    refine ⟨_, records, Members.differsAt_insert hnodes _, length_patchEntries _ _ _, hlength,
      hchanges, hfailures, fun i entry entry' r hentry hentry' hr => ?_⟩
    -- what happens to one entry does not depend on the others
    have htreats := existsUnique_treats hfinal i entry
    have hentryRun := hrecords i entry entry' r hentry hentry' hr
    rw [Nat.zero_add] at hentryRun
    rwa [hentryRun] at htreats

/-- A document with a node to repair and an entry that is no node. -/
def halfNodes : Document :=
  ⟨default, [("name", .string "flow"), ("nodes", .array
    [.object [("type", .string "n8n-nodes-base.postgres")], .bool true])]⟩

theorem patch_accounts_halfNodes :
    Members.keys ((RuleSet.all {}).patch halfNodes).1.root = ["name", "nodes"] ∧
      Members.get? "name" ((RuleSet.all {}).patch halfNodes).1.root = some (.string "flow") ∧
      ((RuleSet.all {}).patch halfNodes).2.changes.length = 1 ∧
      ((RuleSet.all {}).patch halfNodes).2.failures.length = 1 := by
  obtain ⟨-, hkeys, hvalues, -⟩ := patch_accounts rfl rfl rfl
    (rfl : (RuleSet.all {}).patch halfNodes = (_, _))
  exact ⟨hkeys, hvalues "name" (by decide), by decide +kernel, by decide +kernel⟩

end WorkflowRepair.Repair
