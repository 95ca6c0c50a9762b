import WorkflowRepair.Proofs.Json.Members
import WorkflowRepair.Proofs.Rules.Expression
import WorkflowRepair.Proofs.Script.Loop
import WorkflowRepair.Proofs.Settings.Accepted
import WorkflowRepair.Repair.Rules

/-!
# What a rule does to a node

`Corrects` lists all that a correction of a string parameter can come to, so that no other proof
has to follow the accesses to the node. A rule that changes a node keeps its label and its type
(`apply_frame`), and it has nothing to repair in its own result if its corrections are final
(`apply_eq_none_of_apply`).
-/

namespace WorkflowRepair.Repair

open Json Workflow

/-! ## Corrections -/

/-- What is corrected needs no correction. -/
def IsFinal (correction : String → Option String) : Prop :=
  ∀ text text', correction text = some text' → correction text' = none

/-- A final correction changes the text. -/
theorem IsFinal.ne {correction : String → Option String} (h : IsFinal correction)
    {text text' : String} (hcorrect : correction text = some text') : text' ≠ text := by
  rintro rfl
  rw [h _ _ hcorrect] at hcorrect
  simp at hcorrect

theorem isFinal_normalizeText {settings : Settings} (h : Settings.Accepted settings) :
    IsFinal (normalizeText settings.expression.barePrefix) := by
  have hknown : settings.expression.barePrefix.toList ≠ [] := by
    intro hnil
    have := h.not_blank .barePrefix
    simp [Settings.Field.value, Text.isBlankText, hnil] at this
  intro text text' hcorrect
  obtain ⟨normal, hnormal, rfl⟩ := Option.map_eq_some_iff.1 hcorrect
  rw [normalizeText, String.toList_ofList,
    normalize_eq_none_of_normalize hknown h.not_prefixed hnormal]
  rfl

theorem fixText_eq_some_iff {declaration : DeclarationSettings} {script script' : String} :
    Rule.fixText declaration script = some script' ↔
      ∃ removed, fix declaration.variableName.toList declaration.marker.toList script.toList =
        .patched script'.toList removed := by
  simp only [Rule.fixText]
  split
  case h_1 code removed hfix =>
    simp only [hfix, Option.some.injEq, Fix.patched.injEq, exists_and_left, exists_eq', and_true]
    constructor
    · rintro rfl
      exact String.toList_ofList.symm
    · rintro rfl
      exact String.ofList_toList
  case h_2 hnot =>
    simp only [reduceCtorEq, false_iff, not_exists]
    exact fun removed => hnot _ removed

theorem isFinal_fixText {declaration : DeclarationSettings}
    (hname : Settings.isIdentifier declaration.variableName.toList = true)
    (hclear : Clear (IsCheck declaration.variableName.toList) declaration.marker.toList) :
    IsFinal (Rule.fixText declaration) := by
  intro text text' hcorrect
  obtain ⟨removed, hfix⟩ := fixText_eq_some_iff.1 hcorrect
  cases hagain : Rule.fixText declaration text' with
  | none => rfl
  | some text'' =>
    obtain ⟨removed', hfix'⟩ := fixText_eq_some_iff.1 hagain
    exact absurd hfix' (fix_ne_patched_of_patched hname hclear hfix _ _)

/-- The outcomes of a correction of the string parameter `parameter` of a node. -/
inductive Corrects (parameter : String) (correction : String → Option String) (node : Node) :
    Except NodeFault (Option Node) → Prop
  /-- The parameters are not an object. -/
  | malformed {v : Value} (hparams : Members.get? "parameters" node.fields = some v)
      (hv : ∀ params, v ≠ .object params) :
      Corrects parameter correction node (.error (.parametersNotObject v.kind))
  /-- There is no text that needs a correction. -/
  | nothing
      (hparams : ∀ v, Members.get? "parameters" node.fields = some v → ∃ params, v = .object params)
      (htext : ∀ params text, Members.get? "parameters" node.fields = some (.object params) →
        Members.get? parameter params = some (.string text) → correction text = none) :
      Corrects parameter correction node (.ok none)
  /-- The text is corrected. -/
  | corrected {params : Members} {text text' : String}
      (hparams : Members.get? "parameters" node.fields = some (.object params))
      (htext : Members.get? parameter params = some (.string text))
      (hcorrect : correction text = some text') :
      Corrects parameter correction node (.ok (some { node with
        fields := Members.insert "parameters"
          (.object (Members.insert parameter (.string text') params)) node.fields }))

theorem eq_string_of_text? {value : Value} {text : String} (h : value.text? = some text) :
    value = .string text := by
  cases value with
  | string s =>
    injection h with h
    rw [h]
  | _ => simp [Value.text?] at h

theorem corrects_correct (parameter : String) (correction : String → Option String) (node : Node) :
    Corrects parameter correction node (Rule.correct parameter correction node) := by
  -- `parameters` is missing, an object, or something else
  cases hparams : Members.get? "parameters" node.fields with
  | none =>
    have hnothing : Rule.correct parameter correction node = .ok none := by
      simp [Rule.correct, Node.stringParameter, Node.parameters, hparams, Except.map]
    rw [hnothing]
    exact .nothing (by simp [hparams]) (by simp [hparams])
  | some v =>
    by_cases hobject : ∃ params, v = .object params
    · obtain ⟨params, rfl⟩ := hobject
      have hread : node.stringParameter parameter =
          .ok ((Members.get? parameter params).bind Value.text?) := by
        simp [Node.stringParameter, Node.parameters, hparams, Except.map]
      cases htext : (Members.get? parameter params).bind Value.text? with
      | none =>
        simp only [Rule.correct, hread, htext]
        refine .nothing (by simp [hparams]) fun params' text hparams' htext' => ?_
        obtain rfl : params = params' := by simpa [hparams] using hparams'
        simp [htext', Value.text?] at htext
      | some text =>
        obtain ⟨value, hvalue, hstring⟩ := Option.bind_eq_some_iff.1 htext
        obtain rfl := eq_string_of_text? hstring
        cases hcorrect : correction text with
        | none =>
          simp only [Rule.correct, hread, htext, hcorrect]
          refine .nothing (by simp [hparams]) fun params' text' hparams' htext' => ?_
          obtain rfl : params = params' := by simpa [hparams] using hparams'
          obtain rfl : text = text' := by simpa [hvalue] using htext'
          exact hcorrect
        | some text' =>
          have hwrite : node.setStringParameter parameter text' =
              .ok { node with
                fields := Members.insert "parameters"
                  (.object (Members.insert parameter (.string text') params)) node.fields } := by
            simp [Node.setStringParameter, Node.parameters, hparams]
          simp only [Rule.correct, hread, htext, hcorrect, hwrite, Except.map]
          exact .corrected hparams hvalue hcorrect
    · have hv : ∀ params, v ≠ .object params := fun params h => hobject ⟨params, h⟩
      have herror : node.parameters = .error (.parametersNotObject v.kind) := by
        simp only [Node.parameters, hparams]
      simp only [Rule.correct, Node.stringParameter, herror, Except.map]
      exact .malformed hparams hv

/-! ## Rules -/

/-- The string parameter that a rule corrects, none if it does not work on a parameter. -/
def Rule.parameter? (settings : Settings) : Rule → Option String
  | .credential => none
  | .expression => some settings.expression.parameter
  | .declaration => some settings.declaration.parameter

/-- The correction that a rule makes to the text of its parameter. -/
def Rule.correction (settings : Settings) : Rule → String → Option String
  | .credential => fun _ => none
  | .expression => normalizeText settings.expression.barePrefix
  | .declaration => Rule.fixText settings.declaration

/-- The outcomes of a rule on a node. -/
inductive Applies (settings : Settings) : Rule → Node → Except NodeFault (Option Node) → Prop
  /-- The node has credentials already. -/
  | complete {node : Node} (h : node.hasCredentials = true) :
      Applies settings .credential node (.ok none)
  /-- The node gets its credentials. -/
  | added {node : Node} (h : node.hasCredentials = false) :
      Applies settings .credential node (.ok (some { node with
        fields := Members.insert "credentials" (Rule.credentials settings.credential)
          node.fields }))
  /-- The text of a parameter is corrected, or not. -/
  | text {rule : Rule} {parameter : String} {node : Node} {result : Except NodeFault (Option Node)}
      (hrule : rule.parameter? settings = some parameter)
      (hcorrects : Corrects parameter (rule.correction settings) node result) :
      Applies settings rule node result

theorem applies_apply (settings : Settings) (rule : Rule) (node : Node) :
    Applies settings rule node (rule.apply settings node) := by
  cases rule with
  | credential =>
    simp only [Rule.apply, Node.addCredentials?]
    split
    case isTrue h => exact .complete h
    case isFalse h => exact .added (by simpa using h)
  | expression => exact .text rfl (corrects_correct _ _ node)
  | declaration => exact .text rfl (corrects_correct _ _ node)

theorem apply_eq_correct {settings : Settings} {rule : Rule} {parameter : String}
    (h : rule.parameter? settings = some parameter) (node : Node) :
    rule.apply settings node = Rule.correct parameter (rule.correction settings) node := by
  cases rule with
  | credential => simp [Rule.parameter?] at h
  | _ =>
    injection h with h
    rw [← h]
    rfl

/-- A rule keeps the place, the label and the type of a node. -/
theorem apply_frame {settings : Settings} {rule : Rule} {node node' : Node}
    (h : rule.apply settings node = .ok (some node')) :
    node'.index = node.index ∧ node'.name = node.name ∧ node'.typeTag = node.typeTag := by
  -- both members that rules write to are none of these
  have hinsert : ∀ key value, "name" ≠ key → "type" ≠ key →
      Node.name ⟨node.index, Members.insert key value node.fields⟩ = node.name ∧
      Node.typeTag ⟨node.index, Members.insert key value node.fields⟩ = node.typeTag := by
    intro key value hname htype
    simp only [Node.name, Node.typeTag, Members.get?_insert_ne _ _ hname,
      Members.get?_insert_ne _ _ htype, and_self]
  have hcases := applies_apply settings rule node
  rw [h] at hcases
  cases hcases with
  | added => exact ⟨rfl, hinsert _ _ (by decide) (by decide)⟩
  | text _ hcorrects =>
    cases hcorrects with
    | corrected => exact ⟨rfl, hinsert _ _ (by decide) (by decide)⟩

/-! ## Final corrections -/

/-- The corrections that the rules make under given settings are final. -/
def FinalCorrections (settings : Settings) : Prop :=
  ∀ rule : Rule, IsFinal (rule.correction settings)

/-- With the built-in variable and marker, accepted settings make final corrections. -/
theorem finalCorrections_of_validate {settings : Settings}
    (hvalid : Settings.validate settings = .ok ())
    (hname : settings.declaration.variableName = ({} : DeclarationSettings).variableName)
    (hmarker : settings.declaration.marker = ({} : DeclarationSettings).marker) :
    FinalCorrections settings := by
  have haccepted := Settings.validate_eq_ok_iff.1 hvalid
  intro rule
  cases rule with
  | credential =>
    intro text text' h
    simp [Rule.correction] at h
  | expression => exact isFinal_normalizeText haccepted
  | declaration =>
    refine isFinal_fixText haccepted.identifier ?_
    rw [hname, hmarker]
    exact clear_isCheck_default

/-- A rule has nothing to repair in its own result. -/
theorem apply_eq_none_of_apply {settings : Settings} (hfinal : FinalCorrections settings)
    {rule : Rule} {node node' : Node} (h : rule.apply settings node = .ok (some node')) :
    rule.apply settings node' = .ok none := by
  have hcases := applies_apply settings rule node
  rw [h] at hcases
  cases hcases with
  | added =>
    simp [Rule.apply, Node.addCredentials?, Node.hasCredentials, Members.contains,
      Members.get?_insert_self]
  | @text _ parameter _ _ hrule hcorrects =>
    cases hcorrects with
    | @corrected params text text' _ _ hcorrect =>
      have hread : Node.stringParameter parameter { node with
          fields := Members.insert "parameters"
            (.object (Members.insert parameter (.string text') params)) node.fields } =
          .ok (some text') := by
        simp [Node.stringParameter, Node.parameters, Members.get?_insert_self, Except.map,
          Value.text?]
      rw [apply_eq_correct hrule]
      simp only [Rule.correct, hread, hfinal rule _ _ hcorrect]

end WorkflowRepair.Repair
