import Mathlib.Logic.Relation
import WorkflowRepair.Proofs.Json.Stored
import WorkflowRepair.Proofs.Rules.Correction

/-!
# What rules write

Whatever its settings and its rules are, a rule set writes only two things to a document
(`Rewrites`): credentials where there were none, and another text where there was a text. So a
patched document can be stored wherever the document could (`within_patch`), and every number stays
where it was (`keepsNumbers_patch`).
-/

namespace WorkflowRepair.Repair

open Json Workflow

/-! ## Nodes -/

/-- What a rule writes to the members of a node. -/
inductive Rewrites (settings : Settings) : Members → Members → Prop
  | credential {fields : Members} (habsent : Members.get? "credentials" fields = none) :
      Rewrites settings fields
        (Members.insert "credentials" (Rule.credentials settings.credential) fields)
  | text {fields params : Members} {parameter text : String} (text' : String)
      (hparams : Members.get? "parameters" fields = some (.object params))
      (htext : Members.get? parameter params = some (.string text)) :
      Rewrites settings fields (Members.insert "parameters"
        (.object (Members.insert parameter (.string text') params)) fields)

variable (set : RuleSet)

theorem rewrites_runRule (settings : Settings) (label : String) (rule : Rule) (node : Node) :
    (RuleSet.runRule settings label rule node).1.fields = node.fields ∨
      Rewrites settings node.fields (RuleSet.runRule settings label rule node).1.fields := by
  have hcases := applies_apply settings rule node
  unfold RuleSet.runRule
  generalize rule.apply settings node = result at hcases
  cases hcases with
  | complete => exact .inl rfl
  | added h =>
    refine .inr (.credential ?_)
    simpa [Node.hasCredentials, Members.contains] using h
  | text _ hcorrects =>
    cases hcorrects with
    | malformed => exact .inl rfl
    | nothing => exact .inl rfl
    | corrected hparams htext => exact .inr (.text _ hparams htext)

theorem rewrites_runRules (settings : Settings) (label : String) (rules : List Rule) (node : Node) :
    Relation.ReflTransGen (Rewrites settings) node.fields
      (RuleSet.runRules settings label rules node).1.fields := by
  induction rules generalizing node with
  | nil => exact .refl
  | cons rule rules ih =>
    have hrest := ih (RuleSet.runRule settings label rule node).1
    rcases rewrites_runRule settings label rule node with hsame | hrewrites
    · rw [hsame] at hrest
      exact hrest
    · exact .head hrewrites hrest

/-! ## Documents -/

/-- A relation that entries have to what becomes of them, the arrays of entries have too. -/
theorem forall₂_patchEntries {R : Value → Value → Prop}
    (h : ∀ index entry, R entry (set.patchEntry index entry).1) (index : Nat)
    (entries : List Value) : List.Forall₂ R entries (set.patchEntries index entries).1 := by
  induction entries generalizing index with
  | nil => exact .nil
  | cons entry entries ih => exact .cons (h index entry) (ih (index + 1))

/-- A relation between objects that holds of what rules write holds of every entry. -/
theorem patchEntry_induction {R : Value → Value → Prop} (hrefl : ∀ v, R v v)
    (htrans : ∀ u v w, R u v → R v w → R u w)
    (hrewrites : ∀ fields fields', Rewrites set.settings fields fields' →
      R (.object fields) (.object fields')) (index : Nat) (entry : Value) :
    R entry (set.patchEntry index entry).1 := by
  cases entry with
  | object fields =>
    have hrules : ∀ fields', Relation.ReflTransGen (Rewrites set.settings) fields fields' →
        R (.object fields) (.object fields') := by
      intro fields' h
      induction h with
      | refl => exact hrefl _
      | tail _ hlast ih => exact htrans _ _ _ ih (hrewrites _ _ hlast)
    exact hrules _ (rewrites_runRules _ _ _ ⟨index, fields⟩)
  | _ => exact hrefl _

/-- A run replaces the entries of the array of nodes, or nothing. -/
theorem patch_root (document : Document) :
    (set.patch document).1.root = document.root ∨
      ∃ entries, Members.get? "nodes" document.root = some (.array entries) ∧
        (set.patch document).1.root =
          Members.insert "nodes" (.array (set.patchEntries 0 entries).1) document.root := by
  unfold RuleSet.patch
  split
  · exact .inl rfl
  · exact .inr ⟨_, by assumption, rfl⟩
  · exact .inl rfl

/-! ## Storage -/

section

variable {N : Number → Prop} {depth : Nat}

theorem within_credentials (credential : Credential) :
    (Rule.credentials credential).Within N (depth + 2) := by
  simp [Rule.credentials, Value.Within, Members.keys]

theorem Rewrites.within {settings : Settings} {fields fields' : Members}
    (h : Rewrites settings fields fields')
    (hfields : (Value.object fields).Within N (depth + 3)) :
    (Value.object fields').Within N (depth + 3) := by
  cases h with
  | credential => exact hfields.insert _ (within_credentials _)
  | text text' hparams =>
    exact hfields.insert _ (.insert _ (hfields.member hparams) Value.within_string)

theorem within_array {vs ws : List Value}
    (h : List.Forall₂ (fun v w => Value.Within N depth v → Value.Within N depth w) vs ws)
    (hvs : (Value.array vs).Within N (depth + 1)) : (Value.array ws).Within N (depth + 1) := by
  rw [Value.within_array] at hvs ⊢
  induction h with
  | nil => exact hvs
  | cons hfirst _ ih =>
    rw [List.forall_mem_cons] at hvs ⊢
    exact ⟨hfirst hvs.1, ih hvs.2⟩

/-- A patched document is stored as deep as the document. -/
theorem within_patch {document : Document}
    (h : (Value.object document.root).Within N (depth + 5)) :
    (Value.object (set.patch document).1.root).Within N (depth + 5) := by
  rcases patch_root set document with hsame | ⟨entries, hnodes, hroot⟩
  · rwa [hsame]
  · rw [hroot]
    refine h.insert "nodes" (within_array ?_ (h.member hnodes))
    refine forall₂_patchEntries set (patchEntry_induction set (fun _ => id) ?_ ?_) 0 entries
    · exact fun _ _ _ hfirst hsecond hv => hsecond (hfirst hv)
    · exact fun _ _ hrewrites => hrewrites.within

end

/-! ## Numbers -/

/-- Every number in the first value stands at the same position in the second. -/
def KeepsNumbers (v w : Value) : Prop :=
  ∀ position n, v.at? position = some (.number n) → w.at? position = some (.number n)

theorem keepsNumbers_insert {members : Members} {key : String} {w : Value}
    (h : ∀ v, Members.get? key members = some v → KeepsNumbers v w) :
    KeepsNumbers (.object members) (.object (Members.insert key w members)) := by
  intro position n hn
  cases position with
  | nil => cases hn
  | cons step position =>
    cases step with
    | item index => cases hn
    | member other =>
      rw [Value.at?] at hn ⊢
      rcases Option.bind_eq_some_iff.1 hn with ⟨v, hv, hat⟩
      by_cases hkey : other = key
      · subst hkey
        rw [Members.get?_insert_self]
        exact h v hv position n hat
      · rw [Members.get?_insert_ne _ _ hkey, hv]
        exact hat

theorem keepsNumbers_array {vs ws : List Value} (h : List.Forall₂ KeepsNumbers vs ws) :
    KeepsNumbers (.array vs) (.array ws) := by
  intro position n hn
  cases position with
  | nil => cases hn
  | cons step position =>
    cases step with
    | member key => cases hn
    | item index =>
      rw [Value.at?] at hn ⊢
      induction h generalizing index with
      | nil => cases hn
      | cons hfirst _ ih =>
        cases index with
        | zero => exact hfirst position n hn
        | succ index => exact ih index hn

/-- There is no number in a text. -/
theorem keepsNumbers_string (s : String) (w : Value) : KeepsNumbers (.string s) w := by
  intro position n hn
  cases position with
  | nil => cases hn
  | cons step position => cases step <;> cases hn

theorem Rewrites.keepsNumbers {settings : Settings} {fields fields' : Members}
    (h : Rewrites settings fields fields') :
    KeepsNumbers (.object fields) (.object fields') := by
  cases h with
  | credential habsent =>
    refine keepsNumbers_insert fun v hv => ?_
    rw [habsent] at hv
    cases hv
  | text text' hparams htext =>
    refine keepsNumbers_insert fun v hv => ?_
    rw [hparams, Option.some.injEq] at hv
    subst hv
    refine keepsNumbers_insert fun v hv => ?_
    rw [htext, Option.some.injEq] at hv
    subst hv
    exact keepsNumbers_string _ _

/-- Patching moves and changes no number. -/
theorem keepsNumbers_patch (document : Document) :
    KeepsNumbers (.object document.root) (.object (set.patch document).1.root) := by
  rcases patch_root set document with hsame | ⟨entries, hnodes, hroot⟩
  · rw [hsame]
    exact fun _ _ hn => hn
  · rw [hroot]
    refine keepsNumbers_insert fun v hv => ?_
    rw [hnodes, Option.some.injEq] at hv
    subst hv
    refine keepsNumbers_array (forall₂_patchEntries set (patchEntry_induction set ?_ ?_ ?_) 0 entries)
    · exact fun v _ _ hn => hn
    · exact fun u v w hfirst hsecond position n hn => hsecond position n (hfirst position n hn)
    · exact fun _ _ hrewrites => hrewrites.keepsNumbers

end WorkflowRepair.Repair
