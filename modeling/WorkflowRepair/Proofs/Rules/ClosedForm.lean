import Mathlib.Data.List.SplitBy
import Mathlib.Logic.Function.Iterate
import WorkflowRepair.Proofs.Rules.Braces

/-!
# The corrected form of an expression

Correcting an expression halves its doubled braces again and again. What comes of it has a closed
form, in which no round shows:

* `exists_rounds` — the rounds come to an end, on every text;
* `squeeze_eq_shortenRuns` — afterwards each longest run of the same brace is a single one;
* `normalizeText_eq_closedForm` — so the corrected form is written down by a look at the beginning
  of the expression, it differs from the expression, and it needs no correction any more.
-/

namespace WorkflowRepair.Repair

open Text

/-! ## The rounds -/

/-- Halving ends after `rounds` rounds: before each of them a brace is doubled, behind the last one
none is. -/
structure EndsAfter (rounds : Nat) (cs : List Char) : Prop where
  doubled : ∀ k < rounds, hasDoubled (halveBoth^[k] cs) = true
  single : hasDoubled (halveBoth^[rounds] cs) = false

theorem EndsAfter.succ {rounds : Nat} {cs : List Char} (hdoubled : hasDoubled cs = true)
    (h : EndsAfter rounds (halveBoth cs)) : EndsAfter (rounds + 1) cs where
  doubled k hk := by
    cases k with
    | zero => exact hdoubled
    | succ k =>
      rw [Function.iterate_succ_apply]
      exact h.doubled k (by omega)
  single := by
    rw [Function.iterate_succ_apply]
    exact h.single

/-- The rounds end on every text, and `collapse` is what they leave. Each shortens the text, so
there are at most as many as characters. -/
theorem exists_rounds (cs : List Char) :
    ∃ rounds ≤ cs.length, EndsAfter rounds cs ∧ collapse cs = halveBoth^[rounds] cs := by
  fun_induction collapse cs with
  | case1 cs hdoubled ih =>
    obtain ⟨rounds, hle, hends, hcollapse⟩ := ih
    have hshorter := length_halveBoth_lt hdoubled
    refine ⟨rounds + 1, by omega, hends.succ hdoubled, ?_⟩
    rw [Function.iterate_succ_apply]
    exact hcollapse
  | case2 cs hsingle =>
    refine ⟨0, Nat.zero_le _, ⟨fun k hk => absurd hk (Nat.not_lt_zero k), ?_⟩, rfl⟩
    exact Bool.eq_false_iff.2 hsingle

/-! ## Runs -/

/-- A run of the same character, with one left of it if it is a brace. -/
def leaveOne : List Char → List Char
  | [] => []
  | c :: more => if Collapsible c then [c] else c :: more

/-- A text with one brace in the place of each longest run of the same brace. -/
def shortenRuns (cs : List Char) : List Char := (cs.splitBy (· == ·)).flatMap leaveOne

/-- A run that does not go on is squeezed by itself. -/
theorem squeeze_append {run rest : List Char} (hne : run ≠ [])
    (hsame : run.IsChain fun a b => (a == b) = true) (hends : run.getLast? ≠ rest.head?) :
    squeeze (run ++ rest) = leaveOne run ++ squeeze rest := by
  induction run with
  | nil => exact absurd rfl hne
  | cons c run ih =>
    cases run with
    | nil =>
      have hsingle : ¬ (Collapsible c ∧ rest.head? = some c) := fun h => hends h.2.symm
      have hone : leaveOne [c] = [c] := ite_self _
      rw [List.singleton_append, squeeze, if_neg hsingle, hone, List.singleton_append]
    | cons d run =>
      obtain ⟨hcd, hrest⟩ := List.isChain_cons_cons.1 hsame
      obtain rfl := eq_of_beq hcd
      have hsqueeze := ih (List.cons_ne_nil c run) hrest hends
      rw [List.cons_append, List.cons_append] at *
      -- the first of two braces goes; of other characters both stay
      by_cases hc : Collapsible c
      · rw [squeeze_cons_self hc, hsqueeze, leaveOne, leaveOne, if_pos hc, if_pos hc]
      · have hsingle : ¬ (Collapsible c ∧ (c :: (run ++ rest)).head? = some c) := fun h => hc h.1
        rw [squeeze, if_neg hsingle, hsqueeze, leaveOne, leaveOne, if_neg hc, if_neg hc,
          List.cons_append, List.cons_append, List.cons_append]

theorem squeeze_flatten {runs : List (List Char)} (hne : [] ∉ runs)
    (hsame : ∀ run ∈ runs, run.IsChain fun a b => (a == b) = true)
    (hends : runs.IsChain fun a b => ∃ ha hb, (a.getLast ha == b.head hb) = false) :
    squeeze runs.flatten = runs.flatMap leaveOne := by
  induction runs with
  | nil => rfl
  | cons run runs ih =>
    rw [List.mem_cons, not_or] at hne
    rw [List.forall_mem_cons] at hsame
    have hrest := ih hne.2 hsame.2 hends.tail
    -- the next run begins with another character than this one ends with
    have hnext : run.getLast? ≠ runs.flatten.head? := by
      cases runs with
      | nil => simpa using Ne.symm hne.1
      | cons next runs =>
        obtain ⟨⟨hrun, hnext, hlast⟩, -⟩ := List.isChain_cons_cons.1 hends
        rw [List.flatten_cons, List.head?_append_of_ne_nil _ hnext,
          List.getLast?_eq_some_getLast hrun, List.head?_eq_some_head hnext, ne_eq,
          Option.some.injEq]
        exact ne_of_beq_false hlast
    rw [List.flatten_cons, List.flatMap_cons, squeeze_append (Ne.symm hne.1) hsame.1 hnext, hrest]

theorem squeeze_eq_shortenRuns (cs : List Char) : squeeze cs = shortenRuns cs := by
  have h := squeeze_flatten (List.nil_notMem_splitBy (· == ·) cs)
    (fun _ => List.isChain_of_mem_splitBy) (List.isChain_getLast_head_splitBy (· == ·) cs)
  rwa [List.flatten_splitBy] at h

/-! ## The closed form -/

/-- The corrected form of an expression, none if it needs no correction. -/
def closedForm (barePrefix value : List Char) : Option (List Char) :=
  if ['=', '{', '{'] <+: value then some (shortenRuns value)
  else if barePrefix <+: value then
    if ['{', '{'] <+: value then some (shortenRuns ('=' :: value)) else some ('=' :: value)
  else none

theorem after?_isSome_iff {word cs : List Char} : (after? word cs).isSome = true ↔ word <+: cs := by
  constructor
  · intro h
    obtain ⟨rest, hrest⟩ := Option.isSome_iff_exists.1 h
    exact ⟨rest, (eq_append_of_after? hrest).symm⟩
  · rintro ⟨rest, rfl⟩
    rw [after?_append]
    rfl

theorem opensDoubled_iff {cs : List Char} : opensDoubled cs = true ↔ ['=', '{', '{'] <+: cs :=
  after?_isSome_iff

theorem normalize_eq_closedForm (barePrefix value : List Char) :
    normalize barePrefix value = closedForm barePrefix value := by
  have hsigned : opensDoubled ('=' :: value) = true ↔ ['{', '{'] <+: value := by
    rw [opensDoubled_iff, List.prefix_cons_inj]
  have hcollapse : ∀ cs, collapse cs = shortenRuns cs := fun cs =>
    (collapse_eq_squeeze cs).trans (squeeze_eq_shortenRuns cs)
  simp only [normalize, closedForm, opensDoubled_iff, after?_isSome_iff, hsigned, hcollapse]
  split_ifs <;> rfl

/-! ## The corrected form differs -/

/-- A correction is one: it never gives back the expression itself. -/
theorem ne_of_normalize {barePrefix value fixed : List Char} (hknown : barePrefix ≠ [])
    (hequals : barePrefix.head? ≠ some '=') (h : normalize barePrefix value = some fixed) :
    fixed ≠ value := by
  rintro rfl
  -- the expression would be its own corrected form, and such a form needs no correction
  rw [normalize_eq_none_of_normalize hknown hequals h] at h
  cases h

/-- The corrected form of an expression is its closed form, the rounds of halving come to an end on
every text, and a corrected form is another text that is not corrected again. -/
theorem normalizeText_eq_closedForm {barePrefix : String} (hknown : barePrefix ≠ "")
    (hequals : barePrefix.toList.head? ≠ some '=') (value : String) :
    normalizeText barePrefix value =
        (closedForm barePrefix.toList value.toList).map String.ofList ∧
      (∀ cs, ∃ rounds ≤ cs.length, EndsAfter rounds cs ∧ collapse cs = halveBoth^[rounds] cs) ∧
      ∀ fixed, normalizeText barePrefix value = some fixed →
        fixed ≠ value ∧ normalizeText barePrefix fixed = none := by
  refine ⟨?_, exists_rounds, fun fixed hfixed => ?_⟩
  · rw [normalizeText, normalize_eq_closedForm]
  · have hchars : barePrefix.toList ≠ [] := fun h => hknown (String.toList_eq_nil_iff.1 h)
    obtain ⟨normal, hnormal, rfl⟩ := Option.map_eq_some_iff.1 hfixed
    constructor
    · rintro rfl
      rw [String.toList_ofList] at hnormal
      exact ne_of_normalize hchars hequals hnormal rfl
    · rw [normalizeText, String.toList_ofList,
        normalize_eq_none_of_normalize hchars hequals hnormal]
      rfl

theorem normalizeText_eq_closedForm_stacked :
    let value := "\x7b\x7b\x7b$env.A\x7d\x7d\x7d_\x7b\x7bb\x7d\x7d"
    let fixed := "=\x7b$env.A\x7d_\x7bb\x7d"
    normalizeText "\x7b\x7b" value = some fixed ∧ fixed ≠ value ∧
      normalizeText "\x7b\x7b" fixed = none := by
  intro value fixed
  have hclosed : closedForm "\x7b\x7b".toList value.toList = some fixed.toList := by decide +kernel
  have hknown : "\x7b\x7b" ≠ "" := by decide
  obtain ⟨hform, -, hagain⟩ := normalizeText_eq_closedForm hknown (by decide) value
  rw [hclosed, Option.map_some, String.ofList_toList] at hform
  exact ⟨hform, hagain fixed hform⟩

end WorkflowRepair.Repair
