import Mathlib.Data.List.Infix
import WorkflowRepair.Proofs.Rules.Expression
import WorkflowRepair.Settings.Validation

/-!
# Matching braces

Collapsing an expression leaves one brace of each run of the same brace (`collapse_eq_squeeze`). So
the braces of what is left match exactly if the runs of the expression do, whatever their lengths
(`balanced_squeeze_iff`). An object in an object that ends with its template has one run of closing
braces for several runs of opening ones, and then a matched expression loses its match
(`normalizeText_unbalances`).
-/

namespace WorkflowRepair.Repair

open Text

/-- The characters that are collapsed where they are doubled. -/
abbrev Collapsible (c : Char) : Prop := c = '{' ∨ c = '}'

/-! ## Runs -/

/-- A text with one brace left of each run of the same brace. -/
def squeeze : List Char → List Char
  | [] => []
  | c :: cs => if Collapsible c ∧ cs.head? = some c then squeeze cs else c :: squeeze cs

/-- The number of runs of a character. Each ends where the next character is another one. -/
def runs (brace : Char) : List Char → Nat
  | [] => 0
  | c :: cs => (if c = brace ∧ cs.head? ≠ some brace then 1 else 0) + runs brace cs

theorem squeeze_cons_congr (c : Char) {cs cs' : List Char} (hhead : cs.head? = cs'.head?)
    (h : squeeze cs = squeeze cs') : squeeze (c :: cs) = squeeze (c :: cs') := by
  rw [squeeze, squeeze, hhead, h]

theorem squeeze_cons_self {brace : Char} (hbrace : Collapsible brace) (cs : List Char) :
    squeeze (brace :: brace :: cs) = squeeze (brace :: cs) := by
  rw [squeeze, if_pos ⟨hbrace, rfl⟩]

theorem head?_squeeze (cs : List Char) : (squeeze cs).head? = cs.head? := by
  induction cs with
  | nil => rfl
  | cons c cs ih =>
    rw [squeeze]
    split
    case isTrue h => rw [ih, h.2, List.head?_cons]
    case isFalse => rfl

/-- Each run of a brace is a single one afterwards. -/
theorem count_squeeze {brace : Char} (hbrace : Collapsible brace) (cs : List Char) :
    (squeeze cs).count brace = runs brace cs := by
  induction cs with
  | nil => rfl
  | cons c cs ih =>
    by_cases hc : c = brace
    · subst hc
      rw [squeeze, runs]
      by_cases hhead : cs.head? = some c
      · rw [if_pos ⟨hbrace, hhead⟩, if_neg (fun h => h.2 hhead), ih, Nat.zero_add]
      · rw [if_neg (fun h => hhead h.2), if_pos ⟨rfl, hhead⟩, List.count_cons_self, ih,
          Nat.add_comm]
    · rw [runs, if_neg (fun h => hc h.1), Nat.zero_add, ← ih, squeeze]
      split
      case isTrue => rfl
      case isFalse => exact List.count_cons_of_ne hc

/-! ## Collapsing -/

theorem squeeze_halve {brace : Char} (hbrace : Collapsible brace) (cs : List Char) :
    squeeze (halve brace cs) = squeeze cs := by
  fun_induction halve brace cs with
  | case1 a b rest hab ih =>
    obtain ⟨rfl, rfl⟩ := hab
    rw [squeeze_cons_self hbrace]
    exact squeeze_cons_congr _ (head?_halve _ rest) ih
  | case2 a b rest hab ih => exact squeeze_cons_congr a (head?_halve brace (b :: rest)) ih
  | case3 rest hrest => rfl

theorem hasPair_cons (brace c : Char) (cs : List Char) :
    hasPair brace (c :: cs) = true ↔
      c = brace ∧ cs.head? = some brace ∨ hasPair brace cs = true := by
  cases cs with
  | nil => simp [hasPair]
  | cons d cs => simp [hasPair]

/-- Where no brace is doubled, there is nothing to squeeze. -/
theorem squeeze_eq_self {cs : List Char} (h : hasDoubled cs = false) : squeeze cs = cs := by
  induction cs with
  | nil => rfl
  | cons c cs ih =>
    rw [hasDoubled, Bool.or_eq_false_iff, Bool.eq_false_iff, Bool.eq_false_iff] at h
    obtain ⟨hopening, hclosing⟩ := h
    rw [ne_eq, hasPair_cons, not_or] at hopening hclosing
    have hrest : hasDoubled cs = false := by
      rw [hasDoubled, Bool.or_eq_false_iff]
      exact ⟨Bool.eq_false_iff.2 hopening.2, Bool.eq_false_iff.2 hclosing.2⟩
    have hsingle : ¬ (Collapsible c ∧ cs.head? = some c) := by
      rintro ⟨rfl | rfl, hhead⟩
      · exact hopening.1 ⟨rfl, hhead⟩
      · exact hclosing.1 ⟨rfl, hhead⟩
    rw [squeeze, if_neg hsingle, ih hrest]

/-- Halving again and again leaves one brace of each run. -/
theorem collapse_eq_squeeze (cs : List Char) : collapse cs = squeeze cs := by
  fun_induction collapse cs with
  | case1 cs _ ih => rw [ih, halveBoth, squeeze_halve (.inr rfl), squeeze_halve (.inl rfl)]
  | case2 cs h => exact (squeeze_eq_self (Bool.eq_false_iff.2 h)).symm

/-! ## Beginnings -/

theorem head?_of_beginning {p cs : List Char} (h : p <+: cs) (hne : p ≠ []) : p.head? = cs.head? := by
  obtain ⟨rest, rfl⟩ := h
  rw [List.head?_append_of_ne_nil _ hne]

/-- What is left of a beginning is a beginning of what is left. -/
theorem squeeze_beginning {p cs : List Char} (h : p <+: cs) : squeeze p <+: squeeze cs := by
  induction cs generalizing p with
  | nil => rw [List.prefix_nil.1 h]
  | cons c cs ih =>
    rcases List.prefix_cons_iff.1 h with rfl | ⟨p, rfl, hp⟩
    · exact List.nil_prefix
    · cases p with
      | nil =>
        -- the first brace of a run stands for all of it
        obtain ⟨rest, hrest⟩ : ∃ rest, squeeze (c :: cs) = c :: rest :=
          List.head?_eq_some_iff.1 (head?_squeeze (c :: cs))
        rw [hrest, squeeze, if_neg (fun h => nomatch h.2)]
        exact List.prefix_cons_iff.2 (.inr ⟨[], rfl, List.nil_prefix⟩)
      | cons d p =>
        have hhead := head?_of_beginning hp (List.cons_ne_nil d p)
        rw [squeeze.eq_2 c (d :: p), squeeze.eq_2 c cs, hhead]
        split
        case isTrue => exact ih hp
        case isFalse => exact (List.prefix_cons_inj c).2 (ih hp)

/-- Each beginning of what is left is what is left of a beginning. -/
theorem exists_squeeze_of_beginning {q cs : List Char} (h : q <+: squeeze cs) :
    ∃ p, p <+: cs ∧ squeeze p = q := by
  induction cs generalizing q with
  | nil => exact ⟨[], List.nil_prefix, (List.prefix_nil.1 h).symm⟩
  | cons c cs ih =>
    rw [squeeze] at h
    split at h
    case isTrue hdoubled =>
      obtain ⟨p, hp, rfl⟩ := ih h
      cases p with
      | nil => exact ⟨[], List.nil_prefix, rfl⟩
      | cons d p =>
        refine ⟨c :: d :: p, (List.prefix_cons_inj c).2 hp, ?_⟩
        rw [squeeze, head?_of_beginning hp (List.cons_ne_nil d p), if_pos hdoubled]
    case isFalse hsingle =>
      rcases List.prefix_cons_iff.1 h with rfl | ⟨q, rfl, hq⟩
      · exact ⟨[], List.nil_prefix, rfl⟩
      · obtain ⟨p, hp, rfl⟩ := ih hq
        refine ⟨c :: p, (List.prefix_cons_inj c).2 hp, ?_⟩
        rw [squeeze, if_neg]
        rintro ⟨hbrace, hhead⟩
        have hne : p ≠ [] := by
          rintro rfl
          cases hhead
        rw [head?_of_beginning hp hne] at hhead
        exact hsingle ⟨hbrace, hhead⟩

/-! ## Matching -/

/-- Braces match by some number of them in a text: no beginning of the text has more closing than
opening ones, and in the whole text there are as many of both kinds. -/
def MatchedBy (number : Char → List Char → Nat) (cs : List Char) : Prop :=
  (∀ p, p <+: cs → number '}' p ≤ number '{' p) ∧ number '}' cs = number '{' cs

instance (number : Char → List Char → Nat) (cs : List Char) : Decidable (MatchedBy number cs) :=
  decidable_of_iff ((∀ p ∈ cs.inits, number '}' p ≤ number '{' p) ∧ number '}' cs = number '{' cs)
    (by simp only [List.mem_inits, MatchedBy])

/-- The braces of a text match. -/
abbrev Balanced (cs : List Char) : Prop := MatchedBy List.count cs

/-- The runs of braces of a text match, without regard to their lengths. -/
abbrev Paired (cs : List Char) : Prop := MatchedBy runs cs

/-- What is left of a text is matched exactly if its runs are. -/
theorem balanced_squeeze_iff (cs : List Char) : Balanced (squeeze cs) ↔ Paired cs := by
  have hopening := count_squeeze (.inl rfl)
  have hclosing := count_squeeze (.inr rfl)
  unfold Balanced Paired MatchedBy
  rw [hopening, hclosing]
  refine and_congr_left fun _ => ⟨fun h p hp => ?_, fun h q hq => ?_⟩
  · rw [← hopening, ← hclosing]
    exact h _ (squeeze_beginning hp)
  · obtain ⟨p, hp, rfl⟩ := exists_squeeze_of_beginning hq
    rw [hopening, hclosing]
    exact h p hp

/-- A sign in front that no number takes notice of makes no difference. -/
theorem matchedBy_cons_iff {number : Char → List Char → Nat} {c : Char} {cs : List Char}
    (hnil : ∀ brace, number brace [] = 0)
    (hcons : ∀ brace p, Collapsible brace → number brace (c :: p) = number brace p) :
    MatchedBy number (c :: cs) ↔ MatchedBy number cs := by
  unfold MatchedBy
  rw [hcons _ _ (.inl rfl), hcons _ _ (.inr rfl)]
  refine and_congr_left fun _ => ⟨fun h p hp => ?_, fun h q hq => ?_⟩
  · rw [← hcons _ _ (.inl rfl), ← hcons _ _ (.inr rfl)]
    exact h _ ((List.prefix_cons_inj c).2 hp)
  · rcases List.prefix_cons_iff.1 hq with rfl | ⟨p, rfl, hp⟩
    · rw [hnil, hnil]
    · rw [hcons _ _ (.inl rfl), hcons _ _ (.inr rfl)]
      exact h p hp

theorem balanced_cons_iff {c : Char} (hc : ¬ Collapsible c) (cs : List Char) :
    Balanced (c :: cs) ↔ Balanced cs := by
  refine matchedBy_cons_iff (fun brace => rfl) fun brace p hbrace => ?_
  have hne : c ≠ brace := by
    rintro rfl
    exact hc hbrace
  exact List.count_cons_of_ne hne

theorem paired_cons_iff {c : Char} (hc : ¬ Collapsible c) (cs : List Char) :
    Paired (c :: cs) ↔ Paired cs := by
  refine matchedBy_cons_iff (fun brace => rfl) fun brace p hbrace => ?_
  have hne : ¬ (c = brace ∧ p.head? ≠ some brace) := by
    rintro ⟨rfl, -⟩
    exact hc hbrace
  rw [runs, if_neg hne, Nat.zero_add]

/-! ## Normalizing -/

/-- Whether an expression is collapsed if it is corrected at all: it opens with a doubled brace, with
or without a `=` in front. -/
def IsCollapsed (value : List Char) : Prop :=
  opensDoubled value = true ∨ opensDoubled ('=' :: value) = true

theorem not_collapsible_equals : ¬ Collapsible '=' := by decide

theorem balanced_normalize_iff {barePrefix value normal : List Char}
    (hnormal : normalize barePrefix value = some normal) (hbalanced : Balanced value) :
    Balanced normal ↔ (IsCollapsed value → Paired value) := by
  unfold normalize at hnormal
  by_cases hopens : opensDoubled value = true
  · rw [if_pos hopens, collapse_eq_squeeze, Option.some.injEq] at hnormal
    rw [← hnormal, balanced_squeeze_iff]
    exact (imp_iff_right (.inl hopens)).symm
  · rw [if_neg hopens] at hnormal
    split at hnormal
    case isFalse => cases hnormal
    case isTrue =>
      rw [Option.some.injEq] at hnormal
      rw [← hnormal]
      split
      case isTrue hopens' =>
        rw [collapse_eq_squeeze, balanced_squeeze_iff, paired_cons_iff not_collapsible_equals]
        exact (imp_iff_right (.inr hopens')).symm
      case isFalse hopens' =>
        rw [balanced_cons_iff not_collapsible_equals]
        exact iff_of_true hbalanced fun h => absurd h (not_or.2 ⟨hopens, hopens'⟩)

/-- A matched expression keeps its match exactly if it is not collapsed, or its runs of braces match
as well as its braces. -/
theorem balanced_normalizeText_iff {barePrefix value fixed : String}
    (hfixed : normalizeText barePrefix value = some fixed) (hbalanced : Balanced value.toList) :
    Balanced fixed.toList ↔ (IsCollapsed value.toList → Paired value.toList) := by
  obtain ⟨normal, hnormal, rfl⟩ := Option.map_eq_some_iff.1 hfixed
  rw [String.toList_ofList]
  exact balanced_normalize_iff hnormal hbalanced

theorem balanced_normalizeText_templates :
    let value := "=\x7b\x7b$env.PREFIX\x7d\x7d_\x7b\x7b$json.id\x7d\x7d"
    let fixed := "=\x7b$env.PREFIX\x7d_\x7b$json.id\x7d"
    normalizeText ({} : ExpressionSettings).barePrefix value = some fixed ∧
      Balanced value.toList ∧ Balanced fixed.toList := by
  intro value fixed
  have hfixed : normalizeText ({} : ExpressionSettings).barePrefix value = some fixed := by
    decide +kernel
  have hbalanced : Balanced value.toList := by decide +kernel
  have hpaired : Paired value.toList := by decide +kernel
  exact ⟨hfixed, hbalanced, (balanced_normalizeText_iff hfixed hbalanced).2 fun _ => hpaired⟩

/-- An object in an object that ends right before the template does loses a brace. -/
theorem normalizeText_unbalances :
    let value := "=\x7b\x7b \x7ba:\x7bb:1\x7d\x7d \x7d\x7d"
    let fixed := "=\x7b \x7ba:\x7bb:1\x7d \x7d"
    Settings.validate {} = .ok () ∧
      normalizeText ({} : ExpressionSettings).barePrefix value = some fixed ∧
      Balanced value.toList ∧ ¬ Balanced fixed.toList := by
  decide +kernel

end WorkflowRepair.Repair
