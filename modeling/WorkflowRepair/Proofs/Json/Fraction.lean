import WorkflowRepair.Proofs.Json.Number
import WorkflowRepair.Json.Printer

/-!
# The text of a fraction

A fraction is written as a literal of the grammar, so that it can be read again: the digits of its
shortest decimal do not begin with a zero (`shortest_digits_ne_zero`), wherever the point and the
exponent are put (`exists_literal_write`).
-/

namespace WorkflowRepair

/-! ## Digits of natural numbers -/

namespace Json

/-- The digits of a number. -/
def Digits.ofNat (n : Nat) : Digits :=
  ⟨Nat.toDigits 10 n, Nat.toDigits_ne_nil, fun _ hc =>
    Nat.isDigit_of_mem_toDigits (by decide) (by decide) hc⟩

theorem Digits.value_ofNat (n : Nat) : (Digits.ofNat n).value = n :=
  Nat.ofDigitChars_toDigits (by decide) (by decide)

theorem digitChar_ne_zero {n : Nat} (h : n ≠ 0) (hlt : n < 10) : n.digitChar ≠ '0' := by
  have hall : ∀ n < 10, n ≠ 0 → n.digitChar ≠ '0' := by decide
  exact hall n hlt h

/-- The digits of a number other than zero do not begin with a zero. -/
theorem head?_toDigits_ne {n : Nat} (h : n ≠ 0) : (Nat.toDigits 10 n).head? ≠ some '0' := by
  induction n using Nat.strong_induction_on with
  | _ n ih =>
    rw [Nat.toDigits_eq_if (by decide)]
    split
    case isTrue hlt => simpa using digitChar_ne_zero h hlt
    case isFalse hge =>
      have hmore := ih (n / 10) (Nat.div_lt_self (Nat.pos_of_ne_zero h) (by decide)) (by omega)
      cases hdigits : Nat.toDigits 10 (n / 10) with
      | nil => exact absurd hdigits Nat.toDigits_ne_nil
      | cons d ds =>
        rw [hdigits] at hmore
        exact hmore

/-- The number of digits tells the size. -/
theorem pow_le_of_toDigits {n : Nat} (h : n ≠ 0) :
    Nat.pow 10 ((Nat.toDigits 10 n).length - 1) ≤ n := by
  by_cases hone : (Nat.toDigits 10 n).length - 1 = 0
  · rw [hone]
    exact Nat.pos_of_ne_zero h
  · have hlength := Nat.length_toDigits_le_iff (b := 10) (n := n)
      (k := (Nat.toDigits 10 n).length - 1) (by decide) (Nat.pos_of_ne_zero hone)
    by_contra hlt
    have := hlength.2 (Nat.lt_of_not_le hlt)
    omega

end Json

/-! ## Shortest decimals -/

namespace Decimal

open Json

theorem trim_digits_ne_zero {d : Decimal} (h : d.digits ≠ 0) : d.trim.digits ≠ 0 := by
  have hle := pow_le_of_toDigits h
  have hhead := head?_toDigits_ne h
  -- the first digit is no zero, so not all digits are taken off
  have hzeros : ((Nat.toDigits 10 d.digits).reverse.takeWhile (· == '0')).length ≤
      (Nat.toDigits 10 d.digits).length - 1 := by
    cases hdigits : Nat.toDigits 10 d.digits with
    | nil => exact absurd hdigits Nat.toDigits_ne_nil
    | cons first others =>
      have hfirst : (first == '0') = false := by
        rw [hdigits] at hhead
        simpa using hhead
      have hlength := (List.takeWhile_prefix (· == '0') (l := others.reverse)).length_le
      rw [List.length_reverse] at hlength
      rw [List.reverse_cons, List.takeWhile_append, List.takeWhile_cons, hfirst]
      split
      · simp
      · exact hlength
  unfold trim
  rw [if_neg h]
  have hpow : Nat.pow 10 ((Nat.toDigits 10 d.digits).reverse.takeWhile (· == '0')).length ≤
      d.digits := Nat.le_trans (Nat.pow_le_pow_right (by decide) hzeros) hle
  exact Nat.ne_of_gt (Nat.div_pos hpow (Nat.pow_pos (by decide)))

namespace Interval

/-- An interval of positive numbers. -/
structure Positive (i : Interval) : Prop where
  low : 0 < i.low
  middle : 0 < i.middle
  scale : 0 < i.scale

theorem positive_ofBits {bits : UInt64} (h : bits.toNat % Nat.pow 2 63 ≠ 0) :
    (ofBits bits).Positive := by
  have hbinary : ∀ significand exponent narrow, significand ≠ 0 →
      (ofBinary significand exponent narrow).Positive := by
    intro significand exponent narrow hne
    have hunit : 0 < Nat.pow 2 (exponent - 2).toNat := Nat.pow_pos (by decide)
    refine ⟨Nat.mul_pos ?_ hunit, Nat.mul_pos (by omega) hunit, Nat.pow_pos (by decide)⟩
    split <;> omega
  have hsplit : Nat.pow 2 63 = Nat.pow 2 52 * Nat.pow 2 11 := rfl
  simp only [ofBits]
  split
  case isTrue hbiased =>
    -- without an exponent there is a fraction, or the number would be zero
    refine hbinary _ _ _ fun hfraction => h ?_
    rw [hsplit, Nat.mod_mul, hfraction, hbiased, Nat.mul_zero]
  case isFalse => exact hbinary _ _ _ (Nat.ne_of_gt (Nat.add_pos_left (Nat.pow_pos (by decide)) _))

theorem Positive.rescale {i : Interval} (h : i.Positive) (exponent : Int) :
    (i.rescale exponent).Positive :=
  ⟨Nat.mul_pos h.low (Nat.pow_pos (by decide)), Nat.mul_pos h.middle (Nat.pow_pos (by decide)),
    Nat.mul_pos h.scale (Nat.pow_pos (by decide))⟩

theorem Positive.not_holds_zero {i : Interval} (h : i.Positive) : i.holds 0 = false := by
  have hlow := h.low
  unfold holds
  split
  · simp
    omega
  · simp

theorem Positive.nearest?_ne_zero {i : Interval} (h : i.Positive) {n : Nat}
    (hnearest : i.nearest? = some n) : n ≠ 0 := by
  rintro rfl
  have hzero := h.not_holds_zero
  simp only [nearest?] at hnearest
  split at hnearest
  case h_1 hbelow _ =>
    injection hnearest with hnearest
    split at hnearest
    · rw [hnearest, hzero] at hbelow
      cases hbelow
    · cases hnearest
  case h_2 hbelow _ =>
    injection hnearest with hnearest
    rw [hnearest, hzero] at hbelow
    cases hbelow
  case h_3 => cases hnearest
  case h_4 => cases hnearest

/-- The middle reaches the grid on which the search begins, and every finer one. -/
theorem Positive.scale_le_middle {i : Interval} (h : i.Positive) {exponent : Int}
    (hexponent : exponent ≤ i.leading) :
    (i.rescale exponent).scale ≤ (i.rescale exponent).middle := by
  have hten : ∀ {a b : Nat}, a ≤ b → Nat.pow 10 a ≤ Nat.pow 10 b :=
    fun h => Nat.pow_le_pow_right (by decide) h
  show i.scale * Nat.pow 10 exponent.toNat ≤ i.middle * Nat.pow 10 (-exponent).toNat
  unfold leading at hexponent
  split at hexponent
  case isTrue hle =>
    -- the grid is no wider than the power of ten below the middle
    have hquotient : i.middle / i.scale ≠ 0 := Nat.ne_of_gt (Nat.div_pos hle h.scale)
    have hpow := pow_le_of_toDigits hquotient
    have hexp : exponent.toNat ≤ (Nat.toDigits 10 (i.middle / i.scale)).length - 1 := by omega
    calc i.scale * Nat.pow 10 exponent.toNat
        ≤ i.scale * (i.middle / i.scale) := Nat.mul_le_mul_left _ (Nat.le_trans (hten hexp) hpow)
      _ ≤ i.middle := Nat.mul_div_le _ _
      _ ≤ i.middle * Nat.pow 10 (-exponent).toNat :=
        Nat.le_mul_of_pos_right _ (Nat.pow_pos (by decide))
  case isFalse hlt =>
    -- the middle is raised by as many powers of ten as it lacks
    have hlength : (Nat.toDigits 10 (i.scale / i.middle)).length ≤
        (Nat.toDigits 10 (i.scale / i.middle)).length := Nat.le_refl _
    have hpow := (Nat.length_toDigits_le_iff (by decide) Nat.length_toDigits_pos).1 hlength
    have hscale := (Nat.div_lt_iff_lt_mul h.middle).1 hpow
    have hexp : (Nat.toDigits 10 (i.scale / i.middle)).length ≤ (-exponent).toNat := by omega
    have hzero : exponent.toNat = 0 := by omega
    calc i.scale * Nat.pow 10 exponent.toNat
        = i.scale := by rw [hzero]; exact Nat.mul_one _
      _ ≤ Nat.pow 10 (Nat.toDigits 10 (i.scale / i.middle)).length * i.middle := Nat.le_of_lt hscale
      _ ≤ Nat.pow 10 (-exponent).toNat * i.middle := Nat.mul_le_mul_right _ (hten hexp)
      _ = i.middle * Nat.pow 10 (-exponent).toNat := Nat.mul_comm _ _

theorem Positive.search_digits_ne_zero {i : Interval} (h : i.Positive) (fuel : Nat)
    {exponent : Int} (hexponent : exponent ≤ i.leading) : (i.search fuel exponent).digits ≠ 0 := by
  induction fuel generalizing exponent with
  | zero =>
    have hscale := (h.rescale exponent).scale
    exact Nat.ne_of_gt (Nat.div_pos (h.scale_le_middle hexponent) hscale)
  | succ fuel ih =>
    unfold search
    cases hnearest : (i.rescale exponent).nearest? with
    | none => exact ih (by omega)
    | some digits => exact (h.rescale exponent).nearest?_ne_zero hnearest

theorem shortest_digits_ne_zero {bits : UInt64} (h : bits.toNat % Nat.pow 2 63 ≠ 0) :
    (ofBits bits).shortest.digits ≠ 0 :=
  (positive_ofBits h).search_digits_ne_zero 17 (Int.le_refl _)

end Interval

end Decimal

/-! ## Written decimals -/

namespace Json

open Decimal

variable (negative : Bool)

theorem allDigits_replicate (n : Nat) : AllDigits (List.replicate n '0') := by
  intro c hc
  rw [List.eq_of_mem_replicate hc]
  decide

theorem exists_literal_pointed (ds : Digits) (hhead : ds.chars.head? ≠ some '0') (whole : Int) :
    ∃ l : Literal, l.negative = negative ∧ l.unsigned = Layout.pointed ds.chars whole := by
  unfold Layout.pointed
  split
  case isTrue =>
    -- all digits stand behind the point
    have hdecimals := allDigits_append (allDigits_replicate (-whole).toNat) ds.isDigit
    refine ⟨⟨negative, ⟨['0'], by simp, by simp⟩, fun _ => rfl,
      some ⟨_, by simp [ds.ne_nil], hdecimals⟩, none⟩, rfl, ?_⟩
    simp [Literal.unsigned, pointText, exponentText]
  case isFalse hpositive =>
    split
    case isTrue hinside =>
      -- the point stands among the digits
      have hne : ds.chars.take whole.toNat ≠ [] := by
        intro hnil
        rcases List.take_eq_nil_iff.1 hnil with hzero | hzero
        · omega
        · exact ds.ne_nil hzero
      have hmore : ds.chars.drop whole.toNat ≠ [] := by
        intro hnil
        have := List.drop_eq_nil_iff.1 hnil
        omega
      have hfirst : (ds.chars.take whole.toNat).head? ≠ some '0' := by
        rwa [List.head?_take, if_neg (by omega)]
      refine ⟨⟨negative, ⟨_, hne, fun c hc => ds.isDigit c (List.mem_of_mem_take hc)⟩,
        fun h => absurd h hfirst,
        some ⟨_, hmore, fun c hc => ds.isDigit c (List.mem_of_mem_drop hc)⟩, none⟩, rfl, ?_⟩
      simp [Literal.unsigned, pointText, exponentText]
    case isFalse hbeyond =>
      -- zeros fill the whole part up
      have hall := allDigits_append ds.isDigit (allDigits_replicate (whole - ds.chars.length).toNat)
      have hfirst : (ds.chars ++
          List.replicate (whole - ds.chars.length).toNat '0').head? ≠ some '0' := by
        cases hchars : ds.chars with
        | nil => exact absurd hchars ds.ne_nil
        | cons d others =>
          rw [hchars] at hhead
          exact hhead
      refine ⟨⟨negative, ⟨_, by simp [ds.ne_nil], hall⟩, fun h => absurd h hfirst,
        some ⟨['0'], by simp, by simp⟩, none⟩, rfl, ?_⟩
      simp [Literal.unsigned, pointText, exponentText]

theorem exists_literal_scientific (ds : Digits) (hhead : ds.chars.head? ≠ some '0')
    (exponent : Int) :
    ∃ l : Literal, l.negative = negative ∧ l.unsigned = Layout.scientific ds.chars exponent := by
  -- the exponent is the same for every form of the digits
  have hexponent : ∃ e : Exponent, e.text =
      'e' :: (if exponent < 0 then '-' else '+') :: Nat.toDigits 10 exponent.natAbs := by
    refine ⟨⟨'e', .inl rfl, some (if exponent < 0 then '-' else '+'), ?_,
      Digits.ofNat exponent.natAbs⟩, rfl⟩
    intro c hc
    cases hc
    split <;> simp
  rcases hexponent with ⟨e, he⟩
  unfold Layout.scientific
  cases hchars : ds.chars with
  | nil => exact absurd hchars ds.ne_nil
  | cons d others =>
    have hd : d.isDigit = true := ds.isDigit d (by rw [hchars]; exact List.mem_cons_self)
    have hfirst : ¬ [d].head? = some '0' := by
      rw [hchars] at hhead
      exact hhead
    cases hothers : others with
    | nil =>
      refine ⟨⟨negative, ⟨[d], by simp, by simpa [AllDigits] using hd⟩,
        fun h => absurd h hfirst, none, some e⟩, rfl, ?_⟩
      simp [Literal.unsigned, pointText, exponentText, he]
    | cons d' others' =>
      have hmore : AllDigits others := fun c hc =>
        ds.isDigit c (by rw [hchars]; exact List.mem_cons_of_mem _ hc)
      rw [hothers] at hmore
      refine ⟨⟨negative, ⟨[d], by simp, by simpa [AllDigits] using hd⟩,
        fun h => absurd h hfirst, some ⟨d' :: others', by simp, hmore⟩, some e⟩, rfl, ?_⟩
      simp [Literal.unsigned, pointText, exponentText, he]

/-- A decimal other than zero is written as a literal. -/
theorem exists_literal_write (layout : Layout) {d : Decimal} (h : d.digits ≠ 0) :
    ∃ l : Literal, l.negative = negative ∧ l.unsigned = layout.write d := by
  have hhead := head?_toDigits_ne h
  simp only [Layout.write]
  split
  · exact exists_literal_pointed negative (Digits.ofNat d.digits) hhead _
  · exact exists_literal_scientific negative (Digits.ofNat d.digits) hhead _

/-- The literal for zero as a fraction. -/
def zeroLiteral : Literal :=
  ⟨negative, ⟨['0'], by simp, by simp⟩, fun _ => rfl, some ⟨['0'], by simp, by simp⟩, none⟩

theorem zeroLiteral_value : (zeroLiteral negative).value = 0 := by
  cases negative <;> decide +kernel

theorem eq_of_toBits_eq {x y : Float} (h : x.toBits = y.toBits) : x = y := by
  rcases x with ⟨⟨bits, hvalid⟩⟩
  rcases y with ⟨⟨bits', hvalid'⟩⟩
  have hbits : bits = bits' := h
  subst hbits
  rfl

/-- A zero is held for its own literal, with its sign. -/
theorem number?_zeroLiteral {x : Float} (h : x.toBits.toNat % Nat.pow 2 63 = 0) :
    (zeroLiteral !decide (x.toBits.toNat < Nat.pow 2 63)).number? = some (.float x) := by
  have hpow : Nat.pow 2 63 = 9223372036854775808 := rfl
  have hlt : x.toBits.toNat < 18446744073709551616 := x.toBits.toNat_lt
  by_cases hsign : x.toBits.toNat < Nat.pow 2 63
  · have hbits : x.toBits = (0.0 : Float).toBits := UInt64.toNat_inj.1 (by
      have hzero : (0.0 : Float).toBits.toNat = 0 := by decide +kernel
      rw [hpow] at h hsign
      omega)
    rw [decide_eq_true hsign, eq_of_toBits_eq hbits]
    rfl
  · have hbits : x.toBits = (-0.0 : Float).toBits := UInt64.toNat_inj.1 (by
      have hzero : (-0.0 : Float).toBits.toNat = 9223372036854775808 := by decide +kernel
      rw [hpow] at h hsign
      omega)
    rw [decide_eq_false hsign, eq_of_toBits_eq hbits]
    rfl

/-- A fraction is written as a literal, and a zero as one for which it is held again. -/
theorem exists_literal_fractionText (x : Float) : ∃ l : Literal, l.text = fractionText x ∧
    (x.toBits.toNat % Nat.pow 2 63 = 0 → l.value = 0 ∧ l.number? = some (.float x)) := by
  have htext : ∀ l : Literal, l.negative = !decide (x.toBits.toNat < Nat.pow 2 63) →
      l.text = (if x.toBits.toNat < Nat.pow 2 63 then [] else ['-']) ++ l.unsigned := by
    intro l hnegative
    unfold Literal.text
    by_cases hsign : x.toBits.toNat < Nat.pow 2 63
    · rw [hnegative, decide_eq_true hsign, if_pos hsign]
      rfl
    · rw [hnegative, decide_eq_false hsign, if_neg hsign]
      rfl
  simp only [fractionText]
  split
  case isTrue hzero =>
    exact ⟨zeroLiteral !decide (x.toBits.toNat < Nat.pow 2 63), htext _ rfl,
      fun hzero => ⟨zeroLiteral_value _, number?_zeroLiteral hzero⟩⟩
  case isFalse hpositive =>
    have hdigits := trim_digits_ne_zero (Interval.shortest_digits_ne_zero hpositive)
    rcases exists_literal_write (!decide (x.toBits.toNat < Nat.pow 2 63)) fractionLayout hdigits with
      ⟨l, hnegative, hunsigned⟩
    exact ⟨l, by rw [htext l hnegative, hunsigned], fun hzero => absurd hzero hpositive⟩

end Json

end WorkflowRepair
