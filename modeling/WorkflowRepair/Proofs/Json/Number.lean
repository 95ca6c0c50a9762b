import WorkflowRepair.Proofs.Json.Grammar

/-!
# Reading numbers

Whatever a literal is worth, its reader comes to the same end wherever the literal stands, as long
as nothing behind it could go on with it (`comes_readNumber`), and what the reader takes off a text
is a literal (`exists_literal_of_readNumber`). An integer literal in the range of integers is held as
what it writes (`number?_of_integer?`).
-/

namespace WorkflowRepair.Json

/-! ## Outcomes of a reader -/

/-- A reader comes to a value and leaves `rest`, or to none and refuses. -/
def Comes {α : Type} (result : Except Fault (α × List Char)) (outcome : Option α)
    (rest : List Char) : Prop :=
  match outcome with
  | some a => result = .ok (a, rest)
  | none => ∃ fault, result = .error fault

section

variable {α : Type} {result : Except Fault (α × List Char)} {outcome : Option α} {rest : List Char}

theorem comes_iff : Comes result outcome rest ↔
    (∃ a, result = .ok (a, rest) ∧ outcome = some a) ∨
      ∃ fault, result = .error fault ∧ outcome = none := by
  cases outcome with
  | none => simp [Comes]
  | some a => simp [Comes]

theorem Comes.eq_some {rest' : List Char} {a : α} (h : Comes result outcome rest)
    (hok : result = .ok (a, rest')) : outcome = some a ∧ rest' = rest := by
  rcases comes_iff.1 h with ⟨b, hb, rfl⟩ | ⟨fault, hfault, -⟩
  · rw [hok] at hb
    injection hb with hb
    injection hb with ha hrest
    exact ⟨congrArg some ha.symm, hrest⟩
  · rw [hok] at hfault
    cases hfault

theorem Comes.map {β : Type} (h : Comes result outcome rest) (f : α → β) :
    Comes (result.map fun (a, rest) => (f a, rest)) (outcome.map f) rest := by
  rcases comes_iff.1 h with ⟨a, rfl, rfl⟩ | ⟨fault, rfl, rfl⟩
  · rfl
  · exact ⟨fault, rfl⟩

end

/-- No digit comes next. -/
def NoDigit (cs : List Char) : Prop := ∀ c ∈ cs.head?, c.isDigit = false

/-- Nothing comes next that could go on with a number. -/
def Ends (cs : List Char) : Prop :=
  ∀ c ∈ cs.head?, c.isDigit = false ∧ c ≠ '.' ∧ c ≠ 'e' ∧ c ≠ 'E'

theorem Ends.noDigit {cs : List Char} (h : Ends cs) : NoDigit cs := fun c hc => (h c hc).1

theorem ends_nil : Ends [] := by
  intro c hc
  cases hc

theorem ends_cons {c : Char} {cs : List Char}
    (h : c.isDigit = false ∧ c ≠ '.' ∧ c ≠ 'e' ∧ c ≠ 'E') : Ends (c :: cs) := by
  intro c' hc'
  cases hc'
  exact h

/-- What is read does not depend on what comes behind it. -/
def Settles (read : List Char → Except Fault (Number × List Char)) : Prop :=
  ∃ outcome, ∀ rest, Ends rest → Comes (read rest) outcome rest

section

variable {read read' : List Char → Except Fault (Number × List Char)}

theorem settles_of_ok (n : Number) (h : ∀ rest, Ends rest → read rest = .ok (n, rest)) :
    Settles read :=
  ⟨some n, h⟩

theorem settles_of_error (h : ∀ rest, Ends rest → ∃ fault, read rest = .error fault) :
    Settles read :=
  ⟨none, h⟩

theorem Settles.congr (h : Settles read') (heq : ∀ rest, Ends rest → read rest = read' rest) :
    Settles read := by
  rcases h with ⟨outcome, h⟩
  refine ⟨outcome, fun rest hrest => ?_⟩
  rw [heq rest hrest]
  exact h rest hrest

end

/-! ## Runs of digits -/

/-- Nothing but digits. -/
def AllDigits (cs : List Char) : Prop := ∀ c ∈ cs, c.isDigit = true

theorem allDigits_nil : AllDigits [] := fun _ hc => absurd hc List.not_mem_nil

theorem allDigits_cons {c : Char} {cs : List Char} (h : c.isDigit = true) (hcs : AllDigits cs) :
    AllDigits (c :: cs) := by
  intro d hd
  rcases List.mem_cons.1 hd with rfl | hd
  · exact h
  · exact hcs d hd

theorem allDigits_append {xs ys : List Char} (hxs : AllDigits xs) (hys : AllDigits ys) :
    AllDigits (xs ++ ys) := by
  intro c hc
  exact (List.mem_append.1 hc).elim (hxs c) (hys c)

theorem allDigits_takeWhile (cs : List Char) : AllDigits (cs.takeWhile Char.isDigit) :=
  fun _ hc => List.all_eq_true.1 List.all_takeWhile _ hc

theorem dropWhile_isDigit_of_noDigit {cs : List Char} (h : NoDigit cs) :
    cs.dropWhile Char.isDigit = cs := by
  cases cs with
  | nil => rfl
  | cons c cs => simp [h c rfl]

theorem dropWhile_isDigit_append {ds cs : List Char} (hds : AllDigits ds) (h : NoDigit cs) :
    (ds ++ cs).dropWhile Char.isDigit = cs := by
  rw [List.dropWhile_append_of_pos hds, dropWhile_isDigit_of_noDigit h]

theorem takeWhile_isDigit_append {ds cs : List Char} (hds : AllDigits ds) (h : NoDigit cs) :
    (ds ++ cs).takeWhile Char.isDigit = ds := by
  rw [List.takeWhile_append_of_pos hds]
  cases cs with
  | nil => simp
  | cons c cs => simp [h c rfl]

/-- The digits in front of the rest. -/
theorem exists_allDigits_append (cs : List Char) :
    ∃ ds, AllDigits ds ∧ cs = ds ++ cs.dropWhile Char.isDigit :=
  ⟨cs.takeWhile Char.isDigit, allDigits_takeWhile cs, List.takeWhile_append_dropWhile.symm⟩

/-! ## Significands -/

theorem readSignificand_of_noDigit (significand : Nat) {cs : List Char} (h : NoDigit cs) :
    readSignificand significand cs = (significand, cs) := by
  cases cs with
  | nil => rfl
  | cons c cs => simp [readSignificand, h c rfl]

theorem readSignificand_append (significand : Nat) (ds : List Char) {cs : List Char} (h : NoDigit cs) :
    readSignificand significand (ds ++ cs) =
      ((readSignificand significand ds).1, (readSignificand significand ds).2 ++ cs) := by
  induction ds generalizing significand with
  | nil => exact readSignificand_of_noDigit significand h
  | cons d ds ih =>
    simp only [List.cons_append, readSignificand]
    split
    · exact ih _
    · rfl

/-- A significand is made of the digits in front of what is left. -/
theorem readSignificand_split (significand : Nat) (cs : List Char) :
    ∃ ds, AllDigits ds ∧ cs = ds ++ (readSignificand significand cs).2 := by
  induction cs generalizing significand with
  | nil => exact ⟨[], allDigits_nil, rfl⟩
  | cons c cs ih =>
    simp only [readSignificand]
    split
    case isTrue hfits =>
      have hdigit : c.isDigit = true := by
        rw [Bool.and_eq_true] at hfits
        exact hfits.1
      rcases ih (significand * 10 + digitValue c) with ⟨ds, hds, heq⟩
      exact ⟨c :: ds, allDigits_cons hdigit hds, by rw [List.cons_append, ← heq]⟩
    case isFalse => exact ⟨[], allDigits_nil, rfl⟩

theorem readSignificand_le {significand : Nat} (h : significand ≤ maxInteger) (cs : List Char) :
    (readSignificand significand cs).1 ≤ maxInteger := by
  induction cs generalizing significand with
  | nil => exact h
  | cons c cs ih =>
    simp only [readSignificand]
    split
    case isTrue hfits =>
      rw [Bool.and_eq_true] at hfits
      exact ih (of_decide_eq_true hfits.2)
    case isFalse => exact h

theorem le_ofDigitChars (cs : List Char) (start : Nat) : start ≤ Nat.ofDigitChars 10 cs start := by
  induction cs generalizing start with
  | nil => exact Nat.le_refl _
  | cons c cs ih =>
    rw [Nat.ofDigitChars_cons]
    exact Nat.le_trans (by omega) (ih _)

/-- Digits are read to their end exactly if their number has room. -/
theorem readSignificand_of_le {significand : Nat} {ds : List Char} (hds : AllDigits ds)
    (h : Nat.ofDigitChars 10 ds significand ≤ maxInteger) :
    readSignificand significand ds = (Nat.ofDigitChars 10 ds significand, []) := by
  induction ds generalizing significand with
  | nil => rfl
  | cons d ds ih =>
    rw [Nat.ofDigitChars_cons] at h ⊢
    have hstep : 10 * significand + (d.toNat - '0'.toNat) = significand * 10 + digitValue d := by
      rw [Nat.mul_comm]
      rfl
    rw [hstep] at h ⊢
    have hfits : significand * 10 + digitValue d ≤ maxInteger :=
      Nat.le_trans (le_ofDigitChars ds _) h
    simp only [readSignificand, hds d List.mem_cons_self, hfits, decide_true, Bool.and_self,
      if_true]
    exact ih (fun c hc => hds c (List.mem_cons_of_mem _ hc)) h

/-! ## Fractions and exponents -/

variable (negative : Bool) (significand : Nat)

theorem settles_finishFraction (exponent : Int) :
    Settles (finishFraction negative significand exponent) := by
  unfold finishFraction
  cases fraction? significand exponent with
  | none => exact settles_of_error fun rest _ => ⟨_, rfl⟩
  | some x => exact settles_of_ok _ fun rest _ => rfl

theorem readExponentDigits_of_noDigit (base : Int) (down : Bool) (exponent : Nat) {cs : List Char}
    (h : NoDigit cs) :
    readExponentDigits negative significand base down exponent cs =
      finishFraction negative significand (if down then base - exponent else base + exponent) cs := by
  cases cs with
  | nil => rfl
  | cons c cs => simp [readExponentDigits, h c rfl]

theorem settles_readExponentDigits (base : Int) (down : Bool) (exponent : Nat) {ds : List Char}
    (hds : AllDigits ds) :
    Settles fun rest => readExponentDigits negative significand base down exponent (ds ++ rest) := by
  induction ds generalizing exponent with
  | nil =>
    refine (settles_finishFraction negative significand
      (if down then base - exponent else base + exponent)).congr fun rest hrest => ?_
    exact readExponentDigits_of_noDigit _ _ _ _ _ hrest.noDigit
  | cons d ds ih =>
    have hd : d.isDigit = true := hds d List.mem_cons_self
    have hds' : AllDigits ds := fun c hc => hds c (List.mem_cons_of_mem _ hc)
    simp only [List.cons_append, readExponentDigits, hd, if_true]
    by_cases hfits : exponent * 10 + digitValue d ≤ maxExponent
    · simpa only [hfits, if_true] using ih (exponent * 10 + digitValue d) hds'
    · simp only [hfits, if_false]
      by_cases hlarge : significand ≠ 0 ∧ ¬ down = true
      · exact settles_of_error fun rest _ => ⟨_, by rw [if_pos hlarge]⟩
      · refine settles_of_ok (.float (if negative then -0.0 else 0.0)) fun rest hrest => ?_
        rw [if_neg hlarge, dropWhile_isDigit_append hds' hrest.noDigit]

/-- A digit is no sign. -/
theorem ne_sign_of_isDigit {c : Char} (h : c.isDigit = true) : c ≠ '+' ∧ c ≠ '-' := by
  constructor <;> rintro rfl <;> exact absurd h (by decide)

theorem readExponent_of_isDigit (base : Int) {c : Char} (h : c.isDigit = true) (cs : List Char) :
    readExponent negative significand base (c :: cs) =
      readExponentDigits negative significand base false (digitValue c) cs := by
  have hsign := ne_sign_of_isDigit h
  unfold readExponent
  split
  case h_1 down digits heq =>
    split at heq
    case h_1 heq' => exact absurd (List.cons.inj heq').1 hsign.1
    case h_2 heq' => exact absurd (List.cons.inj heq').1 hsign.2
    case h_3 =>
      injection heq with hdown hdigits
      subst hdown hdigits
      simp only [h, if_true]

theorem settles_readExponent (base : Int) (e : Exponent) :
    Settles fun rest => readExponent negative significand base (e.signed ++ rest) := by
  unfold Exponent.signed
  cases hchars : e.digits.chars with
  | nil => exact absurd hchars e.digits.ne_nil
  | cons d ds =>
    have hdigits : AllDigits (d :: ds) := fun c hc => e.digits.isDigit c (by rwa [hchars])
    have hd : d.isDigit = true := hdigits d List.mem_cons_self
    have hds : AllDigits ds := fun c hc => hdigits c (List.mem_cons_of_mem _ hc)
    cases hsign : e.sign with
    | none =>
      refine (settles_readExponentDigits negative significand base false (digitValue d)
        hds).congr fun rest _ => ?_
      exact readExponent_of_isDigit _ _ _ hd _
    | some sign =>
      rcases e.isSign sign hsign with rfl | rfl
      · refine (settles_readExponentDigits negative significand base false (digitValue d)
          hds).congr fun rest _ => ?_
        simp only [Option.toList, List.cons_append, List.nil_append, readExponent, hd, if_true]
      · refine (settles_readExponentDigits negative significand base true (digitValue d)
          hds).congr fun rest _ => ?_
        simp only [Option.toList, List.cons_append, List.nil_append, readExponent, hd, if_true]

/-- The letter of an exponent leads to the reader of exponents. -/
theorem finishDigits_exponent (exponent : Int) (e : Exponent) (rest : List Char) :
    finishDigits negative significand exponent (e.text ++ rest) =
      readExponent negative significand exponent (e.signed ++ rest) := by
  unfold Exponent.text
  rcases e.isLetter with h | h <;> rw [h] <;> rfl

theorem finishDigits_of_ends (exponent : Int) {rest : List Char} (h : Ends rest) :
    finishDigits negative significand exponent rest =
      finishFraction negative significand exponent rest := by
  unfold finishDigits
  split
  · exact absurd rfl (h 'e' rfl).2.2.1
  · exact absurd rfl (h 'E' rfl).2.2.2
  · rfl

theorem settles_finishDigits (exponent : Int) (e : Option Exponent) :
    Settles fun rest =>
      finishDigits negative significand exponent (exponentText e ++ rest) := by
  cases e with
  | none =>
    exact (settles_finishFraction negative significand exponent).congr fun rest hrest =>
      finishDigits_of_ends _ _ _ hrest
  | some e =>
    exact (settles_readExponent negative significand exponent e).congr fun rest _ =>
      finishDigits_exponent _ _ _ _ _

/-! ## Decimals -/

theorem noDigit_exponentText (e : Option Exponent) {rest : List Char} (h : Ends rest) :
    NoDigit (exponentText e ++ rest) := by
  cases e with
  | none => exact h.noDigit
  | some e =>
    intro c hc
    cases hc
    rcases e.isLetter with h | h <;> rw [h] <;> decide

theorem noDigit_pointText (decimals : Option Digits) {cs : List Char} (h : NoDigit cs) :
    NoDigit (pointText decimals ++ cs) := by
  cases decimals with
  | none => exact h
  | some ds =>
    intro c hc
    cases hc
    decide

/-- Decimals for which the significand has no room are passed over. -/
theorem readDecimals_append (exponent : Int) (ds : Digits) {cs : List Char} (h : NoDigit cs) :
    readDecimals negative significand exponent (ds.chars ++ cs) =
      finishDigits negative (readSignificand significand ds.chars).1
        (exponent - (ds.chars.length - (readSignificand significand ds.chars).2.length : Nat)) cs := by
  rcases readSignificand_split significand ds.chars with ⟨taken, -, hsplit⟩
  have hlength : (ds.chars ++ cs).length - ((readSignificand significand ds.chars).2 ++ cs).length =
      ds.chars.length - (readSignificand significand ds.chars).2.length := by
    simp only [List.length_append]
    omega
  have hpositive : 0 < ds.chars.length := List.length_pos_iff.2 ds.ne_nil
  unfold readDecimals
  rw [readSignificand_append significand ds.chars h]
  simp only [hlength]
  cases hleft : (readSignificand significand ds.chars).2 with
  | nil =>
    simp only [List.nil_append, List.length_nil, Nat.sub_zero]
    cases cs with
    | nil => rw [if_neg (by omega)]
    | cons c cs => simp only [h c rfl, Bool.false_eq_true, if_false, if_neg (Nat.ne_of_gt hpositive)]
  | cons d left =>
    have hdigits : AllDigits (d :: left) := by
      intro c hc
      refine ds.isDigit c ?_
      rw [hsplit, hleft]
      exact List.mem_append_right _ hc
    simp only [List.cons_append, hdigits d List.mem_cons_self, if_true]
    rw [← List.cons_append, dropWhile_isDigit_append hdigits h]

theorem settles_readDecimals (exponent : Int) (ds : Digits) (e : Option Exponent) :
    Settles fun rest =>
      readDecimals negative significand exponent (ds.chars ++ (exponentText e ++ rest)) :=
  (settles_finishDigits negative _ _ e).congr fun _ hrest =>
    readDecimals_append _ _ _ ds (noDigit_exponentText e hrest)

theorem settles_finishInteger (decimals : Option Digits) (e : Option Exponent) :
    Settles fun rest =>
      finishInteger negative significand (pointText decimals ++ (exponentText e ++ rest)) := by
  cases decimals with
  | some ds => exact settles_readDecimals negative significand 0 ds e
  | none =>
    cases e with
    | some e =>
      refine (settles_readExponent negative significand 0 e).congr fun rest _ => ?_
      simp only [pointText, exponentText, Exponent.text, List.nil_append, List.cons_append]
      rcases e.isLetter with h | h <;> rw [h] <;> rfl
    | none =>
      refine settles_of_ok (signedInteger negative significand) fun rest hrest => ?_
      show finishInteger negative significand rest = _
      unfold finishInteger
      split
      · exact absurd rfl (hrest '.' rfl).2.1
      · exact absurd rfl (hrest 'e' rfl).2.2.1
      · exact absurd rfl (hrest 'E' rfl).2.2.2
      · rfl

/-! ## Numbers -/

theorem readNumber_zero {cs : List Char} (h : NoDigit cs) :
    readNumber negative ('0' :: cs) = finishInteger negative 0 cs := by
  cases cs with
  | nil => rfl
  | cons c cs => simp [readNumber, h c rfl]

/-- Digits that all have room are the significand. -/
theorem readNumber_of_room {ds cs : List Char} (hds : AllDigits ds) (hne : ds ≠ [])
    (hzero : ds.head? ≠ some '0') (hroom : (readSignificand 0 ds).2 = []) (h : NoDigit cs) :
    readNumber negative (ds ++ cs) = finishInteger negative (readSignificand 0 ds).1 cs := by
  cases ds with
  | nil => exact absurd rfl hne
  | cons d ds =>
    have hd : d ≠ '0' := fun heq => hzero (congrArg some heq)
    have hsignificand := readSignificand_append 0 (d :: ds) h
    rw [List.cons_append] at hsignificand
    have hnone : cs.takeWhile Char.isDigit = [] :=
      takeWhile_isDigit_append allDigits_nil h
    unfold readNumber
    simp only [List.cons_append, hds d List.mem_cons_self, if_true, hsignificand, hroom,
      List.nil_append, hnone, List.isEmpty_nil]

/-- Go on behind digits of which the last `passed` had no room in the significand. -/
def readBehind (negative : Bool) (significand passed : Nat) :
    List Char → Except Fault (Number × List Char)
  | '.' :: rest => readDecimals negative significand passed rest
  | cs => finishDigits negative significand passed cs

theorem readBehind_of_ne {passed : Nat} {cs : List Char} (h : cs.head? ≠ some '.') :
    readBehind negative significand passed cs = finishDigits negative significand passed cs := by
  unfold readBehind
  split
  · exact absurd rfl h
  · rfl

/-- Digits for which the significand has no room raise the exponent. -/
theorem readNumber_of_no_room {ds cs : List Char} (hds : AllDigits ds)
    (hzero : ds.head? ≠ some '0') (hroom : (readSignificand 0 ds).2 ≠ []) (h : NoDigit cs) :
    readNumber negative (ds ++ cs) =
      readBehind negative (readSignificand 0 ds).1 (readSignificand 0 ds).2.length cs := by
  cases ds with
  | nil => exact absurd rfl hroom
  | cons d ds =>
    have hd : d ≠ '0' := fun heq => hzero (congrArg some heq)
    have hsignificand := readSignificand_append 0 (d :: ds) h
    rw [List.cons_append] at hsignificand
    rcases readSignificand_split 0 (d :: ds) with ⟨taken, -, hsplit⟩
    have hleft : AllDigits (readSignificand 0 (d :: ds)).2 := by
      intro c hc
      refine hds c ?_
      rw [hsplit]
      exact List.mem_append_right _ hc
    have hsome : (readSignificand 0 (d :: ds)).2.isEmpty = false := by
      rwa [List.isEmpty_eq_false_iff]
    unfold readNumber
    simp only [List.cons_append, hds d List.mem_cons_self, if_true, hsignificand,
      takeWhile_isDigit_append hleft h, dropWhile_isDigit_append hleft h, hsome,
      Bool.false_eq_true, if_false]
    split
    · rfl
    case h_2 hpoint =>
      refine (readBehind_of_ne _ _ ?_).symm
      intro hhead
      rcases List.head?_eq_some_iff.1 hhead with ⟨rest, rfl⟩
      exact hpoint rest rfl

/-- No point comes in front of an exponent. -/
theorem head?_exponentText_ne (e : Option Exponent) {rest : List Char} (h : Ends rest) :
    (exponentText e ++ rest).head? ≠ some '.' := by
  cases e with
  | none => exact fun hpoint => (h '.' hpoint).2.1 rfl
  | some e =>
    intro hpoint
    have hletter : e.letter = '.' := Option.some.inj hpoint
    rcases e.isLetter with h | h <;> rw [h] at hletter <;> exact absurd hletter (by decide)

theorem settles_readNumber (l : Literal) :
    Settles fun rest => readNumber l.negative (l.unsigned ++ rest) := by
  have hbehind : ∀ rest, Ends rest →
      NoDigit (pointText l.decimals ++ (exponentText l.exponent ++ rest)) :=
    fun rest hrest => noDigit_pointText _ (noDigit_exponentText _ hrest)
  simp only [Literal.unsigned, List.append_assoc]
  by_cases hzero : l.whole.chars.head? = some '0'
  · -- a leading zero stands alone
    rw [l.noLeadingZero hzero]
    exact (settles_finishInteger l.negative 0 l.decimals l.exponent).congr fun rest hrest =>
      readNumber_zero _ (hbehind rest hrest)
  · by_cases hroom : (readSignificand 0 l.whole.chars).2 = []
    · exact (settles_finishInteger l.negative _ l.decimals l.exponent).congr fun rest hrest =>
        readNumber_of_room _ l.whole.isDigit l.whole.ne_nil hzero hroom (hbehind rest hrest)
    · cases hdecimals : l.decimals with
      | none =>
        refine (settles_finishDigits l.negative (readSignificand 0 l.whole.chars).1
          (readSignificand 0 l.whole.chars).2.length l.exponent).congr fun rest hrest => ?_
        rw [hdecimals] at hbehind
        rw [readNumber_of_no_room _ l.whole.isDigit hzero hroom (hbehind rest hrest)]
        exact readBehind_of_ne _ _ (head?_exponentText_ne _ hrest)
      | some ds =>
        refine (settles_readDecimals l.negative (readSignificand 0 l.whole.chars).1
          (readSignificand 0 l.whole.chars).2.length ds l.exponent).congr fun rest hrest => ?_
        rw [hdecimals] at hbehind
        rw [readNumber_of_no_room _ l.whole.isDigit hzero hroom (hbehind rest hrest)]
        rfl

/-- A literal is read wherever it stands as it is read alone. -/
theorem comes_readNumber (l : Literal) {rest : List Char} (h : Ends rest) :
    Comes (readNumber l.negative (l.unsigned ++ rest)) l.number? rest := by
  rcases settles_readNumber l with ⟨outcome, hread⟩
  have halone : Comes (readNumber l.negative (l.unsigned ++ [])) outcome [] := hread [] ends_nil
  rw [List.append_nil] at halone
  have hnumber : l.number? = outcome := by
    unfold Literal.number?
    cases outcome with
    | none =>
      rcases halone with ⟨fault, hfault⟩
      rw [hfault]
    | some n =>
      have hok : readNumber l.negative l.unsigned = .ok (n, []) := halone
      rw [hok]
  rw [hnumber]
  exact hread rest h

/-! ## Integers -/

/-- An integer literal whose digits have room is read as what it writes. -/
theorem number?_of_le {l : Literal} {i : Int} (hinteger : l.integer? = some i)
    (hroom : l.whole.value ≤ maxInteger) :
    l.number? = some (signedInteger l.negative l.whole.value) := by
  unfold Literal.integer? at hinteger
  split at hinteger
  case isFalse => cases hinteger
  case isTrue hnone =>
    rw [Bool.and_eq_true, Option.isNone_iff_eq_none, Option.isNone_iff_eq_none] at hnone
    have htext : l.unsigned = l.whole.chars ++ [] := by
      simp [Literal.unsigned, hnone.1, hnone.2, pointText, exponentText]
    have hread : readNumber l.negative l.unsigned =
        .ok (signedInteger l.negative l.whole.value, []) := by
      rw [htext]
      by_cases hzero : l.whole.chars.head? = some '0'
      · have hwhole := l.noLeadingZero hzero
        have hvalue : l.whole.value = 0 := by rw [Digits.value, hwhole]; rfl
        rw [hwhole, hvalue]
        rfl
      · have hsignificand : readSignificand 0 l.whole.chars = (l.whole.value, []) :=
          readSignificand_of_le l.whole.isDigit hroom
        rw [readNumber_of_room _ l.whole.isDigit l.whole.ne_nil hzero (by rw [hsignificand])
          ends_nil.noDigit, hsignificand]
        rfl
    rw [Literal.number?, hread]

/-! ## What is taken off a text -/

section

variable {negative : Bool} {significand : Nat} {n : Number} {cs rest : List Char}

theorem of_finishFraction {exponent : Int}
    (h : finishFraction negative significand exponent cs = .ok (n, rest)) :
    cs = rest ∧ ∃ x, n = .float x := by
  unfold finishFraction at h
  split at h
  · injection h with h
    injection h with hn hrest
    exact ⟨hrest, _, hn.symm⟩
  · cases h

theorem of_readExponentDigits {base : Int} {down : Bool} {exponent : Nat}
    (h : readExponentDigits negative significand base down exponent cs = .ok (n, rest)) :
    ∃ ds, AllDigits ds ∧ cs = ds ++ rest ∧ ∃ x, n = .float x := by
  induction cs generalizing exponent with
  | nil =>
    rcases of_finishFraction h with ⟨hrest, hn⟩
    exact ⟨[], allDigits_nil, hrest, hn⟩
  | cons c cs ih =>
    simp only [readExponentDigits] at h
    split at h
    case isFalse =>
      rcases of_finishFraction h with ⟨hrest, hn⟩
      exact ⟨[], allDigits_nil, hrest, hn⟩
    case isTrue hdigit =>
      split at h
      · rcases ih h with ⟨ds, hds, rfl, hn⟩
        exact ⟨c :: ds, allDigits_cons hdigit hds, rfl, hn⟩
      · split at h
        · cases h
        · injection h with h
          injection h with hn hrest
          rcases exists_allDigits_append cs with ⟨ds, hds, hcs⟩
          rw [hrest] at hcs
          exact ⟨c :: ds, allDigits_cons hdigit hds, by rw [hcs]; rfl, _, hn.symm⟩

theorem of_readExponent {base : Int} {letter : Char} (hletter : letter = 'e' ∨ letter = 'E')
    (h : readExponent negative significand base cs = .ok (n, rest)) :
    (∃ e : Exponent, letter :: cs = e.text ++ rest) ∧ ∃ x, n = .float x := by
  unfold readExponent at h
  split at h
  case h_1 down digits heq =>
    -- what stands behind the sign is the same in all three cases
    have hdigits : ∃ ds : Digits, digits = ds.chars ++ rest ∧ ∃ x, n = .float x := by
      split at h
      · cases h
      case h_2 c digits =>
        split at h
        case isTrue hdigit =>
          rcases of_readExponentDigits h with ⟨ds, hds, rfl, hn⟩
          exact ⟨⟨c :: ds, by simp, allDigits_cons hdigit hds⟩, rfl, hn⟩
        case isFalse => cases h
    rcases hdigits with ⟨ds, rfl, hn⟩
    refine ⟨?_, hn⟩
    split at heq
    · injection heq with _ hrest
      subst hrest
      exact ⟨⟨letter, hletter, some '+', by simp, ds⟩, rfl⟩
    · injection heq with _ hrest
      subst hrest
      exact ⟨⟨letter, hletter, some '-', by simp, ds⟩, rfl⟩
    · injection heq with _ hrest
      subst hrest
      exact ⟨⟨letter, hletter, none, by simp, ds⟩, rfl⟩

theorem of_finishDigits {exponent : Int}
    (h : finishDigits negative significand exponent cs = .ok (n, rest)) :
    (∃ e, cs = exponentText e ++ rest) ∧ ∃ x, n = .float x := by
  unfold finishDigits at h
  split at h
  · rcases of_readExponent (.inl rfl) h with ⟨⟨e, he⟩, hn⟩
    exact ⟨⟨some e, he⟩, hn⟩
  · rcases of_readExponent (.inr rfl) h with ⟨⟨e, he⟩, hn⟩
    exact ⟨⟨some e, he⟩, hn⟩
  · rcases of_finishFraction h with ⟨hrest, hn⟩
    exact ⟨⟨none, hrest⟩, hn⟩

theorem of_readDecimals {exponent : Int}
    (h : readDecimals negative significand exponent cs = .ok (n, rest)) :
    (∃ (ds : Digits) (e : Option Exponent), cs = ds.chars ++ (exponentText e ++ rest)) ∧
      ∃ x, n = .float x := by
  unfold readDecimals at h
  rcases readSignificand_split significand cs with ⟨ds, hds, hcs⟩
  generalize hread : readSignificand significand cs = result at h hcs
  rcases result with ⟨widened, left⟩
  simp only at h hcs
  -- the reader tells by the length whether there is any digit
  have hne : ¬ cs.length - left.length = 0 → ds ≠ [] := by
    rintro hlength rfl
    rw [hcs] at hlength
    simp at hlength
  cases left with
  | nil =>
    simp only at h
    split at h
    · cases h
    case isFalse htaken =>
      rcases of_finishDigits h with ⟨⟨e, he⟩, hn⟩
      exact ⟨⟨⟨ds, hne htaken, hds⟩, e, by rw [hcs, ← he]⟩, hn⟩
  | cons c left =>
    simp only at h
    split at h
    case isTrue hdigit =>
      rcases of_finishDigits h with ⟨⟨e, he⟩, hn⟩
      refine ⟨⟨⟨ds ++ (c :: left).takeWhile Char.isDigit, by simp [hdigit],
        allDigits_append hds (allDigits_takeWhile _)⟩, e, ?_⟩, hn⟩
      rw [hcs, ← he, List.append_assoc, List.takeWhile_append_dropWhile]
    case isFalse =>
      split at h
      · cases h
      case isFalse htaken =>
        rcases of_finishDigits h with ⟨⟨e, he⟩, hn⟩
        exact ⟨⟨⟨ds, hne htaken, hds⟩, e, by rw [hcs, ← he]⟩, hn⟩

theorem of_finishInteger (h : finishInteger negative significand cs = .ok (n, rest)) :
    (∃ decimals e, cs = pointText decimals ++ (exponentText e ++ rest)) ∧
      ((∃ x, n = .float x) ∨ n = signedInteger negative significand) := by
  unfold finishInteger at h
  split at h
  · rcases of_readDecimals h with ⟨⟨ds, e, rfl⟩, hn⟩
    exact ⟨⟨some ds, e, rfl⟩, .inl hn⟩
  · rcases of_readExponent (.inl rfl) h with ⟨⟨e, he⟩, hn⟩
    exact ⟨⟨none, some e, he⟩, .inl hn⟩
  · rcases of_readExponent (.inr rfl) h with ⟨⟨e, he⟩, hn⟩
    exact ⟨⟨none, some e, he⟩, .inl hn⟩
  · injection h with h
    injection h with hn hrest
    exact ⟨⟨none, none, hrest⟩, .inr hn.symm⟩

/-- The digits of a significand and those for which it had no room are one run of digits. -/
theorem exists_digits_of_readSignificand {c : Char} (hdigit : c.isDigit = true) (cs : List Char) :
    ∃ whole : Digits, whole.chars.head? = some c ∧
      c :: cs = whole.chars ++ (readSignificand 0 (c :: cs)).2.dropWhile Char.isDigit := by
  rcases readSignificand_split 0 (c :: cs) with ⟨ds, hds, hcs⟩
  generalize (readSignificand 0 (c :: cs)).2 = left at hcs
  have hwhole := allDigits_append hds (allDigits_takeWhile left)
  have hhead : (ds ++ left.takeWhile Char.isDigit).head? = some c := by
    cases ds with
    | nil =>
      rw [List.nil_append] at hcs
      simp [← hcs, hdigit]
    | cons d ds =>
      rw [(List.cons.inj hcs).1]
      rfl
  refine ⟨⟨ds ++ left.takeWhile Char.isDigit, ?_, hwhole⟩, hhead, ?_⟩
  · intro hnil
    rw [hnil] at hhead
    cases hhead
  · rw [List.append_assoc, List.takeWhile_append_dropWhile, hcs]

/-- A whole part makes a literal with what may stand behind it. -/
theorem exists_literal_of_whole (whole : Digits) {left : List Char}
    (hzero : whole.chars.head? = some '0' → whole.chars = ['0'])
    (hleft : ∃ decimals e, left = pointText decimals ++ (exponentText e ++ rest)) :
    ∃ l : Literal, l.negative = negative ∧ whole.chars ++ left = l.unsigned ++ rest := by
  rcases hleft with ⟨decimals, e, rfl⟩
  refine ⟨⟨negative, whole, hzero, decimals, e⟩, rfl, ?_⟩
  simp only [Literal.unsigned, List.append_assoc]

/-- A zero stands alone. -/
theorem finishInteger_of_readNumber (h : readNumber negative ('0' :: cs) = .ok (n, rest)) :
    finishInteger negative 0 cs = .ok (n, rest) := by
  simp only [readNumber] at h
  split at h
  · split at h
    · cases h
    · exact h
  · exact h

/-- A whole part that begins with no zero is read up to its last digit, whether or not the
significand has room for it. -/
theorem exists_literal_of_digit {c : Char} (hc : c ≠ '0')
    (h : readNumber negative (c :: cs) = .ok (n, rest)) :
    (∃ l : Literal, l.negative = negative ∧ c :: cs = l.unsigned ++ rest) ∧
      ((∃ x, n = .float x) ∨ ∃ i ≤ maxInteger, n = signedInteger negative i) := by
  unfold readNumber at h
  split at h
  case h_1 heq => cases heq
  case h_2 heq => exact absurd (List.cons.inj heq).1 hc
  case h_3 c cs hzero heq =>
    injection heq with hchar htail
    subst hchar htail
    split at h
    case isFalse => cases h
    case isTrue hdigit =>
      rcases exists_digits_of_readSignificand hdigit cs with ⟨whole, hhead, hall⟩
      have hle := readSignificand_le (Nat.zero_le maxInteger) (c :: cs)
      generalize readSignificand 0 (c :: cs) = result at h hall hle
      rcases result with ⟨widened, left⟩
      simp only at h hall hle
      -- with the digits in front, only what stands behind them is left to be told apart
      suffices hbehind : (∃ decimals e, left.dropWhile Char.isDigit =
          pointText decimals ++ (exponentText e ++ rest)) ∧
            ((∃ x, n = .float x) ∨ ∃ i ≤ maxInteger, n = signedInteger negative i) by
        refine ⟨hall ▸ exists_literal_of_whole whole (fun hstart => ?_) hbehind.1, hbehind.2⟩
        rw [hhead] at hstart
        exact absurd (Option.some.inj hstart) hc
      split at h
      case isTrue hnone =>
        rcases of_finishInteger h with ⟨⟨decimals, e, hleft⟩, hn⟩
        refine ⟨⟨decimals, e, ?_⟩, hn.imp id fun hn => ⟨widened, hle, hn⟩⟩
        rw [← hleft]
        have := List.takeWhile_append_dropWhile (p := Char.isDigit) (l := left)
        rwa [List.isEmpty_iff.1 hnone, List.nil_append] at this
      case isFalse =>
        split at h
        case h_1 heq =>
          rcases of_readDecimals h with ⟨⟨ds, e, rfl⟩, hn⟩
          exact ⟨⟨some ds, e, heq⟩, .inl hn⟩
        case h_2 =>
          rcases of_finishDigits h with ⟨⟨e, he⟩, hn⟩
          exact ⟨⟨none, e, he⟩, .inl hn⟩

/-- What the reader of numbers takes off a text is a literal, and it makes a fraction of it or an
integer with room in the significand. -/
theorem exists_literal_of_readNumber (h : readNumber negative cs = .ok (n, rest)) :
    (∃ l : Literal, l.negative = negative ∧ cs = l.unsigned ++ rest) ∧
      ((∃ x, n = .float x) ∨ ∃ i ≤ maxInteger, n = signedInteger negative i) := by
  cases cs with
  | nil => cases h
  | cons c cs =>
    by_cases hc : c = '0'
    · subst hc
      rcases of_finishInteger (finishInteger_of_readNumber h) with ⟨hleft, hn⟩
      refine ⟨?_, hn.imp id fun hn => ⟨0, Nat.zero_le _, hn⟩⟩
      exact exists_literal_of_whole ⟨['0'], by simp, by simp⟩ (fun _ => rfl) hleft
    · exact exists_literal_of_digit hc h

end

end WorkflowRepair.Json
