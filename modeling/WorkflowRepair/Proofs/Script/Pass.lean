import WorkflowRepair.Proofs.Script.Marker

/-!
# One pass

`Replaced` says what one pass over a script does, step by step: it keeps a character, puts the
marker in the place of a statement, or stops at a statement that ends too late. Everything about a
pass is proved by induction on it.

* `replaced_iff`: the pass is the function `replaceStatements`;
* `Agrees.begins_of_begins`: a shape that the marker is clear of begins nowhere where it did not
  begin before;
* `Replaced.countStarts_le`: every replaced statement takes a check away, and no new one appears;
* `Replaced.count_eq_zero_iff`: nothing is replaced exactly if no statement ends in time.
-/

namespace WorkflowRepair.Repair

open Text

/-- One pass over the text behind `before`. -/
inductive Replaced (name marker : List Char) :
    (limit : Nat) → (before : Option Char) → (code out : List Char) → (count : Nat) → Prop
  | nil {limit : Nat} {before : Option Char} : Replaced name marker limit before [] [] 0
  /-- No statement begins here: the character is kept. -/
  | keep {limit : Nat} {before : Option Char} {c : Char} {rest out : List Char} {count : Nat}
      (hnot : ¬ Begins (IsStatement name) before (c :: rest))
      (hrest : Replaced name marker (limit - 1) (some c) rest out count) :
      Replaced name marker limit before (c :: rest) (c :: out) count
  /-- A statement begins here and ends beyond the limit: the pass is over. -/
  | stop {limit : Nat} {before : Option Char} {text rest : List Char}
      (htext : IsStatement name text) (hbound : isBoundary before text.head? = true)
      (hlimit : limit < text.length) :
      Replaced name marker limit before (text ++ rest) (text ++ rest) 0
  /-- A statement begins here and ends in time: the marker takes its place. -/
  | replace {limit : Nat} {before : Option Char} {text rest out : List Char} {count : Nat}
      (htext : IsStatement name text) (hbound : isBoundary before text.head? = true)
      (hlimit : text.length ≤ limit)
      (hrest : Replaced name marker (limit - text.length) (some '}') rest out count) :
      Replaced name marker limit before (text ++ rest) (marker ++ out) (count + 1)

variable {name marker : List Char} {limit : Nat} {before : Option Char}
  {code out : List Char} {count : Nat}

/-! ## The function and the relation -/

theorem replaceStatements_append (name marker : List Char) (limit : Nat) (before : Option Char)
    (front cs : List Char) :
    replaceStatements name marker limit front.length before (front ++ cs) =
      replaceStatements name marker (limit - front.length) 0 (lastChar before front) cs := by
  induction front generalizing limit before with
  | nil => rfl
  | cons c front ih =>
    rw [List.cons_append, List.length_cons, replaceStatements, ih, lastChar_cons, Nat.sub_sub,
      Nat.add_comm 1]

theorem replaceStatements_keep {c : Char} {rest : List Char}
    (hname : Settings.isIdentifier name = true)
    (hnot : ¬ Begins (IsStatement name) before (c :: rest)) :
    replaceStatements name marker limit 0 before (c :: rest) =
      (c :: (replaceStatements name marker (limit - 1) 0 (some c) rest).1,
        (replaceStatements name marker (limit - 1) 0 (some c) rest).2) := by
  have hnone : statement? name before (c :: rest) = none := by
    cases h : statement? name before (c :: rest) with
    | none => rfl
    | some behind =>
      obtain ⟨hbound, text, htext, heq⟩ := (statement?_eq_some_iff hname).1 h
      exact absurd ⟨hbound, text, htext, behind, heq.symm⟩ hnot
  simp [replaceStatements, hnone]

theorem replaceStatements_statement {text : List Char} (hname : Settings.isIdentifier name = true)
    (htext : IsStatement name text) (hbound : isBoundary before text.head? = true)
    (rest : List Char) :
    replaceStatements name marker limit 0 before (text ++ rest) =
      if text.length ≤ limit then
        (marker ++ (replaceStatements name marker (limit - text.length) 0 (some '}') rest).1,
          (replaceStatements name marker (limit - text.length) 0 (some '}') rest).2 + 1)
      else (text ++ rest, 0) := by
  have hbound' : isBoundary before (text ++ rest).head? = true := by
    rw [htext.head?_append]
    exact hbound
  have hsome := (statement?_eq_some_iff hname).2 ⟨hbound', text, htext, rfl⟩
  have hlast := htext.lastChar_eq before
  obtain ⟨tail, rfl⟩ := htext.exists_cons
  rw [List.cons_append] at hsome
  -- the characters behind the first one are the ones that are skipped
  have hskip : (tail ++ rest).length - rest.length = tail.length := by simp
  have hlen : (tail ++ rest).length + 1 - rest.length = tail.length + 1 := by
    rw [List.length_append]
    omega
  have hlimit : limit - 1 - tail.length = limit - (tail.length + 1) := by omega
  rw [lastChar_cons] at hlast
  simp only [List.cons_append, replaceStatements, hsome, hskip, hlen, replaceStatements_append,
    hlast, hlimit, List.length_cons]

/-- The function takes the steps of the relation. -/
theorem replaced_replaceStatements (hname : Settings.isIdentifier name = true) (marker : List Char)
    (limit : Nat) (before : Option Char) (code : List Char) :
    Replaced name marker limit before code (replaceStatements name marker limit 0 before code).1
      (replaceStatements name marker limit 0 before code).2 := by
  -- behind a statement the pass goes on with a shorter text, so the induction is on the length
  induction hlen : code.length using Nat.strongRecOn generalizing limit before code with
  | ind n ih =>
    cases code with
    | nil => exact .nil
    | cons c rest =>
      by_cases hbegins : Begins (IsStatement name) before (c :: rest)
      · obtain ⟨hbound, text, htext, behind, heq⟩ := hbegins
        rw [← heq, htext.head?_append] at hbound
        rw [← heq, replaceStatements_statement hname htext hbound]
        by_cases hlimit : text.length ≤ limit
        · rw [if_pos hlimit]
          have hlt : behind.length < n := by
            rw [← hlen, ← heq, List.length_append]
            have := htext.length_pos
            omega
          exact .replace htext hbound hlimit (ih _ hlt _ _ _ rfl)
        · rw [if_neg hlimit]
          exact .stop htext hbound (by omega)
      · rw [replaceStatements_keep hname hbegins]
        exact .keep hbegins (ih rest.length (by rw [← hlen]; simp) _ _ _ rfl)

theorem Replaced.eq_replaceStatements (hname : Settings.isIdentifier name = true)
    (h : Replaced name marker limit before code out count) :
    replaceStatements name marker limit 0 before code = (out, count) := by
  induction h with
  | nil => simp [replaceStatements]
  | keep hnot _ ih => rw [replaceStatements_keep hname hnot, ih]
  | stop htext hbound hlimit =>
    rw [replaceStatements_statement hname htext hbound, if_neg (by omega)]
  | replace htext hbound hlimit _ ih =>
    rw [replaceStatements_statement hname htext hbound, if_pos hlimit, ih]

theorem replaced_iff (hname : Settings.isIdentifier name = true) :
    Replaced name marker limit before code out count ↔
      replaceStatements name marker limit 0 before code = (out, count) := by
  constructor
  · exact fun h => h.eq_replaceStatements hname
  · intro h
    have := replaced_replaceStatements hname marker limit before code
    rwa [h] at this

/-! ## What a pass leaves -/

/-- Two texts are equal, or equal up to a place where the second one goes on with the marker. -/
def Agrees (marker code out : List Char) : Prop :=
  out = code ∨ ∃ front back back', code = front ++ back ∧ out = front ++ (marker ++ back')

theorem Agrees.refl (marker code : List Char) : Agrees marker code code := Or.inl rfl

theorem Agrees.cons (h : Agrees marker code out) (c : Char) :
    Agrees marker (c :: code) (c :: out) := by
  rcases h with rfl | ⟨front, back, back', rfl, rfl⟩
  · exact Or.inl rfl
  · exact Or.inr ⟨c :: front, back, back', rfl, rfl⟩

theorem Agrees.append_right (h : Agrees marker code out) (tail : List Char) :
    Agrees marker (code ++ tail) (out ++ tail) := by
  rcases h with rfl | ⟨front, back, back', rfl, rfl⟩
  · exact Or.inl rfl
  · exact Or.inr ⟨front, back ++ tail, back' ++ tail, by simp, by simp⟩

theorem Replaced.agrees (h : Replaced name marker limit before code out count) :
    Agrees marker code out := by
  induction h with
  | nil => exact .refl _ _
  | stop => exact .refl _ _
  | replace => exact Or.inr ⟨[], _, _, rfl, rfl⟩
  | keep _ _ ih => exact ih.cons _

/-- A pass makes no place into the beginning of a shape that the marker is clear of. In front of a
kept character may stand a marker that ends in a word character, but that only hides beginnings. -/
theorem Agrees.begins_of_begins {shape : List Char → Prop} (hclear : Clear shape marker)
    (hword : BeginsWithWord shape) {before' : Option Char} {c : Char} {rest out : List Char}
    (hagrees : Agrees marker rest out)
    (hbefore : before.any isWord = true → before'.any isWord = true)
    (h : Begins shape before' (c :: out)) : Begins shape before (c :: rest) := by
  have hbegins : Begins shape before' (c :: rest) := by
    rcases hagrees with rfl | ⟨front, back, back', rfl, rfl⟩
    · exact h
    · obtain ⟨text, htext, hle⟩ := hclear.exists_prefix h
      exact ⟨h.1, text, htext, hle.trans ⟨back, rfl⟩⟩
  exact hbegins.of_before hword hbefore

/-- What stands behind a pass ends in a word character if it did so before. -/
theorem Replaced.any_isWord_lastChar (h : Replaced name marker limit before code out count)
    {before' : Option Char} (hbefore : before.any isWord = true → before'.any isWord = true)
    (hword : (lastChar before code).any isWord = true) :
    (lastChar before' out).any isWord = true := by
  induction h generalizing before' with
  | nil => exact hbefore hword
  | keep _ _ ih =>
    rw [lastChar_cons] at hword ⊢
    exact ih id hword
  | stop htext _ _ =>
    rw [lastChar_of_ne_nil _ before' _]
    · exact hword
    · obtain ⟨tail, rfl⟩ := htext.exists_cons
      simp
  | replace htext _ _ _ ih =>
    rw [lastChar_append, htext.lastChar_eq] at hword
    rw [lastChar_append]
    exact ih (fun h => absurd h (by decide)) hword

/-- No new occurrence of a shape that the marker is clear of begins in what a pass leaves, whatever
follows. -/
theorem Replaced.noneBegins {shape : List Char → Prop} (hclear : Clear shape marker)
    (hword : BeginsWithWord shape) (h : Replaced name marker limit before code out count)
    {tail : List Char} {before' : Option Char}
    (hbefore : before.any isWord = true → before'.any isWord = true)
    (hnone : NoneBegins shape before code tail) : NoneBegins shape before' out tail := by
  induction h generalizing before' with
  | nil => exact noneBegins_nil
  | keep _ hrest ih =>
    rw [noneBegins_cons_iff] at hnone ⊢
    have hagrees := hrest.agrees.append_right tail
    exact ⟨fun hbegins => hnone.1 (hagrees.begins_of_begins hclear hword hbefore hbegins),
      ih id hnone.2⟩
  | stop => exact hnone.of_before hword hbefore
  | replace htext _ _ _ ih =>
    rw [noneBegins_append_iff] at hnone ⊢
    rw [htext.lastChar_eq] at hnone
    -- nothing begins in the marker, and what stands behind it hides at most more than before
    exact ⟨hclear.noneBegins fun _ => hword.ne_nil,
      ih (fun h => absurd h (by decide)) hnone.2⟩

/-! ## What a pass counts -/

/-- In front of a place nothing but the character before it changes, so no check begins there that
did not begin there before. -/
theorem Agrees.countStarts_cons_le (hname : Settings.isIdentifier name = true)
    (hclear : Clear (IsCheck name) marker) {before' : Option Char} {c : Char} {rest out : List Char}
    (hagrees : Agrees marker rest out)
    (hbefore : before.any isWord = true → before'.any isWord = true)
    (hrest : countStarts (checkBegins name) (some c) out + count ≤
      countStarts (checkBegins name) (some c) rest) :
    countStarts (checkBegins name) before' (c :: out) + count ≤
      countStarts (checkBegins name) before (c :: rest) := by
  rw [countStarts, countStarts]
  split
  case isFalse => omega
  case isTrue hbegins =>
    have hbegins' := hagrees.begins_of_begins hclear (beginsWithWord_isCheck hname) hbefore
      ((checkBegins_iff _ _).1 hbegins)
    rw [if_pos ((checkBegins_iff _ _).2 hbegins')]
    omega

/-- Every replaced statement takes a check away, and no new one appears. -/
theorem Replaced.countStarts_le (hname : Settings.isIdentifier name = true)
    (hclear : Clear (IsCheck name) marker) (h : Replaced name marker limit before code out count)
    {before' : Option Char} (hbefore : before.any isWord = true → before'.any isWord = true) :
    countStarts (checkBegins name) before' out + count ≤
      countStarts (checkBegins name) before code := by
  induction h generalizing before' with
  | nil => exact Nat.le_refl _
  | keep _ hrest ih => exact hrest.agrees.countStarts_cons_le hname hclear hbefore (ih id)
  | stop htext _ _ =>
    obtain ⟨tail, rfl⟩ := htext.exists_cons
    exact (Agrees.refl marker _).countStarts_cons_le hname hclear hbefore (Nat.le_refl _)
  | @replace limit before text rest out count htext hbound _ _ ih =>
    obtain ⟨pre, check, post, hocc, hlt⟩ := htext.exists_occurs_check hname before rest
    have hless := countStarts_lt_of_occurs checkBegins_iff text hocc hlt
    have hmarker : countStarts (checkBegins name) before' (marker ++ out) =
        countStarts (checkBegins name) (lastChar before' marker) out :=
      countStarts_append_of_noneBegins checkBegins_iff
        (hclear.noneBegins fun _ => IsCheck.ne_nil)
    have := @ih (lastChar before' marker) (fun h => absurd h (by decide))
    rw [htext.lastChar_eq] at hless
    rw [hmarker]
    omega

/-- Where nothing is replaced, the script stays. -/
theorem Replaced.eq_of_count_eq_zero (h : Replaced name marker limit before code out count)
    (hcount : count = 0) : out = code := by
  induction h with
  | nil => rfl
  | keep _ _ ih => rw [ih hcount]
  | stop => rfl
  | replace => simp at hcount

/-- Nothing is replaced exactly if no statement ends in time. -/
theorem Replaced.count_eq_zero_iff (hname : Settings.isIdentifier name = true)
    (h : Replaced name marker limit before code out count) :
    count = 0 ↔ ∀ pre text post, Occurs (IsStatement name) before code pre text post →
      limit < pre.length + text.length := by
  induction h with
  | nil =>
    refine iff_of_true rfl fun pre text post hocc => ?_
    have hlen := congrArg List.length hocc.eq_append
    have := hocc.shape.length_pos
    simp only [List.length_nil, List.length_append] at hlen
    omega
  | keep hnot _ ih =>
    rw [ih]
    constructor
    · intro hrest pre text post hocc
      cases pre with
      | nil => exact absurd (hocc.eq_append ▸ hocc.begins) hnot
      | cons d pre =>
        have := hrest _ _ _ hocc.of_cons.2
        rw [List.length_cons]
        omega
    · intro hall pre text post hocc
      have := hall _ _ _ hocc.cons
      have := hocc.shape.length_pos
      rw [List.length_cons] at *
      omega
  | stop htext _ hlimit =>
    -- a statement behind one that does not end in time does not end in time either
    refine iff_of_true rfl fun pre text' post hocc => ?_
    rcases hocc.eq_or_behind_statement hname htext with ⟨rfl, rfl⟩ | ⟨as, rfl, -⟩
    · rw [List.length_nil]
      omega
    · rw [List.length_append]
      omega
  | @replace limit before text rest _ _ htext hbound hlimit _ _ =>
    refine iff_of_false (Nat.succ_ne_zero _) fun hall => ?_
    have := hall _ _ _ (htext.occurs_head hbound rest)
    rw [List.length_nil] at this
    omega

end WorkflowRepair.Repair
