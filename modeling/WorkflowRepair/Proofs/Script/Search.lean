import WorkflowRepair.Proofs.Script.Occurrence

/-!
# Searching

What the two searches find. `findStart` finds the first occurrence of a shape, and counting checks
one behind the other counts all places where a check begins (`countChecks_eq_countStarts`), since
checks do not overlap.
-/

namespace WorkflowRepair.Repair

open Text

section

variable {test : Option Char → List Char → Bool} {shape : List Char → Prop}
  {before : Option Char} {code pre text post : List Char}

/-! ## The first occurrence -/

theorem exists_occurs_of_findStart
    (htest : ∀ before cs, test before cs = true ↔ Begins shape before cs) {n : Nat}
    (h : findStart test before code = some n) :
    ∃ pre text post, Occurs shape before code pre text post ∧ pre.length = n := by
  induction code generalizing before n with
  | nil => simp [findStart] at h
  | cons c code ih =>
    by_cases hc : test before (c :: code) = true
    · simp only [findStart, hc, if_true, Option.some.injEq] at h
      obtain ⟨hbound, text, htext, post, heq⟩ := (htest _ _).1 hc
      exact ⟨[], text, post, ⟨heq.symm, htext, by rw [heq]; exact hbound⟩, h⟩
    · rw [findStart, if_neg hc, Option.map_eq_some_iff] at h
      obtain ⟨m, hm, rfl⟩ := h
      obtain ⟨pre, text, post, hocc, rfl⟩ := ih hm
      exact ⟨c :: pre, text, post, hocc.cons, rfl⟩

/-- No occurrence begins in front of the place that is found. -/
theorem exists_findStart_le
    (htest : ∀ before cs, test before cs = true ↔ Begins shape before cs)
    (hne : ∀ text, shape text → text ≠ []) (h : Occurs shape before code pre text post) :
    ∃ n ≤ pre.length, findStart test before code = some n := by
  induction pre generalizing before code with
  | nil =>
    obtain ⟨c, rest, hcode⟩ := List.exists_cons_of_ne_nil
      (List.append_ne_nil_of_left_ne_nil (hne text h.shape) post)
    have hbegins : test before (c :: rest) = true := by
      rw [htest, ← hcode]
      exact h.begins
    refine ⟨0, Nat.le_refl _, ?_⟩
    rw [h.eq_append, List.nil_append, hcode, findStart, if_pos hbegins]
  | cons c pre ih =>
    obtain ⟨code, rfl⟩ : ∃ code', code = c :: code' := ⟨_, h.eq_append⟩
    obtain ⟨n, hn, hfind⟩ := ih h.of_cons.2
    by_cases hc : test before (c :: code) = true
    · exact ⟨0, Nat.zero_le _, by rw [findStart, if_pos hc]⟩
    · exact ⟨n + 1, by simpa using hn, by rw [findStart, if_neg hc, hfind]; rfl⟩

theorem le_of_findStart {n : Nat}
    (htest : ∀ before cs, test before cs = true ↔ Begins shape before cs)
    (hne : ∀ text, shape text → text ≠ []) (hfind : findStart test before code = some n)
    (h : Occurs shape before code pre text post) : n ≤ pre.length := by
  obtain ⟨m, hm, hfind'⟩ := exists_findStart_le htest hne h
  rw [hfind] at hfind'
  injection hfind' with heq
  omega

theorem findStart_eq_none_iff
    (htest : ∀ before cs, test before cs = true ↔ Begins shape before cs) :
    findStart test before code = none ↔ NoneBegins shape before code [] := by
  induction code generalizing before with
  | nil => exact iff_of_true rfl noneBegins_nil
  | cons c code ih =>
    rw [noneBegins_cons_iff, List.append_nil, ← htest, ← ih, findStart]
    split
    case isTrue h => simp [h]
    case isFalse h => simp [h]

/-! ## Counting places -/

/-- The number of places of a text that pass `test`. -/
def countStarts (test : Option Char → List Char → Bool) : (before : Option Char) → List Char → Nat
  | _, [] => 0
  | before, c :: rest =>
    countStarts test (some c) rest + (if test before (c :: rest) then 1 else 0)

theorem countStarts_append_le (test : Option Char → List Char → Bool) (before : Option Char)
    (front code : List Char) :
    countStarts test (lastChar before front) code ≤ countStarts test before (front ++ code) := by
  induction front generalizing before with
  | nil => exact Nat.le_refl _
  | cons c front ih =>
    have := ih (some c)
    rw [List.cons_append, countStarts, lastChar_cons]
    omega

/-- A part in front where the shape begins nowhere can be left out. -/
theorem countStarts_append_of_noneBegins
    (htest : ∀ before cs, test before cs = true ↔ Begins shape before cs) {front : List Char}
    (h : NoneBegins shape before front code) :
    countStarts test before (front ++ code) = countStarts test (lastChar before front) code := by
  induction front generalizing before with
  | nil => rfl
  | cons c front ih =>
    obtain ⟨hhead, hrest⟩ := noneBegins_cons_iff.1 h
    rw [← htest] at hhead
    rw [List.cons_append, countStarts, if_neg hhead, ih hrest, lastChar_cons, Nat.add_zero]

/-- An occurrence that begins in front counts. -/
theorem countStarts_lt_of_occurs
    (htest : ∀ before cs, test before cs = true ↔ Begins shape before cs) (front : List Char)
    (h : Occurs shape before (front ++ code) pre text post) (hlt : pre.length < front.length) :
    countStarts test (lastChar before front) code < countStarts test before (front ++ code) := by
  induction front generalizing before pre with
  | nil => simp at hlt
  | cons c front ih =>
    rw [List.cons_append, countStarts, lastChar_cons]
    cases pre with
    | nil =>
      have hhead : test before (c :: (front ++ code)) = true := by
        rw [htest, ← List.cons_append, h.eq_append]
        exact h.begins
      have := countStarts_append_le test (some c) front code
      rw [hhead, if_pos rfl]
      omega
    | cons d pre =>
      have := ih h.of_cons.2 (by simpa using hlt)
      omega

end

/-! ## Checks and declarations -/

/-- Whether a check begins here. -/
def checkBegins (name : List Char) (before : Option Char) (cs : List Char) : Bool :=
  (check? name before cs).isSome

theorem checkBegins_iff {name : List Char} (before : Option Char) (cs : List Char) :
    checkBegins name before cs = true ↔ Begins (IsCheck name) before cs := by
  simp only [checkBegins, Option.isSome_iff_exists, check?_eq_some_iff]
  constructor
  · rintro ⟨rest, hbound, text, htext, heq⟩
    exact ⟨hbound, text, htext, rest, heq.symm⟩
  · rintro ⟨hbound, text, htext, rest, heq⟩
    exact ⟨rest, hbound, text, htext, heq.symm⟩

theorem IsDeclaration.exists_cons {name text : List Char} (h : IsDeclaration name text) :
    ∃ rest, text = 'l' :: rest := by
  obtain ⟨gap, gap', -, -, -, rfl⟩ := h
  exact ⟨_, rfl⟩

theorem IsDeclaration.ne_nil {name text : List Char} (h : IsDeclaration name text) :
    text ≠ [] := by
  obtain ⟨rest, rfl⟩ := h.exists_cons
  simp

theorem exists_firstCheck_le {name code pre text post : List Char}
    (h : Occurs (IsCheck name) none code pre text post) :
    ∃ n ≤ pre.length, firstCheck name code = some n :=
  exists_findStart_le checkBegins_iff (fun _ => IsCheck.ne_nil) h

theorem exists_occurs_of_firstDeclaration {name code : List Char} {n : Nat}
    (h : firstDeclaration name code = some n) :
    ∃ pre text post, Occurs (IsDeclaration name) none code pre text post ∧ pre.length = n :=
  exists_occurs_of_findStart (fun _ _ => declares_eq_true_iff) h

theorem exists_firstDeclaration_le {name code pre text post : List Char}
    (h : Occurs (IsDeclaration name) none code pre text post) :
    ∃ n ≤ pre.length, firstDeclaration name code = some n :=
  exists_findStart_le (fun _ _ => declares_eq_true_iff) (fun _ => IsDeclaration.ne_nil) h

theorem firstDeclaration_eq_none_iff {name code : List Char} :
    firstDeclaration name code = none ↔ NoneBegins (IsDeclaration name) none code [] :=
  findStart_eq_none_iff fun _ _ => declares_eq_true_iff

theorem le_of_firstDeclaration {name code pre text post : List Char} {n : Nat}
    (hfind : firstDeclaration name code = some n)
    (h : Occurs (IsDeclaration name) none code pre text post) : n ≤ pre.length :=
  le_of_findStart (fun _ _ => declares_eq_true_iff) (fun _ => IsDeclaration.ne_nil) hfind h

/-- No declaration begins in a front part exactly if the first one is not found there. -/
theorem noneBegins_isDeclaration_iff {name front back : List Char} :
    NoneBegins (IsDeclaration name) none front back ↔
      ∀ n, firstDeclaration name (front ++ back) = some n → front.length ≤ n := by
  constructor
  · intro h n hn
    obtain ⟨pre, text, post, hocc, rfl⟩ := exists_occurs_of_firstDeclaration hn
    rcases append_split hocc.eq_append with ⟨as, rfl, -⟩ | ⟨ys, hys, rfl, hsplit⟩
    · simp
    · have hbegins := hocc.begins
      rw [hsplit] at hbegins
      exact absurd hbegins (h pre ys rfl hys)
  · rintro h xs ys rfl hys ⟨hbound, text, htext, post, heq⟩
    have hocc : Occurs (IsDeclaration name) none (xs ++ ys ++ back) xs text post :=
      ⟨by rw [heq, List.append_assoc], htext, by rw [heq]; exact hbound⟩
    obtain ⟨n, hn, hdecl⟩ := exists_firstDeclaration_le hocc
    have hle := h n hdecl
    have := List.length_pos_iff.2 hys
    rw [List.length_append] at hle
    omega

theorem countChecksFrom_append (name front : List Char) (before : Option Char) (cs : List Char) :
    countChecksFrom name front.length before (front ++ cs) =
      countChecksFrom name 0 (lastChar before front) cs := by
  induction front generalizing before with
  | nil => rfl
  | cons c front ih =>
    rw [List.cons_append, List.length_cons, countChecksFrom, ih, lastChar_cons]

theorem countChecksFrom_eq {name : List Char} (hname : Settings.isIdentifier name = true)
    (before : Option Char) (cs : List Char) :
    countChecksFrom name 0 before cs = countStarts (checkBegins name) before cs := by
  -- behind a check the search goes on with a shorter text, so the induction is on the length
  induction hlen : cs.length using Nat.strongRecOn generalizing before cs with
  | ind n ih =>
    cases cs with
    | nil => rfl
    | cons c rest =>
      cases hcheck : check? name before (c :: rest) with
      | none =>
        have := ih rest.length (by rw [← hlen]; simp) (some c) rest rfl
        simp [countChecksFrom, countStarts, checkBegins, hcheck, this]
      | some behind =>
        obtain ⟨-, text, htext, heq⟩ := check?_eq_some_iff.1 hcheck
        obtain ⟨d, text, rfl⟩ := List.exists_cons_of_ne_nil htext.ne_nil
        simp only [List.cons_append, List.cons.injEq] at heq
        obtain ⟨rfl, rfl⟩ := heq
        have hskip : (text ++ behind).length - behind.length = text.length := by simp
        have hshort : behind.length < n := by
          rw [← hlen, List.length_cons, List.length_append]
          omega
        have hrest := ih behind.length hshort (lastChar (some c) text) behind rfl
        have hinside : countStarts (checkBegins name) (some c) (text ++ behind) =
            countStarts (checkBegins name) (lastChar (some c) text) behind :=
          countStarts_append_of_noneBegins checkBegins_iff (htext.noneBegins_tail hname)
        simp only [countChecksFrom, countStarts, checkBegins, hcheck, hskip,
          countChecksFrom_append, hrest, ← hinside]
        simp

/-- Checks do not overlap, so all places where one begins are counted. -/
theorem countChecks_eq_countStarts {name : List Char}
    (hname : Settings.isIdentifier name = true) (code : List Char) :
    countChecks name code = countStarts (checkBegins name) none code :=
  countChecksFrom_eq hname none code

end WorkflowRepair.Repair
