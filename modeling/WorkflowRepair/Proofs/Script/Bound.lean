import WorkflowRepair.Proofs.Script.Exact

/-!
# The bound of the loop

`fix` allows as many passes as the script has checks to begin with. That this is enough is a matter
of counting: a pass that finds something replaces at least one statement, and takes away at least as
many checks as it replaces statements (`countChecks_add_le_of_removePremature`).

* `ncard_starts`: counting the checks of a script counts the places where one stands;
* `countChecks_removeRepeatedly_add_le`: all passes together replace at most as many statements as
  they take checks away;
* `removePremature_removeRepeatedly`: the loop does not end for want of passes, so it would do
  nothing else if it were allowed more of them (`removeRepeatedly_add`);
* `fix_bounded_by_checks`: all this for the built-in name and marker.
-/

namespace WorkflowRepair.Repair

open Text

/-! ## The places of a shape -/

/-- Where the occurrences of a shape begin in the text behind `before`. -/
def starts (shape : List Char → Prop) (before : Option Char) (code : List Char) : Set Nat :=
  {start | ∃ pre text post, Occurs shape before code pre text post ∧ pre.length = start}

section

variable {shape : List Char → Prop} {test : Option Char → List Char → Bool}
  {before : Option Char} {code : List Char}

theorem lt_length_of_mem_starts (hne : ∀ text, shape text → text ≠ []) {start : Nat}
    (h : start ∈ starts shape before code) : start < code.length := by
  obtain ⟨pre, text, post, hocc, rfl⟩ := h
  have hpos := List.length_pos_iff.2 (hne text hocc.shape)
  rw [hocc.eq_append, List.length_append, List.length_append]
  omega

theorem finite_starts (hne : ∀ text, shape text → text ≠ []) :
    (starts shape before code).Finite :=
  (Set.finite_lt_nat code.length).subset fun _ => lt_length_of_mem_starts hne

theorem zero_mem_starts_iff : 0 ∈ starts shape before code ↔ Begins shape before code := by
  constructor
  · rintro ⟨pre, text, post, hocc, hzero⟩
    have hbegins := hocc.begins
    have heq := hocc.eq_append
    rw [List.length_eq_zero_iff.1 hzero] at hbegins heq
    rwa [heq]
  · rintro ⟨hbound, text, htext, post, rfl⟩
    exact ⟨[], text, post, ⟨rfl, htext, hbound⟩, rfl⟩

theorem succ_mem_starts_cons_iff {c : Char} {start : Nat} :
    start + 1 ∈ starts shape before (c :: code) ↔ start ∈ starts shape (some c) code := by
  constructor
  · rintro ⟨pre, text, post, hocc, hlength⟩
    obtain ⟨d, pre, rfl⟩ := List.exists_cons_of_length_eq_add_one hlength
    rw [List.length_cons, Nat.add_right_cancel_iff] at hlength
    exact ⟨pre, text, post, hocc.of_cons.2, hlength⟩
  · rintro ⟨pre, text, post, hocc, rfl⟩
    exact ⟨c :: pre, text, post, hocc.cons, rfl⟩

/-- Behind the first character the places are those of the rest, moved by one. -/
theorem starts_cons (htest : ∀ before cs, test before cs = true ↔ Begins shape before cs)
    (c : Char) :
    starts shape before (c :: code) =
      if test before (c :: code) then insert 0 (Nat.succ '' starts shape (some c) code)
      else Nat.succ '' starts shape (some c) code := by
  ext start
  split
  case isTrue h =>
    cases start with
    | zero => simp [zero_mem_starts_iff, (htest _ _).1 h]
    | succ start => simp [succ_mem_starts_cons_iff]
  case isFalse h =>
    rw [htest] at h
    cases start with
    | zero => simp [zero_mem_starts_iff, h]
    | succ start => simp [succ_mem_starts_cons_iff]

/-- A count of the places that pass the test counts the places where the shape begins. -/
theorem ncard_starts (htest : ∀ before cs, test before cs = true ↔ Begins shape before cs)
    (hne : ∀ text, shape text → text ≠ []) :
    (starts shape before code).ncard = countStarts test before code := by
  induction code generalizing before with
  | nil =>
    have hempty : starts shape before [] = ∅ :=
      Set.eq_empty_of_forall_notMem fun _ h => Nat.not_lt_zero _ (lt_length_of_mem_starts hne h)
    rw [hempty, Set.ncard_empty, countStarts]
  | cons c code ih =>
    have hrest : (Nat.succ '' starts shape (some c) code).ncard =
        countStarts test (some c) code := by
      rw [Set.ncard_image_of_injective _ Nat.succ_injective, ih]
    have hfinite : (Nat.succ '' starts shape (some c) code).Finite := (finite_starts hne).image _
    rw [starts_cons htest, countStarts]
    split
    case isTrue => rw [Set.ncard_insert_of_notMem (by simp) hfinite, hrest]
    case isFalse => rw [hrest, Nat.add_zero]

end

/-- Where the checks of a script begin. -/
def checkStarts (name code : List Char) : Set Nat :=
  {start | ∃ pre text post, Stands (IsCheck name) code pre text post ∧ pre.length = start}

variable {name marker code : List Char} {passes : Nat}

/-- Counting the checks one behind the other leaves none out. -/
theorem countChecks_eq_ncard (hname : Settings.isIdentifier name = true) (code : List Char) :
    countChecks name code = (checkStarts name code).ncard := by
  have hstarts : checkStarts name code = starts (IsCheck name) none code := by
    simp only [checkStarts, starts, stands_iff_occurs (beginsWithWord_isCheck hname)]
  rw [hstarts, ncard_starts checkBegins_iff fun _ => IsCheck.ne_nil]
  exact countChecks_eq_countStarts hname code

/-! ## The passes of the loop -/

/-- All passes together replace at most as many statements as they take checks away. -/
theorem countChecks_removeRepeatedly_add_le (hname : Settings.isIdentifier name = true)
    (hclear : Clear (IsCheck name) marker) (passes : Nat) (code : List Char) :
    countChecks name (removeRepeatedly name marker passes code).1 +
        (removeRepeatedly name marker passes code).2 ≤ countChecks name code := by
  induction passes generalizing code with
  | zero => exact Nat.le_refl _
  | succ passes ih =>
    rw [removeRepeatedly]
    cases hpass : removePremature name marker code with
    | none => exact Nat.le_refl _
    | some next =>
      -- what the first pass takes away adds up with what the others do
      obtain ⟨-, hle⟩ := countChecks_add_le_of_removePremature hname hclear hpass
      have := ih next.1
      dsimp only
      omega

/-- As many passes as there are checks leave nothing to be found by another one. -/
theorem removePremature_removeRepeatedly (hname : Settings.isIdentifier name = true)
    (hclear : Clear (IsCheck name) marker) (hle : countChecks name code ≤ passes) :
    removePremature name marker (removeRepeatedly name marker passes code).1 = none := by
  rw [removePremature_eq_none_iff hname, removeRepeatedly_fst hname]
  exact not_hasPremature_iterate hname hclear hle

/-- Where another pass finds nothing, more passes do nothing. -/
theorem removeRepeatedly_add
    (h : removePremature name marker (removeRepeatedly name marker passes code).1 = none)
    (more : Nat) :
    removeRepeatedly name marker (passes + more) code =
      removeRepeatedly name marker passes code := by
  -- both runs go in step as long as a pass finds something, and the shorter one ends with `none`
  induction passes generalizing code with
  | zero =>
    have hnone : removePremature name marker code = none := h
    cases more with
    | zero => rfl
    | succ more => simp only [removeRepeatedly, hnone]
  | succ passes ih =>
    rw [Nat.add_right_comm, removeRepeatedly, removeRepeatedly]
    rw [removeRepeatedly] at h
    cases hpass : removePremature name marker code with
    | none => rfl
    | some next =>
      rw [hpass] at h
      have := ih h
      dsimp only
      rw [this]

/-! ## The built-in name and marker -/

/-- The checks of a script bound its repair. As many places hold a check as are counted. A pass that
finds something replaces at least one statement, and takes at least as many checks away. The loop
leaves no premature statement, and with more passes it would do the same. So no more statements are
replaced than there were checks to begin with. -/
theorem fix_bounded_by_checks (code : List Char) :
    countChecks defaultName code = (checkStarts defaultName code).ncard ∧
      (∀ next count, removePremature defaultName defaultMarker code = some (next, count) →
        1 ≤ count ∧ countChecks defaultName next + count ≤ countChecks defaultName code) ∧
      (∀ pre text, ¬ Premature defaultName
        (removeRepeatedly defaultName defaultMarker (countChecks defaultName code) code).1
        pre text) ∧
      (∀ more,
        removeRepeatedly defaultName defaultMarker (countChecks defaultName code + more) code =
          removeRepeatedly defaultName defaultMarker (countChecks defaultName code) code) ∧
      ∀ out removed, fix defaultName defaultMarker code = .patched out removed →
        countChecks defaultName out + removed ≤ countChecks defaultName code ∧
          ∀ pre text, ¬ Premature defaultName out pre text := by
  have hname := isIdentifier_defaultName
  have hclear := clear_isCheck_default
  have hsettled : removePremature defaultName defaultMarker
      (removeRepeatedly defaultName defaultMarker (countChecks defaultName code) code).1 = none :=
    removePremature_removeRepeatedly hname hclear (Nat.le_refl _)
  have hnone : ∀ pre text, ¬ Premature defaultName
      (removeRepeatedly defaultName defaultMarker (countChecks defaultName code) code).1
      pre text := by
    intro pre text h
    exact (removePremature_eq_none_iff hname _ _).1 hsettled (hasPremature_iff.2 ⟨pre, text, h⟩)
  refine ⟨countChecks_eq_ncard hname code, fun next count hpass => ?_, hnone,
    removeRepeatedly_add hsettled, fun out removed hfix => ?_⟩
  · exact countChecks_add_le_of_removePremature hname hclear hpass
  · have hbound :=
      countChecks_removeRepeatedly_add_le hname hclear (countChecks defaultName code) code
    rw [removeRepeatedly_of_fix hfix] at hbound hnone
    exact ⟨hbound, hnone⟩

/-- Of two nested statements the inner one goes with both of its checks, and the outer one in a
second pass; the check behind the declaration is left. -/
theorem fix_bounded_by_checks_nested :
    let code := ("if(denyReason=='')\x7bif(denyReason!='')\x7bdenyReason==''\x7d\x7d" ++
      "let denyReason=1;denyReason==''").toList
    let next := ("if(denyReason=='')\x7b// denyReason check moved after declaration\x7d" ++
      "let denyReason=1;denyReason==''").toList
    let out := "// denyReason check moved after declarationlet denyReason=1;denyReason==''".toList
    removePremature defaultName defaultMarker code = some (next, 1) ∧
      fix defaultName defaultMarker code = .patched out 2 ∧
      countChecks defaultName code = 4 ∧
      countChecks defaultName next + 1 ≤ countChecks defaultName code ∧
      countChecks defaultName out + 2 ≤ countChecks defaultName code ∧
      ∀ pre text, ¬ Premature defaultName out pre text := by
  intro code next out
  have hpass : removePremature defaultName defaultMarker code = some (next, 1) := by
    decide +kernel
  have hfix : fix defaultName defaultMarker code = .patched out 2 := by decide +kernel
  have hcount : countChecks defaultName code = 4 := by decide +kernel
  obtain ⟨-, honce, -, -, hall⟩ := fix_bounded_by_checks code
  exact ⟨hpass, hfix, hcount, (honce next 1 hpass).2, hall out 2 hfix⟩

end WorkflowRepair.Repair
