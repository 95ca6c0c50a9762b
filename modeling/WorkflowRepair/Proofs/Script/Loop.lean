import Mathlib.Logic.Function.Iterate
import WorkflowRepair.Proofs.Script.Pass

/-!
# The loop over the passes

`fix` passes over a script as many times as the script has checks to begin with. `HasPremature` is
what a pass looks for, and a script without it is settled.

* `exists_fix_eq_patched_iff`: a script is patched exactly if it has a premature statement;
* `eq_iterate_of_fix`: the patched script is the result of that many passes;
* `countChecks_add_le_of_removePremature`: if the marker is clear of checks, a pass takes away at
  least as many checks as it replaces statements;
* `not_hasPremature_iterate`: so for such a marker as many passes as there are checks settle every
  script.
-/

namespace WorkflowRepair.Repair

open Text

/-- Some removable statement ends in front of the first declaration. -/
def HasPremature (name code : List Char) : Prop :=
  ∃ declared pre text post, firstDeclaration name code = some declared ∧
    Occurs (IsStatement name) none code pre text post ∧ pre.length + text.length ≤ declared

/-- The script behind one pass. -/
def pass (name marker code : List Char) : List Char :=
  ((removePremature name marker code).map Prod.fst).getD code

variable {name marker code out : List Char} {removed : Nat}

/-! ## One pass -/

theorem removePremature_eq_some_iff (hname : Settings.isIdentifier name = true) :
    removePremature name marker code = some (out, removed) ↔
      ∃ declared, firstDeclaration name code = some declared ∧
        Replaced name marker declared none code out removed ∧ removed ≠ 0 := by
  cases hdecl : firstDeclaration name code with
  | none => simp [removePremature, hdecl]
  | some declared =>
    simp only [removePremature, hdecl, replaced_iff hname, Option.some.injEq, exists_eq_left']
    split
    case isTrue hzero =>
      constructor
      · intro h
        simp at h
      · rintro ⟨h, hne⟩
        rw [h] at hzero
        exact absurd hzero hne
    case isFalse hne =>
      rw [Option.some.injEq]
      constructor
      · intro h
        refine ⟨h, ?_⟩
        injection h with _ hcount
        rwa [← hcount]
      · exact And.left

theorem removePremature_eq_none_iff (hname : Settings.isIdentifier name = true)
    (marker code : List Char) :
    removePremature name marker code = none ↔ ¬ HasPremature name code := by
  cases hdecl : firstDeclaration name code with
  | none => simp [removePremature, HasPremature, hdecl]
  | some declared =>
    have hreplaced := replaced_replaceStatements hname marker declared none code
    have hzero := hreplaced.count_eq_zero_iff hname
    simp only [removePremature, hdecl]
    split
    case isTrue hcount =>
      refine iff_of_true rfl ?_
      rintro ⟨_, pre, text, post, heq, hocc, hle⟩
      rw [hdecl, Option.some.injEq] at heq
      have := hzero.1 hcount pre text post hocc
      omega
    case isFalse hcount =>
      refine iff_of_false (by simp) fun hnot => hcount (hzero.2 fun pre text post hocc => ?_)
      by_contra hle
      exact hnot ⟨declared, pre, text, post, hdecl, hocc, by omega⟩

theorem pass_of_not_hasPremature (hname : Settings.isIdentifier name = true)
    (h : ¬ HasPremature name code) : pass name marker code = code := by
  rw [pass, (removePremature_eq_none_iff hname marker code).2 h]
  rfl

/-- A pass over a script without a declaration does nothing. -/
theorem pass_of_firstDeclaration_eq_none (hnone : firstDeclaration name code = none) :
    pass name marker code = code := by
  simp [pass, removePremature, hnone]

/-- Given a declaration, a pass replaces the statements that end in front of it. -/
theorem exists_replaced_pass (hname : Settings.isIdentifier name = true) (marker : List Char)
    {declared : Nat} (hdecl : firstDeclaration name code = some declared) :
    ∃ removed, Replaced name marker declared none code (pass name marker code) removed := by
  have hreplaced := replaced_replaceStatements hname marker declared none code
  have hpass : pass name marker code = (replaceStatements name marker declared 0 none code).1 := by
    simp only [pass, removePremature, hdecl]
    split
    case isTrue hzero => exact (hreplaced.eq_of_count_eq_zero hzero).symm
    case isFalse => rfl
  rw [hpass]
  exact ⟨_, hreplaced⟩

/-- A pass that finds something replaces statements. -/
theorem exists_replaced_of_hasPremature (hname : Settings.isIdentifier name = true)
    (h : HasPremature name code) (marker : List Char) :
    ∃ declared removed, Replaced name marker declared none code (pass name marker code) removed ∧
      removed ≠ 0 := by
  obtain ⟨declared, pre, text, post, hdecl, hocc, hle⟩ := h
  obtain ⟨removed, hreplaced⟩ := exists_replaced_pass hname marker hdecl
  refine ⟨declared, removed, hreplaced, fun hzero => ?_⟩
  have := (hreplaced.count_eq_zero_iff hname).1 hzero pre text post hocc
  omega

/-- If the marker is clear of checks, a pass that finds something takes away at least as many checks
as it replaces statements. -/
theorem countChecks_add_le_of_removePremature (hname : Settings.isIdentifier name = true)
    (hclear : Clear (IsCheck name) marker)
    (h : removePremature name marker code = some (out, removed)) :
    1 ≤ removed ∧ countChecks name out + removed ≤ countChecks name code := by
  obtain ⟨declared, -, hreplaced, hne⟩ := (removePremature_eq_some_iff hname).1 h
  have hle := hreplaced.countStarts_le hname hclear id
  rw [countChecks_eq_countStarts hname, countChecks_eq_countStarts hname]
  exact ⟨Nat.one_le_iff_ne_zero.2 hne, hle⟩

theorem countChecks_pass_lt (hname : Settings.isIdentifier name = true)
    (hclear : Clear (IsCheck name) marker) (h : HasPremature name code) :
    countChecks name (pass name marker code) < countChecks name code := by
  cases hpass : removePremature name marker code with
  | none => exact absurd h ((removePremature_eq_none_iff hname marker code).1 hpass)
  | some next =>
    obtain ⟨hpos, hle⟩ := countChecks_add_le_of_removePremature hname hclear hpass
    have hnext : pass name marker code = next.1 := by
      rw [pass, hpass]
      rfl
    rw [hnext]
    omega

/-! ## Many passes -/

theorem removeRepeatedly_fst (hname : Settings.isIdentifier name = true) (passes : Nat)
    (code : List Char) :
    (removeRepeatedly name marker passes code).1 = (pass name marker)^[passes] code := by
  induction passes generalizing code with
  | zero => rfl
  | succ passes ih =>
    rw [Function.iterate_succ_apply, removeRepeatedly, pass]
    cases hpass : removePremature name marker code with
    | some next => exact ih next.1
    | none =>
      have hnot := (removePremature_eq_none_iff hname marker code).1 hpass
      exact (Function.iterate_fixed (pass_of_not_hasPremature hname hnot) passes).symm

theorem removeRepeatedly_snd_eq_zero_iff (hname : Settings.isIdentifier name = true)
    (marker code : List Char) {passes : Nat} (hpos : 0 < passes) :
    (removeRepeatedly name marker passes code).2 = 0 ↔ ¬ HasPremature name code := by
  obtain ⟨passes, rfl⟩ : ∃ n, passes = n + 1 := ⟨passes - 1, by omega⟩
  rw [← removePremature_eq_none_iff hname marker code, removeRepeatedly]
  cases hpass : removePremature name marker code with
  | none => simp
  | some next =>
    obtain ⟨-, -, -, hne⟩ := (removePremature_eq_some_iff hname).1 hpass
    simp [hne]

/-- The check in a premature statement stands before the declaration. -/
theorem checksEarly_of_hasPremature (hname : Settings.isIdentifier name = true)
    (h : HasPremature name code) : checksEarly name code = true := by
  obtain ⟨declared, pre, text, post, hdecl, hocc, hle⟩ := h
  obtain ⟨cpre, check, cpost, hcheck, hlt⟩ :=
    hocc.shape.exists_occurs_check hname (lastChar none pre) post
  obtain ⟨n, hn, hfirst⟩ := exists_firstCheck_le (hocc.eq_append ▸ hcheck.append_left)
  rw [List.length_append] at hn
  simp only [checksEarly, hfirst, hdecl, decide_eq_true_eq]
  omega

theorem countChecks_pos_of_checksEarly (hname : Settings.isIdentifier name = true)
    (h : checksEarly name code = true) : 0 < countChecks name code := by
  cases hfirst : firstCheck name code with
  | none => simp [checksEarly, hfirst] at h
  | some n =>
    obtain ⟨pre, text, post, hocc, -⟩ := exists_occurs_of_findStart checkBegins_iff hfirst
    have hpos := List.length_pos_iff.2 hocc.shape.ne_nil
    have heq : code = code ++ [] := (List.append_nil code).symm
    rw [heq] at hocc
    have hlen := congrArg List.length hocc.eq_append
    simp only [List.append_nil, List.length_append] at hlen
    have := countStarts_lt_of_occurs checkBegins_iff code hocc (by omega)
    rw [countChecks_eq_countStarts hname]
    rw [List.append_nil] at this
    omega

/-! ## The whole repair -/

/-- A script is patched exactly if it has a premature statement. -/
theorem exists_fix_eq_patched_iff (hname : Settings.isIdentifier name = true)
    (marker code : List Char) :
    (∃ out removed, fix name marker code = .patched out removed) ↔ HasPremature name code := by
  by_cases hearly : checksEarly name code = true
  · have hzero := removeRepeatedly_snd_eq_zero_iff hname marker code
      (countChecks_pos_of_checksEarly hname hearly)
    simp only [fix, hearly, if_true]
    split
    case isTrue hremoved =>
      refine iff_of_false ?_ (hzero.1 hremoved)
      rintro ⟨out, removed, h⟩
      simp at h
    case isFalse hremoved =>
      exact iff_of_true ⟨_, _, rfl⟩ (Classical.not_not.1 fun h => hremoved (hzero.2 h))
  · refine iff_of_false ?_ fun h => hearly (checksEarly_of_hasPremature hname h)
    rintro ⟨out, removed, h⟩
    simp [fix, hearly] at h

/-- What a script is patched to is what the loop leaves after as many passes as there were checks to
begin with. -/
theorem removeRepeatedly_of_fix (h : fix name marker code = .patched out removed) :
    removeRepeatedly name marker (countChecks name code) code = (out, removed) := by
  simp only [fix] at h
  split at h
  case isFalse => simp at h
  case isTrue =>
    split at h
    case isTrue => simp at h
    case isFalse =>
      injection h with hout hremoved
      rw [← hout, ← hremoved]

theorem eq_iterate_of_fix (hname : Settings.isIdentifier name = true)
    (h : fix name marker code = .patched out removed) :
    out = (pass name marker)^[countChecks name code] code := by
  rw [← removeRepeatedly_fst hname, removeRepeatedly_of_fix h]

theorem iterate_pass_of_not_hasPremature (hname : Settings.isIdentifier name = true)
    (h : ¬ HasPremature name code) (n : Nat) : (pass name marker)^[n] code = code :=
  Function.iterate_fixed (pass_of_not_hasPremature hname h) n

/-- A settled script stays as it is. -/
theorem iterate_pass_add (hname : Settings.isIdentifier name = true) {k : Nat}
    (h : ¬ HasPremature name ((pass name marker)^[k] code)) {n : Nat} (hle : k ≤ n) :
    (pass name marker)^[n] code = (pass name marker)^[k] code := by
  obtain ⟨m, rfl⟩ := Nat.exists_eq_add_of_le' hle
  rw [Function.iterate_add_apply, iterate_pass_of_not_hasPremature hname h]

/-- If every pass that finds something lowers a bound, then as many passes as the bound settle the
script. -/
theorem not_hasPremature_iterate_of_bound (hname : Settings.isIdentifier name = true)
    (bound : List Char → Nat → Prop)
    (hpass : ∀ code n, bound code n → HasPremature name code →
      ∃ m < n, bound (pass name marker code) m)
    {n passes : Nat} (hbound : bound code n) (hle : n ≤ passes) :
    ¬ HasPremature name ((pass name marker)^[passes] code) := by
  induction passes generalizing code n with
  | zero =>
    intro h
    obtain ⟨m, hlt, -⟩ := hpass code n hbound h
    omega
  | succ passes ih =>
    by_cases h : HasPremature name code
    · obtain ⟨m, hlt, hnext⟩ := hpass code n hbound h
      rw [Function.iterate_succ_apply]
      exact ih hnext (by omega)
    · rwa [iterate_pass_of_not_hasPremature hname h]

/-- If the marker is clear of checks, as many passes as there are checks settle every script. -/
theorem not_hasPremature_iterate (hname : Settings.isIdentifier name = true)
    (hclear : Clear (IsCheck name) marker) {n : Nat} (hle : countChecks name code ≤ n) :
    ¬ HasPremature name ((pass name marker)^[n] code) := by
  -- the number of checks is the bound
  refine not_hasPremature_iterate_of_bound hname (fun code n => countChecks name code = n)
    ?_ rfl hle
  rintro code _ rfl h
  exact ⟨_, countChecks_pass_lt hname hclear h, rfl⟩

/-! ## A marker that is clear of checks -/

/-- A patched script is not patched again. -/
theorem fix_ne_patched_of_patched (hname : Settings.isIdentifier name = true)
    (hclear : Clear (IsCheck name) marker) (h : fix name marker code = .patched out removed)
    (out' : List Char) (removed' : Nat) : fix name marker out ≠ .patched out' removed' := by
  intro hagain
  have hpremature := (exists_fix_eq_patched_iff hname marker out).1 ⟨out', removed', hagain⟩
  rw [eq_iterate_of_fix hname h] at hpremature
  exact not_hasPremature_iterate hname hclear (Nat.le_refl _) hpremature

end WorkflowRepair.Repair
