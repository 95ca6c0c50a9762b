import WorkflowRepair.Repair.Expression

/-!
# Normal forms of expressions

A corrected expression opens with `=` and has no doubled brace, so it has neither defect any more,
provided that the known beginning is not itself one with `=`.
-/

namespace WorkflowRepair.Repair

open Text

/-! ## Collapsing -/

theorem head?_halve (brace : Char) (cs : List Char) : (halve brace cs).head? = cs.head? := by
  fun_cases halve brace cs with
  | case1 a b rest h => simp [h.1]
  | case2 => rfl
  | case3 => rfl

theorem head?_collapse (cs : List Char) : (collapse cs).head? = cs.head? := by
  fun_induction collapse cs with
  | case1 cs _ ih => rw [ih, halveBoth, head?_halve, head?_halve]
  | case2 => rfl

theorem hasDoubled_collapse (cs : List Char) : hasDoubled (collapse cs) = false := by
  fun_induction collapse cs with
  | case1 _ _ ih => exact ih
  | case2 _ h => exact Bool.eq_false_iff.2 h

theorem hasDoubled_of_opensDoubled {cs : List Char} (h : opensDoubled cs = true) :
    hasDoubled cs = true := by
  obtain ⟨rest, hrest⟩ := Option.isSome_iff_exists.1 h
  rw [eq_append_of_after? hrest]
  simp [hasDoubled, hasPair]

theorem head?_of_opensDoubled {cs : List Char} (h : opensDoubled cs = true) :
    cs.head? = some '=' := by
  obtain ⟨rest, hrest⟩ := Option.isSome_iff_exists.1 h
  rw [eq_append_of_after? hrest]
  rfl

/-! ## Normalizing -/

variable {barePrefix value normal : List Char}

/-- A corrected expression opens with `=`, but not with a doubled brace behind it. -/
theorem normalize_form (h : normalize barePrefix value = some normal) :
    normal.head? = some '=' ∧ opensDoubled normal = false := by
  -- all doubled braces are gone, also those at the opening
  have hcollapse : ∀ cs, opensDoubled (collapse cs) = false := by
    intro cs
    rw [Bool.eq_false_iff]
    intro hopens
    have := hasDoubled_of_opensDoubled hopens
    rw [hasDoubled_collapse] at this
    simp at this
  unfold normalize at h
  split at h
  case isTrue hopens =>
    injection h with hnormal
    rw [← hnormal, head?_collapse]
    exact ⟨head?_of_opensDoubled hopens, hcollapse value⟩
  case isFalse =>
    split at h
    case isFalse => simp at h
    case isTrue =>
      injection h with hnormal
      rw [← hnormal]
      split
      case isTrue => exact ⟨by rw [head?_collapse]; rfl, hcollapse _⟩
      case isFalse hopens => exact ⟨rfl, by simpa using hopens⟩

theorem head?_of_after?_isSome {word cs : List Char} (hword : word ≠ [])
    (h : (after? word cs).isSome = true) : cs.head? = word.head? := by
  obtain ⟨rest, hrest⟩ := Option.isSome_iff_exists.1 h
  obtain ⟨w, word, rfl⟩ := List.exists_cons_of_ne_nil hword
  rw [eq_append_of_after? hrest]
  rfl

/-- A corrected expression needs no correction. -/
theorem normalize_eq_none_of_normalize (hknown : barePrefix ≠ [])
    (hequals : barePrefix.head? ≠ some '=') (h : normalize barePrefix value = some normal) :
    normalize barePrefix normal = none := by
  obtain ⟨hhead, hopens⟩ := normalize_form h
  have hbare : (after? barePrefix normal).isSome = false := by
    rw [Bool.eq_false_iff]
    intro hsome
    rw [← head?_of_after?_isSome hknown hsome] at hequals
    exact hequals hhead
  simp [normalize, hopens, hbare]

end WorkflowRepair.Repair
