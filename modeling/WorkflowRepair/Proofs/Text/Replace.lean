import WorkflowRepair.Text.Replace

/-!
# Replacing, match by match

What one step of `replaceAll` does: it keeps a character where no match begins, and puts the
replacement in the place of a match. A pattern that puts nothing in the place of its matches
shortens exactly the texts in which one of them begins.
-/

namespace WorkflowRepair.Text

variable {pattern : Pattern} {cs : List Char}

/-! ## Steps -/

theorem replaceAll_skip (pattern : Pattern) (front rest : List Char) :
    replaceAll pattern front.length (front ++ rest) = replaceAll pattern 0 rest := by
  induction front with
  | nil => rfl
  | cons c front ih => exact ih

theorem replaceAll_keep {c : Char} {rest : List Char} (h : pattern (c :: rest) = none) :
    replaceAll pattern 0 (c :: rest) = c :: replaceAll pattern 0 rest := by
  rw [replaceAll, h]

theorem replaceAll_match {text rest replacement : List Char} (hne : text ≠ [])
    (h : pattern (text ++ rest) = some (replacement, text.length)) :
    replaceAll pattern 0 (text ++ rest) = replacement ++ replaceAll pattern 0 rest := by
  obtain ⟨c, text, rfl⟩ := List.exists_cons_of_ne_nil hne
  rw [List.cons_append] at h ⊢
  rw [replaceAll, h]
  exact congrArg (replacement ++ ·) (replaceAll_skip pattern text rest)

/-! ## Texts without a match -/

/-- No match begins in a text. -/
def Unmatched (pattern : Pattern) (cs : List Char) : Prop :=
  ∀ c rest, c :: rest <:+ cs → pattern (c :: rest) = none

theorem Unmatched.tail {c : Char} (h : Unmatched pattern (c :: cs)) : Unmatched pattern cs :=
  fun d rest hsuffix => h d rest (hsuffix.trans (List.suffix_cons c cs))

theorem Unmatched.replaceAll_eq (h : Unmatched pattern cs) : replaceAll pattern 0 cs = cs := by
  induction cs with
  | nil => rfl
  | cons c cs ih => rw [replaceAll_keep (h c cs List.suffix_rfl), ih h.tail]

/-! ## Erasing -/

/-- A pattern that puts nothing in the place of its matches. -/
def Erases (pattern : Pattern) : Prop :=
  ∀ cs replacement length, pattern cs = some (replacement, length) → replacement = []

theorem replaceAll_erased {c : Char} {rest : List Char} {length : Nat}
    (h : pattern (c :: rest) = some ([], length)) :
    replaceAll pattern 0 (c :: rest) = replaceAll pattern (length - 1) rest := by
  simp only [replaceAll, h, List.nil_append]

theorem Erases.length_le (h : Erases pattern) (skip : Nat) (cs : List Char) :
    (replaceAll pattern skip cs).length ≤ cs.length := by
  induction cs generalizing skip with
  | nil => simp [replaceAll]
  | cons c cs ih =>
    cases skip with
    | succ skip => exact Nat.le_trans (ih skip) (Nat.le_succ _)
    | zero =>
      cases hmatch : pattern (c :: cs) with
      | none =>
        rw [replaceAll_keep hmatch]
        exact Nat.succ_le_succ (ih 0)
      | some found =>
        obtain ⟨replacement, length⟩ := found
        obtain rfl := h _ _ _ hmatch
        rw [replaceAll_erased hmatch]
        exact Nat.le_trans (ih (length - 1)) (Nat.le_succ _)

/-- Erasing leaves a text at its length only if no match begins in it. -/
theorem Erases.unmatched (h : Erases pattern)
    (hlength : cs.length ≤ (replaceAll pattern 0 cs).length) : Unmatched pattern cs := by
  induction cs with
  | nil => exact fun c rest hsuffix => absurd (List.suffix_nil.1 hsuffix) (List.cons_ne_nil c rest)
  | cons c cs ih =>
    cases hmatch : pattern (c :: cs) with
    | none =>
      rw [replaceAll_keep hmatch] at hlength
      have hrest := ih (Nat.le_of_succ_le_succ hlength)
      intro d rest hsuffix
      rcases List.suffix_cons_iff.1 hsuffix with heq | hsuffix
      · rw [heq, hmatch]
      · exact hrest d rest hsuffix
    | some found =>
      -- the first character of the match is gone
      obtain ⟨replacement, length⟩ := found
      obtain rfl := h _ _ _ hmatch
      rw [replaceAll_erased hmatch, List.length_cons] at hlength
      have hle := h.length_le (length - 1) cs
      omega

end WorkflowRepair.Text
