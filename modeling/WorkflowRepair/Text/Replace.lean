/-!
# Replacing matches

One pass over a text that replaces every match of a pattern, leftmost first and without overlaps.
A pattern is a function that says what stands in place of the match at the head of a text, and how
many characters the match takes.
-/

namespace WorkflowRepair.Text

/-- The text behind `word`, if the text begins with it. -/
def after? : (word : List Char) → List Char → Option (List Char)
  | [], rest => some rest
  | _ :: _, [] => none
  | w :: word, c :: rest => if c = w then after? word rest else none

/-- A pattern: the replacement and the length of the match at the head of the text. -/
abbrev Pattern := List Char → Option (List Char × Nat)

/-- Replace every match, passing over the next `skip` characters, which belong to a match already
replaced. -/
def replaceAll (pattern : Pattern) : (skip : Nat) → List Char → List Char
  | _, [] => []
  | skip + 1, _ :: rest => replaceAll pattern skip rest
  | 0, c :: rest =>
    match pattern (c :: rest) with
    | some (replacement, length) => replacement ++ replaceAll pattern (length - 1) rest
    | none => c :: replaceAll pattern 0 rest

theorem after?_append (word rest : List Char) : after? word (word ++ rest) = some rest := by
  induction word with
  | nil => rfl
  | cons w word ih => simp [after?, ih]

theorem eq_append_of_after? {word text rest : List Char} (h : after? word text = some rest) :
    text = word ++ rest := by
  induction word generalizing text with
  | nil => simp_all [after?]
  | cons w word ih =>
    cases text with
    | nil => simp [after?] at h
    | cons c text =>
      by_cases hc : c = w
      · simp only [after?, hc, if_true] at h
        simp [hc, ih h]
      · simp [after?, hc] at h

end WorkflowRepair.Text
