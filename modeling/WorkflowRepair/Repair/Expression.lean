import WorkflowRepair.Text.Replace

/-!
# Dynamic expressions

A dynamic expression opens with `=` and puts code between single braces. Two defects are repaired:
doubled braces behind the `=`, and a `=` that is missing before a known beginning.
-/

namespace WorkflowRepair.Repair

/-- Whether `brace` occurs twice in a row. -/
def hasPair (brace : Char) : List Char → Bool
  | a :: b :: rest => (a == brace && b == brace) || hasPair brace (b :: rest)
  | _ => false

/-- Whether a brace of either kind is doubled. -/
def hasDoubled (cs : List Char) : Bool := hasPair '{' cs || hasPair '}' cs

/-- Put one `brace` in place of each two in a row, from left to right. -/
def halve (brace : Char) : List Char → List Char
  | a :: b :: rest =>
    if a = brace ∧ b = brace then brace :: halve brace rest else a :: halve brace (b :: rest)
  | rest => rest

theorem length_halve_le (brace : Char) (cs : List Char) : (halve brace cs).length ≤ cs.length := by
  fun_induction halve brace cs with
  | case1 a b rest h ih => simp; omega
  | case2 a b rest h ih => simpa using ih
  | case3 rest h => exact Nat.le_refl _

/-- Halve opening braces, then closing ones. -/
def halveBoth (cs : List Char) : List Char := halve '}' (halve '{' cs)

theorem halve_eq_self {brace : Char} {cs : List Char} (h : hasPair brace cs = false) :
    halve brace cs = cs := by
  fun_induction halve brace cs with
  | case1 a b rest hab ih => simp [hasPair, hab] at h
  | case2 a b rest hab ih =>
    simp only [hasPair, Bool.or_eq_false_iff] at h
    rw [ih h.2]
  | case3 rest hr => rfl

theorem length_halve_lt {brace : Char} {cs : List Char} (h : hasPair brace cs = true) :
    (halve brace cs).length < cs.length := by
  fun_induction halve brace cs with
  | case1 a b rest hab ih =>
    have := length_halve_le brace rest
    simp
    omega
  | case2 a b rest hab ih =>
    simp only [hasPair, Bool.or_eq_true, Bool.and_eq_true, beq_iff_eq] at h
    have := ih (h.resolve_left hab)
    simpa using this
  | case3 rest hr =>
    cases rest with
    | nil => simp [hasPair] at h
    | cons a rest =>
      cases rest with
      | nil => simp [hasPair] at h
      | cons b rest => exact absurd rfl (hr a b rest)

/-- While a brace is doubled, halving shortens the text. -/
theorem length_halveBoth_lt {cs : List Char} (h : hasDoubled cs = true) :
    (halveBoth cs).length < cs.length := by
  rw [hasDoubled, Bool.or_eq_true] at h
  have outer := length_halve_le '}' (halve '{' cs)
  by_cases hopen : hasPair '{' cs = true
  · have := length_halve_lt hopen
    simp only [halveBoth]
    omega
  · have hclose := h.resolve_left hopen
    rw [halveBoth, halve_eq_self (Bool.eq_false_iff.2 hopen)]
    exact length_halve_lt hclose

/-- Halve until no brace is doubled. -/
def collapse (cs : List Char) : List Char :=
  if _ : hasDoubled cs = true then collapse (halveBoth cs) else cs
termination_by cs.length
decreasing_by exact length_halveBoth_lt (by assumption)

/-- Whether the text opens as an expression with a doubled brace. -/
def opensDoubled (cs : List Char) : Bool := (Text.after? ['=', '{', '{'] cs).isSome

/-- The corrected form of an expression, none if it has neither defect: an expression that opens
with a doubled brace is collapsed, and one that begins with `barePrefix` gains its `=` and is then
collapsed if it has come to open so. -/
def normalize (barePrefix value : List Char) : Option (List Char) :=
  if opensDoubled value then some (collapse value)
  else if (Text.after? barePrefix value).isSome then
    some (if opensDoubled ('=' :: value) then collapse ('=' :: value) else '=' :: value)
  else none

/-- `normalize` on strings. -/
def normalizeText (barePrefix value : String) : Option String :=
  (normalize barePrefix.toList value.toList).map String.ofList

end WorkflowRepair.Repair
