import WorkflowRepair.Glob.Basic
import WorkflowRepair.Settings.Basic

/-!
# Patterns with one star

A star passes over any number of bytes, and every other plain character stands for its own bytes. So a
pattern with plain text on both sides of one star stands for the names that begin with the one text and
end, behind it, with the other (`accepts_star_iff`). The default pattern is of this kind
(`accepts_default_iff`).
-/

namespace WorkflowRepair.Glob

/-- The pieces that stand for given bytes, one for each. -/
def plain (bytes : List UInt8) : Pattern := bytes.map .byte

theorem anyEnd_iff {rest : List UInt8 → Bool} {name : List UInt8} :
    anyEnd rest name = true ↔ ∃ middle tail, name = middle ++ tail ∧ rest tail = true := by
  induction name with
  | nil =>
    rw [anyEnd]
    constructor
    · intro h
      exact ⟨[], [], rfl, h⟩
    · rintro ⟨middle, tail, hsplit, h⟩
      obtain ⟨-, rfl⟩ := List.append_eq_nil_iff.1 hsplit.symm
      exact h
  | cons b name ih =>
    rw [anyEnd, Bool.or_eq_true, ih]
    constructor
    · rintro (h | ⟨middle, tail, rfl, h⟩)
      · exact ⟨[], b :: name, rfl, h⟩
      · exact ⟨b :: middle, tail, rfl, h⟩
    · rintro ⟨middle, tail, hsplit, h⟩
      cases middle with
      | nil =>
        rw [List.nil_append] at hsplit
        rw [hsplit]
        exact .inl h
      | cons c middle => exact .inr ⟨middle, tail, (List.cons.inj hsplit).2, h⟩

theorem patternAccepts_plain_iff {rest : List UInt8 → Bool} {pieces : Pattern}
    {bytes name : List UInt8} :
    patternAccepts rest (plain bytes ++ pieces) name = true ↔
      ∃ tail, name = bytes ++ tail ∧ patternAccepts rest pieces tail = true := by
  induction bytes generalizing name with
  | nil => simp [plain]
  | cons b bytes ih =>
    rw [plain, List.map_cons, List.cons_append, patternAccepts]
    cases name with
    | nil => simp [Piece.accepts]
    | cons c name =>
      rw [Piece.accepts, Bool.and_eq_true, beq_iff_eq]
      constructor
      · rintro ⟨rfl, h⟩
        obtain ⟨tail, rfl, htail⟩ := ih.1 h
        exact ⟨tail, rfl, htail⟩
      · rintro ⟨tail, hsplit, htail⟩
        obtain ⟨rfl, rfl⟩ := List.cons.inj hsplit
        exact ⟨rfl, ih.2 ⟨tail, rfl, htail⟩⟩

/-- A pattern with one star stands for the names with its two texts at the two ends. -/
theorem accepts_star_iff {front back name : List UInt8} :
    accepts (plain front ++ .anyBytes :: plain back) name = true ↔
      ∃ middle, name = front ++ (middle ++ back) := by
  have haccepts : accepts (plain front ++ .anyBytes :: plain back) name =
      patternAccepts List.isEmpty (plain front ++ .anyBytes :: plain back) name := by
    cases front <;> rfl
  have hback : ∀ tail, patternAccepts List.isEmpty (plain back) tail = true ↔ tail = back := by
    intro tail
    rw [← List.append_nil (plain back), patternAccepts_plain_iff]
    simp [patternAccepts]
  rw [haccepts, patternAccepts_plain_iff]
  constructor
  · rintro ⟨tail, rfl, htail⟩
    rw [patternAccepts, Piece.accepts, anyEnd_iff] at htail
    obtain ⟨middle, tail, rfl, htail⟩ := htail
    exact ⟨middle, by rw [(hback tail).1 htail]⟩
  · rintro ⟨middle, rfl⟩
    refine ⟨middle ++ back, rfl, ?_⟩
    rw [patternAccepts, Piece.accepts, anyEnd_iff]
    exact ⟨middle, back, rfl, (hback back).2 rfl⟩

/-! ## The default pattern -/

/-- The pieces of the default pattern. -/
def defaultGlob : Pattern :=
  plain (Text.encode "W") ++ .anyBytes :: plain (Text.encode ".json")

theorem read_default : read ({} : Settings).batch.pattern = .ok defaultGlob := rfl

/-- The default pattern stands for the names that begin and end as it does. -/
theorem accepts_default_iff {name : List UInt8} :
    accepts defaultGlob name = true ↔
      Text.encode "W" <+: name ∧ Text.encode ".json" <:+ name := by
  rw [defaultGlob, accepts_star_iff]
  constructor
  · rintro ⟨middle, rfl⟩
    constructor
    · exact List.prefix_append _ _
    · exact ⟨Text.encode "W" ++ middle, List.append_assoc _ _ _⟩
  · rintro ⟨⟨tail, rfl⟩, front, hback⟩
    have hletter : Text.encode "W" = [87] := by decide +kernel
    have hending : Text.encode ".json" = 46 :: [106, 115, 111, 110] := by decide +kernel
    cases front with
    | nil =>
      -- the letter is not the point that the ending begins with
      rw [hletter, hending] at hback
      exact absurd (List.cons.inj hback).1 (by decide)
    | cons b middle =>
      rw [hletter] at hback ⊢
      exact ⟨middle, congrArg ([87] ++ ·) (List.cons.inj hback).2.symm⟩

end WorkflowRepair.Glob
