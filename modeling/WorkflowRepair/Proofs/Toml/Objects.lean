import WorkflowRepair.Proofs.Json.Stored
import WorkflowRepair.Toml.Reader

/-!
# Objects are no configuration

No text is both a JSON object and a TOML table (`read_eq_none_of_object`): behind its blanks an object
begins with a brace, and there no statement begins.
-/

namespace WorkflowRepair.Toml

/-- No statement begins with the character. -/
def Barren (c : Char) : Prop := c = '{' ∨ c = '\r'

theorem readStatement_of_barren (progress : Progress) {c : Char} (h : Barren c) (rest : List Char) :
    readStatement progress (c :: rest) = none := by
  have hkey : readKey (c :: rest) = none := by
    rcases h with rfl | rfl <;> rfl
  have hpair : readPair (readValue (maxDepth - 1)) (c :: rest) = none := by
    rw [readPair, hkey]
  have hne : c ≠ '[' := by
    rcases h with rfl | rfl <;> decide
  unfold readStatement
  split
  case h_1 heq => exact absurd (List.cons.inj heq).1 hne
  case h_2 heq => exact absurd (List.cons.inj heq).1 hne
  case h_3 => rw [hpair]

theorem skipLines_space (fuel : Nat) {c : Char} (h : isSpace c = true) (cs : List Char) :
    skipLines fuel (c :: cs) = skipLines fuel cs := by
  cases fuel with
  | zero => rfl
  | succ fuel =>
    have hspaces : skipSpaces (c :: cs) = skipSpaces cs := List.dropWhile_cons_of_pos h
    rw [skipLines, skipLines, hspaces]

/-- A carriage return ends the blanks if it ends no line. -/
theorem skipLines_return (fuel : Nat) {cs : List Char} (h : afterNewline? ('\r' :: cs) = none) :
    skipLines (fuel + 1) ('\r' :: cs) = some ('\r' :: cs) := by
  have hspaces : skipSpaces ('\r' :: cs) = '\r' :: cs := rfl
  rw [skipLines, hspaces]
  split
  case h_1 heq => cases heq
  case h_2 => rw [h]

/-- The blanks of a JSON text end in front of a brace, or of a carriage return alone. -/
theorem barren_of_skipLines {fuel : Nat} {blanks rest cs : List Char} (hblanks : Json.Blank blanks)
    (h : skipLines fuel (blanks ++ '{' :: rest) = some cs) :
    ∃ c behind, cs = c :: behind ∧ Barren c := by
  induction fuel generalizing blanks with
  | zero => cases h
  | succ fuel ih =>
    induction blanks with
    | nil =>
      cases h
      exact ⟨'{', rest, rfl, .inl rfl⟩
    | cons c blanks ihblanks =>
      have hrest : Json.Blank blanks := fun d hd => hblanks d (List.mem_cons_of_mem _ hd)
      have hc := hblanks c List.mem_cons_self
      simp only [Json.isBlank, Bool.or_eq_true, beq_iff_eq] at hc
      rcases hc with ((rfl | rfl) | rfl) | rfl
      · rw [List.cons_append, skipLines_space _ rfl] at h
        exact ihblanks hrest h
      · rw [List.cons_append, skipLines_space _ rfl] at h
        exact ihblanks hrest h
      · exact ih hrest h
      · -- a carriage return belongs to a newline, or else the statement begins with it
        cases blanks with
        | nil =>
          cases h
          exact ⟨'\r', _, rfl, .inr rfl⟩
        | cons d blanks =>
          have hblanks' : Json.Blank blanks := fun e he => hrest e (List.mem_cons_of_mem _ he)
          by_cases hd : d = '\n'
          · subst hd
            exact ih hblanks' h
          · have hreturn : afterNewline? ('\r' :: (d :: blanks ++ '{' :: rest)) = none := by
              unfold afterNewline?
              split
              case h_1 heq => cases heq
              case h_2 heq => exact absurd (List.cons.inj (List.cons.inj heq).2).1 hd
              case h_3 => rfl
            rw [List.cons_append, skipLines_return _ hreturn] at h
            cases h
            exact ⟨'\r', _, rfl, .inr rfl⟩

/-- An object begins with a brace behind its blanks. -/
theorem exists_brace_of_object {text : String} {members : Json.Members}
    (h : Json.readText text = .ok (.object members)) :
    ∃ blanks rest, Json.Blank blanks ∧ text.toList = blanks ++ '{' :: rest := by
  rcases Json.exists_spells_of_readText h with
    ⟨source, ⟨front, core, back, hfront, hspells, -, htext⟩, hvalue⟩
  cases source with
  | object sources =>
    have hspells : Json.Spells (126 + 1) (.object sources) core := hspells
    rw [Json.Spells] at hspells
    rw [hspells.eq_cons back] at htext
    exact ⟨front, _, hfront, htext⟩
  | _ => simp [Json.Source.value?] at hvalue

theorem readStatements_of_object (fuel : Nat) (progress : Progress) {blanks rest : List Char}
    (hblanks : Json.Blank blanks) :
    readStatements fuel progress (blanks ++ '{' :: rest) = none := by
  cases fuel with
  | zero => rfl
  | succ fuel =>
    rw [readStatements]
    cases hskip : skipAll (blanks ++ '{' :: rest) with
    | none => rfl
    | some cs =>
      rcases barren_of_skipLines hblanks hskip with ⟨c, behind, rfl, hc⟩
      dsimp only
      rw [readStatement_of_barren progress hc]

/-- An object is no table. -/
theorem read_eq_none_of_object {text : String} {members : Json.Members}
    (h : Json.readText text = .ok (.object members)) : read text = none := by
  rcases exists_brace_of_object h with ⟨blanks, rest, hblanks, htext⟩
  have hmark : ∀ behind, text.toList ≠ '\ufeff' :: behind := by
    intro behind heq
    rw [htext] at heq
    cases blanks with
    | nil => cases heq
    | cons c blanks =>
      have hc := hblanks c List.mem_cons_self
      rw [(List.cons.inj heq).1] at hc
      cases hc
  unfold read
  split
  case h_1 behind heq => exact absurd heq (hmark behind)
  case h_2 =>
    dsimp only
    rw [htext, readStatements_of_object _ _ hblanks, Option.map_none]

end WorkflowRepair.Toml
