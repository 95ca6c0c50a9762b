import WorkflowRepair.Proofs.Script.Completion

/-!
# Where the characters of a script come from

Pass after pass, a script is made of the characters it had to begin with and of pieces of markers.
A cell is a character with its origin, and `Laid` says what can stand next to what. A marker loses
its beginning only to a statement whose body it closed, and its ending only to one that it opened;
so a piece of it is found by going along the cells to the left (`Laid.exists_piece`) and to the
right (`Laid.exists_rest`).
-/

namespace WorkflowRepair.Repair

open Text

/-- A character of a script with its origin. -/
inductive Cell where
  /-- It was there to begin with. -/
  | kept (c : Char)
  /-- It came with a marker that goes on with `rest` behind it. -/
  | laid (c : Char) (rest : List Char)

namespace Cell

def char : Cell → Char
  | kept c => c
  | laid c _ => c

/-- The character, or a closing brace where a marker was laid. -/
def shade : Cell → Char
  | kept c => c
  | laid _ _ => '}'

end Cell

/-- The cells of a marker. -/
def lay : List Char → List Cell
  | [] => []
  | c :: rest => .laid c rest :: lay rest

@[simp]
theorem map_char_lay (marker : List Char) : (lay marker).map Cell.char = marker := by
  induction marker with
  | nil => rfl
  | cons c rest ih => rw [lay, List.map_cons, ih]; rfl

/-- A text without braces and quotes, as it stands in a statement in front of its check. -/
def Plain (text : List Char) : Prop := NoBrace text ∧ ∀ c ∈ text, isQuote c = false

theorem IsOpening.plain {text : List Char} (h : IsOpening text) : Plain text :=
  ⟨h.noBrace, h.not_isQuote⟩

theorem Plain.append {xs ys : List Char} (hxs : Plain xs) (hys : Plain ys) : Plain (xs ++ ys) := by
  refine ⟨hxs.1.append hys.1, fun c hc => ?_⟩
  rcases List.mem_append.1 hc with hc | hc
  · exact hxs.2 c hc
  · exact hys.2 c hc

theorem Plain.of_append {xs ys : List Char} (h : Plain (xs ++ ys)) : Plain xs :=
  ⟨fun c hc => h.1 c (List.mem_append_left ys hc), fun c hc => h.2 c (List.mem_append_left ys hc)⟩

/-- What a piece of a marker lacks in front: nothing, or all up to a closing brace. -/
def Lost (lost : List Char) : Prop := lost = [] ∨ ∃ init, lost = init ++ ['}']

/-- What can stand behind a cell, or at the beginning of a script. -/
inductive Follows (marker : List Char) : (previous : Option Cell) → Cell → Prop
  /-- A character from the start, not inside a marker. -/
  | kept {previous : Option Cell} {c : Char}
      (hend : ∀ d rest, previous = some (.laid d rest) → rest = []) :
      Follows marker previous (.kept c)
  /-- A marker goes on. -/
  | next {c d : Char} {rest : List Char} :
      Follows marker (some (.laid c (d :: rest))) (.laid d rest)
  /-- A marker begins where a statement could begin. -/
  | first {previous : Option Cell} {c : Char} {rest : List Char} (hmarker : marker = c :: rest)
      (hbound : (previous.map Cell.char).any isWord = false)
      (hcut : ∀ d rest', previous = some (.laid d rest') → Plain rest') :
      Follows marker previous (.laid c rest)
  /-- Behind the end of a marker another one begins, or goes on behind a closing brace. -/
  | behind {c d : Char} {lost rest : List Char} (hmarker : marker = lost ++ d :: rest)
      (hlost : Lost lost) : Follows marker (some (.laid c [])) (.laid d rest)

/-- The cells of a script behind `previous`. -/
inductive Laid (marker : List Char) : (previous : Option Cell) → List Cell → Prop
  | nil {previous : Option Cell} (hend : ∀ d rest, previous = some (.laid d rest) → rest = []) :
      Laid marker previous []
  | cons {previous : Option Cell} {cell : Cell} {cells : List Cell}
      (hfollows : Follows marker previous cell) (hcells : Laid marker (some cell) cells) :
      Laid marker previous (cell :: cells)

variable {marker : List Char} {previous : Option Cell} {front cells : List Cell}

/-- A script to begin with. -/
theorem laid_map_kept (marker code : List Char) : Laid marker none (code.map Cell.kept) := by
  have hkept : ∀ {previous : Option Cell}, (∀ d rest, previous ≠ some (.laid d rest)) →
      Laid marker previous (code.map Cell.kept) := by
    induction code with
    | nil => exact fun hprevious => .nil fun d rest h => absurd h (hprevious d rest)
    | cons c code ih =>
      intro previous hprevious
      exact .cons (.kept fun d rest h => absurd h (hprevious d rest)) (ih (by simp))
  exact hkept (by simp)

theorem Laid.drop (h : Laid marker previous (front ++ cells)) :
    Laid marker (front.getLast?.or previous) cells := by
  induction front generalizing previous with
  | nil => exact h
  | cons x front ih =>
    cases h with
    | cons _ hcells =>
      have hrest := ih hcells
      cases front using List.reverseRecOn with
      | nil => exact hrest
      | append_singleton front y =>
        rw [List.getLast?_concat] at hrest
        rw [← List.cons_append, List.getLast?_concat]
        exact hrest

/-- Where a piece of a marker begins. -/
theorem Laid.exists_piece {c : Char} {rest : List Char}
    (h : Laid marker none (front ++ .laid c rest :: cells)) :
    ∃ before piece lost, front = before ++ piece ∧
      marker = lost ++ (piece.map Cell.char ++ c :: rest) ∧
      (lost = [] ∧ (before.map Cell.char).getLast?.any isWord = false ∨
        Lost lost ∧ ∃ init d, before = init ++ [.laid d []]) := by
  -- from the right to the left, since what a cell follows is the cell in front of it
  induction front using List.reverseRecOn generalizing c rest cells with
  | nil =>
    cases h with
    | cons hfollows _ =>
      cases hfollows with
      | first hmarker => exact ⟨[], [], [], rfl, hmarker, Or.inl ⟨rfl, rfl⟩⟩
  | append_singleton front cell ih =>
    have hlast := h.drop
    rw [List.getLast?_concat] at hlast
    cases hlast with
    | cons hfollows _ =>
      cases hfollows with
      | @next d =>
        rw [List.append_assoc] at h
        obtain ⟨before, piece, lost, rfl, hmarker, horigin⟩ := ih h
        exact ⟨before, piece ++ [.laid d (c :: rest)], lost, by simp, by simp [hmarker, Cell.char],
          horigin⟩
      | first hmarker hbound =>
        refine ⟨front ++ [cell], [], [], by simp, hmarker, Or.inl ⟨rfl, ?_⟩⟩
        rw [List.map_append, List.map_singleton, List.getLast?_concat]
        exact hbound
      | @behind d _ lost _ hmarker hlost =>
        exact ⟨front ++ [.laid d []], [], lost, by simp, hmarker, Or.inr ⟨hlost, front, d, rfl⟩⟩

/-- What a marker goes on with: all the rest of it, or a part behind which the next one begins. -/
theorem Laid.exists_rest {c : Char} {rest : List Char}
    (h : Laid marker (some (.laid c rest)) cells) :
    ∃ run back cut, cells = run ++ back ∧ rest = run.map Cell.char ++ cut ∧
      (∀ d, .kept d ∉ run) ∧
      (cut = [] ∨ Plain cut ∧ (lastChar (some c) (run.map Cell.char)).any isWord = false ∧
        ∃ d rest' back', marker = d :: rest' ∧ back = .laid d rest' :: back') := by
  induction cells generalizing c rest with
  | nil =>
    cases h with
    | nil hend => exact ⟨[], [], [], rfl, hend c rest rfl, by simp, Or.inl rfl⟩
  | cons cell cells ih =>
    cases h with
    | cons hfollows hcells =>
      cases hfollows with
      | kept hend => exact ⟨[], _, [], rfl, hend c rest rfl, by simp, Or.inl rfl⟩
      | @next _ d rest =>
        obtain ⟨run, back, cut, rfl, rfl, hrun, hend⟩ := ih hcells
        refine ⟨.laid d _ :: run, back, cut, rfl, rfl, by simpa using hrun, ?_⟩
        rw [List.map_cons, lastChar_cons]
        exact hend
      | first hmarker hbound hcut =>
        exact ⟨[], _, rest, rfl, rfl, by simp,
          Or.inr ⟨hcut c rest rfl, hbound, _, _, _, hmarker, rfl⟩⟩
      | behind => exact ⟨[], _, [], rfl, rfl, by simp, Or.inl rfl⟩

/-! ## Laying a marker -/

/-- Behind a closing brace a script goes on as behind a marker. -/
theorem Laid.of_brace {c : Cell} (h : Laid marker (some c) cells) (hchar : c.char = '}')
    (hmarker : ∀ d rest, c = .laid d rest → ∃ lost, marker = lost ++ d :: rest) (d : Char) :
    Laid marker (some (.laid d [])) cells := by
  have hend : ∀ e rest, some (Cell.laid d []) = some (.laid e rest) → rest = [] := by
    rintro e rest ⟨⟩
    rfl
  cases h with
  | nil => exact .nil hend
  | cons hfollows hcells =>
    refine .cons ?_ hcells
    cases hfollows with
    | kept => exact .kept hend
    | @next e d rest =>
      obtain rfl : e = '}' := hchar
      obtain ⟨lost, hsplit⟩ := hmarker _ _ rfl
      rw [List.append_cons] at hsplit
      exact .behind hsplit (Or.inr ⟨lost, rfl⟩)
    | first hfirst =>
      rw [← List.nil_append (_ :: _)] at hfirst
      exact .behind hfirst (Or.inl rfl)
    | behind hsplit hlost => exact .behind hsplit hlost

theorem laid_lay {c : Char} {rest : List Char}
    (h : ∀ d, Laid marker (some (.laid d [])) cells) :
    Laid marker (some (.laid c rest)) (lay rest ++ cells) := by
  induction rest generalizing c with
  | nil => exact h c
  | cons d rest ih => exact .cons .next ih

/-- A marker in front of cells that can stand behind its end. -/
theorem Laid.lay_append (hne : marker ≠ [])
    (hfirst : ∀ c rest, marker = c :: rest → Follows marker previous (.laid c rest))
    (h : ∀ d, Laid marker (some (.laid d [])) cells) :
    Laid marker previous (lay marker ++ cells) := by
  obtain ⟨c, rest, hmarker⟩ := List.exists_cons_of_ne_nil hne
  have hlay : lay marker = .laid c rest :: lay rest := by rw [hmarker, lay]
  rw [hlay]
  exact .cons (hfirst c rest hmarker) (laid_lay h)

/-- What a laid cell goes on with is an ending of the marker. -/
theorem Laid.exists_lost {c : Char} {rest : List Char}
    (h : Laid marker none (front ++ .laid c rest :: cells)) :
    ∃ lost, marker = lost ++ c :: rest := by
  obtain ⟨-, piece, lost, -, hmarker, -⟩ := h.exists_piece
  exact ⟨lost ++ piece.map Cell.char, by rw [hmarker, List.append_assoc]⟩

end WorkflowRepair.Repair
