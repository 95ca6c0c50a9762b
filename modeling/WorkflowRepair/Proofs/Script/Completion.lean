import WorkflowRepair.Proofs.Script.Loop

/-!
# Completing a marker

A statement is taken apart at its check: what opens it, the check, the entry to its body, and the
body. `Completable` says of a marker that texts around it can make it part of the check of a
statement, which is what the check of the settings cannot see.
-/

namespace WorkflowRepair.Repair

open Text

/-- What stands in a statement in front of its check. -/
def IsOpening (text : List Char) : Prop :=
  ∃ gap gap', Blanks gap ∧ Blanks gap' ∧ text = 'i' :: 'f' :: (gap ++ '(' :: gap')

/-- What stands in a statement between its check and its body. -/
def IsEntry (text : List Char) : Prop :=
  ∃ gap gap', Blanks gap ∧ Blanks gap' ∧ text = gap ++ ')' :: (gap' ++ ['{'])

theorem isStatement_iff {name text : List Char} :
    IsStatement name text ↔
      ∃ opening check entry body, IsOpening opening ∧ IsCheck name check ∧ IsEntry entry ∧
        NoBrace body ∧ text = opening ++ (check ++ (entry ++ (body ++ ['}']))) := by
  constructor
  · rintro ⟨gap₁, gap₂, check, gap₃, gap₄, body, h₁, h₂, hcheck, h₃, h₄, hbody, rfl⟩
    exact ⟨_, check, _, body, ⟨gap₁, gap₂, h₁, h₂, rfl⟩, hcheck, ⟨gap₃, gap₄, h₃, h₄, rfl⟩, hbody,
      by simp⟩
  · rintro ⟨_, check, _, body, ⟨gap₁, gap₂, h₁, h₂, rfl⟩, hcheck, ⟨gap₃, gap₄, h₃, h₄, rfl⟩, hbody,
      rfl⟩
    exact ⟨gap₁, gap₂, check, gap₃, gap₄, body, h₁, h₂, hcheck, h₃, h₄, hbody, by simp⟩

/-- A statement stands in a script behind `pre`, in its four parts. -/
structure Guarded (name code pre opening check entry body post : List Char) : Prop where
  eq_append : code = pre ++ (opening ++ (check ++ (entry ++ (body ++ '}' :: post))))
  isOpening : IsOpening opening
  isCheck : IsCheck name check
  isEntry : IsEntry entry
  noBrace : NoBrace body
  boundary : pre.getLast?.any isWord = false

/-- Between `front` and `back` the marker becomes part of the check of a statement. -/
structure Completes (name marker front back pre opening check entry body post : List Char) : Prop
    extends Guarded name (front ++ (marker ++ back)) pre opening check entry body post where
  front_boundary : front.getLast?.any isWord = false
  begins : pre.length + opening.length < front.length + marker.length
  ends : front.length < pre.length + (opening.length + check.length)

/-- Texts around the marker make it part of the check of a statement. -/
def Completable (name marker : List Char) : Prop :=
  ∃ front back pre opening check entry body post,
    Completes name marker front back pre opening check entry body post

theorem any_isWord_getLast?_of_append {xs ys : List Char}
    (h : (xs ++ ys).getLast?.any isWord = false) : ys.getLast?.any isWord = false := by
  by_cases hys : ys = []
  · rw [hys]
    rfl
  · rwa [List.getLast?_append_of_ne_nil xs hys] at h

theorem any_isWord_getLast?_append {xs ys : List Char} (hxs : xs.getLast?.any isWord = false)
    (hys : ys.getLast?.any isWord = false) : (xs ++ ys).getLast?.any isWord = false := by
  by_cases hne : ys = []
  · rwa [hne, List.append_nil]
  · rwa [List.getLast?_append_of_ne_nil xs hne]

/-! ## The characters of the parts -/

/-- The characters around an empty string. -/
def isQuote (c : Char) : Bool := c == '\'' || c == '"'

theorem IsOpening.mem {text : List Char} (h : IsOpening text) {c : Char} (hc : c ∈ text) :
    c = 'i' ∨ c = 'f' ∨ c = '(' ∨ isBlank c = true := by
  obtain ⟨gap, gap', hgap, hgap', rfl⟩ := h
  simp only [List.mem_cons, List.mem_append] at hc
  rcases hc with hc | hc | hc | hc | hc
  · exact Or.inl hc
  · exact Or.inr (Or.inl hc)
  · exact Or.inr (Or.inr (Or.inr (hgap c hc)))
  · exact Or.inr (Or.inr (Or.inl hc))
  · exact Or.inr (Or.inr (Or.inr (hgap' c hc)))

theorem IsEntry.mem {text : List Char} (h : IsEntry text) {c : Char} (hc : c ∈ text) :
    isBlank c = true ∨ c = ')' ∨ c = '{' := by
  obtain ⟨gap, gap', hgap, hgap', rfl⟩ := h
  simp only [List.mem_cons, List.mem_append, List.not_mem_nil, or_false] at hc
  rcases hc with hc | hc | hc | hc
  · exact Or.inl (hgap c hc)
  · exact Or.inr (Or.inl hc)
  · exact Or.inl (hgap' c hc)
  · exact Or.inr (Or.inr hc)

theorem IsOpening.ne_nil {text : List Char} (h : IsOpening text) : text ≠ [] := by
  obtain ⟨gap, gap', -, -, rfl⟩ := h
  simp

theorem IsOpening.noBrace {text : List Char} (h : IsOpening text) : NoBrace text := by
  intro c hc
  rcases h.mem hc with rfl | rfl | rfl | hblank
  · decide
  · decide
  · decide
  · have hgap : Blanks [c] := by simpa [Blanks] using hblank
    exact hgap.noBrace c (by simp)

/-- In front of a check in a statement stands no word character. -/
theorem IsOpening.exists_concat {text : List Char} (h : IsOpening text) :
    ∃ init c, text = init ++ [c] ∧ (c = '(' ∨ isBlank c = true) := by
  obtain ⟨gap, gap', -, hgap', rfl⟩ := h
  cases gap' using List.reverseRecOn with
  | nil => exact ⟨'i' :: 'f' :: gap, '(', by simp, Or.inl rfl⟩
  | append_singleton gap' c =>
    exact ⟨'i' :: 'f' :: (gap ++ '(' :: gap'), c, by simp, Or.inr (hgap' c (by simp))⟩

/-- Behind its keyword an opening has no character of a name. -/
theorem IsOpening.isNameChar_eq_false {text : List Char} (h : IsOpening ('i' :: 'f' :: text)) :
    ∀ c ∈ text, isNameChar c = false := by
  obtain ⟨gap, gap', hgap, hgap', heq⟩ := h
  simp only [List.cons.injEq, true_and] at heq
  rintro c hc
  rw [heq] at hc
  rcases List.mem_append.1 hc with hc | hc
  · exact isNameChar_of_mem_gap hgap hc
  rcases List.mem_cons.1 hc with rfl | hc
  · decide
  · exact isNameChar_of_mem_gap hgap' hc

theorem IsEntry.exists_concat {text : List Char} (h : IsEntry text) :
    ∃ init, text = init ++ ['{'] := by
  obtain ⟨gap, gap', -, -, rfl⟩ := h
  exact ⟨gap ++ ')' :: gap', by simp⟩

theorem isQuote_of_isBlank {c : Char} (h : isBlank c = true) : isQuote c = false := by
  cases hquote : isQuote c with
  | false => rfl
  | true =>
    simp only [isQuote, Bool.or_eq_true, beq_iff_eq] at hquote
    rcases hquote with rfl | rfl <;> exact absurd h (by decide)

theorem isQuote_of_isNameChar {c : Char} (h : isNameChar c = true) : isQuote c = false := by
  cases hquote : isQuote c with
  | false => rfl
  | true =>
    simp only [isQuote, Bool.or_eq_true, beq_iff_eq] at hquote
    rcases hquote with rfl | rfl <;> exact absurd h (by decide)

theorem IsOpening.not_isQuote {text : List Char} (h : IsOpening text) :
    ∀ c ∈ text, isQuote c = false := by
  intro c hc
  rcases h.mem hc with rfl | rfl | rfl | hblank
  · rfl
  · rfl
  · rfl
  · exact isQuote_of_isBlank hblank

theorem IsEntry.not_isQuote {text : List Char} (h : IsEntry text) :
    ∀ c ∈ text, isQuote c = false := by
  intro c hc
  rcases h.mem hc with hblank | rfl | rfl
  · exact isQuote_of_isBlank hblank
  · rfl
  · rfl

theorem countP_isQuote_eq_zero {text : List Char} (h : ∀ c ∈ text, isQuote c = false) :
    text.countP isQuote = 0 := by
  rw [List.countP_eq_zero]
  intro c hc
  simp [h c hc]

/-- A check has two quotes, and the last one ends it. -/
theorem IsCheck.exists_quote {name check : List Char}
    (hname : Settings.isIdentifier name = true) (h : IsCheck name check) :
    (∃ init q, check = init ++ [q] ∧ isQuote q = true) ∧ check.countP isQuote = 2 := by
  obtain ⟨gap, op, gap', lit, hgap, hop, hgap', hlit, rfl⟩ := h
  have hnameZero : name.countP isQuote = 0 := countP_isQuote_eq_zero fun c hc =>
    isQuote_of_isNameChar (isNameChar_of_isIdentifier hname c hc)
  have hgapZero : gap.countP isQuote = 0 :=
    countP_isQuote_eq_zero fun c hc => isQuote_of_isBlank (hgap c hc)
  have hgapZero' : gap'.countP isQuote = 0 :=
    countP_isQuote_eq_zero fun c hc => isQuote_of_isBlank (hgap' c hc)
  have hopZero : op.countP isQuote = 0 := by
    simp only [comparisons, List.mem_cons, List.not_mem_nil, or_false] at hop
    rcases hop with rfl | rfl | rfl | rfl <;> rfl
  simp only [emptyStrings, List.mem_cons, List.not_mem_nil, or_false] at hlit
  constructor
  · rcases hlit with rfl | rfl
    · exact ⟨name ++ (gap ++ (op ++ (gap' ++ ['\'']))), '\'', by simp, rfl⟩
    · exact ⟨name ++ (gap ++ (op ++ (gap' ++ ['"']))), '"', by simp, rfl⟩
  · have hlitTwo : lit.countP isQuote = 2 := by
      rcases hlit with rfl | rfl <;> rfl
    simp only [List.countP_append, hnameZero, hgapZero, hopZero, hgapZero', hlitTwo]

theorem IsCheck.isNameChar_head {name rest : List Char} {c : Char}
    (hname : Settings.isIdentifier name = true) (h : IsCheck name (c :: rest)) :
    isNameChar c = true := by
  obtain ⟨n, name', rfl, -⟩ := exists_cons_of_isIdentifier hname
  obtain ⟨tail, heq, -⟩ := h.exists_tail
  rw [List.cons_append, List.cons.injEq] at heq
  rw [heq.1]
  exact isNameChar_of_isIdentifier hname n (by simp)

/-- What a text that ends with a check has behind a place ends with a quote. -/
theorem IsCheck.exists_quote_behind {name check pre front back : List Char}
    (hname : Settings.isIdentifier name = true) (h : IsCheck name check)
    (hsplit : pre ++ check = front ++ back) (hback : back ≠ []) :
    ∃ init q, back = init ++ [q] ∧ isQuote q = true := by
  obtain ⟨⟨init, q, rfl, hq⟩, -⟩ := h.exists_quote hname
  rw [← List.append_assoc] at hsplit
  obtain ⟨init, rfl⟩ := exists_concat_of_append hsplit.symm hback
  exact ⟨init, q, rfl, hq⟩

/-- What a body and its brace begin with is a part of the body, or goes on behind the brace. -/
theorem NoBrace.part_or_closed {body post part rest : List Char} (hbody : NoBrace body)
    (h : body ++ '}' :: post = part ++ rest) :
    NoBrace part ∨ ∃ more, part = body ++ '}' :: more := by
  rcases append_split h with ⟨more, rfl, hclose⟩ | ⟨inside, -, rfl, -⟩
  · cases more with
    | nil => exact Or.inl (by rwa [List.append_nil])
    | cons d more =>
      rw [List.cons_append, List.cons.injEq] at hclose
      obtain ⟨rfl, -⟩ := hclose
      exact Or.inr ⟨more, rfl⟩
  · exact Or.inl fun c hc => hbody c (List.mem_append_left inside hc)

end WorkflowRepair.Repair
