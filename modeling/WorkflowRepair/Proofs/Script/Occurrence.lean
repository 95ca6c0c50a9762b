import WorkflowRepair.Proofs.Script.Shape

/-!
# Occurrences

Where a shape stands in a script, and why two occurrences never overlap:

* `IsCheck.not_begins_inside`: no check begins inside a check;
* `IsStatement.not_begins_inside`: no removable statement begins inside a removable statement.

Both rest on `append_cons_inj`, which compares two splits of a text at a character of a kind.
-/

namespace WorkflowRepair.Repair

open Text

/-- The character in front of what follows `pre`, where `before` stands in front of `pre`. -/
def lastChar (before : Option Char) (pre : List Char) : Option Char := pre.getLast?.or before

@[simp]
theorem lastChar_nil (before : Option Char) : lastChar before [] = before := rfl

@[simp]
theorem lastChar_none (pre : List Char) : lastChar none pre = pre.getLast? := by
  simp [lastChar]

@[simp]
theorem lastChar_concat (before : Option Char) (pre : List Char) (c : Char) :
    lastChar before (pre ++ [c]) = some c := by
  simp [lastChar]

theorem lastChar_append (before : Option Char) (xs ys : List Char) :
    lastChar before (xs ++ ys) = lastChar (lastChar before xs) ys := by
  simp [lastChar, List.getLast?_append, Option.or_assoc]

theorem lastChar_cons (before : Option Char) (c : Char) (pre : List Char) :
    lastChar before (c :: pre) = lastChar (some c) pre := by
  rw [← List.singleton_append, lastChar_append]
  rfl

/-- Behind a text that is not empty it does not matter what stood in front of it. -/
theorem lastChar_of_ne_nil {pre : List Char} (h : pre ≠ []) (before before' : Option Char) :
    lastChar before pre = lastChar before' pre := by
  obtain ⟨c, pre, rfl⟩ := List.exists_cons_of_ne_nil h
  rw [lastChar_cons, lastChar_cons]

/-- A shape stands at the head of a text, at a word boundary. -/
def Begins (shape : List Char → Prop) (before : Option Char) (cs : List Char) : Prop :=
  isBoundary before cs.head? = true ∧ ∃ text, shape text ∧ text <+: cs

/-- A shape stands in a script between `pre` and `post`, at a word boundary. -/
structure Occurs (shape : List Char → Prop) (before : Option Char)
    (code pre text post : List Char) : Prop where
  eq_append : code = pre ++ (text ++ post)
  shape : shape text
  boundary : isBoundary (lastChar before pre) (text ++ post).head? = true

theorem Occurs.begins {shape : List Char → Prop} {before : Option Char}
    {code pre text post : List Char} (h : Occurs shape before code pre text post) :
    Begins shape (lastChar before pre) (text ++ post) :=
  ⟨h.boundary, text, h.shape, post, rfl⟩

theorem Occurs.cons {shape : List Char → Prop} {before : Option Char} {c : Char}
    {code pre text post : List Char} (h : Occurs shape (some c) code pre text post) :
    Occurs shape before (c :: code) (c :: pre) text post where
  eq_append := by rw [h.eq_append]; rfl
  shape := h.shape
  boundary := by rw [lastChar_cons]; exact h.boundary

theorem Occurs.of_cons {shape : List Char → Prop} {before : Option Char} {c d : Char}
    {code pre text post : List Char} (h : Occurs shape before (c :: code) (d :: pre) text post) :
    c = d ∧ Occurs shape (some c) code pre text post := by
  have heq := h.eq_append
  have hbound := h.boundary
  rw [List.cons_append, List.cons.injEq] at heq
  rw [lastChar_cons, ← heq.1] at hbound
  exact ⟨heq.1, heq.2, h.shape, hbound⟩

/-- What occurs behind a part of a script occurs in the script. -/
theorem Occurs.append_left {shape : List Char → Prop} {before : Option Char}
    {front code pre text post : List Char}
    (h : Occurs shape (lastChar before front) code pre text post) :
    Occurs shape before (front ++ code) (front ++ pre) text post where
  eq_append := by rw [h.eq_append, List.append_assoc]
  shape := h.shape
  boundary := by rw [lastChar_append]; exact h.boundary

/-- An occurrence that begins behind a part of a script occurs in what follows that part. -/
theorem Occurs.of_append_left {shape : List Char → Prop} {before : Option Char}
    {front code pre text post : List Char}
    (h : Occurs shape before (front ++ code) (front ++ pre) text post) :
    Occurs shape (lastChar before front) code pre text post where
  eq_append := by
    have := h.eq_append
    rw [List.append_assoc] at this
    exact List.append_cancel_left this
  shape := h.shape
  boundary := by rw [← lastChar_append]; exact h.boundary

theorem Begins.append_right {shape : List Char → Prop} {before : Option Char} {cs : List Char}
    (hcs : cs ≠ []) (h : Begins shape before cs) (tail : List Char) :
    Begins shape before (cs ++ tail) := by
  obtain ⟨hbound, text, htext, hle⟩ := h
  refine ⟨?_, text, htext, hle.trans (List.prefix_append cs tail)⟩
  obtain ⟨c, cs, rfl⟩ := List.exists_cons_of_ne_nil hcs
  exact hbound

/-- The shape begins at no character of `front`, where `back` follows. -/
def NoneBegins (shape : List Char → Prop) (before : Option Char) (front back : List Char) : Prop :=
  ∀ xs ys, front = xs ++ ys → ys ≠ [] → ¬ Begins shape (lastChar before xs) (ys ++ back)

section

variable {shape : List Char → Prop} {before : Option Char} {front back : List Char}

theorem noneBegins_nil : NoneBegins shape before [] back := by
  intro xs ys hsplit hys
  exact absurd (List.append_eq_nil_iff.1 hsplit.symm).2 hys

theorem noneBegins_cons_iff {c : Char} :
    NoneBegins shape before (c :: front) back ↔
      ¬ Begins shape before (c :: (front ++ back)) ∧ NoneBegins shape (some c) front back := by
  constructor
  · intro h
    refine ⟨h [] (c :: front) rfl (by simp), fun xs ys hsplit hys => ?_⟩
    have := h (c :: xs) ys (by rw [hsplit]; rfl) hys
    rwa [lastChar_cons] at this
  · rintro ⟨hhead, hrest⟩ xs ys hsplit hys
    cases xs with
    | nil =>
      rw [List.nil_append] at hsplit
      rw [← hsplit]
      exact hhead
    | cons d xs =>
      simp only [List.cons_append, List.cons.injEq] at hsplit
      obtain ⟨rfl, hsplit⟩ := hsplit
      rw [lastChar_cons]
      exact hrest xs ys hsplit hys

theorem noneBegins_append_iff {front' : List Char} :
    NoneBegins shape before (front ++ front') back ↔
      NoneBegins shape before front (front' ++ back) ∧
        NoneBegins shape (lastChar before front) front' back := by
  induction front generalizing before with
  | nil => simp [noneBegins_nil]
  | cons c front ih =>
    rw [List.cons_append, noneBegins_cons_iff, noneBegins_cons_iff, ih, lastChar_cons,
      List.append_assoc, and_assoc]

end

/-- Nothing begins with a character that begins no text of the shape. -/
theorem noneBegins_of_head {shape : List Char → Prop} {before : Option Char} {xs rest : List Char}
    (h : ∀ text, shape text → ∃ c text', text = c :: text' ∧ c ∉ xs) :
    NoneBegins shape before xs rest := by
  rintro as ys rfl hys ⟨-, text, htext, post, heq⟩
  obtain ⟨c, text, rfl, hc⟩ := h text htext
  obtain ⟨y, ys, rfl⟩ := List.exists_cons_of_ne_nil hys
  rw [List.cons_append, List.cons_append, List.cons.injEq] at heq
  exact hc (by simp [heq.1])

/-! ## Comparing two splits of a text -/

/-- Of two splits of a text, the second is behind the first, or strictly in front of it. -/
theorem append_split {α : Type} {xs ys s t : List α} (h : xs ++ s = ys ++ t) :
    (∃ as, ys = xs ++ as ∧ s = as ++ t) ∨ ∃ bs, bs ≠ [] ∧ xs = ys ++ bs ∧ t = bs ++ s := by
  rcases List.append_eq_append_iff.1 h with hbehind | ⟨bs, hxs, ht⟩
  · exact Or.inl hbehind
  · by_cases hbs : bs = []
    · left
      refine ⟨[], ?_, ?_⟩
      · rw [hxs, hbs, List.append_nil, List.append_nil]
      · rw [ht, hbs, List.nil_append, List.nil_append]
    · exact Or.inr ⟨bs, hbs, hxs, ht⟩

/-- The last one of a list is the last one of its ending. -/
theorem exists_concat_of_append {α : Type} {xs ys zs : List α} {c : α} (h : xs ++ ys = zs ++ [c])
    (hne : ys ≠ []) : ∃ init, ys = init ++ [c] := by
  rcases List.eq_nil_or_concat ys with rfl | ⟨init, d, rfl⟩
  · exact absurd rfl hne
  · rw [List.concat_eq_append, ← List.append_assoc] at h
    obtain ⟨-, hd⟩ := List.append_inj' h rfl
    exact ⟨init, by rw [List.concat_eq_append, hd]⟩

/-- A text has one first character of a kind. -/
theorem append_cons_inj {p : Char → Prop} {xs ys s t : List Char} {c d : Char}
    (hxs : ∀ x ∈ xs, ¬ p x) (hys : ∀ y ∈ ys, ¬ p y) (hc : p c) (hd : p d)
    (h : xs ++ c :: s = ys ++ d :: t) : xs = ys ∧ c = d ∧ s = t := by
  induction xs generalizing ys with
  | nil =>
    cases ys with
    | nil => simpa using h
    | cons y ys =>
      simp only [List.nil_append, List.cons_append, List.cons.injEq] at h
      exact absurd (h.1 ▸ hc) (hys y (by simp))
  | cons x xs ih =>
    cases ys with
    | nil =>
      simp only [List.nil_append, List.cons_append, List.cons.injEq] at h
      exact absurd (h.1 ▸ hd) (hxs x (by simp))
    | cons y ys =>
      simp only [List.cons_append, List.cons.injEq] at h
      obtain ⟨hxy, h⟩ := h
      obtain ⟨rfl, hcd, hst⟩ := ih (fun z hz => hxs z (by simp [hz]))
        (fun z hz => hys z (by simp [hz])) h
      exact ⟨by rw [hxy], hcd, hst⟩

/-! ## Checks -/

theorem isNameChar_of_mem_gap {gap : List Char} (h : Blanks gap) {c : Char} (hc : c ∈ gap) :
    isNameChar c = false := by
  cases hn : isNameChar c with
  | false => rfl
  | true => simpa [isBlank_of_isNameChar hn] using h c hc

/-- A check is its name, and behind it a text that is not empty and has no name characters. -/
theorem IsCheck.exists_tail {name text : List Char} (h : IsCheck name text) :
    ∃ tail, text = name ++ tail ∧ tail ≠ [] ∧ (∀ c ∈ tail, isNameChar c = false) ∧
      ∀ c ∈ tail, isBlank c = true ∨ c ∈ ['!', '=', '\'', '"'] := by
  obtain ⟨gap, op, gap', lit, hgap, hop, hgap', hlit, rfl⟩ := h
  have hop' : ∀ c ∈ op, c = '!' ∨ c = '=' := by
    intro c hc
    simp only [comparisons, List.mem_cons, List.not_mem_nil, or_false] at hop
    rcases hop with rfl | rfl | rfl | rfl <;> simp at hc <;> simp [hc]
  have hlit' : ∀ c ∈ lit, c = '\'' ∨ c = '"' := by
    intro c hc
    simp only [emptyStrings, List.mem_cons, List.not_mem_nil, or_false] at hlit
    rcases hlit with rfl | rfl <;> simp at hc <;> simp [hc]
  refine ⟨_, rfl, ?_, ?_, ?_⟩
  · obtain ⟨o, op', rfl, -⟩ := head_of_comparisons hop
    simp
  · intro c hc
    simp only [List.mem_append] at hc
    rcases hc with hc | hc | hc | hc
    · exact isNameChar_of_mem_gap hgap hc
    · rcases hop' c hc with rfl | rfl <;> decide
    · exact isNameChar_of_mem_gap hgap' hc
    · rcases hlit' c hc with rfl | rfl <;> decide
  · intro c hc
    simp only [List.mem_append] at hc
    rcases hc with hc | hc | hc | hc
    · exact Or.inl (hgap c hc)
    · rcases hop' c hc with rfl | rfl <;> simp
    · exact Or.inl (hgap' c hc)
    · rcases hlit' c hc with rfl | rfl <;> simp

/-- No check begins inside a check: its name would have to begin behind the first character of the
other name and end behind that name, where no name character stands. -/
theorem IsCheck.not_begins_inside {name xs ys rest : List Char} {before : Option Char}
    (hname : Settings.isIdentifier name = true) (h : IsCheck name (xs ++ ys)) (hxs : xs ≠ [])
    (hys : ys ≠ []) : ¬ Begins (IsCheck name) before (ys ++ rest) := by
  rintro ⟨-, text, htext, post, heq⟩
  obtain ⟨tail, htail, hne, hnot, -⟩ := h.exists_tail
  obtain ⟨tail', rfl, -, -, -⟩ := htext.exists_tail
  have hnameChar := isNameChar_of_isIdentifier hname
  obtain ⟨n, name', hcons, -⟩ := exists_cons_of_isIdentifier hname
  rw [List.append_assoc] at heq
  rcases List.append_eq_append_iff.1 htail with ⟨as, hn, hy⟩ | ⟨cs, -, hc⟩
  · -- the other check begins inside the name
    rw [hy, List.append_assoc] at heq
    have hlen : as.length < name.length := by
      rw [hn, List.length_append]
      have := List.length_pos_iff.2 hxs
      omega
    rcases List.append_eq_append_iff.1 heq with ⟨ws, hw, -⟩ | ⟨ws, hw, hws⟩
    · rw [hw, List.length_append] at hlen
      omega
    · obtain ⟨t, tail, rfl⟩ := List.exists_cons_of_ne_nil hne
      cases ws with
      | nil =>
        rw [hw, List.append_nil] at hlen
        omega
      | cons w ws =>
        simp only [List.cons_append, List.cons.injEq] at hws
        have hw' : isNameChar w = true := hnameChar w (by rw [hw]; simp)
        rw [← hws.1, hnot t (by simp)] at hw'
        simp at hw'
  · -- the other check begins behind the name
    obtain ⟨y, ys, rfl⟩ := List.exists_cons_of_ne_nil hys
    rw [hcons] at heq
    simp only [List.cons_append, List.cons.injEq] at heq
    have hn : isNameChar n = true := hnameChar n (by rw [hcons]; simp)
    rw [heq.1, hnot y (by rw [hc]; simp)] at hn
    simp at hn

theorem IsCheck.ne_nil {name text : List Char} (h : IsCheck name text) : text ≠ [] := by
  obtain ⟨tail, rfl, hne, -, -⟩ := h.exists_tail
  simp [hne]

theorem IsCheck.noneBegins_tail {name text rest : List Char} {before : Option Char} {c : Char}
    (hname : Settings.isIdentifier name = true) (h : IsCheck name (c :: text)) :
    NoneBegins (IsCheck name) before text rest := by
  rintro xs ys rfl hys
  have hsplit : IsCheck name ((c :: xs) ++ ys) := h
  exact hsplit.not_begins_inside hname (by simp) hys

/-- A character that is no blank, no name character and no sign of a check stands in no check. -/
theorem IsCheck.not_mem {name text : List Char} (hname : Settings.isIdentifier name = true)
    (h : IsCheck name text) {c : Char} (hn : isNameChar c = false) (hb : isBlank c = false)
    (hc : c ∉ ['!', '=', '\'', '"']) : c ∉ text := by
  obtain ⟨tail, rfl, -, -, htail⟩ := h.exists_tail
  intro hmem
  rcases List.mem_append.1 hmem with hmem | hmem
  · simp [isNameChar_of_isIdentifier hname c hmem] at hn
  · rcases htail c hmem with h | h
    · simp [h] at hb
    · exact hc h

/-! ## Statements -/

/-- The characters that open and close a body. -/
def IsBrace (c : Char) : Prop := c = '{' ∨ c = '}'

theorem NoBrace.not_isBrace {cs : List Char} (h : NoBrace cs) : ∀ c ∈ cs, ¬ IsBrace c := by
  rintro c hc (rfl | rfl)
  · exact (h _ hc).1 rfl
  · exact (h _ hc).2 rfl

theorem NoBrace.append {xs ys : List Char} (hxs : NoBrace xs) (hys : NoBrace ys) :
    NoBrace (xs ++ ys) := by
  intro c hc
  rcases List.mem_append.1 hc with hc | hc
  · exact hxs c hc
  · exact hys c hc

theorem Blanks.noBrace {gap : List Char} (h : Blanks gap) : NoBrace gap := by
  intro c hc
  have := h c hc
  constructor
  · rintro rfl
    exact absurd this (by decide)
  · rintro rfl
    exact absurd this (by decide)

theorem IsCheck.noBrace {name text : List Char} (hname : Settings.isIdentifier name = true)
    (h : IsCheck name text) : NoBrace text := by
  intro c hc
  constructor
  · rintro rfl
    exact h.not_mem hname (by decide) (by decide) (by decide) hc
  · rintro rfl
    exact h.not_mem hname (by decide) (by decide) (by decide) hc

/-- A statement is a head and a body, both without other braces than those around the body; and its
head has one opening parenthesis, with nothing but blanks between it and the `if`. -/
theorem IsStatement.exists_head {name text : List Char}
    (hname : Settings.isIdentifier name = true) (h : IsStatement name text) :
    ∃ gap inner body, text = 'i' :: 'f' :: (gap ++ '(' :: inner) ++ '{' :: (body ++ ['}']) ∧
      Blanks gap ∧ '(' ∉ inner ∧ NoBrace ('i' :: 'f' :: (gap ++ '(' :: inner)) ∧
      NoBrace body := by
  obtain ⟨gap₁, gap₂, check, gap₃, gap₄, body, hgap₁, hgap₂, hcheck, hgap₃, hgap₄, hbody,
    rfl⟩ := h
  -- the only parenthesis that opens is the one in front of the check
  have hparen : ∀ {gap : List Char}, Blanks gap → '(' ∉ gap := by
    intro gap hgap hmem
    exact absurd (hgap _ hmem) (by decide)
  have hcheckParen : '(' ∉ check :=
    hcheck.not_mem hname (by decide) (by decide) (by decide)
  refine ⟨gap₁, gap₂ ++ (check ++ (gap₃ ++ ')' :: gap₄)), body, by simp, hgap₁, ?_, ?_, hbody⟩
  · simp [hparen hgap₂, hparen hgap₃, hparen hgap₄, hcheckParen]
  · intro c hc
    simp only [List.mem_cons, List.mem_append] at hc
    rcases hc with rfl | rfl | hc | rfl | hc | hc | hc | rfl | hc
    · decide
    · decide
    · exact hgap₁.noBrace c hc
    · decide
    · exact hgap₂.noBrace c hc
    · exact hcheck.noBrace hname c hc
    · exact hgap₃.noBrace c hc
    · decide
    · exact hgap₄.noBrace c hc

theorem IsStatement.exists_cons {name text : List Char} (h : IsStatement name text) :
    ∃ rest, text = 'i' :: rest := by
  obtain ⟨gap₁, gap₂, check, gap₃, gap₄, body, -, -, -, -, -, -, rfl⟩ := h
  exact ⟨_, rfl⟩

theorem IsStatement.exists_concat {name text : List Char} (h : IsStatement name text) :
    ∃ init, text = init ++ ['}'] := by
  obtain ⟨gap₁, gap₂, check, gap₃, gap₄, body, -, -, -, -, -, -, rfl⟩ := h
  exact ⟨['i', 'f'] ++ (gap₁ ++ ('(' :: (gap₂ ++ (check ++ (gap₃ ++ (')' :: (gap₄ ++
    ('{' :: body)))))))), by simp⟩

theorem IsStatement.length_pos {name text : List Char} (h : IsStatement name text) :
    0 < text.length := by
  obtain ⟨rest, rfl⟩ := h.exists_cons
  simp

theorem IsStatement.head?_append {name text : List Char} (htext : IsStatement name text)
    (rest : List Char) : (text ++ rest).head? = text.head? := by
  obtain ⟨tail, rfl⟩ := htext.exists_cons
  rfl

theorem IsStatement.append_ne_nil {name text : List Char} (htext : IsStatement name text)
    (rest : List Char) : text ++ rest ≠ [] := by
  obtain ⟨tail, rfl⟩ := htext.exists_cons
  simp

/-- Behind a statement stands its closing brace. -/
theorem IsStatement.lastChar_eq {name text : List Char} (h : IsStatement name text)
    (before : Option Char) : lastChar before text = some '}' := by
  obtain ⟨init, rfl⟩ := h.exists_concat
  exact lastChar_concat before init '}'

theorem isWord_eq_false_of_isBlank {c : Char} (h : isBlank c = true) : isWord c = false := by
  have hcodes : ∀ n ∈ blankCodes, isWord (Char.ofNat n) = false := by decide +kernel
  rw [← Char.ofNat_toNat c]
  exact hcodes c.toNat (toNat_mem_blankCodes h)

theorem Blanks.any_isWord_lastChar {gap : List Char} (h : Blanks gap) {before : Option Char}
    (hbefore : before.any isWord = false) : (lastChar before gap).any isWord = false := by
  induction gap generalizing before with
  | nil => exact hbefore
  | cons c gap ih =>
    rw [lastChar_cons]
    exact ih (fun d hd => h d (by simp [hd])) (isWord_eq_false_of_isBlank (h c (by simp)))

/-- In every statement stands a check. -/
theorem IsStatement.exists_occurs_check {name text : List Char}
    (hname : Settings.isIdentifier name = true) (h : IsStatement name text)
    (before : Option Char) (rest : List Char) :
    ∃ pre check post, Occurs (IsCheck name) before (text ++ rest) pre check post ∧
      pre.length < text.length := by
  obtain ⟨gap₁, gap₂, check, gap₃, gap₄, body, -, hgap₂, hcheck, -, -, -, rfl⟩ := h
  have hlast : lastChar before (['i', 'f'] ++ (gap₁ ++ '(' :: gap₂)) =
      lastChar (some '(') gap₂ := by
    rw [lastChar_append, lastChar_append, lastChar_cons]
  have hopen : (some '(').any isWord = false := by decide
  have hbound := isBoundary_check hname hcheck (hgap₂.any_isWord_lastChar hopen)
  obtain ⟨c, tail, hcons⟩ := List.exists_cons_of_ne_nil hcheck.ne_nil
  refine ⟨['i', 'f'] ++ (gap₁ ++ '(' :: gap₂), check, gap₃ ++ ')' :: (gap₄ ++
    '{' :: (body ++ ['}'])) ++ rest, ⟨by simp, hcheck, ?_⟩, by simp; omega⟩
  rw [hlast]
  rw [hcons] at hbound ⊢
  exact hbound

/-- The head of one statement is no proper ending of the head of another. -/
theorem not_suffix_head {xs gap inner gap' inner' : List Char} (hgap : Blanks gap)
    (hinner : '(' ∉ inner) (hxs : xs ≠ [])
    (h : 'i' :: 'f' :: (gap ++ '(' :: inner) = xs ++ 'i' :: 'f' :: (gap' ++ '(' :: inner')) :
    False := by
  match xs with
  | [] => exact hxs rfl
  | [x] => simp at h
  | x :: y :: xs =>
    simp only [List.cons_append, List.cons.injEq] at h
    rcases List.append_eq_append_iff.1 h.2.2 with ⟨as, -, hc⟩ | ⟨cs, hg, hc⟩
    · -- the second head begins behind the opening parenthesis of the first
      cases as with
      | nil => simp at hc
      | cons a as =>
        simp only [List.cons_append, List.cons.injEq] at hc
        exact hinner (by rw [hc.2]; simp)
    · -- the second head begins among the blanks of the first
      cases cs with
      | nil => simp at hc
      | cons c cs =>
        simp only [List.cons_append, List.cons.injEq] at hc
        have := hgap c (by rw [hg]; simp)
        rw [← hc.1] at this
        exact absurd this (by decide)

/-- No removable statement begins inside a removable statement: the first brace behind its head
opens a body, so its head would have to be an ending of the head of the other one. -/
theorem IsStatement.not_begins_inside {name xs ys rest : List Char} {before : Option Char}
    (hname : Settings.isIdentifier name = true) (h : IsStatement name (xs ++ ys)) (hxs : xs ≠ [])
    (hys : ys ≠ []) : ¬ Begins (IsStatement name) before (ys ++ rest) := by
  rintro ⟨-, text, htext, post, heq⟩
  obtain ⟨gap, inner, body, hsplit, hgap, hinner, hhead, hbody⟩ := h.exists_head hname
  obtain ⟨gap', inner', body', rfl, -, -, hhead', -⟩ := htext.exists_head hname
  rw [List.append_assoc, List.cons_append] at heq
  rcases List.append_eq_append_iff.1 hsplit with ⟨as, hh, hy⟩ | ⟨cs, -, hc⟩
  · -- it begins inside the head
    rw [hy, List.append_assoc, List.cons_append] at heq
    have has : NoBrace as := fun c hc => hhead c (by rw [hh]; simp [hc])
    obtain ⟨rfl, -, -⟩ := append_cons_inj hhead'.not_isBrace has.not_isBrace (Or.inl rfl)
      (Or.inl rfl) heq
    exact not_suffix_head hgap hinner hxs hh
  · cases cs with
    | nil =>
      -- it begins at the opening brace
      simp only [List.nil_append] at hc
      rw [← hc] at heq
      simp at heq
    | cons c cs =>
      -- it begins inside the body
      simp only [List.cons_append, List.cons.injEq] at hc
      rcases List.append_eq_append_iff.1 hc.2 with ⟨as, -, hy⟩ | ⟨ds, hb, hy⟩
      · cases as with
        | nil =>
          simp only [List.nil_append] at hy
          rw [← hy] at heq
          simp at heq
        | cons a as =>
          simp only [List.cons_append, List.cons.injEq] at hy
          exact hys (List.append_eq_nil_iff.1 hy.2.symm).2
      · rw [hy, List.append_assoc, List.cons_append] at heq
        have hds : NoBrace ds := fun d hd => hbody d (by rw [hb]; simp [hd])
        have := append_cons_inj hhead'.not_isBrace hds.not_isBrace (Or.inl rfl) (Or.inr rfl) heq
        exact absurd this.2.1 (by decide)

/-! ## One statement at a place -/

/-- At one place stands at most one statement. -/
theorem IsStatement.append_inj {name text text' rest rest' : List Char}
    (hname : Settings.isIdentifier name = true) (htext : IsStatement name text)
    (htext' : IsStatement name text') (h : text ++ rest = text' ++ rest') : text = text' := by
  have hhead : isBoundary none (text ++ rest).head? = true := by
    obtain ⟨tail, rfl⟩ := htext.exists_cons
    rfl
  have hrest := (statement?_eq_some_iff hname).2 ⟨hhead, text, htext, rfl⟩
  have hrest' := (statement?_eq_some_iff hname).2 ⟨hhead, text', htext', h⟩
  rw [hrest, Option.some.injEq] at hrest'
  rw [hrest'] at h
  exact List.append_cancel_right h

theorem IsStatement.occurs_head {name text : List Char} {before : Option Char}
    (htext : IsStatement name text) (hbound : isBoundary before text.head? = true)
    (rest : List Char) : Occurs (IsStatement name) before (text ++ rest) [] text rest where
  eq_append := rfl
  shape := htext
  boundary := by rw [htext.head?_append]; exact hbound

/-- Where a script begins with a statement, every other statement begins behind it. -/
theorem Occurs.eq_or_behind_statement {name text rest pre text' post : List Char}
    {before : Option Char} (hname : Settings.isIdentifier name = true)
    (htext : IsStatement name text)
    (h : Occurs (IsStatement name) before (text ++ rest) pre text' post) :
    (pre = [] ∧ text' = text) ∨
      ∃ as, pre = text ++ as ∧ Occurs (IsStatement name) (some '}') rest as text' post := by
  have heq := h.eq_append
  rcases append_split heq with ⟨as, rfl, -⟩ | ⟨ys, hys, hsplit, hbehind⟩
  · right
    have hrest := h.of_append_left
    rw [htext.lastChar_eq] at hrest
    exact ⟨as, rfl, hrest⟩
  · left
    by_cases hpre : pre = []
    · rw [hpre, List.nil_append] at heq
      exact ⟨hpre, (htext.append_inj hname h.shape heq).symm⟩
    · rw [hsplit] at htext
      have hbegins := h.begins
      rw [hbehind] at hbegins
      exact absurd hbegins (htext.not_begins_inside hname hpre hys)

/-- Where no check begins, no statement does. -/
theorem NoneBegins.isStatement_of_isCheck {name front : List Char} {before : Option Char}
    (hname : Settings.isIdentifier name = true) (h : NoneBegins (IsCheck name) before front []) :
    NoneBegins (IsStatement name) before front [] := by
  rintro xs ys rfl - ⟨-, text, htext, post, heq⟩
  rw [List.append_nil] at heq
  obtain ⟨pre, check, post', hocc, -⟩ :=
    htext.exists_occurs_check hname (lastChar before xs) post
  rw [heq] at hocc
  refine h (xs ++ pre) (check ++ post') ?_ ?_ ?_
  · rw [hocc.eq_append, List.append_assoc]
  · exact List.append_ne_nil_of_left_ne_nil hocc.shape.ne_nil post'
  · rw [lastChar_append, List.append_nil]
    exact hocc.begins

/-- No statement begins and ends in a part of a statement in front of its end. -/
theorem IsStatement.noneBegins_front {name front ys : List Char} {before : Option Char}
    (hname : Settings.isIdentifier name = true) (htext : IsStatement name (front ++ ys))
    (hys : ys ≠ []) : NoneBegins (IsStatement name) before front [] := by
  intro as bs hsplit hbs hbegins
  rw [List.append_nil] at hbegins
  have hbegins' := hbegins.append_right hbs ys
  by_cases has : as = []
  · -- it would be the statement itself, but that is longer
    rw [has, List.nil_append] at hsplit
    obtain ⟨-, text', htext', post, heq⟩ := hbegins
    have hsame : text' ++ (post ++ ys) = (front ++ ys) ++ [] := by
      rw [hsplit, ← heq]
      simp
    have hlen := congrArg List.length (htext'.append_inj hname htext hsame)
    have hlen' := congrArg List.length heq
    have := List.length_pos_iff.2 hys
    rw [hsplit] at hlen
    simp only [List.length_append] at hlen hlen'
    omega
  · rw [hsplit, List.append_assoc] at htext
    have hne : bs ++ ys ≠ [] := by simp [hbs]
    have hinside : ¬ Begins (IsStatement name) (lastChar before as) (bs ++ ys ++ []) :=
      htext.not_begins_inside hname has hne
    rw [List.append_nil] at hinside
    exact hinside hbegins'

end WorkflowRepair.Repair
