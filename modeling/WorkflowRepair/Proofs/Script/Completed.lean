import WorkflowRepair.Proofs.Script.Completion
import WorkflowRepair.Proofs.Script.Limit

/-!
# A script that is patched twice

Where texts around a marker make it part of the check of a statement, they can be trimmed to what
that statement needs (`Trimmed`), with its own body as small as it gets. Between such texts a
statement is put, and the only check of this script is the one in that statement. So one pass is
made, and it leaves the statement that the marker completes.
-/

namespace WorkflowRepair.Repair

open Text

variable {name marker front back pre opening check entry body post : List Char}

/-! ## Trimming -/

/-- Behind the marker stands nothing but what the statement goes on with, and its body is no more
than what the marker has of it. -/
structure TrimmedBack (name marker front back pre opening check entry body post : List Char) : Prop
    extends Completes name marker front back pre opening check entry body post where
  back_inside : ∃ kept tail close, kept ≠ [] ∧ check = kept ++ tail ∧ back = tail ++ close ∧
    ∀ c ∈ close, c ∈ entry ∨ c = '}'
  body_inside : body = [] ∨ ∃ m₁ m₂, m₁ ≠ [] ∧ marker = m₁ ++ (body ++ m₂) ∧
    front ++ m₁ = pre ++ (opening ++ (check ++ entry))

/-- And in front of it stands nothing but what the statement begins with. -/
structure Trimmed (name marker front back pre opening check entry body post : List Char) : Prop
    extends TrimmedBack name marker front back pre opening check entry body post where
  outer : pre = [] ∨ front = []
  front_inside : ∃ rest, rest ≠ [] ∧ opening ++ check = front ++ rest

/-- In front nothing is needed but what the statement begins with. -/
theorem Completes.trim_front
    (h : Completes name marker front back pre opening check entry body post) :
    ∃ front' pre', Completes name marker front' back pre' opening check entry body post ∧
      (pre' = [] ∨ front' = []) ∧ ∃ rest, rest ≠ [] ∧ opening ++ check = front' ++ rest := by
  have hbegins := h.begins
  have hends := h.ends
  rcases append_split h.eq_append with ⟨as, rfl, hrest⟩ | ⟨bs, hbs, rfl, hrest⟩
  · -- the statement begins behind the text in front
    refine ⟨[], as, ⟨⟨hrest, h.isOpening, h.isCheck, h.isEntry, h.noBrace,
      any_isWord_getLast?_of_append h.boundary⟩, rfl, ?_, ?_⟩, Or.inr rfl, opening ++ check, ?_,
      rfl⟩
    · rw [List.length_append] at hbegins
      rw [List.length_nil]
      omega
    · have := List.length_pos_iff.2 h.isOpening.ne_nil
      rw [List.length_nil]
      omega
    · simp [h.isOpening.ne_nil]
  · -- the statement begins in it
    rw [List.length_append] at hbegins hends
    rw [← List.append_assoc] at hrest
    refine ⟨bs, [], ⟨⟨?_, h.isOpening, h.isCheck, h.isEntry, h.noBrace, rfl⟩,
      any_isWord_getLast?_of_append h.front_boundary, ?_, ?_⟩, Or.inl rfl, ?_⟩
    · rw [← hrest]
      simp
    · rw [List.length_nil]
      omega
    · rw [List.length_nil]
      omega
    · rcases append_split hrest with ⟨as, has, -⟩ | ⟨cs, hcs, hsplit, -⟩
      · have hlen := congrArg List.length has
        simp only [List.length_append] at hlen
        omega
      · exact ⟨cs, hcs, hsplit⟩

/-- The text behind the marker can be changed together with the body. -/
theorem Completes.of_back {back' body' post' : List Char}
    (h : Completes name marker front back pre opening check entry body post)
    (heq : front ++ marker ++ back' =
      pre ++ (opening ++ (check ++ (entry ++ (body' ++ '}' :: post'))))) (hbody : NoBrace body') :
    Completes name marker front back' pre opening check entry body' post' := by
  rw [List.append_assoc] at heq
  exact ⟨⟨heq, h.isOpening, h.isCheck, h.isEntry, hbody, h.boundary⟩, h.front_boundary, h.begins,
    h.ends⟩

/-- A marker that goes on in the body begins in front of it. -/
theorem Completes.exists_front_part {inside : List Char}
    (h : Completes name marker front back pre opening check entry body post)
    (hmarker : front ++ marker = pre ++ (opening ++ (check ++ entry)) ++ inside) :
    ∃ part, part ≠ [] ∧ marker = part ++ inside ∧
      front ++ part = pre ++ (opening ++ (check ++ entry)) := by
  have hends := h.ends
  rcases append_split hmarker with ⟨part, hpart, rfl⟩ | ⟨cs, -, hfront, -⟩
  · refine ⟨part, ?_, rfl, hpart.symm⟩
    rintro rfl
    have hlen := congrArg List.length hpart
    simp only [List.length_append, List.length_nil] at hlen
    omega
  · have hlen := congrArg List.length hfront
    simp only [List.length_append] at hlen
    omega

/-- Behind a marker that ends in the body, or behind it, at most the brace is needed. -/
theorem Completes.trim_body {inside : List Char}
    (h : Completes name marker front back pre opening check entry body post)
    (hmarker : front ++ marker = pre ++ (opening ++ (check ++ entry)) ++ inside)
    (hbody : body ++ '}' :: post = inside ++ back) :
    ∃ back' body' post',
      TrimmedBack name marker front back' pre opening check entry body' post' := by
  obtain ⟨part, hpart, hsplit, hfront⟩ := h.exists_front_part hmarker
  rcases h.noBrace.part_or_closed hbody with hnoBrace | ⟨more, rfl⟩
  · refine ⟨['}'], inside, [], h.of_back ?_ hnoBrace,
      ⟨check, [], ['}'], h.isCheck.ne_nil, by simp, rfl, by simp⟩,
      Or.inr ⟨part, [], hpart, by simp [hsplit], hfront⟩⟩
    rw [hmarker]
    simp
  · refine ⟨[], body, more, h.of_back ?_ h.noBrace,
      ⟨check, [], [], h.isCheck.ne_nil, by simp, rfl, by simp⟩,
      Or.inr ⟨part, '}' :: more, hpart, hsplit, hfront⟩⟩
    rw [hmarker]
    simp

/-- Behind the marker nothing is needed but what the statement goes on with. -/
theorem Completes.trim_back
    (h : Completes name marker front back pre opening check entry body post) :
    ∃ back' body' post',
      TrimmedBack name marker front back' pre opening check entry body' post' := by
  have hbegins := h.begins
  have heq : front ++ marker ++ back =
      pre ++ opening ++ (check ++ (entry ++ (body ++ '}' :: post))) := by
    rw [List.append_assoc, List.append_assoc, h.eq_append]
  rcases append_split heq with ⟨as, has, -⟩ | ⟨kept, hkept, hmarker, hrest⟩
  · have hlen := congrArg List.length has
    simp only [List.length_append] at hlen
    omega
  rcases append_split hrest with ⟨as, rfl, hentry⟩ | ⟨tail, -, rfl, -⟩
  swap
  · -- the marker ends in the check
    refine ⟨tail ++ (entry ++ ['}']), [], [], h.of_back ?_ (by simp [NoBrace]),
      ⟨kept, tail, entry ++ ['}'], hkept, rfl, rfl, by simp⟩, Or.inl rfl⟩
    rw [hmarker]
    simp
  rcases append_split hentry with ⟨inside, rfl, hbody⟩ | ⟨close, -, hclose, -⟩
  swap
  · -- it ends in front of the body
    refine ⟨close ++ ['}'], [], [], h.of_back ?_ (by simp [NoBrace]),
      ⟨check, [], close ++ ['}'], h.isCheck.ne_nil, by simp, rfl, ?_⟩, Or.inl rfl⟩
    · rw [hmarker, hclose]
      simp
    · intro c hc
      rw [hclose]
      simpa [or_assoc] using Or.inr hc
  refine h.trim_body ?_ hbody
  rw [hmarker]
  simp

theorem Completable.exists_trimmed (h : Completable name marker) :
    ∃ front back pre opening check entry body post,
      Trimmed name marker front back pre opening check entry body post := by
  obtain ⟨front, back, pre, opening, check, entry, body, post, hcomplete⟩ := h
  obtain ⟨front', pre', hfront, houter, hinside⟩ := hcomplete.trim_front
  obtain ⟨back', body', post', hback⟩ := hfront.trim_back
  exact ⟨front', back', pre', opening, check, entry, body', post', hback, houter, hinside⟩

/-! ## Where nothing begins -/

/-- A text that holds none of a character ends in front of it. -/
theorem prefix_of_not_mem {text xs rest : List Char} {c : Char} (h : text <+: xs ++ c :: rest)
    (hc : c ∉ text) : text <+: xs := by
  obtain ⟨post, heq⟩ := h
  rcases append_split heq with ⟨as, rfl, -⟩ | ⟨ys, hys, rfl, hsplit⟩
  · exact List.prefix_append text as
  · obtain ⟨d, ys, rfl⟩ := List.exists_cons_of_ne_nil hys
    rw [List.cons_append, List.cons.injEq] at hsplit
    exact absurd (by simp [hsplit.1]) hc

/-- A text that ends with a character ends where that character can stand. -/
theorem prefix_of_last {text xs gap : List Char} {c : Char} (h : text <+: xs ++ gap)
    (hlast : ∃ init, text = init ++ [c]) (hc : c ∉ gap) : text <+: xs := by
  obtain ⟨init, rfl⟩ := hlast
  obtain ⟨post, heq⟩ := h
  rcases append_split heq with ⟨as, rfl, -⟩ | ⟨ys, hys, hsplit, hgap⟩
  · exact List.prefix_append (init ++ [c]) as
  · obtain ⟨ys, rfl⟩ := exists_concat_of_append hsplit.symm hys
    exact absurd (by simp [hgap]) hc

theorem IsDeclaration.mem {text : List Char} (hname : Settings.isIdentifier name = true)
    (h : IsDeclaration name text) {c : Char} (hc : c ∈ text) :
    isNameChar c = true ∨ isBlank c = true ∨ c = '=' := by
  obtain ⟨gap, gap', -, hgap, hgap', rfl⟩ := h
  simp only [List.mem_append, List.mem_cons, List.not_mem_nil, or_false] at hc
  rcases hc with (rfl | rfl | rfl) | hc | hc | hc | rfl
  · exact Or.inl rfl
  · exact Or.inl rfl
  · exact Or.inl rfl
  · exact Or.inr (Or.inl (hgap c hc))
  · exact Or.inl (isNameChar_of_isIdentifier hname c hc)
  · exact Or.inr (Or.inl (hgap' c hc))
  · exact Or.inr (Or.inr rfl)

/-- A declaration ends in front of a sign, and in front of what cannot end it. -/
theorem IsDeclaration.prefix_of_sign {text xs gap rest : List Char} {c : Char}
    (hname : Settings.isIdentifier name = true) (h : IsDeclaration name text)
    (hstarts : text <+: xs ++ (gap ++ c :: rest)) (hgap : '=' ∉ gap)
    (hc : c ∈ ['(', ')', '{', '}']) : text <+: xs := by
  rw [← List.append_assoc] at hstarts
  have hlast : ∃ init, text = init ++ ['='] := by
    obtain ⟨gap, gap', -, -, -, rfl⟩ := h
    exact ⟨['l', 'e', 't'] ++ (gap ++ (name ++ gap')), by simp⟩
  refine prefix_of_last (prefix_of_not_mem hstarts fun hmem => ?_) hlast hgap
  simp only [List.mem_cons, List.not_mem_nil, or_false] at hc
  rcases h.mem hname hmem with hn | hb | rfl
  · rcases hc with rfl | rfl | rfl | rfl <;> exact absurd hn (by decide)
  · rcases hc with rfl | rfl | rfl | rfl <;> exact absurd hb (by decide)
  · simp at hc

/-- No declaration stands in a statement up to the end of its check: its keyword would have to be
the end of the name, and behind the name stands no name again. -/
theorem IsDeclaration.not_prefix_of_check {text xs ys : List Char}
    (hname : Settings.isIdentifier name = true) (hopening : IsOpening opening)
    (hcheck : IsCheck name check) (h : IsDeclaration name text)
    (hsplit : opening ++ check = xs ++ ys) : ¬ text <+: ys := by
  rintro ⟨post, rfl⟩
  obtain ⟨tail, rfl, hne, htail, -⟩ := hcheck.exists_tail
  obtain ⟨gap, gap', hgapNe, hgap, -, rfl⟩ := h
  obtain ⟨n, name', hcons, -⟩ := exists_cons_of_isIdentifier hname
  have hnameChar := isNameChar_of_isIdentifier hname
  rcases append_split hsplit with ⟨as, -, hrest⟩ | ⟨bs, hbs, rfl, hrest⟩
  swap
  · -- the keyword would begin in the opening
    obtain ⟨b, bs, rfl⟩ := List.exists_cons_of_ne_nil hbs
    simp only [List.cons_append, List.cons.injEq] at hrest
    have hmem : 'l' ∈ xs ++ b :: bs := by simp [← hrest.1]
    rcases hopening.mem hmem with h | h | h | h <;> exact absurd h (by decide)
  rcases append_split hrest with ⟨as', rfl, hbehind⟩ | ⟨es, hes, hsplitName, hbehind⟩
  · -- or behind the name
    have := htail 'l' (by rw [hbehind]; simp)
    exact absurd this (by decide)
  -- or in the name, and then it is the end of it
  obtain ⟨g, gap, rfl⟩ := List.exists_cons_of_ne_nil hgapNe
  obtain ⟨t, tail, rfl⟩ := List.exists_cons_of_ne_nil hne
  have hkeyword : ['l', 'e', 't'] ++ g :: (gap ++ (name ++ (gap' ++ ['='])) ++ post) =
      es ++ t :: tail := by
    rw [← hbehind]
    simp
  have hesName : ∀ c ∈ es, ¬ isNameChar c = false := fun c hc => by
    simp [hnameChar c (by rw [hsplitName]; simp [hc])]
  have hletName : ∀ c ∈ ['l', 'e', 't'], ¬ isNameChar c = false := by
    intro c hc
    simp only [List.mem_cons, List.not_mem_nil, or_false] at hc
    rcases hc with rfl | rfl | rfl <;> decide
  obtain ⟨-, -, htailEq⟩ := append_cons_inj (p := fun c => isNameChar c = false) hletName hesName
    (isNameChar_of_mem_gap hgap (by simp)) (htail t (by simp)) hkeyword
  have hn := htail n (by simp [← htailEq, hcons])
  rw [hnameChar n (by simp [hcons])] at hn
  simp at hn

/-- What follows can be changed if no text of the shape reaches into it. -/
theorem NoneBegins.of_back {shape : List Char → Prop} {before : Option Char} {back' : List Char}
    (h : NoneBegins shape before front back)
    (hstop : ∀ {ys text : List Char}, shape text → text <+: ys ++ back' → text <+: ys) :
    NoneBegins shape before front back' := by
  rintro xs ys rfl hys ⟨hbound, text, htext, hstarts⟩
  refine h xs ys rfl hys ⟨?_, text, htext, (hstop htext hstarts).trans (List.prefix_append ys back)⟩
  obtain ⟨y, ys, rfl⟩ := List.exists_cons_of_ne_nil hys
  exact hbound

/-- A check does not end in front of a parenthesis where less than two quotes stand. -/
theorem IsCheck.not_prefix_of_paren {text xs rest : List Char}
    (hname : Settings.isIdentifier name = true) (h : IsCheck name text)
    (hquotes : xs.countP isQuote < 2) : ¬ text <+: xs ++ '(' :: rest := by
  intro hstarts
  have hparen : '(' ∉ text := h.not_mem hname (by decide) (by decide) (by decide)
  have := (prefix_of_not_mem hstarts hparen).sublist.countP_le (p := isQuote)
  have := (h.exists_quote hname).2
  omega

theorem noneBegins_isCheck_opening {before : Option Char}
    (hname : Settings.isIdentifier name = true) (rest : List Char) :
    NoneBegins (IsCheck name) before ['i', 'f', '('] rest := by
  rintro xs ys hsplit hys ⟨-, text, htext, hstarts⟩
  have hconcat : xs ++ ys = ['i', 'f'] ++ ['('] := hsplit.symm
  obtain ⟨ys, rfl⟩ := exists_concat_of_append hconcat hys
  have hparen : text <+: ys ++ '(' :: rest := by simpa using hstarts
  refine htext.not_prefix_of_paren hname ?_ hparen
  have hcount := congrArg (List.countP isQuote) hsplit
  have hzero : ['i', 'f', '('].countP isQuote = 0 := rfl
  rw [List.countP_append, List.countP_append] at hcount
  omega

/-- Where no quote stands, no check begins. -/
theorem noneBegins_of_not_isQuote {before : Option Char} {xs : List Char}
    (hname : Settings.isIdentifier name = true) (h : ∀ c ∈ xs, isQuote c = false) :
    NoneBegins (IsCheck name) before xs [] := by
  rintro as ys rfl - ⟨-, text, htext, hstarts⟩
  rw [List.append_nil] at hstarts
  have := hstarts.sublist.countP_le (p := isQuote)
  have := (htext.exists_quote hname).2
  have := countP_isQuote_eq_zero fun c hc => h c (List.mem_append_right as hc)
  omega

/-- In a statement a declaration can only stand in the body. -/
theorem noneBegins_isDeclaration_statement {before : Option Char} {rest : List Char}
    (hname : Settings.isIdentifier name = true) (hopening : IsOpening opening)
    (hcheck : IsCheck name check) (hentry : IsEntry entry)
    (hbody : NoneBegins (IsDeclaration name) (lastChar before (opening ++ (check ++ entry))) body
      ('}' :: rest)) :
    NoneBegins (IsDeclaration name) before
      (opening ++ (check ++ (entry ++ (body ++ ['}'])))) rest := by
  have hhead : ∀ {cs : List Char}, 'l' ∉ cs → ∀ text, IsDeclaration name text →
      ∃ c text', text = c :: text' ∧ c ∉ cs := by
    intro cs hcs text htext
    obtain ⟨text', rfl⟩ := htext.exists_cons
    exact ⟨'l', text', rfl, hcs⟩
  -- one that begins in the check would end in it, since behind it stands a parenthesis
  have hguard : NoneBegins (IsDeclaration name) before (opening ++ check)
      (entry ++ (body ++ ['}']) ++ rest) := by
    rintro xs ys hsplit - ⟨-, text, htext, hstarts⟩
    obtain ⟨gap, gap', hgap, -, rfl⟩ := hentry
    have hstarts' : text <+: ys ++ (gap ++ ')' :: (gap' ++ '{' :: (body ++ '}' :: rest))) := by
      simpa using hstarts
    refine htext.not_prefix_of_check hname hopening hcheck hsplit ?_
    refine htext.prefix_of_sign hname hstarts' (fun hmem => ?_) (by simp)
    exact absurd (hgap _ hmem) (by decide)
  have hentryNone : 'l' ∉ entry := by
    intro hmem
    rcases hentry.mem hmem with h | h | h <;> exact absurd h (by decide)
  rw [← List.append_assoc, noneBegins_append_iff]
  refine ⟨hguard, ?_⟩
  rw [noneBegins_append_iff, ← lastChar_append, List.append_assoc]
  refine ⟨noneBegins_of_head (hhead hentryNone), ?_⟩
  rw [noneBegins_append_iff, ← lastChar_append, List.append_assoc]
  exact ⟨hbody, noneBegins_of_head (hhead (by decide))⟩

/-! ## The script and what a pass leaves of it -/

/-- The shortest check of a name. -/
def shortCheck (name : List Char) : List Char := name ++ ['=', '=', '\'', '\'']

/-- The shortest removable statement. -/
def shortStatement (name : List Char) : List Char :=
  ['i', 'f', '('] ++ (shortCheck name ++ ([')', '{'] ++ ([] ++ ['}'])))

/-- A declaration behind a blank. -/
def declaring (name : List Char) : List Char := [' ', 'l', 'e', 't', ' '] ++ (name ++ ['='])

theorem isOpening_short : IsOpening ['i', 'f', '('] :=
  ⟨[], [], by simp [Blanks], by simp [Blanks], rfl⟩

theorem isCheck_short (name : List Char) : IsCheck name (shortCheck name) :=
  ⟨[], ['=', '='], [], ['\'', '\''], by simp [Blanks], by decide, by simp [Blanks], by decide, rfl⟩

theorem isEntry_short : IsEntry [')', '{'] :=
  ⟨[], [], by simp [Blanks], by simp [Blanks], rfl⟩

theorem isStatement_short (name : List Char) : IsStatement name (shortStatement name) :=
  isStatement_iff.2 ⟨_, _, _, [], isOpening_short, isCheck_short name, isEntry_short,
    by simp [NoBrace], rfl⟩

/-- If no declaration begins in front of a statement or in its body, the first one stands behind
it. -/
theorem Guarded.exists_firstDeclaration {code : List Char}
    (hname : Settings.isIdentifier name = true)
    (h : Guarded name code pre opening check entry body (post ++ declaring name))
    (hpre : ∀ rest, NoneBegins (IsDeclaration name) none pre (opening ++ rest))
    (hbody : ∀ rest, NoneBegins (IsDeclaration name) (some '{') body ('}' :: rest)) :
    ∃ declared, firstDeclaration name code = some declared ∧
      pre.length + (opening ++ (check ++ (entry ++ (body ++ ['}'])))).length ≤ declared := by
  have hcode : code = pre ++ (opening ++ (check ++ (entry ++ (body ++ ['}'])))) ++
      (post ++ declaring name) := by
    rw [h.eq_append]
    simp
  have hlast : lastChar (lastChar none pre) (opening ++ (check ++ entry)) = some '{' := by
    obtain ⟨init, rfl⟩ := h.isEntry.exists_concat
    simp only [← List.append_assoc, lastChar_concat]
  have hfront : NoneBegins (IsDeclaration name) none
      (pre ++ (opening ++ (check ++ (entry ++ (body ++ ['}']))))) (post ++ declaring name) := by
    rw [noneBegins_append_iff, List.append_assoc]
    refine ⟨hpre _, noneBegins_isDeclaration_statement hname h.isOpening h.isCheck h.isEntry ?_⟩
    rw [hlast]
    exact hbody _
  -- there is one at the end, so some declaration is the first one
  have hdecl : Occurs (IsDeclaration name) none code
      (pre ++ (opening ++ (check ++ (entry ++ (body ++ ['}'])))) ++ post ++ [' '])
      (['l', 'e', 't', ' '] ++ (name ++ ['='])) [] :=
    ⟨by rw [hcode]; simp [declaring], ⟨[' '], [], by simp, by simp [Blanks]; decide,
      by simp [Blanks], by simp⟩, by rw [lastChar_concat]; rfl⟩
  obtain ⟨declared, -, hfirst⟩ := exists_firstDeclaration_le hdecl
  have hle := noneBegins_isDeclaration_iff.1 hfront declared (hcode ▸ hfirst)
  rw [List.length_append] at hle
  exact ⟨declared, hfirst, hle⟩

theorem Guarded.hasPremature {code : List Char} {declared : Nat}
    (h : Guarded name code pre opening check entry body post)
    (hfirst : firstDeclaration name code = some declared)
    (hle : pre.length + (opening ++ (check ++ (entry ++ (body ++ ['}'])))).length ≤ declared) :
    HasPremature name code := by
  refine ⟨declared, pre, _, post, hfirst, ⟨?_, isStatement_iff.2 ⟨opening, check, entry, body,
    h.isOpening, h.isCheck, h.isEntry, h.noBrace, rfl⟩, ?_⟩, hle⟩
  · rw [h.eq_append]
    simp
  · obtain ⟨gap, gap', -, -, rfl⟩ := h.isOpening
    rw [lastChar_none]
    exact isBoundary_of_any_isWord h.boundary rfl

/-- The head of an opening, up to its parenthesis, ends no declaration. -/
theorem IsDeclaration.prefix_of_opening {text xs rest : List Char}
    (hname : Settings.isIdentifier name = true) (h : IsDeclaration name text)
    (hopening : IsOpening opening) (hstarts : text <+: xs ++ (opening ++ rest)) : text <+: xs := by
  obtain ⟨gap, gap', hgap, -, rfl⟩ := hopening
  have hsign : text <+: xs ++ ('i' :: 'f' :: gap ++ '(' :: (gap' ++ rest)) := by
    simpa using hstarts
  refine h.prefix_of_sign hname hsign (fun hmem => ?_) (by simp)
  simp only [List.mem_cons] at hmem
  rcases hmem with hmem | hmem | hmem
  · exact absurd hmem (by decide)
  · exact absurd hmem (by decide)
  · exact absurd (hgap _ hmem) (by decide)

namespace Trimmed

theorem guarded_script (h : Trimmed name marker front back pre opening check entry body post) :
    Guarded name (front ++ (shortStatement name ++ (back ++ declaring name))) front
      ['i', 'f', '('] (shortCheck name) [')', '{'] [] (back ++ declaring name) :=
  ⟨by simp [shortStatement], isOpening_short, isCheck_short name, isEntry_short,
    by simp [NoBrace], h.front_boundary⟩

theorem exists_firstDeclaration_script (hname : Settings.isIdentifier name = true)
    (h : Trimmed name marker front back pre opening check entry body post) :
    ∃ declared, firstDeclaration name
        (front ++ (shortStatement name ++ (back ++ declaring name))) = some declared ∧
      front.length + (shortStatement name).length ≤ declared := by
  refine h.guarded_script.exists_firstDeclaration hname (fun rest => ?_) fun rest => noneBegins_nil
  obtain ⟨inside, -, hinside⟩ := h.front_inside
  rintro xs ys rfl - ⟨-, text, htext, hstarts⟩
  have hstarts' := htext.prefix_of_opening hname isOpening_short hstarts
  rw [List.append_assoc] at hinside
  exact htext.not_prefix_of_check hname h.isOpening h.isCheck hinside
    (hstarts'.trans (List.prefix_append ys inside))

/-- In front of the completed statement stands nothing, or a part of the marker. -/
theorem noneBegins_isDeclaration_pre (hname : Settings.isIdentifier name = true)
    (hmarker : NoneBegins (IsDeclaration name) none marker [])
    (h : Trimmed name marker front back pre opening check entry body post) (rest : List Char) :
    NoneBegins (IsDeclaration name) none pre (opening ++ rest) := by
  rcases h.outer with rfl | rfl
  · exact noneBegins_nil
  · have hbegins := h.begins
    have heq : marker ++ back = pre ++ opening ++ (check ++ (entry ++ (body ++ '}' :: post))) := by
      have := h.eq_append
      simpa using this
    rcases append_split heq with ⟨as, has, -⟩ | ⟨inside, -, rfl, -⟩
    · have hlen := congrArg List.length has
      simp only [List.length_append, List.length_nil] at hlen hbegins
      omega
    · rw [List.append_assoc, noneBegins_append_iff] at hmarker
      exact hmarker.1.of_back fun htext hstarts => htext.prefix_of_opening hname h.isOpening hstarts

/-- Its body is empty, or a part of the marker. -/
theorem noneBegins_isDeclaration_body (hname : Settings.isIdentifier name = true)
    (hmarker : NoneBegins (IsDeclaration name) none marker [])
    (h : Trimmed name marker front back pre opening check entry body post) (rest : List Char) :
    NoneBegins (IsDeclaration name) (some '{') body ('}' :: rest) := by
  rcases h.body_inside with rfl | ⟨m₁, m₂, hm₁, rfl, hsplit⟩
  · exact noneBegins_nil
  · have hlast : lastChar none m₁ = some '{' := by
      obtain ⟨init, rfl⟩ := h.isEntry.exists_concat
      rw [lastChar_none, ← List.getLast?_append_of_ne_nil front hm₁, hsplit]
      simp only [← List.append_assoc, List.getLast?_concat]
    rw [noneBegins_append_iff, noneBegins_append_iff, hlast] at hmarker
    refine hmarker.2.1.of_back fun htext hstarts => ?_
    exact htext.prefix_of_sign hname hstarts List.not_mem_nil (by simp)

theorem hasPremature_result (hname : Settings.isIdentifier name = true)
    (hmarker : NoneBegins (IsDeclaration name) none marker [])
    (h : Trimmed name marker front back pre opening check entry body post) :
    HasPremature name (front ++ (marker ++ (back ++ declaring name))) := by
  have hguarded : Guarded name (front ++ (marker ++ (back ++ declaring name))) pre opening check
      entry body (post ++ declaring name) := by
    refine ⟨?_, h.isOpening, h.isCheck, h.isEntry, h.noBrace, h.boundary⟩
    have heq := h.eq_append
    rw [← List.append_assoc, ← List.append_assoc, List.append_assoc front, heq]
    simp
  obtain ⟨declared, hfirst, hle⟩ := hguarded.exists_firstDeclaration hname
    (h.noneBegins_isDeclaration_pre hname hmarker) (h.noneBegins_isDeclaration_body hname hmarker)
  exact hguarded.hasPremature hfirst hle

/-- No check begins in front of the statement, since the last quote of a check stands in the marker
or behind it. -/
theorem noneBegins_isCheck_front (hname : Settings.isIdentifier name = true)
    (h : Trimmed name marker front back pre opening check entry body post) (rest : List Char) :
    NoneBegins (IsCheck name) none front (['i', 'f', '('] ++ rest) := by
  obtain ⟨inside, hne, hinside⟩ := h.front_inside
  have hquotes : front.countP isQuote < 2 := by
    obtain ⟨init, q, rfl, hq⟩ := h.isCheck.exists_quote_behind hname hinside hne
    have hpos : 0 < (init ++ [q]).countP isQuote := List.countP_pos_iff.2 ⟨q, by simp, hq⟩
    have htwo := (h.isCheck.exists_quote hname).2
    have hzero := countP_isQuote_eq_zero h.isOpening.not_isQuote
    have hcount := congrArg (List.countP isQuote) hinside
    rw [List.countP_append, List.countP_append] at hcount
    omega
  rintro xs ys rfl - ⟨-, text, htext, hstarts⟩
  have hparen : text <+: (ys ++ ['i', 'f']) ++ '(' :: rest := by simpa using hstarts
  refine htext.not_prefix_of_paren hname ?_ hparen
  rw [List.countP_append] at hquotes ⊢
  have : ['i', 'f'].countP isQuote = 0 := rfl
  omega

/-- No check begins behind the one in the statement. -/
theorem noneBegins_isCheck_back (hname : Settings.isIdentifier name = true)
    (h : Trimmed name marker front back pre opening check entry body post)
    (before : Option Char) :
    NoneBegins (IsCheck name) before ([')', '{', '}'] ++ (back ++ declaring name)) [] := by
  obtain ⟨kept, tail, close, hkept, hcheckEq, rfl, hclose⟩ := h.back_inside
  rw [List.append_assoc tail, noneBegins_append_iff, noneBegins_append_iff]
  -- the end of the short statement, the end of the completed check, and what has no quotes
  refine ⟨noneBegins_of_head fun text htext => ?_, ?_, noneBegins_of_not_isQuote hname ?_⟩
  · obtain ⟨n, tail, rfl⟩ := List.exists_cons_of_ne_nil htext.ne_nil
    have hn := htext.isNameChar_head hname
    refine ⟨n, tail, rfl, fun hmem => ?_⟩
    simp only [List.mem_cons, List.not_mem_nil, or_false] at hmem
    rcases hmem with rfl | rfl | rfl <;> exact absurd hn (by decide)
  · rintro xs ys rfl hys
    have hcheck := h.isCheck
    rw [hcheckEq, ← List.append_assoc] at hcheck
    exact hcheck.not_begins_inside hname (by simp [hkept]) hys
  · intro c hc
    simp only [declaring, List.mem_append] at hc
    rcases hc with hc | hc | hc | hc
    · rcases hclose c hc with hc | rfl
      · exact h.isEntry.not_isQuote c hc
      · rfl
    · simp only [List.mem_cons, List.not_mem_nil, or_false] at hc
      rcases hc with rfl | rfl | rfl | rfl | rfl <;> rfl
    · exact isQuote_of_isNameChar (isNameChar_of_isIdentifier hname c hc)
    · rw [List.mem_singleton.1 hc]
      rfl

/-- The only check of the script is the one in its statement. -/
theorem countChecks_script_le (hname : Settings.isIdentifier name = true)
    (h : Trimmed name marker front back pre opening check entry body post) :
    countChecks name (front ++ (shortStatement name ++ (back ++ declaring name))) ≤ 1 := by
  obtain ⟨n, name', hcons, -⟩ := exists_cons_of_isIdentifier hname
  have hcheck : shortCheck name = n :: (name' ++ ['=', '=', '\'', '\'']) := by
    rw [shortCheck, hcons]
    rfl
  -- behind its first character no check begins in a check
  have htail : NoneBegins (IsCheck name) (some n) (name' ++ ['=', '=', '\'', '\''])
      ([')', '{', '}'] ++ (back ++ declaring name)) := by
    have hshort := isCheck_short name
    rw [hcheck] at hshort
    exact hshort.noneBegins_tail hname
  have hsplit : front ++ (shortStatement name ++ (back ++ declaring name)) =
      front ++ (['i', 'f', '('] ++ (n :: (name' ++ ['=', '=', '\'', '\''] ++
        ([')', '{', '}'] ++ (back ++ declaring name) ++ [])))) := by
    simp [shortStatement, hcheck]
  rw [countChecks_eq_countStarts hname, hsplit,
    countStarts_append_of_noneBegins checkBegins_iff (h.noneBegins_isCheck_front hname _),
    countStarts_append_of_noneBegins checkBegins_iff (noneBegins_isCheck_opening hname _),
    countStarts, countStarts_append_of_noneBegins checkBegins_iff (by simpa using htail),
    countStarts_append_of_noneBegins checkBegins_iff (h.noneBegins_isCheck_back hname _)]
  simp only [countStarts]
  split <;> omega

/-- No statement begins in front of the one in the script: its head would go on to the first brace,
and hold two parentheses. -/
theorem noneBegins_isStatement_front (hname : Settings.isIdentifier name = true)
    (h : Trimmed name marker front back pre opening check entry body post) (rest : List Char) :
    NoneBegins (IsStatement name) none front (shortStatement name ++ rest) := by
  obtain ⟨inside, -, hinside⟩ := h.front_inside
  rintro xs ys rfl hys ⟨-, text, htext, post, heq⟩
  obtain ⟨gap, inner, body, rfl, hgap, hinner, hhead, -⟩ := htext.exists_head hname
  -- what is left of the completed statement has no brace, so both heads end at the same one
  have hnoBrace : NoBrace (ys ++ 'i' :: 'f' :: '(' :: (shortCheck name ++ [')'])) := by
    intro c hc
    simp only [List.mem_append, List.mem_cons, List.not_mem_nil, or_false] at hc
    rcases hc with hc | rfl | rfl | rfl | hc | rfl
    · have hmem : c ∈ opening ++ check := by
        rw [hinside]
        simp [hc]
      rcases List.mem_append.1 hmem with hmem | hmem
      · exact h.isOpening.noBrace c hmem
      · exact h.isCheck.noBrace hname c hmem
    · decide
    · decide
    · decide
    · exact (isCheck_short name).noBrace hname c hc
    · decide
  have hsplit : 'i' :: 'f' :: (gap ++ '(' :: inner) ++ '{' :: (body ++ '}' :: post) =
      (ys ++ 'i' :: 'f' :: '(' :: (shortCheck name ++ [')'])) ++ '{' :: '}' :: rest := by
    simpa [shortStatement] using heq
  obtain ⟨hsame, -, -⟩ := append_cons_inj hhead.not_isBrace hnoBrace.not_isBrace (Or.inl rfl)
    (Or.inl rfl) hsplit
  have hsuffix : 'i' :: 'f' :: (gap ++ '(' :: inner) =
      ys ++ 'i' :: 'f' :: ([] ++ '(' :: (shortCheck name ++ [')'])) := hsame
  exact not_suffix_head hgap hinner hys hsuffix

/-- One pass puts the marker in the place of the statement, and does nothing else. -/
theorem pass_script (hname : Settings.isIdentifier name = true)
    (h : Trimmed name marker front back pre opening check entry body post) :
    pass name marker (front ++ (shortStatement name ++ (back ++ declaring name))) =
      front ++ (marker ++ (back ++ declaring name)) := by
  obtain ⟨declared, hfirst, hle⟩ := h.exists_firstDeclaration_script hname
  have hbehind := h.noneBegins_isCheck_back hname none
  rw [noneBegins_append_iff] at hbehind
  have hreplaced : Replaced name marker declared none
      (front ++ (shortStatement name ++ (back ++ declaring name)))
      (front ++ (marker ++ (back ++ declaring name))) 1 := by
    refine .append_left (h.noneBegins_isStatement_front hname _) ?_
    refine .replace (isStatement_short name) ?_ (by omega)
      (.of_noneBegins (hbehind.2.isStatement_of_isCheck hname))
    rw [lastChar_none]
    exact isBoundary_of_any_isWord h.front_boundary rfl
  obtain ⟨removed, hpass⟩ := exists_replaced_pass hname marker hfirst
  have hsame := hpass.eq_replaceStatements hname
  rw [hreplaced.eq_replaceStatements hname] at hsame
  exact (congrArg Prod.fst hsame).symm

theorem hasPremature_script (hname : Settings.isIdentifier name = true)
    (h : Trimmed name marker front back pre opening check entry body post) :
    HasPremature name (front ++ (shortStatement name ++ (back ++ declaring name))) := by
  obtain ⟨declared, hfirst, hle⟩ := h.exists_firstDeclaration_script hname
  exact h.guarded_script.hasPremature hfirst hle

end Trimmed

/-- A marker that can be completed has a script that is patched twice. -/
theorem Completable.exists_patched_twice (hname : Settings.isIdentifier name = true)
    (hmarker : NoneBegins (IsDeclaration name) none marker []) (h : Completable name marker) :
    ∃ code out removed, fix name marker code = .patched out removed ∧
      ∃ out' removed', fix name marker out = .patched out' removed' := by
  obtain ⟨front, back, pre, opening, check, entry, body, post, htrimmed⟩ := h.exists_trimmed
  have hpremature := htrimmed.hasPremature_script hname
  obtain ⟨out, removed, hfix⟩ := (exists_fix_eq_patched_iff hname marker _).2 hpremature
  have hpos := countChecks_pos_of_checksEarly hname (checksEarly_of_hasPremature hname hpremature)
  have hle := htrimmed.countChecks_script_le hname
  have hone : countChecks name (front ++ (shortStatement name ++ (back ++ declaring name))) =
      1 := by
    omega
  have hout := eq_iterate_of_fix hname hfix
  rw [hone, Function.iterate_one, htrimmed.pass_script hname] at hout
  refine ⟨_, out, removed, hfix, (exists_fix_eq_patched_iff hname marker out).2 ?_⟩
  rw [hout]
  exact htrimmed.hasPremature_result hname hmarker

end WorkflowRepair.Repair
