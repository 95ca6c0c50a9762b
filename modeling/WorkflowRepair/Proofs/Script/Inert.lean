import WorkflowRepair.Proofs.Script.Laid

/-!
# Markers that stay out of checks

If no texts complete a marker, then in no script that replacing has led to does a check of a
statement hold a character of a marker (`Inert.kept_of_tagged`). A whole marker cannot stand there
by assumption, so what is left are the pieces: a piece that lost its ending is followed by another
marker, and one that lost its beginning follows one; in both cases the statement would have to go on
in a way it cannot. This is where the name of the variable matters: an `if` must not begin in it.
-/

namespace WorkflowRepair.Repair

open Text

/-- No `if` can begin in the name: in front of every `i` stands a word character of it. -/
def NoIfInside (name : List Char) : Prop :=
  ∀ front back, name = front ++ 'i' :: back → front.getLast?.any isWord = true

/-- A marker that no texts complete, for a name in which no `if` can begin. -/
structure Inert (name marker : List Char) : Prop where
  identifier : Settings.isIdentifier name = true
  ne_nil : marker ≠ []
  no_if : NoIfInside name
  no_check : NoneBegins (IsCheck name) none marker []
  not_completable : ¬ Completable name marker

variable {name marker entry body post : List Char} {pre opening check behind : List Cell}

/-- A statement in a script, with the origin of its characters. -/
structure Tagged (name marker : List Char) (pre opening check behind : List Cell)
    (entry body post : List Char) : Prop
    extends Guarded name ((pre ++ (opening ++ (check ++ behind))).map Cell.char)
      (pre.map Cell.char) (opening.map Cell.char) (check.map Cell.char) entry body post where
  laid : Laid marker none (pre ++ (opening ++ (check ++ behind)))

theorem Tagged.behind_eq (h : Tagged name marker pre opening check behind entry body post) :
    behind.map Cell.char = entry ++ (body ++ '}' :: post) := by
  have heq := h.eq_append
  simp only [List.map_append] at heq
  exact List.append_cancel_left (List.append_cancel_left (List.append_cancel_left heq))

/-- A whole marker does not stand at the check of a statement. -/
theorem Inert.not_whole (hi : Inert name marker)
    (h : Tagged name marker pre opening check behind entry body post)
    {start front back body' post' : List Char} (hstart : start.getLast?.any isWord = false)
    (hfront : front.getLast?.any isWord = false) (hbody : NoBrace body')
    (heq : front ++ (marker ++ back) = start ++ (opening.map Cell.char ++
      (check.map Cell.char ++ (entry ++ (body' ++ '}' :: post')))))
    (hbegins : start.length + opening.length < front.length + marker.length)
    (hends : front.length < start.length + (opening.length + check.length)) : False := by
  apply hi.not_completable
  refine ⟨front, back, start, opening.map Cell.char, check.map Cell.char, entry, body', post',
    ⟨heq, h.isOpening, h.isCheck, h.isEntry, hbody, hstart⟩, hfront, ?_, ?_⟩
  · rwa [List.length_map]
  · rwa [List.length_map, List.length_map]

/-- Where a piece that lost its ending is followed by a marker, that marker begins like the piece up
to its last quote. -/
theorem Laid.exists_same_start {front back : List Cell} {d q : Char}
    {rest start ending : List Char} (h : Laid marker none (front ++ .laid d rest :: back))
    (hmarker : marker = d :: rest) (hstart : marker = start ++ [q] ++ ending)
    (hq : isQuote q = true) :
    ∃ tail, (Cell.laid d rest :: back).map Cell.char = start ++ [q] ++ tail := by
  cases h.drop with
  | cons _ hback =>
    obtain ⟨run, back, cut, rfl, hrest, -, hend⟩ := hback.exists_rest
    have hcut : ∀ c ∈ cut, isQuote c = false := by
      rcases hend with rfl | ⟨hplain, -⟩
      · simp
      · exact hplain.2
    have hsame : start ++ [q] ++ ending = (d :: run.map Cell.char) ++ cut := by
      rw [← hstart, hmarker, hrest]
      rfl
    rcases append_split hsame with ⟨as, has, -⟩ | ⟨bs, hbs, hsplit, hcutEq⟩
    · refine ⟨as ++ back.map Cell.char, ?_⟩
      rw [← List.append_assoc, ← has]
      simp [Cell.char]
    · obtain ⟨bs, rfl⟩ := exists_concat_of_append hsplit.symm hbs
      have := hcut q (by simp [hcutEq])
      rw [hq] at this
      simp at this

/-- A text that begins in the entry to a body and has a quote goes on behind the brace. -/
theorem IsEntry.mem_of_reaches {part front inside rest tail : List Char} {q : Char}
    (h : IsEntry (front ++ inside)) (hinside : inside ≠ [])
    (hsame : part ++ [q] ++ tail = inside ++ rest) (hq : isQuote q = true) : '{' ∈ part ++ [q] := by
  obtain ⟨init, hinit⟩ := h.exists_concat
  obtain ⟨inside, rfl⟩ := exists_concat_of_append hinit hinside
  rcases append_split hsame with ⟨zs, hzs, -⟩ | ⟨zs, -, hzs, -⟩
  · have := h.not_isQuote q (by simp [hzs])
    rw [hq] at this
    simp at this
  · simp [hzs]

/-- A marker that ends in a check has not lost its ending: behind the check the next marker would
begin in the same way, so its quotes would stand in the body, and with a closing brace the whole
marker would do as well. -/
theorem Inert.not_cut (hi : Inert name marker)
    (h : Tagged name marker pre opening check behind entry body post)
    {front cells as back : List Cell} {c d : Char} {rest rest' cut : List Char}
    (hcheck : check = front ++ .laid c rest :: cells)
    (hbehind : behind = as ++ .laid d rest' :: back)
    (hmarker : marker = c :: (cells.map Cell.char ++ (as.map Cell.char ++ cut)))
    (hmarker' : marker = d :: rest') (hcut : Plain cut)
    (hbound : ((pre ++ (opening ++ front)).map Cell.char).getLast?.any isWord = false) : False := by
  have hcheckChars : check.map Cell.char = front.map Cell.char ++ c :: cells.map Cell.char := by
    rw [hcheck]
    simp [Cell.char]
  obtain ⟨start, q, hpart, hq⟩ :=
    h.isCheck.exists_quote_behind hi.identifier ((List.nil_append _).trans hcheckChars) (by simp)
  have hlaid := h.laid
  rw [hbehind, ← List.append_assoc, ← List.append_assoc, ← List.append_assoc] at hlaid
  have hstart : marker = start ++ [q] ++ (as.map Cell.char ++ cut) := by
    rw [hmarker, ← List.cons_append, hpart]
  obtain ⟨tail, htail⟩ := hlaid.exists_same_start hmarker' hstart hq
  -- the marker is whole if its cut part stands in the body
  have hcomplete : ∀ back body' post' : List Char,
      as.map Cell.char ++ cut ++ back = entry ++ (body' ++ '}' :: post') → NoBrace body' →
      False := by
    intro back body' post' heq hbody
    have hwhole : (pre ++ (opening ++ front)).map Cell.char ++ (marker ++ back) =
        pre.map Cell.char ++ (opening.map Cell.char ++
          (check.map Cell.char ++ (entry ++ (body' ++ '}' :: post')))) := by
      rw [← heq, hmarker, hcheckChars]
      simp
    refine hi.not_whole h h.boundary hbound hbody hwhole ?_ ?_
    · rw [hmarker]
      simp
      omega
    · rw [hcheck]
      simp
  have hbehindChars : entry ++ (body ++ '}' :: post) =
      as.map Cell.char ++ (start ++ [q] ++ tail) := by
    rw [← htail, ← List.map_append, ← hbehind, h.behind_eq]
  rcases append_split hbehindChars with ⟨inside, hinside, hbody⟩ | ⟨bs, hbs, hentry, hnext⟩
  swap
  · -- the body would begin in the next marker, but there the check goes on
    have hisEntry := h.isEntry
    rw [hentry] at hisEntry
    have hmem : '{' ∈ check.map Cell.char := by
      rw [hcheckChars, hpart]
      exact List.mem_append_right _ (hisEntry.mem_of_reaches hbs hnext hq)
    exact (h.isCheck.noBrace hi.identifier _ hmem).1 rfl
  rcases h.noBrace.part_or_closed hbody with hnoBrace | ⟨more, rfl⟩
  · refine hcomplete ['}'] (inside ++ cut) [] ?_ (hnoBrace.append hcut.1)
    rw [hinside]
    simp
  · refine hcomplete [] body (more ++ cut) ?_ h.noBrace
    rw [hinside]
    simp

/-- No marker begins in a check where a statement could begin. -/
theorem Inert.not_first (hi : Inert name marker)
    (h : Tagged name marker pre opening check behind entry body post)
    {front cells : List Cell} {c : Char} {rest : List Char}
    (hcheck : check = front ++ .laid c rest :: cells) (hmarker : marker = c :: rest)
    (hbound : ((pre ++ (opening ++ front)).map Cell.char).getLast?.any isWord = false) : False := by
  -- behind a piece that lost its ending the next marker begins, so the induction is on what is left
  induction hlen : cells.length using Nat.strongRecOn generalizing front c rest cells with
  | ind n ih =>
    have hlaid : Laid marker none
        (pre ++ (opening ++ front) ++ .laid c rest :: (cells ++ behind)) := by
      have := h.laid
      rw [hcheck] at this
      simpa using this
    cases hlaid.drop with
    | cons _ hrest =>
      obtain ⟨run, back, cut, hsplit, hcutEq, -, hend⟩ := hrest.exists_rest
      rcases hend with rfl | ⟨hplain, hlast, d, rest', back', hnext, rfl⟩
      · -- the whole marker stands here
        have heq : (pre ++ (opening ++ front)).map Cell.char ++ (marker ++ back.map Cell.char) =
            pre.map Cell.char ++ (opening.map Cell.char ++
              (check.map Cell.char ++ (entry ++ (body ++ '}' :: post)))) := by
          have hcells := congrArg (List.map Cell.char) hsplit
          simp only [List.map_append] at hcells
          rw [← h.behind_eq, hcheck, hmarker, hcutEq]
          simp [Cell.char, hcells]
        refine hi.not_whole h h.boundary hbound h.noBrace heq ?_ ?_
        · rw [hmarker]
          simp
          omega
        · rw [hcheck]
          simp
      · rcases append_split hsplit with ⟨as, rfl, hbehind⟩ | ⟨bs, hbs, rfl, hback⟩
        · refine hi.not_cut h hcheck hbehind ?_ hnext hplain hbound
          rw [hmarker, hcutEq]
          simp
        · obtain ⟨b, bs, rfl⟩ := List.exists_cons_of_ne_nil hbs
          rw [List.cons_append, List.cons.injEq] at hback
          obtain ⟨rfl, -⟩ := hback
          have hcheck' : check = front ++ .laid c rest :: run ++ .laid d rest' :: bs := by
            rw [hcheck]
            simp
          refine ih bs.length ?_ hcheck' hnext ?_ rfl
          · rw [← hlen]
            simp
            omega
          · rw [← List.append_assoc, ← List.append_assoc, List.map_append, ← lastChar_none,
              lastChar_append]
            rw [List.map_cons, lastChar_cons]
            exact hlast

/-- An `i` in a check stands in the name, where no `if` can begin. -/
theorem Inert.no_if_of_check (hi : Inert name marker) {front back : List Char}
    (hcheck : IsCheck name (front ++ 'i' :: back)) : front.getLast?.any isWord = true := by
  obtain ⟨tail, hsplit, -, htail, -⟩ := hcheck.exists_tail
  have hnot : 'i' ∉ tail := fun hmem => absurd (htail 'i' hmem) (by decide)
  rcases append_split hsplit with ⟨as, hname, htailEq⟩ | ⟨bs, -, -, htailEq⟩
  · cases as with
    | nil =>
      rw [List.nil_append] at htailEq
      exact absurd (by rw [← htailEq]; simp) hnot
    | cons a as =>
      rw [List.cons_append, List.cons.injEq] at htailEq
      rw [← htailEq.1] at hname
      exact hi.no_if front as hname
  · exact absurd (by rw [htailEq]; simp) hnot

/-- A piece of a marker ends as what is in front of it does, or with the brace of what it lost. -/
theorem Lost.last_eq {lost before pre part xs : List Char} {d e : Char} (hlost : Lost lost)
    (hsame : xs ++ [e] = lost ++ part) (hpart : before ++ part = pre ++ [d]) :
    e = '}' ∨ e = d := by
  by_cases hnil : part = []
  · left
    rw [hnil, List.append_nil] at hsame
    rcases hlost with rfl | ⟨init, rfl⟩
    · simp at hsame
    · simpa using (List.append_inj' hsame rfl).2
  · right
    obtain ⟨part, rfl⟩ := exists_concat_of_append hpart hnil
    rw [← List.append_assoc] at hsame hpart
    have hpartLast := (List.append_inj' hpart rfl).2
    have hsameLast := (List.append_inj' hsame rfl).2
    simpa [hpartLast] using hsameLast

/-- The opening of a statement does not begin in one marker and end in the next one. It would have
to begin in the part of the check with which both of them end. -/
theorem Inert.not_crossing (hi : Inert name marker)
    {pre before opened inside lost lost' part checked tail : List Char}
    (hopening : IsOpening (opened ++ inside)) (hopened : opened ≠ []) (hchecked : checked ≠ [])
    (hcheck : IsCheck name (checked ++ tail)) (hbound : pre.getLast?.any isWord = false)
    (hlost : Lost lost') (hmarker : lost ++ inside = lost' ++ part)
    (hsplit : pre ++ opened = before ++ (part ++ checked)) : False := by
  obtain ⟨init, e, hconcat, he⟩ := hopening.exists_concat
  obtain ⟨o, opened, rfl⟩ := List.exists_cons_of_ne_nil hopened
  obtain ⟨n, checked, rfl⟩ := List.exists_cons_of_ne_nil hchecked
  obtain rfl : o = 'i' := by
    obtain ⟨gap, gap', -, -, heq⟩ := hopening
    exact (List.cons.inj heq).1
  have hn : isNameChar n = true := hcheck.isNameChar_head hi.identifier
  rw [← List.append_assoc] at hsplit
  rcases append_split hsplit with ⟨ws, hws, hopenedEq⟩ | ⟨ws, -, rfl, hcheckedEq⟩
  swap
  · -- the opening begins in the name
    rw [hcheckedEq, List.append_assoc] at hcheck
    have := hi.no_if_of_check hcheck
    rw [any_isWord_getLast?_of_append hbound] at this
    simp at this
  match ws with
  | [] =>
    rw [List.nil_append] at hopenedEq
    rw [← hopenedEq, ← List.nil_append ('i' :: opened ++ tail)] at hcheck
    exact absurd (hi.no_if_of_check hcheck) (by simp)
  | [w] =>
    -- the name begins at the `f`, and what the second marker has of the opening ends the first one
    simp only [List.cons_append, List.nil_append, List.cons.injEq] at hopenedEq
    obtain ⟨rfl, rfl⟩ := hopenedEq
    have hinside : inside ≠ [] := by
      rintro rfl
      obtain ⟨gap, gap', -, -, heq⟩ := hopening
      have hparen : '(' ∈ n :: checked := by
        rw [List.append_nil, List.cons.injEq] at heq
        simp [heq.2]
      exact hcheck.not_mem hi.identifier (by decide) (by decide) (by decide)
        (List.mem_append_left tail hparen)
    obtain ⟨inside, rfl⟩ := exists_concat_of_append hconcat hinside
    rw [← List.append_assoc] at hmarker
    rcases hlost.last_eq hmarker hws with rfl | rfl <;> exact absurd he (by decide)
  | w :: w' :: ws =>
    -- the name begins behind the keyword, where no name can stand
    obtain rfl : w' = 'f' := by
      obtain ⟨gap, gap', -, -, heq⟩ := hopening
      rw [hopenedEq] at heq
      simp only [List.cons_append, List.cons.injEq] at heq
      exact heq.2.1
    simp only [List.cons_append, List.cons.injEq] at hopenedEq
    rw [hopenedEq.2, List.cons_append, List.cons_append] at hopening
    have := hopening.isNameChar_eq_false n (by simp)
    rw [hn] at this
    simp at this

/-- A marker holds no whole check. -/
theorem Inert.not_mem_marker (hi : Inert name marker) {check front back : List Char}
    (hcheck : IsCheck name check) (hfront : front.getLast?.any isWord = false) :
    marker ≠ front ++ (check ++ back) := by
  intro hmarker
  have hne : check ++ back ≠ [] := List.append_ne_nil_of_left_ne_nil hcheck.ne_nil back
  refine hi.no_check front (check ++ back) hmarker hne ⟨?_, check, hcheck, ?_⟩
  · obtain ⟨c, tail, hcons⟩ := List.exists_cons_of_ne_nil hcheck.ne_nil
    have hword := beginsWithWord_isCheck hi.identifier check hcheck
    rw [hcons] at hword ⊢
    rw [lastChar_none]
    exact isBoundary_of_any_isWord hfront hword
  · rw [List.append_nil]
    exact List.prefix_append check back

/-- The part of a marker in front of a character has lost nothing, or follows the end of another
marker, which ends with the same part of a check. -/
theorem Lost.exists_part {checked lost lost' inside ending : List Char} (hlost : Lost lost')
    (hbrace : '}' ∉ checked) (hsame : lost ++ (inside ++ checked) = lost' ++ ending) :
    ∃ part, lost ++ inside = lost' ++ part ∧ ending = part ++ checked := by
  rw [← List.append_assoc] at hsame
  rcases append_split hsame with ⟨vs, hvs, hchecked⟩ | ⟨part, -, hpart, hending⟩
  · by_cases hnil : vs = []
    · exact ⟨[], by rw [hvs, hnil]; simp, by rw [hchecked, hnil]; simp⟩
    · rcases hlost with rfl | ⟨init, rfl⟩
      · exact absurd (List.append_eq_nil_iff.1 hvs.symm).2 hnil
      · obtain ⟨vs, rfl⟩ := exists_concat_of_append hvs.symm hnil
        exact absurd (by simp [hchecked]) hbrace
  · exact ⟨part, hpart, hending⟩

/-- A marker that ends in a check does not hold its opening as well: it would do by itself. -/
theorem Inert.not_opening_inside (hi : Inert name marker)
    (h : Tagged name marker pre opening check behind entry body post)
    {start checked tail : List Char}
    (hmarker : marker = start ++ (opening.map Cell.char ++ checked)) (hne : checked ≠ [])
    (hcheck : check.map Cell.char = checked ++ tail)
    (hstart : start.getLast?.any isWord = false) : False := by
  have heq : [] ++ (marker ++ (tail ++ behind.map Cell.char)) = start ++
      (opening.map Cell.char ++ (check.map Cell.char ++ (entry ++ (body ++ '}' :: post)))) := by
    rw [hmarker, hcheck, h.behind_eq]
    simp
  refine hi.not_whole h hstart rfl h.noBrace heq ?_ ?_
  · have := List.length_pos_iff.2 hne
    rw [hmarker]
    simp only [List.length_append, List.length_map, List.length_nil]
    omega
  · have := List.length_pos_iff.2 h.isCheck.ne_nil
    rw [List.length_map] at this
    rw [List.length_nil]
    omega

/-- Nor does a whole marker go on with an opening that begins in front of it. -/
theorem Inert.not_opening_across (hi : Inert name marker)
    (h : Tagged name marker pre opening check behind entry body post) {across piece : List Cell}
    {checked tail : List Char} (hopening : opening = across ++ piece)
    (hmarker : marker = piece.map Cell.char ++ checked) (hne : checked ≠ [])
    (hcheck : check.map Cell.char = checked ++ tail)
    (hbound : ((pre ++ across).map Cell.char).getLast?.any isWord = false) : False := by
  have heq : (pre ++ across).map Cell.char ++ (marker ++ (tail ++ behind.map Cell.char)) =
      pre.map Cell.char ++ (opening.map Cell.char ++
        (check.map Cell.char ++ (entry ++ (body ++ '}' :: post)))) := by
    rw [hmarker, hcheck, h.behind_eq, hopening]
    simp
  refine hi.not_whole h h.boundary hbound h.noBrace heq ?_ ?_
  · have := List.length_pos_iff.2 hne
    rw [hmarker, hopening]
    simp only [List.length_append, List.length_map]
    omega
  · have := List.length_pos_iff.2 h.isCheck.ne_nil
    rw [hopening]
    simp only [List.length_append, List.length_map] at this ⊢
    omega

/-- Nor does a piece of a marker go on with an opening that begins in another one. -/
theorem Inert.not_opening_behind (hi : Inert name marker)
    (h : Tagged name marker pre opening check behind entry body post)
    {across piece init : List Cell} {d : Char} {lost checked tail : List Char}
    (hopening : opening = across ++ piece) (hacross : across ≠ [])
    (hinit : pre ++ across = init ++ [.laid d []])
    (hmarker : marker = lost ++ (piece.map Cell.char ++ checked)) (hne : checked ≠ [])
    (hcheck : check.map Cell.char = checked ++ tail) : False := by
  have hlaid : Laid marker none (init ++ .laid d [] :: (piece ++ (check ++ behind))) := by
    have := h.laid
    rw [hopening, List.append_assoc across, ← List.append_assoc, hinit] at this
    simpa using this
  obtain ⟨before, piece', lost', rfl, hmarker', horigin⟩ := hlaid.exists_piece
  have hlost' : Lost lost' := by
    rcases horigin with ⟨hnil, -⟩ | ⟨hlost', -⟩
    · exact Or.inl hnil
    · exact hlost'
  have hbrace : '}' ∉ checked := fun hmem =>
    (h.isCheck.noBrace hi.identifier '}' (by simp [hcheck, hmem])).2 rfl
  -- both are endings of one marker, so this one ends in a part of the check as well
  obtain ⟨part, hpart, hending⟩ := hlost'.exists_part hbrace (hmarker.symm.trans hmarker')
  have hopened : pre.map Cell.char ++ across.map Cell.char =
      before.map Cell.char ++ (part ++ checked) := by
    rw [← List.map_append, hinit, ← hending]
    simp [Cell.char]
  have hisOpening := h.isOpening
  have hisCheck := h.isCheck
  rw [hopening, List.map_append] at hisOpening
  rw [hcheck] at hisCheck
  exact hi.not_crossing hisOpening (by simpa using hacross) hne hisCheck h.boundary hlost' hpart
    hopened

/-- No check begins in a marker that it leaves at the end. The opening of its statement would stand
in the marker as well, or begin in front of it; and if another marker ends there, it would begin in
that one. -/
theorem Inert.not_ending (hi : Inert name marker)
    (h : Tagged name marker pre opening check behind entry body post)
    {before piece : List Cell} {lost checked tail : List Char}
    (hfront : pre ++ opening = before ++ piece)
    (hmarker : marker = lost ++ (piece.map Cell.char ++ checked)) (hne : checked ≠ [])
    (hcheck : check.map Cell.char = checked ++ tail) (hlost : lost.getLast?.any isWord = false)
    (horigin : lost = [] ∧ (before.map Cell.char).getLast?.any isWord = false ∨
      Lost lost ∧ ∃ init d, before = init ++ [.laid d []]) : False := by
  rcases append_split hfront with ⟨across, rfl, hopening⟩ | ⟨start, -, rfl, rfl⟩
  swap
  · have hbound := h.boundary
    rw [List.map_append] at hbound
    rw [List.map_append, List.append_assoc, ← List.append_assoc] at hmarker
    exact hi.not_opening_inside h hmarker hne hcheck
      (any_isWord_getLast?_append hlost (any_isWord_getLast?_of_append hbound))
  by_cases hacross : across = []
  · rw [hacross, List.nil_append] at hopening
    rw [← hopening] at hmarker
    exact hi.not_opening_inside h hmarker hne hcheck hlost
  rcases horigin with ⟨rfl, hbound⟩ | ⟨-, init, d, hinit⟩
  · exact hi.not_opening_across h hopening hmarker hne hcheck hbound
  · exact hi.not_opening_behind h hopening hacross hinit hmarker hne hcheck

/-- No check begins in a marker. -/
theorem Inert.not_laid (hi : Inert name marker)
    (h : Tagged name marker pre opening check behind entry body post) {cells : List Cell} {c : Char}
    {rest : List Char} (hcheck : check = .laid c rest :: cells) : False := by
  have hlaid : Laid marker none (pre ++ opening ++ .laid c rest :: (cells ++ behind)) := by
    have := h.laid
    rw [hcheck] at this
    simpa using this
  have hlast : ((pre ++ opening).map Cell.char).getLast?.any isWord = false := by
    obtain ⟨init, e, hconcat, he⟩ := h.isOpening.exists_concat
    rw [List.map_append, hconcat, ← List.append_assoc, List.getLast?_concat]
    rcases he with rfl | hblank
    · rfl
    · exact isWord_eq_false_of_isBlank hblank
  obtain ⟨before, piece, lost, hfront, hmarker, horigin⟩ := hlaid.exists_piece
  -- what a piece has lost ends with a brace, if anything
  have hlost : lost.getLast?.any isWord = false := by
    rcases horigin with ⟨rfl, -⟩ | ⟨rfl | ⟨init, rfl⟩, -⟩
    · rfl
    · rfl
    · rw [List.getLast?_concat]
      rfl
  cases hlaid.drop with
  | cons _ hrest =>
    obtain ⟨run, back, cut, hsplit, rfl, -, hend⟩ := hrest.exists_rest
    rcases append_split hsplit with ⟨as, rfl, -⟩ | ⟨bs, hbs, rfl, rfl⟩
    · -- the whole check would stand in the marker
      have hpiece : (lost ++ piece.map Cell.char).getLast?.any isWord = false := by
        rw [hfront, List.map_append] at hlast
        exact any_isWord_getLast?_append hlost (any_isWord_getLast?_of_append hlast)
      have hwhole : marker = lost ++ piece.map Cell.char ++
          (check.map Cell.char ++ (as.map Cell.char ++ cut)) := by
        rw [hmarker, hcheck]
        simp [Cell.char]
      exact hi.not_mem_marker h.isCheck hpiece hwhole
    rcases hend with rfl | ⟨-, hbound, d, rest', back', hnext, hback⟩
    swap
    · -- the next marker would begin in the check
      obtain ⟨b, bs, rfl⟩ := List.exists_cons_of_ne_nil hbs
      rw [List.cons_append, List.cons.injEq] at hback
      obtain ⟨rfl, -⟩ := hback
      have hcheck' : check = .laid c _ :: run ++ .laid d rest' :: bs := hcheck
      refine hi.not_first h hcheck' hnext ?_
      rw [← List.append_assoc, List.map_append, ← lastChar_none, lastChar_append, List.map_cons,
        lastChar_cons]
      exact hbound
    have hchecked : check.map Cell.char = c :: run.map Cell.char ++ bs.map Cell.char := by
      rw [hcheck]
      simp [Cell.char]
    rw [List.append_nil] at hmarker
    exact hi.not_ending h hfront hmarker (by simp) hchecked hlost horigin

/-- The check of a statement has no character of a marker. -/
theorem Inert.kept_of_tagged (hi : Inert name marker)
    (h : Tagged name marker pre opening check behind entry body post) :
    ∀ cell ∈ check, ∃ c, cell = .kept c := by
  -- in front of the first laid cell stands the opening or a kept character
  have hkept : ∀ cells front : List Cell, check = front ++ cells →
      (∀ cell ∈ front, ∃ c, cell = .kept c) → ∀ cell ∈ cells, ∃ c, cell = .kept c := by
    intro cells
    induction cells with
    | nil => simp
    | cons cell cells ih =>
      intro front hcheck hfront
      have hcell : ∃ c, cell = .kept c := by
        cases cell with
        | kept c => exact ⟨c, rfl⟩
        | laid c rest =>
          cases front using List.reverseRecOn with
          | nil => exact (hi.not_laid h hcheck).elim
          | append_singleton front last =>
            obtain ⟨k, rfl⟩ := hfront last (by simp)
            have hlaid : Laid marker none (pre ++ (opening ++ (front ++ [.kept k])) ++
                .laid c rest :: (cells ++ behind)) := by
              have := h.laid
              rw [hcheck] at this
              simpa using this
            have hdrop := hlaid.drop
            rw [← List.append_assoc, ← List.append_assoc, List.getLast?_concat] at hdrop
            cases hdrop with
            | cons hfollows _ =>
              cases hfollows with
              | first hmarker hbound =>
                refine (hi.not_first h hcheck hmarker ?_).elim
                rw [← List.append_assoc, ← List.append_assoc, List.map_append, List.map_singleton,
                  List.getLast?_concat]
                exact hbound
      intro cell' hmem
      rcases List.mem_cons.1 hmem with rfl | hmem
      · exact hcell
      · refine ih (front ++ [cell]) (by rw [hcheck]; simp) (fun cell'' hmem' => ?_) cell' hmem
        rcases List.mem_append.1 hmem' with hmem' | hmem'
        · exact hfront cell'' hmem'
        · rw [List.mem_singleton.1 hmem']
          exact hcell
  exact hkept check [] rfl (by simp)

end WorkflowRepair.Repair
