import WorkflowRepair.Proofs.Script.Inert

/-!
# How an inert marker settles a script

A pass is followed on cells. In the shade of the laid cells no check begins, so what is counted are
the checks that were there from the start. Every replaced statement has one of these, so as many
passes as there were checks settle a script.
-/

namespace WorkflowRepair.Repair

open Text

variable {name marker code out : List Char} {limit count : Nat} {before : Option Char}
  {done opening check behind cells : List Cell}

/-! ## Shades -/

theorem map_shade_lay (marker : List Char) :
    (lay marker).map Cell.shade = List.replicate marker.length '}' := by
  induction marker with
  | nil => rfl
  | cons c rest ih => rw [lay, List.map_cons, ih]; rfl

theorem Cell.isWord_shade {cell : Cell} (h : isWord cell.char = false) :
    isWord cell.shade = false := by
  cases cell with
  | kept c => exact h
  | laid c rest => rfl

theorem Cell.shade_of_char {cell : Cell} (h : cell.char = '}') : cell.shade = '}' := by
  cases cell with
  | kept c => exact h
  | laid c rest => rfl

theorem map_shade_of_kept (h : ∀ cell ∈ cells, ∃ c, cell = .kept c) :
    cells.map Cell.shade = cells.map Cell.char := by
  apply List.map_congr_left
  intro cell hcell
  obtain ⟨c, rfl⟩ := h cell hcell
  rfl

/-- No check begins or ends at a shade. -/
theorem clear_isCheck_shade (hname : Settings.isIdentifier name = true) :
    Clear (IsCheck name) ['}'] := by
  apply clear_of_barrier
  · intro text htext hmem
    exact (htext.noBrace hname '}' hmem).2 rfl
  · intro xs ys back text hsplit hys
    exact absurd (List.append_eq_nil_iff.1 hsplit.symm).2 hys

theorem exists_map_shade_lay (hne : marker ≠ []) (cells : List Cell) :
    ∃ rest, (lay marker ++ cells).map Cell.shade = '}' :: rest := by
  obtain ⟨c, rest, rfl⟩ := List.exists_cons_of_ne_nil hne
  exact ⟨_, rfl⟩

theorem countStarts_map_shade_lay (hname : Settings.isIdentifier name = true) (hne : marker ≠ [])
    (before : Option Char) (cells : List Cell) :
    countStarts (checkBegins name) before ((lay marker ++ cells).map Cell.shade) =
      countStarts (checkBegins name) (some '}') (cells.map Cell.shade) := by
  have hlast : lastChar before (List.replicate marker.length '}') = some '}' := by
    obtain ⟨c, rest, rfl⟩ := List.exists_cons_of_ne_nil hne
    rw [List.length_cons, List.replicate_succ', lastChar_concat]
  have hnone : NoneBegins (IsCheck name) before (List.replicate marker.length '}')
      (cells.map Cell.shade) := by
    refine noneBegins_of_head fun text htext => ?_
    obtain ⟨c, tail, rfl⟩ := List.exists_cons_of_ne_nil htext.ne_nil
    refine ⟨c, tail, rfl, fun hmem => ?_⟩
    rw [List.eq_of_mem_replicate hmem] at htext
    exact (htext.noBrace hname '}' (by simp)).2 rfl
  rw [List.map_append, map_shade_lay, countStarts_append_of_noneBegins checkBegins_iff hnone, hlast]

/-! ## One pass -/

/-- A marker in front of a statement goes on with nothing but a part of its opening. -/
theorem Laid.plain_of_opening {c : Char} {rest : List Char}
    (h : Laid marker (some (.laid c rest)) (opening ++ (check ++ behind)))
    (hopening : IsOpening (opening.map Cell.char)) (hne : check ≠ [])
    (hkept : ∀ cell ∈ check, ∃ c, cell = .kept c) : Plain rest := by
  obtain ⟨run, back, cut, hsplit, rfl, hrun, hend⟩ := h.exists_rest
  have hcut : Plain cut := by
    rcases hend with rfl | ⟨hplain, -⟩
    · exact ⟨by simp [NoBrace], by simp⟩
    · exact hplain
  rcases append_split hsplit with ⟨as, rfl, hcheck⟩ | ⟨bs, -, rfl, -⟩
  · -- the marker would go on in the check
    cases as with
    | nil =>
      rw [List.append_nil]
      exact hopening.plain.append hcut
    | cons a as =>
      obtain ⟨x, xs, rfl⟩ := List.exists_cons_of_ne_nil hne
      rw [List.cons_append, List.cons_append, List.cons.injEq] at hcheck
      obtain ⟨c, rfl⟩ := hkept x (by simp)
      exact absurd (by simp [← hcheck.1]) (hrun c)
  · rw [List.map_append] at hopening
    exact hopening.plain.of_append.append hcut

/-- The cells of a statement that is replaced, behind `done`. -/
theorem exists_tagged {text rest : List Char} {statement : List Cell}
    (hlaid : Laid marker none (done ++ (statement ++ cells))) (htext : IsStatement name text)
    (hstatement : statement.map Cell.char = text) (hrest : cells.map Cell.char = rest)
    (hbound : (done.map Cell.char).getLast?.any isWord = false) :
    ∃ opening check closing entry body, statement = opening ++ (check ++ closing) ∧
      Tagged name marker done opening check (closing ++ cells) entry body rest := by
  obtain ⟨open', check', entry, body, hopening, hcheck, hentry, hbody, rfl⟩ :=
    isStatement_iff.1 htext
  obtain ⟨opening, tail, rfl, rfl, htail⟩ := List.map_eq_append_iff.1 hstatement
  obtain ⟨check, closing, rfl, rfl, hclosing⟩ := List.map_eq_append_iff.1 htail
  refine ⟨opening, check, closing, entry, body, rfl,
    ⟨?_, hopening, hcheck, hentry, hbody, hbound⟩, by simpa using hlaid⟩
  simp [hclosing, hrest]

theorem exists_last_of_isStatement {text : List Char} {statement : List Cell}
    (htext : IsStatement name text) (hstatement : statement.map Cell.char = text) :
    ∃ init last, statement = init ++ [last] ∧ last.char = '}' := by
  obtain ⟨text, rfl⟩ := htext.exists_concat
  obtain ⟨init, last, rfl, -, hlast⟩ := List.map_eq_append_iff.1 hstatement
  obtain ⟨cell, rfl, hcell⟩ := List.map_eq_singleton_iff.1 hlast
  exact ⟨init, cell, rfl, hcell⟩

/-- With a replaced statement goes a check that was there from the start. -/
theorem Tagged.countStarts_lt {pre closing : List Cell} {entry body post : List Char}
    (hi : Inert name marker)
    (h : Tagged name marker pre opening check (closing ++ cells) entry body post)
    (before : Option Char) :
    countStarts (checkBegins name)
        (lastChar before ((opening ++ (check ++ closing)).map Cell.shade)) (cells.map Cell.shade) <
      countStarts (checkBegins name) before
        ((opening ++ (check ++ closing)).map Cell.shade ++ cells.map Cell.shade) := by
  have hshade := map_shade_of_kept (hi.kept_of_tagged h)
  have hlast : (lastChar before (opening.map Cell.shade)).any isWord = false := by
    obtain ⟨init, e, hconcat, he⟩ := h.isOpening.exists_concat
    obtain ⟨init, last, rfl, -, hlast⟩ := List.map_eq_append_iff.1 hconcat
    obtain ⟨cell, rfl, rfl⟩ := List.map_eq_singleton_iff.1 hlast
    rw [List.map_append, List.map_singleton, lastChar_concat]
    apply Cell.isWord_shade
    rcases he with he | hblank
    · rw [he]
      rfl
    · exact isWord_eq_false_of_isBlank hblank
  -- the check is all kept, so it is still to be seen among the shades
  have hocc : Occurs (IsCheck name) before
      ((opening ++ (check ++ closing)).map Cell.shade ++ cells.map Cell.shade)
      (opening.map Cell.shade) (check.map Cell.char) ((closing ++ cells).map Cell.shade) := by
    refine ⟨by simp [hshade], h.isCheck, ?_⟩
    obtain ⟨c, tail, hcons⟩ := List.exists_cons_of_ne_nil h.isCheck.ne_nil
    have hword := beginsWithWord_isCheck hi.identifier _ h.isCheck
    rw [hcons] at hword ⊢
    exact isBoundary_of_any_isWord hlast hword
  refine countStarts_lt_of_occurs checkBegins_iff _ hocc ?_
  have := List.length_pos_iff.2 h.isCheck.ne_nil
  simp only [List.length_map, List.length_append] at this ⊢
  omega

/-- The marker that is laid in its place takes that check away. -/
theorem Tagged.countStarts_laid_le {closing init cells' : List Cell} {last : Cell}
    {entry body post : List Char} (hi : Inert name marker)
    (h : Tagged name marker done opening check (closing ++ cells) entry body post)
    (hsplit : opening ++ (check ++ closing) = init ++ [last]) (hlast : last.char = '}')
    (before : Option Char)
    (hcount : countStarts (checkBegins name) (some '}') (cells'.map Cell.shade) + count ≤
      countStarts (checkBegins name) (some '}') (cells.map Cell.shade)) :
    countStarts (checkBegins name) before ((lay marker ++ cells').map Cell.shade) + (count + 1) ≤
      countStarts (checkBegins name) before
        ((opening ++ (check ++ closing) ++ cells).map Cell.shade) := by
  have hless := h.countStarts_lt hi before
  have hlastShade : lastChar before ((opening ++ (check ++ closing)).map Cell.shade) =
      some '}' := by
    rw [hsplit, List.map_append, List.map_singleton, lastChar_concat, Cell.shade_of_char hlast]
  rw [hlastShade] at hless
  rw [countStarts_map_shade_lay hi.identifier hi.ne_nil, List.map_append]
  omega

/-- What stands in front of a replaced statement can stand in front of a marker. -/
theorem Tagged.follows {entry body post : List Char} {c : Char} {rest : List Char}
    (hi : Inert name marker) (h : Tagged name marker done opening check behind entry body post)
    (hmarker : marker = c :: rest) : Follows marker done.getLast? (.laid c rest) := by
  refine .first hmarker ?_ fun d rest' hlast => ?_
  · rw [← List.getLast?_map]
    exact h.boundary
  · cases done using List.reverseRecOn with
    | nil => simp at hlast
    | append_singleton done last =>
      rw [List.getLast?_concat, Option.some.injEq] at hlast
      subst hlast
      have hlaid : Laid marker none (done ++ .laid d rest' :: (opening ++ (check ++ behind))) := by
        simpa using h.laid
      cases hlaid.drop with
      | cons _ hrest =>
        have hne : check ≠ [] := by
          rintro rfl
          exact h.isCheck.ne_nil rfl
        exact hrest.plain_of_opening h.isOpening hne (hi.kept_of_tagged h)

/-- A marker can be laid in the place of a statement. -/
theorem Tagged.laid_replaced {closing init cells' : List Cell} {last : Cell}
    {entry body post : List Char} (hi : Inert name marker)
    (h : Tagged name marker done opening check (closing ++ cells) entry body post)
    (hsplit : opening ++ (check ++ closing) = init ++ [last]) (hlast : last.char = '}')
    (hcells' : Laid marker (some last) cells') :
    Laid marker done.getLast? (lay marker ++ cells') := by
  refine .lay_append hi.ne_nil (fun c rest => h.follows hi) fun d => ?_
  refine hcells'.of_brace hlast (fun e rest he => ?_) d
  subst he
  have hlaid : Laid marker none (done ++ init ++ .laid e rest :: cells) := by
    have hall : opening ++ (check ++ (closing ++ cells)) = init ++ .laid e rest :: cells := by
      rw [← List.append_assoc check, ← List.append_assoc, hsplit]
      simp
    rw [List.append_assoc, ← hall]
    exact h.laid
  exact hlaid.exists_lost

/-- A pass over cells. It lays its markers, and counts down the checks that were there from the
start. -/
theorem Replaced.exists_laid (hi : Inert name marker)
    (h : Replaced name marker limit before code out count)
    (hlaid : Laid marker none (done ++ cells)) (hcode : cells.map Cell.char = code)
    (hbefore : (done.map Cell.char).getLast? = before) :
    ∃ cells', cells'.map Cell.char = out ∧ Laid marker done.getLast? cells' ∧
      Agrees ['}'] (cells.map Cell.shade) (cells'.map Cell.shade) ∧
      countStarts (checkBegins name) (done.map Cell.shade).getLast? (cells'.map Cell.shade) +
          count ≤
        countStarts (checkBegins name) (done.map Cell.shade).getLast? (cells.map Cell.shade) := by
  have hname := hi.identifier
  induction h generalizing done cells with
  | nil | stop =>
    have hrest := hlaid.drop
    rw [Option.or_none] at hrest
    exact ⟨cells, hcode, hrest, .refl _ _, Nat.le_refl _⟩
  | @keep limit before c rest out count hnot hrest ih =>
    obtain ⟨cell, cells, rfl, rfl, rfl⟩ := List.map_eq_cons_iff.1 hcode
    have hlaid' : Laid marker none (done ++ [cell] ++ cells) := by simpa using hlaid
    obtain ⟨cells', hchars, hcells', hagrees, hcount⟩ := ih hlaid' rfl (by simp)
    have hdrop := hlaid.drop
    rw [Option.or_none] at hdrop
    rw [List.getLast?_concat] at hcells'
    rw [List.map_append, List.map_singleton, List.getLast?_concat] at hcount
    cases hdrop with
    | cons hfollows _ =>
      refine ⟨cell :: cells', by rw [List.map_cons, hchars], .cons hfollows hcells',
        hagrees.cons _, ?_⟩
      exact hagrees.countStarts_cons_le hname (clear_isCheck_shade hname) id hcount
  | @replace limit before text rest out count htext hbound hlimit hrest ih =>
    obtain ⟨statement, cells, rfl, hstatement, hcells⟩ := List.map_eq_append_iff.1 hcode
    have hbound' : (done.map Cell.char).getLast?.any isWord = false := by
      obtain ⟨tail, rfl⟩ := htext.exists_cons
      rw [hbefore]
      exact any_isWord_of_isBoundary hbound rfl
    obtain ⟨opening, check, closing, entry, body, rfl, htagged⟩ :=
      exists_tagged hlaid htext hstatement hcells hbound'
    obtain ⟨init, last, hsplit, hlast⟩ := exists_last_of_isStatement htext hstatement
    have hlaid' : Laid marker none (done ++ (opening ++ (check ++ closing)) ++ cells) := by
      simpa using hlaid
    have hdone : ∀ f : Cell → Char,
        ((done ++ (opening ++ (check ++ closing))).map f).getLast? = some (f last) := by
      intro f
      rw [hsplit, ← List.append_assoc, List.map_append, List.map_singleton, List.getLast?_concat]
    obtain ⟨cells', hchars, hcells', hagrees, hcount⟩ :=
      ih hlaid' hcells (by rw [hdone, hlast])
    -- what follows the statement follows its closing brace, and so it can follow the marker
    rw [hdone, Cell.shade_of_char hlast] at hcount
    rw [hsplit, ← List.append_assoc, List.getLast?_concat] at hcells'
    refine ⟨lay marker ++ cells', by rw [List.map_append, map_char_lay, hchars],
      htagged.laid_replaced hi hsplit hlast hcells', ?_, ?_⟩
    · obtain ⟨rest, hrest⟩ := exists_map_shade_lay hi.ne_nil cells'
      exact Or.inr ⟨[], _, rest, rfl, hrest⟩
    · exact htagged.countStarts_laid_le hi hsplit hlast _ hcount

/-! ## Many passes -/

/-- A pass that finds something leaves fewer of the checks that were there from the start. -/
theorem Laid.exists_pass (hi : Inert name marker) (hlaid : Laid marker none cells)
    (h : HasPremature name (cells.map Cell.char)) :
    ∃ cells', cells'.map Cell.char = pass name marker (cells.map Cell.char) ∧
      Laid marker none cells' ∧
      countStarts (checkBegins name) none (cells'.map Cell.shade) <
        countStarts (checkBegins name) none (cells.map Cell.shade) := by
  obtain ⟨declared, removed, hreplaced, hne⟩ :=
    exists_replaced_of_hasPremature hi.identifier h marker
  rw [← List.nil_append cells] at hlaid
  obtain ⟨cells', hchars, hcells', -, hcount⟩ := hreplaced.exists_laid hi hlaid rfl rfl
  simp only [List.map_nil, List.getLast?_nil] at hcount
  exact ⟨cells', hchars, hcells', by omega⟩

theorem Laid.not_hasPremature_iterate (hi : Inert name marker) {n : Nat}
    (hlaid : Laid marker none cells)
    (hle : countStarts (checkBegins name) none (cells.map Cell.shade) ≤ n) :
    ¬ HasPremature name ((pass name marker)^[n] (cells.map Cell.char)) := by
  -- the number of checks among the shades is the bound
  refine not_hasPremature_iterate_of_bound hi.identifier
    (fun code n => ∃ cells, cells.map Cell.char = code ∧ Laid marker none cells ∧
      countStarts (checkBegins name) none (cells.map Cell.shade) = n)
    ?_ ⟨cells, rfl, hlaid, rfl⟩ hle
  rintro _ n ⟨cells, rfl, hlaid, rfl⟩ h
  obtain ⟨cells', hchars, hcells', hless⟩ := hlaid.exists_pass hi h
  exact ⟨_, hless, cells', hchars, hcells', rfl⟩

/-- An inert marker settles every script in as many passes as the script has checks. -/
theorem Inert.not_hasPremature_iterate (hi : Inert name marker) (code : List Char) :
    ¬ HasPremature name ((pass name marker)^[countChecks name code] code) := by
  have hchars : (code.map Cell.kept).map Cell.char = code := by
    rw [List.map_map]
    exact List.map_id code
  have hshade : (code.map Cell.kept).map Cell.shade = code := by
    rw [List.map_map]
    exact List.map_id code
  have hle : countStarts (checkBegins name) none ((code.map Cell.kept).map Cell.shade) ≤
      countChecks name code := by
    rw [hshade, countChecks_eq_countStarts hi.identifier]
  have hsettled := (laid_map_kept marker code).not_hasPremature_iterate hi hle
  rwa [hchars] at hsettled

end WorkflowRepair.Repair
