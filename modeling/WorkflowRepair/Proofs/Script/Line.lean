import WorkflowRepair.Proofs.Script.Limit
import WorkflowRepair.Proofs.Script.Loop

/-!
# The line of a marker

The built-in marker is a comment that goes on to the end of its line, so whatever else stands on
that line behind it is no code any more.

A patched script is made of pieces: characters of the script it comes from, and markers, each of
which remembers the text it took the place of. `Traced` follows the pieces from pass to pass.

* `Intact.exists_patches`: if statements hold the marker whole or not at all, every pass is a pass
  over pieces;
* `Traced.source_eq`: no pass loses a character of the script but into a marker;
* `endsLine_written`: a marker ends its line exactly if the text it took the place of ended its
  line in the script.
-/

namespace WorkflowRepair.Repair

open Text

/-! ## Lines -/

/-- The characters that end a line, and with it a comment. -/
def isLineEnd (c : Char) : Bool := c == '\n' || c == '\r' || c == '\u2028' || c == '\u2029'

/-- Whether nothing but blanks stands in front of the end of the line. -/
def endsLine (cs : List Char) : Bool :=
  (cs.dropWhile fun c => isBlank c && !isLineEnd c).head?.all isLineEnd

theorem endsLine_cons_of_blank {c : Char} {cs : List Char} (hblank : isBlank c = true)
    (hinside : isLineEnd c = false) : endsLine (c :: cs) = endsLine cs := by
  simp [endsLine, hblank, hinside]

theorem endsLine_cons_of_not {c : Char} {cs : List Char}
    (h : (isBlank c && !isLineEnd c) = false) : endsLine (c :: cs) = isLineEnd c := by
  simp [endsLine, h]

theorem isLineEnd_eq_false_of_not_isBlank {c : Char} (h : isBlank c = false) :
    isLineEnd c = false := by
  cases hend : isLineEnd c with
  | false => rfl
  | true =>
    simp only [isLineEnd, Bool.or_eq_true, beq_iff_eq] at hend
    rcases hend with ((rfl | rfl) | rfl) | rfl <;> exact absurd h (by decide)

/-- Code ends no line. -/
theorem endsLine_cons_of_not_isBlank {c : Char} {cs : List Char} (h : isBlank c = false) :
    endsLine (c :: cs) = false := by
  have hinside : (isBlank c && !isLineEnd c) = false := by rw [h]; rfl
  rw [endsLine_cons_of_not hinside, isLineEnd_eq_false_of_not_isBlank h]

/-! ## Pieces -/

/-- A piece of a script that is being patched. -/
inductive Piece where
  /-- A character of the script from before. -/
  | kept (c : Char)
  /-- A marker, with the text of the script from before that it took the place of. -/
  | marker (removed : List Char)
deriving DecidableEq

/-- The script from before. -/
def source : List Piece → List Char
  | [] => []
  | .kept c :: pieces => c :: source pieces
  | .marker removed :: pieces => removed ++ source pieces

/-- The script as it is now. -/
def written (marker : List Char) : List Piece → List Char
  | [] => []
  | .kept c :: pieces => c :: written marker pieces
  | .marker _ :: pieces => marker ++ written marker pieces

variable {name marker code out : List Char} {limit count removed : Nat} {before : Option Char}
  {pieces pieces' : List Piece}

@[simp]
theorem source_append (pieces pieces' : List Piece) :
    source (pieces ++ pieces') = source pieces ++ source pieces' := by
  induction pieces with
  | nil => rfl
  | cons piece pieces ih => cases piece <;> simp [source, ih]

@[simp]
theorem written_append (marker : List Char) (pieces pieces' : List Piece) :
    written marker (pieces ++ pieces') = written marker pieces ++ written marker pieces' := by
  induction pieces with
  | nil => rfl
  | cons piece pieces ih => cases piece <;> simp [written, ih]

theorem source_map_kept (code : List Char) : source (code.map Piece.kept) = code := by
  induction code with
  | nil => rfl
  | cons c code ih => rw [List.map_cons, source, ih]

theorem written_map_kept (marker code : List Char) :
    written marker (code.map Piece.kept) = code := by
  induction code with
  | nil => rfl
  | cons c code ih => rw [List.map_cons, written, ih]

/-- A split of a script splits its pieces, or it splits a marker. -/
theorem exists_pieces_of_written {front back : List Char}
    (h : written marker pieces = front ++ back) :
    (∃ fronts backs, pieces = fronts ++ backs ∧ written marker fronts = front ∧
      written marker backs = back) ∨
    ∃ init last, marker = init ++ last ∧ init ≠ [] ∧ init <:+ front := by
  induction pieces generalizing front with
  | nil =>
    have hnil : front = [] ∧ back = [] := List.append_eq_nil_iff.1 h.symm
    exact Or.inl ⟨[], [], rfl, hnil.1.symm, hnil.2.symm⟩
  | cons piece pieces ih =>
    by_cases hfront : front = []
    · subst hfront
      exact Or.inl ⟨[], piece :: pieces, rfl, rfl, h⟩
    cases piece with
    | kept c =>
      rcases List.exists_cons_of_ne_nil hfront with ⟨d, front, rfl⟩
      simp only [written, List.cons_append, List.cons.injEq] at h
      rcases ih h.2 with ⟨fronts, backs, rfl, hfronts, hbacks⟩ | ⟨init, last, hmarker, hne, hle⟩
      · exact Or.inl ⟨.kept c :: fronts, backs, rfl, by rw [written, hfronts, h.1], hbacks⟩
      · exact Or.inr ⟨init, last, hmarker, hne, hle.trans (List.suffix_cons d front)⟩
    | marker removed =>
      rcases append_split h with ⟨as, rfl, has⟩ | ⟨bs, -, hmarker, -⟩
      · rcases ih has with ⟨fronts, backs, rfl, hfronts, hbacks⟩ | ⟨init, last, hmarker, hne, hle⟩
        · exact Or.inl ⟨.marker removed :: fronts, backs, rfl, by rw [written, hfronts], hbacks⟩
        · exact Or.inr ⟨init, last, hmarker, hne, hle.trans (List.suffix_append marker as)⟩
      · exact Or.inr ⟨front, bs, hmarker, hfront, List.suffix_refl front⟩

/-! ## Passes over pieces -/

/-- One pass over the pieces behind `before`. -/
inductive Patches (name marker : List Char) :
    (limit : Nat) → (before : Option Char) → (pieces pieces' : List Piece) → Prop
  | nil {limit : Nat} {before : Option Char} : Patches name marker limit before [] []
  /-- A marker from an earlier pass stays. -/
  | pass {limit : Nat} {before : Option Char} {text : List Char} {pieces pieces' : List Piece}
      (hrest : Patches name marker (limit - marker.length) (lastChar before marker) pieces
        pieces') :
      Patches name marker limit before (.marker text :: pieces) (.marker text :: pieces')
  /-- No statement begins here: the character is kept. -/
  | keep {limit : Nat} {before : Option Char} {c : Char} {pieces pieces' : List Piece}
      (hnot : ¬ Begins (IsStatement name) before (c :: written marker pieces))
      (hrest : Patches name marker (limit - 1) (some c) pieces pieces') :
      Patches name marker limit before (.kept c :: pieces) (.kept c :: pieces')
  /-- A statement begins here and ends beyond the limit: the pass is over. -/
  | stop {limit : Nat} {before : Option Char} {statement pieces : List Piece}
      (htext : IsStatement name (written marker statement))
      (hbound : isBoundary before (written marker statement).head? = true)
      (hlimit : limit < (written marker statement).length) :
      Patches name marker limit before (statement ++ pieces) (statement ++ pieces)
  /-- A statement begins here and ends in time: a marker takes the place of all that it is made
  of. -/
  | replace {limit : Nat} {before : Option Char} {statement pieces pieces' : List Piece}
      (htext : IsStatement name (written marker statement))
      (hbound : isBoundary before (written marker statement).head? = true)
      (hlimit : (written marker statement).length ≤ limit)
      (hrest : Patches name marker (limit - (written marker statement).length) (some '}') pieces
        pieces') :
      Patches name marker limit before (statement ++ pieces) (.marker (source statement) :: pieces')

theorem Patches.source_eq (h : Patches name marker limit before pieces pieces') :
    source pieces' = source pieces := by
  induction h with
  | nil => rfl
  | pass _ ih => rw [source, source, ih]
  | keep _ _ ih => rw [source, source, ih]
  | stop => rfl
  | replace _ _ _ _ ih => rw [source, source_append, ih]

/-- Statements hold the marker whole or not at all: none begins in it, and none ends in it. It does
not begin as a statement does, nor with a blank. -/
structure Intact (name marker : List Char) : Prop where
  head : ∃ c rest, marker = c :: rest ∧ c ≠ 'i' ∧ isBlank c = false
  noBrace : NoBrace marker
  noneBegins : ∀ before back, NoneBegins (IsStatement name) before marker back

/-- A pass passes over a part in front where no statement begins. -/
theorem Replaced.of_append_left {front back : List Char}
    (hnone : NoneBegins (IsStatement name) before front back)
    (h : Replaced name marker limit before (front ++ back) out count) :
    ∃ out', out = front ++ out' ∧
      Replaced name marker (limit - front.length) (lastChar before front) back out' count := by
  induction front generalizing limit before out with
  | nil => exact ⟨out, rfl, h⟩
  | cons c front ih =>
    rw [noneBegins_cons_iff] at hnone
    generalize hcode : c :: front ++ back = code at h
    -- a statement at the head is excluded, so the first step keeps the character
    have hhead : ¬ Begins (IsStatement name) before code := by
      rw [← hcode]
      exact hnone.1
    cases h with
    | nil => simp at hcode
    | keep hnot hrest =>
      simp only [List.cons_append, List.cons.injEq] at hcode
      obtain ⟨rfl, rfl⟩ := hcode
      obtain ⟨out', rfl, hout⟩ := ih hnone.2 hrest
      refine ⟨out', rfl, ?_⟩
      rw [lastChar_cons, List.length_cons, Nat.add_comm, Nat.sub_add_eq]
      exact hout
    | stop htext hbound => exact absurd (htext.occurs_head hbound _).begins hhead
    | replace htext hbound => exact absurd (htext.occurs_head hbound _).begins hhead

namespace Intact

/-- The pieces of a statement. -/
theorem exists_pieces (hi : Intact name marker) {text rest : List Char}
    (htext : IsStatement name text) (h : written marker pieces = text ++ rest) :
    ∃ statement behind, pieces = statement ++ behind ∧ written marker statement = text ∧
      written marker behind = rest := by
  rcases exists_pieces_of_written h with hpieces | ⟨init, last, hmarker, hne, hsuffix⟩
  · exact hpieces
  · -- otherwise the closing brace would stand in the marker
    obtain ⟨front, hfront⟩ := htext.exists_concat
    obtain ⟨front', hinit⟩ := hsuffix
    have hlast : front' ++ init = front ++ ['}'] := by rw [hinit, hfront]
    obtain ⟨init', rfl⟩ := exists_concat_of_append hlast hne
    have hbrace := hi.noBrace '}' (by rw [hmarker]; simp)
    exact absurd rfl hbrace.2

/-- A pass over a script is a pass over its pieces. -/
theorem exists_patches (hi : Intact name marker)
    (h : Replaced name marker limit before (written marker pieces) out count) :
    ∃ pieces', Patches name marker limit before pieces pieces' ∧ written marker pieces' = out := by
  -- behind a statement the pass goes on with fewer pieces, so the induction is on their number
  induction hlen : pieces.length using Nat.strongRecOn
    generalizing limit before pieces out count with
  | ind n ih =>
    cases pieces with
    | nil => exact ⟨[], .nil, h.of_nil.1.symm⟩
    | cons piece pieces =>
      have hshort : pieces.length < n := by rw [← hlen]; simp
      cases piece with
      | marker removed =>
        obtain ⟨out', rfl, hrest⟩ := h.of_append_left (hi.noneBegins before _)
        obtain ⟨pieces', hpatches, rfl⟩ := ih _ hshort hrest rfl
        exact ⟨.marker removed :: pieces', .pass hpatches, rfl⟩
      | kept c =>
        generalize hcode : written marker (.kept c :: pieces) = code at h
        cases h with
        | nil => simp [written] at hcode
        | keep hnot hrest =>
          simp only [written, List.cons.injEq] at hcode
          obtain ⟨rfl, rfl⟩ := hcode
          obtain ⟨pieces', hpatches, rfl⟩ := ih _ hshort hrest rfl
          exact ⟨.kept c :: pieces', .keep hnot hpatches, rfl⟩
        | stop htext hbound hlimit =>
          obtain ⟨statement, behind, hsplit, rfl, rfl⟩ := hi.exists_pieces htext hcode
          rw [hsplit]
          exact ⟨statement ++ behind, .stop htext hbound hlimit, by simp⟩
        | replace htext hbound hlimit hrest =>
          obtain ⟨statement, behind, hsplit, rfl, rfl⟩ := hi.exists_pieces htext hcode
          have hfewer : behind.length < n := by
            have hne : statement ≠ [] := by
              rintro rfl
              exact absurd htext.length_pos (by simp [written])
            have := List.length_pos_iff.2 hne
            rw [← hlen, hsplit, List.length_append]
            omega
          obtain ⟨pieces', hpatches, rfl⟩ := ih _ hfewer hrest rfl
          rw [hsplit]
          exact ⟨.marker (source statement) :: pieces', .replace htext hbound hlimit hpatches, rfl⟩

end Intact

/-! ## Runs over pieces -/

/-- What becomes of the pieces of a script, pass after pass. -/
inductive Traced (name marker code : List Char) : List Piece → Prop
  | start : Traced name marker code (code.map Piece.kept)
  | pass {pieces pieces' : List Piece} {declared : Nat} (h : Traced name marker code pieces)
      (hdecl : firstDeclaration name (written marker pieces) = some declared)
      (hpatches : Patches name marker declared none pieces pieces') :
      Traced name marker code pieces'

theorem Traced.source_eq (h : Traced name marker code pieces) : source pieces = code := by
  induction h with
  | start => exact source_map_kept code
  | pass _ _ hpatches ih => rw [hpatches.source_eq, ih]

/-- What a marker took the place of begins as a statement does. -/
theorem Patches.head_of_marker (hi : Intact name marker)
    (h : Patches name marker limit before pieces pieces')
    (hpieces : ∀ text, Piece.marker text ∈ pieces → text.head? = some 'i') :
    ∀ text, Piece.marker text ∈ pieces' → text.head? = some 'i' := by
  induction h with
  | nil => exact hpieces
  | pass _ ih =>
    intro text hmem
    rcases List.mem_cons.1 hmem with heq | hmem
    · exact hpieces text (by rw [heq]; simp)
    · exact ih (fun text hmem => hpieces text (by simp [hmem])) text hmem
  | keep _ _ ih =>
    intro text hmem
    rcases List.mem_cons.1 hmem with heq | hmem
    · simp at heq
    · exact ih (fun text hmem => hpieces text (by simp [hmem])) text hmem
  | stop => exact hpieces
  | @replace _ _ statement _ _ htext _ _ _ ih =>
    intro text hmem
    rcases List.mem_cons.1 hmem with heq | hmem
    · -- the marker begins otherwise, so the statement begins with a kept character
      injection heq with heq
      obtain ⟨tail, htail⟩ := htext.exists_cons
      cases statement with
      | nil => simp [written] at htail
      | cons piece statement =>
        cases piece with
        | kept c =>
          simp only [written, List.cons.injEq] at htail
          rw [heq, source, List.head?_cons, htail.1]
        | marker removed =>
          obtain ⟨c, rest, hmarker, hc, -⟩ := hi.head
          rw [written, hmarker, List.cons_append, List.cons.injEq] at htail
          exact absurd htail.1 hc
    · exact ih (fun text hmem => hpieces text (by simp [hmem])) text hmem

theorem Traced.head_of_marker (hi : Intact name marker) (h : Traced name marker code pieces) :
    ∀ text, Piece.marker text ∈ pieces → text.head? = some 'i' := by
  induction h with
  | start => simp
  | pass _ _ hpatches ih => exact hpatches.head_of_marker hi ih

/-- Every number of passes over a script is a trace of its pieces. -/
theorem Intact.exists_traced (hname : Settings.isIdentifier name = true)
    (hi : Intact name marker) (code : List Char) (n : Nat) :
    ∃ pieces, Traced name marker code pieces ∧
      written marker pieces = (pass name marker)^[n] code := by
  induction n with
  | zero => exact ⟨_, .start, written_map_kept marker code⟩
  | succ n ih =>
    obtain ⟨pieces, htraced, hwritten⟩ := ih
    rw [Function.iterate_succ_apply', ← hwritten]
    cases hdecl : firstDeclaration name (written marker pieces) with
    | none => exact ⟨pieces, htraced, (pass_of_firstDeclaration_eq_none hdecl).symm⟩
    | some declared =>
      obtain ⟨removed, hreplaced⟩ := exists_replaced_pass hname marker hdecl
      obtain ⟨pieces', hpatches, hpass⟩ := hi.exists_patches hreplaced
      exact ⟨pieces', .pass htraced hdecl hpatches, hpass⟩

/-- What stands behind a marker on its line stood behind the text it took the place of. -/
theorem Intact.endsLine_written (hi : Intact name marker)
    (hpieces : ∀ text, Piece.marker text ∈ pieces → text.head? = some 'i') :
    endsLine (written marker pieces) = endsLine (source pieces) := by
  induction pieces with
  | nil => rfl
  | cons piece pieces ih =>
    cases piece with
    | kept c =>
      by_cases hblank : (isBlank c && !isLineEnd c) = true
      · have hc : isBlank c = true ∧ isLineEnd c = false := by simpa using hblank
        rw [written, source, endsLine_cons_of_blank hc.1 hc.2, endsLine_cons_of_blank hc.1 hc.2]
        exact ih fun text hmem => hpieces text (by simp [hmem])
      · have hc := Bool.eq_false_iff.2 hblank
        rw [written, source, endsLine_cons_of_not hc, endsLine_cons_of_not hc]
    | marker removed =>
      -- neither a marker nor a statement ends the line in front of it
      have hhead := hpieces removed (by simp)
      obtain ⟨tail, rfl⟩ : ∃ tail, removed = 'i' :: tail := by
        cases removed with
        | nil => simp at hhead
        | cons c tail => exact ⟨tail, by rw [List.head?_cons, Option.some.injEq] at hhead; rw [hhead]⟩
      obtain ⟨c, rest, rfl, -, hc⟩ := hi.head
      rw [written, source, List.cons_append, List.cons_append, endsLine_cons_of_not_isBlank hc,
        endsLine_cons_of_not_isBlank (by decide)]

/-! ## The built-in marker -/

theorem agree_if : ∀ ys ∈ defaultMarker.tails, ys ≠ [] → agree ['i', 'f'] ys = false := by
  decide +kernel

theorem intact_defaultMarker (name : List Char) : Intact name defaultMarker where
  head := ⟨'/', defaultMarker.tail, rfl, by decide, by decide⟩
  noBrace := by
    have hall : defaultMarker.all (fun c => c != '{' && c != '}') = true := by decide +kernel
    intro c hc
    simpa using List.all_eq_true.1 hall c hc
  noneBegins := by
    rintro before back xs ys hsplit hys ⟨-, text, htext, post, heq⟩
    have hmem : ys ∈ defaultMarker.tails := (List.mem_tails _ _).2 ⟨xs, hsplit.symm⟩
    obtain ⟨gap₁, gap₂, check, gap₃, gap₄, body, -, -, -, -, -, -, rfl⟩ := htext
    rw [List.append_assoc] at heq
    have hagree := agree_of_append_eq_append heq
    rw [agree_if ys hmem hys] at hagree
    simp at hagree

/-- A patched script is the script from before with markers in the place of some of its text, and a
marker ends its line exactly if the text it took the place of ended its line. -/
theorem endsLine_behind_marker_iff (hname : Settings.isIdentifier name = true)
    (hfix : fix name defaultMarker code = .patched out removed) :
    ∃ pieces, Traced name defaultMarker code pieces ∧ source pieces = code ∧
      written defaultMarker pieces = out ∧
      ∀ front text back, pieces = front ++ .marker text :: back →
        (endsLine (written defaultMarker back) = true ↔ endsLine (source back) = true) := by
  have hi := intact_defaultMarker name
  obtain ⟨pieces, htraced, hwritten⟩ := hi.exists_traced hname code (countChecks name code)
  refine ⟨pieces, htraced, htraced.source_eq, ?_, ?_⟩
  · rw [hwritten, eq_iterate_of_fix hname hfix]
  · rintro front text back rfl
    have hback : ∀ text, Piece.marker text ∈ back → text.head? = some 'i' := by
      intro text hmem
      exact htraced.head_of_marker hi text (by simp [hmem])
    rw [hi.endsLine_written hback]

/-- A script with a nest of two statements on lines of its own, and a third one on the line of the
declaration. -/
def sharedLine : List Char :=
  ("if (denyReason != '') \x7b\n  if (denyReason == '') \x7b\x7d\n\x7d\n" ++
    "if (denyReason === '') \x7b\x7d let denyReason = 1").toList

theorem fix_sharedLine :
    fix defaultName defaultMarker sharedLine =
      .patched (defaultMarker ++ '\n' :: (defaultMarker ++ " let denyReason = 1".toList)) 3 := by
  decide +kernel

theorem endsLine_behind_marker_sharedLine :
    fix defaultName defaultMarker sharedLine =
        .patched (defaultMarker ++ '\n' :: (defaultMarker ++ " let denyReason = 1".toList)) 3 ∧
      ∃ pieces, Traced defaultName defaultMarker sharedLine pieces ∧ source pieces = sharedLine ∧
        written defaultMarker pieces =
          defaultMarker ++ '\n' :: (defaultMarker ++ " let denyReason = 1".toList) ∧
        ∀ front text back, pieces = front ++ .marker text :: back →
          (endsLine (written defaultMarker back) = true ↔ endsLine (source back) = true) :=
  ⟨fix_sharedLine, endsLine_behind_marker_iff isIdentifier_defaultName fix_sharedLine⟩

/-- The declaration that shares its line with a removed statement becomes a part of the comment. -/
theorem declaration_behind_marker :
    fix defaultName defaultMarker "if (denyReason == '') \x7b\x7d let denyReason = 1".toList =
        .patched (defaultMarker ++ " let denyReason = 1".toList) 1 ∧
      endsLine " let denyReason = 1".toList = false := by
  decide +kernel

end WorkflowRepair.Repair
