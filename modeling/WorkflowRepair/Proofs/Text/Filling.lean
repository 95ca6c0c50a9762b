import WorkflowRepair.Proofs.Text.Leftovers

/-!
# What filling puts in

A template as it is meant to be is made of fixed pieces without braces and of placeholders (`Piece`).
Filling puts the text of its key in the place of each placeholder and keeps everything else
(`filled_templateOf`). What the variables hold beyond the keys that are allowed does not matter to it
(`render_congr_of_allowed`).

Stripping comes behind filling and does not know which braces were filled in. So rendering gives the
filled pieces exactly if these form no leftover with one another (`render_pieces_iff`): stripping
takes opening braces away with every leftover, and trimming takes none.
-/

namespace WorkflowRepair.Text

open Repair (Blanks NoBrace)
open Repair (skipBlanks_append skipBlanks_cons_of_not isBlank_of_isNameChar)

/-! ## Pieces of a template -/

/-- A placeholder as it is written: a key in double braces, with blanks around it or not. -/
structure Placeholder where
  before : List Char
  key : List Char
  behind : List Char
  blanks_before : Blanks before
  key_ne_nil : key ≠ []
  all_isKeyChar : key.all isKeyChar = true
  blanks_behind : Blanks behind

/-- The text of a placeholder. -/
def Placeholder.text (placeholder : Placeholder) : List Char :=
  '{' :: '{' :: (placeholder.before ++ (placeholder.key ++ (placeholder.behind ++ ['}', '}'])))

/-- A piece of a template. -/
inductive Piece where
  | fixed (text : List Char) (noBrace : NoBrace text)
  | slot (placeholder : Placeholder)

/-- The text of a piece in the template. -/
def Piece.text : Piece → List Char
  | .fixed text _ => text
  | .slot placeholder => placeholder.text

/-- What a piece is to become: a fixed piece stays, and a placeholder gives way to the text of its
key. -/
def Piece.value (vars : Json.Members) (allowed : Option (List String)) : Piece → List Char
  | .fixed text _ => text
  | .slot placeholder => (keyText vars allowed (String.ofList placeholder.key)).toList

/-- The template that pieces make up. -/
def templateOf (pieces : List Piece) : String := String.ofList (pieces.flatMap Piece.text)

/-- What the pieces of a template become, one behind the other. -/
def valuesOf (vars : Json.Members) (allowed : Option (List String)) (pieces : List Piece) :
    List Char :=
  pieces.flatMap (Piece.value vars allowed)

/-! ## Filling -/

theorem isBlank_of_isKeyChar {c : Char} (h : isKeyChar c = true) : isBlank c = false := by
  apply isBlank_of_isNameChar
  rw [isKeyChar] at h
  rw [Repair.isNameChar, h, Bool.true_or]

/-- A key is read up to its end if blanks and closing braces follow. -/
theorem span_isKeyChar {key behind : List Char} (hkey : ∀ c ∈ key, isKeyChar c = true)
    (hbehind : Blanks behind) (rest : List Char) :
    (key ++ (behind ++ '}' :: rest)).takeWhile isKeyChar = key ∧
      (key ++ (behind ++ '}' :: rest)).dropWhile isKeyChar = behind ++ '}' :: rest := by
  have hstops : ∀ c, (behind ++ '}' :: rest).head? = some c → isKeyChar c = false := by
    intro c hc
    cases behind with
    | nil =>
      obtain rfl := Option.some.inj hc
      decide
    | cons blank behind =>
      obtain rfl := Option.some.inj hc
      rw [Bool.eq_false_iff]
      intro hkeyChar
      have hblank := hbehind blank List.mem_cons_self
      rw [isBlank_of_isKeyChar hkeyChar] at hblank
      exact Bool.false_ne_true hblank
  rw [List.takeWhile_append_of_pos hkey, List.dropWhile_append_of_pos hkey]
  obtain ⟨c, tail, htail⟩ : ∃ c tail, behind ++ '}' :: rest = c :: tail :=
    List.exists_cons_of_ne_nil (by simp)
  rw [htail] at hstops ⊢
  rw [List.takeWhile_cons, List.dropWhile_cons, hstops c rfl]
  simp

theorem Placeholder.placeholder?_append (placeholder : Placeholder) (rest : List Char) :
    placeholder? (placeholder.text ++ rest) = some (placeholder.key, rest) := by
  obtain ⟨before, key, behind, hbefore, hne, hall, hbehind⟩ := placeholder
  have hkey := List.all_eq_true.1 hall
  obtain ⟨htake, hdrop⟩ := span_isKeyChar hkey hbehind ('}' :: rest)
  have hinside : skipBlanks (before ++ (key ++ (behind ++ '}' :: '}' :: rest))) =
      key ++ (behind ++ '}' :: '}' :: rest) := by
    obtain ⟨c, key, rfl⟩ := List.exists_cons_of_ne_nil hne
    rw [skipBlanks_append hbefore]
    exact skipBlanks_cons_of_not (isBlank_of_isKeyChar (hkey c List.mem_cons_self))
  have hclosing : skipBlanks (behind ++ '}' :: '}' :: rest) = '}' :: '}' :: rest := by
    rw [skipBlanks_append hbehind]
    exact skipBlanks_cons_of_not (by decide)
  simp [Placeholder.text, placeholder?, hinside, htake, hdrop, hclosing, hne]

section

variable (vars : Json.Members) (allowed : Option (List String))

theorem fill_eq_none {c : Char} (hc : c ≠ '{') (rest : List Char) :
    fill vars allowed (c :: rest) = none := by
  rw [fill, Option.map_eq_none_iff, placeholder?]
  intro inside heq
  exact hc (List.cons.inj heq).1

/-- Filling goes piece by piece. -/
theorem replaceAll_fill_piece (piece : Piece) (rest : List Char) :
    replaceAll (fill vars allowed) 0 (piece.text ++ rest) =
      piece.value vars allowed ++ replaceAll (fill vars allowed) 0 rest := by
  cases piece with
  | fixed text hnone =>
    rw [Piece.text, Piece.value]
    induction text with
    | nil => rfl
    | cons c text ih =>
      have hc : c ≠ '{' := (hnone c List.mem_cons_self).1
      rw [List.cons_append, replaceAll_keep (fill_eq_none vars allowed hc _),
        ih fun d hd => hnone d (List.mem_cons_of_mem c hd), List.cons_append]
  | slot placeholder =>
    have hne : placeholder.text ≠ [] := List.cons_ne_nil _ _
    have hmatch : fill vars allowed (placeholder.text ++ rest) =
        some ((keyText vars allowed (String.ofList placeholder.key)).toList,
          placeholder.text.length) := by
      rw [fill, placeholder.placeholder?_append, Option.map_some]
      dsimp only
      rw [List.length_append, Nat.add_sub_cancel_right]
    exact replaceAll_match hne hmatch

theorem filled_templateOf (pieces : List Piece) :
    filled (templateOf pieces) vars allowed = valuesOf vars allowed pieces := by
  rw [filled, templateOf, String.toList_ofList]
  induction pieces with
  | nil => rfl
  | cons piece pieces ih =>
    rw [List.flatMap_cons, replaceAll_fill_piece, ih]
    rfl

end

/-! ## What the variables matter -/

/-- Two ways to give texts to keys that agree make no difference. -/
theorem render_congr {vars vars' : Json.Members} {allowed allowed' : Option (List String)}
    (h : ∀ key, keyText vars allowed key = keyText vars' allowed' key) (template : String) :
    render template vars allowed = render template vars' allowed' := by
  have hfill : fill vars allowed = fill vars' allowed' := by
    funext cs
    simp only [fill, h]
  rw [render, render, hfill]

/-- With a list of allowed keys, the values of all other keys make no difference, whatever the template
is. -/
theorem render_congr_of_allowed {allowed : List String} {vars vars' : Json.Members}
    (hagree : ∀ key ∈ allowed, Json.Members.get? key vars = Json.Members.get? key vars')
    (template : String) :
    render template vars (some allowed) = render template vars' (some allowed) := by
  apply render_congr
  intro key
  rw [keyText, keyText]
  by_cases hkey : key ∈ allowed
  · rw [hagree key hkey]
  · -- a key that is not allowed stands for nothing on both sides
    have hrefused : (some allowed).all (·.contains key) = false := by
      simpa using hkey
    rw [hrefused]
    rfl

/-- A secret that only one side has stays out of it, even where its placeholder is torn. -/
theorem render_congr_of_allowed_secret :
    let template := "Hello \x7b\x7bname\x7d\x7d \x7b\x7bsecret\x7d\x7d\x7b\x7b \x7b\x7bsecret\x7d\x7d!"
    let vars : Json.Members := [("name", .string "A"), ("secret", .string "\x7d\x7d")]
    let vars' : Json.Members := [("name", .string "A")]
    (∀ key ∈ ["name"], Json.Members.get? key vars = Json.Members.get? key vars') ∧
      render template vars (some ["name"]) = render template vars' (some ["name"]) ∧
      render template vars' (some ["name"]) = "Hello A \x7b\x7b !" ∧
      render template vars none ≠ render template vars' none := by
  intro template vars vars'
  have hagree : ∀ key ∈ ["name"], Json.Members.get? key vars = Json.Members.get? key vars' := by
    intro key hkey
    rw [List.mem_singleton.1 hkey]
    rfl
  exact ⟨hagree, render_congr_of_allowed hagree template, by decide +kernel, by decide +kernel⟩

/-! ## What stripping takes away of it -/

theorem IsLeftover.two_le_count {text : List Char} (h : IsLeftover text) : 2 ≤ text.count '{' := by
  obtain ⟨inside, -, -, rfl⟩ := h
  simp

theorem IsLeftover.mem_of_isBrace {text : List Char} (h : IsLeftover text) {brace : Char}
    (hbrace : brace = '{' ∨ brace = '}') : brace ∈ text := by
  obtain ⟨inside, -, -, rfl⟩ := h
  rcases hbrace with rfl | rfl
  · exact List.mem_cons_self
  · simp

theorem stripped_eq_self {cs : List Char} (h : ¬ Contains IsLeftover cs) : stripped cs = cs :=
  (unmatched_strip_iff.2 h).replaceAll_eq

theorem count_stripped_le (cs : List Char) : (stripped cs).count '{' ≤ cs.count '{' := by
  induction cs using stripped_induction with
  | nil => exact Nat.le_refl _
  | keep c rest hkeep ih =>
    rw [stripped_keep hkeep, List.count_cons, List.count_cons]
    exact Nat.add_le_add_right ih _
  | leftover text rest htext ih =>
    rw [stripped_leftover htext, List.count_append]
    exact Nat.le_add_left_of_le ih

/-- With every leftover opening braces are gone. -/
theorem count_stripped_lt {cs : List Char} (h : Contains IsLeftover cs) :
    (stripped cs).count '{' < cs.count '{' := by
  induction cs using stripped_induction with
  | nil =>
    obtain ⟨text, htext, hinfix⟩ := h
    exact absurd (List.infix_nil.1 hinfix) htext.ne_nil
  | keep c rest hkeep ih =>
    rw [contains_cons_iff, or_iff_right hkeep] at h
    rw [stripped_keep hkeep, List.count_cons, List.count_cons]
    exact Nat.add_lt_add_right (ih h) _
  | leftover text rest htext _ =>
    have hrest := count_stripped_le rest
    have htwo := htext.two_le_count
    rw [stripped_leftover htext, List.count_append]
    omega

theorem count_skipBlanks (cs : List Char) : (skipBlanks cs).count '{' = cs.count '{' := by
  obtain ⟨gap, hgap, hsplit⟩ := Repair.exists_blanks_skipBlanks cs
  have hnone : gap.count '{' = 0 := by
    rw [List.count_eq_zero]
    intro hmem
    exact absurd (hgap _ hmem) (by decide)
  conv_rhs => rw [hsplit, List.count_append, hnone, Nat.zero_add]

/-- Trimming takes no brace away. -/
theorem count_trim (cs : List Char) : (trim cs).count '{' = cs.count '{' := by
  have hback := count_skipBlanks (skipBlanks cs).reverse
  rw [List.count_reverse, count_skipBlanks cs] at hback
  rw [trim, List.count_reverse]
  exact hback

/-- As long as no value has an opening brace, or none has a closing one, every value is rendered as it
is. -/
theorem render_pieces_of_not_mem {pieces : List Piece} {vars : Json.Members}
    {allowed : Option (List String)} {brace : Char} (hbrace : brace = '{' ∨ brace = '}')
    (h : ∀ piece ∈ pieces, brace ∉ piece.value vars allowed) :
    (render (templateOf pieces) vars allowed).toList = trim (valuesOf vars allowed pieces) := by
  have hclean : ¬ Contains IsLeftover (valuesOf vars allowed pieces) := by
    rintro ⟨text, htext, hinfix⟩
    have hmem := hinfix.subset (htext.mem_of_isBrace hbrace)
    obtain ⟨piece, hpiece, hvalue⟩ := List.mem_flatMap.1 hmem
    exact h piece hpiece hvalue
  rw [toList_render, filled_templateOf, stripped_eq_self hclean]

/-- Rendering a template that is made up of pieces strips what the pieces become, and trims the rest.
That is what the pieces become, trimmed, exactly if it contains no leftover. -/
theorem render_pieces_iff (pieces : List Piece) (vars : Json.Members)
    (allowed : Option (List String)) :
    let rendered := (render (templateOf pieces) vars allowed).toList
    let values := valuesOf vars allowed pieces
    rendered = trim (stripped values) ∧ (rendered = trim values ↔ ¬ Contains IsLeftover values) := by
  intro rendered values
  have hrendered : rendered = trim (stripped values) := by
    change (render (templateOf pieces) vars allowed).toList = _
    rw [toList_render, filled_templateOf]
  refine ⟨hrendered, ?_⟩
  constructor
  · intro hkept hleftover
    have hlost := count_stripped_lt hleftover
    rw [← count_trim (stripped values), ← hrendered, hkept, count_trim] at hlost
    exact absurd hlost (Nat.lt_irrefl _)
  · intro hclean
    rw [hrendered, stripped_eq_self hclean]

/-- A message with a name, a total and a note. -/
def clashingPieces : List Piece :=
  [.fixed "Commande ".toList (by decide),
    .slot ⟨[], "name".toList, [], by decide, by decide, by decide, by decide⟩,
    .fixed ": ".toList (by decide),
    .slot ⟨[' '], "total".toList, [' '], by decide, by decide, by decide, by decide⟩,
    .fixed " DA ".toList (by decide),
    .slot ⟨[], "note".toList, [], by decide, by decide, by decide, by decide⟩]

/-- Braces in the name and in the note take the total away that stands between them. -/
theorem render_loses_between :
    let template := "Commande \x7b\x7bname\x7d\x7d: \x7b\x7b total \x7d\x7d DA \x7b\x7bnote\x7d\x7d"
    let vars : Json.Members :=
      [("name", .string "\x7b\x7bAli"), ("total", .ofNat 1450), ("note", .string "ok\x7d\x7d")]
    templateOf clashingPieces = template ∧ render template vars none = "Commande" ∧
      String.ofList (trim (valuesOf vars none clashingPieces)) =
        "Commande \x7b\x7bAli: 1450 DA ok\x7d\x7d" := by
  decide +kernel

end WorkflowRepair.Text
