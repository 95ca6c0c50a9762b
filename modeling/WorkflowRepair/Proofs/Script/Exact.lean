import Mathlib.Data.Set.Card
import WorkflowRepair.Proofs.Script.Splice

/-!
# One pass is exact

What one pass does, in terms of the places in a script alone. A shape `Stands` somewhere if its text
does and no word character is in front of it; a statement is premature if it ends no later than the
first declaration begins.

* `Stands.same_or_apart`: removable statements are pairwise disjoint;
* `Replaced.exists_pieces`: a pass over a script cuts out the statements that end in time, and no
  others;
* `removePremature_exact`: so the result is the script with the marker in the place of exactly the
  premature statements, and there is none exactly if no statement is premature.
-/

namespace WorkflowRepair.Repair

open Text

/-! ## Places of a shape -/

/-- A shape stands in a script between `pre` and `post`, with no word character in front of it. -/
structure Stands (shape : List Char → Prop) (code pre text post : List Char) : Prop where
  eq_append : code = pre ++ (text ++ post)
  shape : shape text
  apart : pre.getLast?.any isWord = false

theorem BeginsWithWord.head?_append {shape : List Char → Prop} (hword : BeginsWithWord shape)
    {text : List Char} (htext : shape text) (rest : List Char) :
    (text ++ rest).head?.any isWord = true := by
  rw [List.head?_append_of_ne_nil _ (hword.ne_nil htext)]
  exact hword text htext

/-- In front of a shape that begins with a word character, a word boundary is a place without a word
character. -/
theorem stands_iff_occurs {shape : List Char → Prop} (hword : BeginsWithWord shape)
    {code pre text post : List Char} :
    Stands shape code pre text post ↔ Occurs shape none code pre text post := by
  constructor
  · intro h
    refine ⟨h.eq_append, h.shape, ?_⟩
    rw [lastChar_none]
    exact isBoundary_of_any_isWord h.apart (hword.head?_append h.shape post)
  · intro h
    refine ⟨h.eq_append, h.shape, ?_⟩
    rw [← lastChar_none]
    exact any_isWord_of_isBoundary h.boundary (hword.head?_append h.shape post)

theorem beginsWithWord_isStatement (name : List Char) : BeginsWithWord (IsStatement name) := by
  intro text h
  obtain ⟨rest, rfl⟩ := h.exists_cons
  rfl

variable {name marker code out : List Char} {limit count : Nat} {before : Option Char}

/-- One of two statements begins where the other ends or behind it, or they are the same. -/
theorem Occurs.same_or_apart (hname : Settings.isIdentifier name = true)
    {pre text post pre' text' post' : List Char}
    (h : Occurs (IsStatement name) before code pre text post)
    (h' : Occurs (IsStatement name) before code pre' text' post') :
    (pre = pre' ∧ text = text') ∨ pre.length + text.length ≤ pre'.length ∨
      pre'.length + text'.length ≤ pre.length := by
  -- the one that begins first is at the head of what stands behind its beginning
  have hordered : ∀ {pre as text text' post post' : List Char},
      Occurs (IsStatement name) before code pre text post →
      Occurs (IsStatement name) before code (pre ++ as) text' post' →
      (as = [] ∧ text' = text) ∨ pre.length + text.length ≤ (pre ++ as).length := by
    intro pre as text text' post post' h h'
    rw [h.eq_append] at h'
    rcases h'.of_append_left.eq_or_behind_statement hname h.shape with heq | ⟨bs, rfl, -⟩
    · exact .inl heq
    · right
      simp only [List.length_append]
      omega
  have hsplit : pre ++ (text ++ post) = pre' ++ (text' ++ post') := by
    rw [← h.eq_append, ← h'.eq_append]
  rcases List.append_eq_append_iff.1 hsplit with ⟨as, rfl, -⟩ | ⟨as, rfl, -⟩
  · rcases hordered h h' with ⟨rfl, rfl⟩ | hle
    · exact .inl ⟨(List.append_nil pre).symm, rfl⟩
    · exact .inr (.inl hle)
  · rcases hordered h' h with ⟨rfl, rfl⟩ | hle
    · exact .inl ⟨List.append_nil pre', rfl⟩
    · exact .inr (.inr hle)

/-! ## What a pass cuts out -/

theorem mem_places_kept {c : Char} {pieces : List Piece} {pre text : List Char} :
    (pre, text) ∈ places (.kept c :: pieces) ↔
      ∃ rest, pre = c :: rest ∧ (rest, text) ∈ places pieces := by
  simp only [places, List.mem_map, Prod.exists, Prod.mk.injEq]
  constructor
  · rintro ⟨rest, text, hmem, rfl, rfl⟩
    exact ⟨rest, rfl, hmem⟩
  · rintro ⟨rest, rfl, hmem⟩
    exact ⟨rest, text, hmem, rfl, rfl⟩

theorem mem_places_marker {removed : List Char} {pieces : List Piece} {pre text : List Char} :
    (pre, text) ∈ places (.marker removed :: pieces) ↔
      (pre = [] ∧ text = removed) ∨
        ∃ rest, pre = removed ++ rest ∧ (rest, text) ∈ places pieces := by
  simp only [places, List.mem_cons, List.mem_map, Prod.exists, Prod.mk.injEq]
  refine or_congr_right ⟨?_, ?_⟩
  · rintro ⟨rest, text, hmem, rfl, rfl⟩
    exact ⟨rest, rfl, hmem⟩
  · rintro ⟨rest, rfl, hmem⟩
    exact ⟨rest, text, hmem, rfl, rfl⟩

theorem places_map_kept (code : List Char) : places (code.map Piece.kept) = [] := by
  induction code with
  | nil => rfl
  | cons c code ih => rw [List.map_cons, places, ih, List.map_nil]

/-- The places of the pieces are those of the statements that end within the limit. -/
def CutsOut (name : List Char) (limit : Nat) (before : Option Char) (pieces : List Piece) : Prop :=
  ∀ pre text, (pre, text) ∈ places pieces ↔
    ∃ post, Occurs (IsStatement name) before (source pieces) pre text post ∧
      pre.length + text.length ≤ limit

theorem cutsOut_nil : CutsOut name limit before [] := by
  intro pre text
  refine iff_of_false List.not_mem_nil ?_
  rintro ⟨post, hocc, -⟩
  have hpos := hocc.shape.length_pos
  have hlength := congrArg List.length hocc.eq_append
  simp only [source, List.length_nil, List.length_append] at hlength
  omega

theorem CutsOut.keep {c : Char} {pieces : List Piece}
    (h : CutsOut name (limit - 1) (some c) pieces)
    (hnot : ¬ Begins (IsStatement name) before (c :: source pieces)) :
    CutsOut name limit before (.kept c :: pieces) := by
  intro pre text
  rw [mem_places_kept]
  constructor
  · rintro ⟨rest, rfl, hmem⟩
    obtain ⟨post, hocc, hle⟩ := (h rest text).1 hmem
    have hpos := hocc.shape.length_pos
    exact ⟨post, hocc.cons, by rw [List.length_cons]; omega⟩
  · rintro ⟨post, hocc, hle⟩
    cases pre with
    | nil =>
      have heq : c :: source pieces = text ++ post := hocc.eq_append
      rw [heq] at hnot
      exact absurd hocc.begins hnot
    | cons d rest =>
      obtain ⟨rfl, hrest⟩ := hocc.of_cons
      rw [List.length_cons] at hle
      exact ⟨rest, rfl, (h rest text).2 ⟨post, hrest, by omega⟩⟩

theorem cutsOut_stop (hname : Settings.isIdentifier name = true) {text rest : List Char}
    (htext : IsStatement name text) (hlimit : limit < text.length) :
    CutsOut name limit before ((text ++ rest).map Piece.kept) := by
  intro pre text'
  rw [places_map_kept, source_map_kept]
  refine iff_of_false List.not_mem_nil ?_
  rintro ⟨post, hocc, hle⟩
  rcases hocc.eq_or_behind_statement hname htext with ⟨rfl, rfl⟩ | ⟨as, rfl, -⟩
  · rw [List.length_nil] at hle
    omega
  · rw [List.length_append] at hle
    omega

theorem CutsOut.replace (hname : Settings.isIdentifier name = true) {text : List Char}
    {pieces : List Piece} (h : CutsOut name (limit - text.length) (some '}') pieces)
    (htext : IsStatement name text) (hbound : isBoundary before text.head? = true)
    (hlimit : text.length ≤ limit) : CutsOut name limit before (.marker text :: pieces) := by
  intro pre text'
  rw [mem_places_marker, source]
  constructor
  · rintro (⟨rfl, rfl⟩ | ⟨rest, rfl, hmem⟩)
    · exact ⟨source pieces, htext.occurs_head hbound _, by rwa [List.length_nil, Nat.zero_add]⟩
    · obtain ⟨post, hocc, hle⟩ := (h rest text').1 hmem
      have hpos := hocc.shape.length_pos
      rw [← htext.lastChar_eq before] at hocc
      exact ⟨post, hocc.append_left, by rw [List.length_append]; omega⟩
  · rintro ⟨post, hocc, hle⟩
    rcases hocc.eq_or_behind_statement hname htext with heq | ⟨rest, rfl, hrest⟩
    · exact .inl heq
    · rw [List.length_append] at hle
      exact .inr ⟨rest, rfl, (h rest text').2 ⟨post, hrest, by omega⟩⟩

/-- Behind a statement that is cut out nothing is cut out at its place again. -/
theorem nodup_places_marker {removed : List Char} (hne : removed ≠ []) {pieces : List Piece}
    (h : (places pieces).Nodup) : (places (.marker removed :: pieces)).Nodup := by
  refine List.nodup_cons.2 ⟨?_, h.map ?_⟩
  · rw [List.mem_map]
    rintro ⟨⟨pre, text⟩, -, heq⟩
    rw [Prod.mk.injEq, List.append_eq_nil_iff] at heq
    exact hne heq.1.1
  · rintro ⟨pre, text⟩ ⟨pre', text'⟩ heq
    rw [Prod.mk.injEq, List.append_cancel_left_eq] at heq
    rw [heq.1, heq.2]

theorem nodup_places_kept {c : Char} {pieces : List Piece} (h : (places pieces).Nodup) :
    (places (.kept c :: pieces)).Nodup := by
  refine h.map ?_
  rintro ⟨pre, text⟩ ⟨pre', text'⟩ heq
  rw [Prod.mk.injEq, List.cons.injEq] at heq
  rw [heq.1.2, heq.2]

/-- A pass cuts out the statements that end in time, each once, and counts them. -/
theorem Replaced.exists_pieces (hname : Settings.isIdentifier name = true)
    (h : Replaced name marker limit before code out count) :
    ∃ pieces, source pieces = code ∧ written marker pieces = out ∧
      CutsOut name limit before pieces ∧ (places pieces).Nodup ∧
      (places pieces).length = count := by
  induction h with
  | nil => exact ⟨[], rfl, rfl, cutsOut_nil, List.nodup_nil, rfl⟩
  | @keep limit before c rest out count hnot hrest ih =>
    obtain ⟨pieces, rfl, rfl, hcuts, hnodup, rfl⟩ := ih
    refine ⟨.kept c :: pieces, rfl, rfl, hcuts.keep hnot, nodup_places_kept hnodup, ?_⟩
    rw [places, List.length_map]
  | @stop limit before text rest htext hbound hlimit =>
    refine ⟨(text ++ rest).map Piece.kept, source_map_kept _, written_map_kept marker _,
      cutsOut_stop hname htext hlimit, ?_, ?_⟩
    · rw [places_map_kept]
      exact List.nodup_nil
    · rw [places_map_kept, List.length_nil]
  | @replace limit before text rest out count htext hbound hlimit hrest ih =>
    obtain ⟨pieces, rfl, rfl, hcuts, hnodup, rfl⟩ := ih
    have hne : text ≠ [] := List.length_pos_iff.1 htext.length_pos
    refine ⟨.marker text :: pieces, rfl, rfl, hcuts.replace hname htext hbound hlimit,
      nodup_places_marker hne hnodup, ?_⟩
    rw [places, List.length_cons, List.length_map]

/-! ## Premature statements -/

/-- Where the declarations of a script begin. -/
def declarationStarts (name code : List Char) : Set Nat :=
  {start | ∃ pre text post, Stands (IsDeclaration name) code pre text post ∧ pre.length = start}

/-- A removable statement that ends no later than the first declaration begins. -/
def Premature (name code pre text : List Char) : Prop :=
  ∃ post declared, Stands (IsStatement name) code pre text post ∧
    IsLeast (declarationStarts name code) declared ∧ pre.length + text.length ≤ declared

theorem isLeast_declarationStarts_iff {declared : Nat} :
    IsLeast (declarationStarts name code) declared ↔
      firstDeclaration name code = some declared := by
  have hstands : ∀ {pre text post : List Char}, Stands (IsDeclaration name) code pre text post ↔
      Occurs (IsDeclaration name) none code pre text post :=
    stands_iff_occurs (beginsWithWord_isDeclaration name)
  constructor
  · rintro ⟨⟨pre, text, post, hdecl, rfl⟩, hleast⟩
    obtain ⟨n, hn, hfirst⟩ := exists_firstDeclaration_le (hstands.1 hdecl)
    obtain ⟨pre', text', post', hdecl', rfl⟩ := exists_occurs_of_firstDeclaration hfirst
    have hle := hleast ⟨pre', text', post', hstands.2 hdecl', rfl⟩
    rw [hfirst, Nat.le_antisymm hn hle]
  · intro hfirst
    obtain ⟨pre, text, post, hdecl, rfl⟩ := exists_occurs_of_firstDeclaration hfirst
    refine ⟨⟨pre, text, post, hstands.2 hdecl, rfl⟩, ?_⟩
    rintro _ ⟨pre', text', post', hdecl', rfl⟩
    exact le_of_firstDeclaration hfirst (hstands.1 hdecl')

theorem premature_iff {declared : Nat} (hfirst : firstDeclaration name code = some declared)
    {pre text : List Char} :
    Premature name code pre text ↔
      ∃ post, Occurs (IsStatement name) none code pre text post ∧
        pre.length + text.length ≤ declared := by
  simp only [Premature, isLeast_declarationStarts_iff, hfirst, Option.some.injEq,
    stands_iff_occurs (beginsWithWord_isStatement name)]
  constructor
  · rintro ⟨post, _, hocc, rfl, hle⟩
    exact ⟨post, hocc, hle⟩
  · rintro ⟨post, hocc, hle⟩
    exact ⟨post, declared, hocc, rfl, hle⟩

theorem hasPremature_iff : HasPremature name code ↔ ∃ pre text, Premature name code pre text := by
  constructor
  · rintro ⟨declared, pre, text, post, hfirst, hocc, hle⟩
    exact ⟨pre, text, (premature_iff hfirst).2 ⟨post, hocc, hle⟩⟩
  · rintro ⟨pre, text, post, declared, hstands, hleast, hle⟩
    exact ⟨declared, pre, text, post, isLeast_declarationStarts_iff.1 hleast,
      (stands_iff_occurs (beginsWithWord_isStatement name)).1 hstands, hle⟩

/-- Either there is no declaration, or every statement ends behind where the first one begins. -/
theorem not_hasPremature_iff :
    ¬ HasPremature name code ↔ declarationStarts name code = ∅ ∨
      ∀ declared, IsLeast (declarationStarts name code) declared →
        ∀ pre text post, Stands (IsStatement name) code pre text post →
          declared < pre.length + text.length := by
  rw [hasPremature_iff]
  constructor
  · intro hnone
    refine .inr fun declared hleast pre text post hstands => ?_
    by_contra hle
    exact hnone ⟨pre, text, post, declared, hstands, hleast, Nat.le_of_not_lt hle⟩
  · rintro (hempty | hlate) ⟨pre, text, post, declared, hstands, hleast, hle⟩
    · rw [hempty] at hleast
      exact hleast.1
    · have := hlate declared hleast pre text post hstands
      omega

theorem removePremature_pieces (hname : Settings.isIdentifier name = true)
    (h : removePremature name marker code = some (out, count)) :
    ∃ pieces, source pieces = code ∧ written marker pieces = out ∧
      (∀ pre text, (pre, text) ∈ places pieces ↔ Premature name code pre text) ∧
      {place : List Char × List Char | Premature name code place.1 place.2}.ncard = count := by
  obtain ⟨declared, hfirst, hreplaced, -⟩ := (removePremature_eq_some_iff hname).1 h
  obtain ⟨pieces, rfl, hwritten, hcuts, hnodup, hcount⟩ := hreplaced.exists_pieces hname
  have hmem : ∀ pre text, (pre, text) ∈ places pieces ↔ Premature name (source pieces) pre text :=
    fun pre text => (hcuts pre text).trans (premature_iff hfirst).symm
  -- no place is listed twice, so the list is as long as there are places
  have hset : {place : List Char × List Char | Premature name (source pieces) place.1 place.2} =
      ((places pieces).toFinset : Set (List Char × List Char)) := by
    ext ⟨pre, text⟩
    rw [Finset.mem_coe, List.mem_toFinset, hmem]
    rfl
  refine ⟨pieces, rfl, hwritten, hmem, ?_⟩
  rw [hset, Set.ncard_coe_finset, List.toFinset_card_of_nodup hnodup, hcount]

/-- One pass is exact. Removable statements are pairwise disjoint. There is no result exactly if no
declaration stands in the script, or no statement ends in time. A result is the script with the
marker in the place of each premature statement, and of nothing else; it comes with their number,
and it can be spliced at their offsets without a cut that fails. -/
theorem removePremature_exact (hname : Settings.isIdentifier name = true)
    (marker code : List Char) :
    (∀ pre text post pre' text' post', Stands (IsStatement name) code pre text post →
        Stands (IsStatement name) code pre' text' post' →
        (pre = pre' ∧ text = text') ∨ pre.length + text.length ≤ pre'.length ∨
          pre'.length + text'.length ≤ pre.length) ∧
      (removePremature name marker code = none ↔ declarationStarts name code = ∅ ∨
        ∀ declared, IsLeast (declarationStarts name code) declared →
          ∀ pre text post, Stands (IsStatement name) code pre text post →
            declared < pre.length + text.length) ∧
      ∀ out count, removePremature name marker code = some (out, count) →
        ∃ pieces, source pieces = code ∧ written marker pieces = out ∧
          (∀ pre text, (pre, text) ∈ places pieces ↔ Premature name code pre text) ∧
          {place : List Char × List Char | Premature name code place.1 place.2}.ncard = count ∧
          spliced? (String.ofList code) (String.ofList marker) 0
            ((places pieces).map fun (pre, text) => span pre text) = some (String.ofList out) := by
  have hstands : ∀ {pre text post : List Char}, Stands (IsStatement name) code pre text post →
      Occurs (IsStatement name) none code pre text post :=
    (stands_iff_occurs (beginsWithWord_isStatement name)).1
  refine ⟨fun pre text post pre' text' post' h h' => ?_, ?_, fun out count h => ?_⟩
  · exact (hstands h).same_or_apart hname (hstands h')
  · rw [removePremature_eq_none_iff hname, not_hasPremature_iff]
  · obtain ⟨pieces, rfl, rfl, hmem, hcount⟩ := removePremature_pieces hname h
    exact ⟨pieces, rfl, rfl, hmem, hcount, spliced?_places marker pieces⟩

/-- A variable called `if`: the statement in front of its declaration is replaced, the one behind it
is not, and neither is one that a word character hides. -/
theorem removePremature_exact_keyword :
    let name := "if".toList
    let marker := "// \u2192".toList
    let code := ("\u00e9if(if=='')\x7b\x7d if (if != '') \x7ba\u00e9\x7d let if = 1; " ++
      "if(if=='')\x7b\x7d").toList
    let out := "\u00e9if(if=='')\x7b\x7d // \u2192 let if = 1; if(if=='')\x7b\x7d".toList
    Settings.isIdentifier name = true ∧ removePremature name marker code = some (out, 1) ∧
      ∃ pieces, source pieces = code ∧ written marker pieces = out ∧
        (∀ pre text, (pre, text) ∈ places pieces ↔ Premature name code pre text) ∧
        {place : List Char × List Char | Premature name code place.1 place.2}.ncard = 1 ∧
        spliced? (String.ofList code) (String.ofList marker) 0
          ((places pieces).map fun (pre, text) => span pre text) = some (String.ofList out) := by
  intro name marker code out
  have hname : Settings.isIdentifier name = true := by decide +kernel
  have hresult : removePremature name marker code = some (out, 1) := by decide +kernel
  exact ⟨hname, hresult, (removePremature_exact hname marker code).2.2 out 1 hresult⟩

end WorkflowRepair.Repair
