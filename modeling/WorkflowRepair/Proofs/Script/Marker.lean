import Mathlib.Data.List.Infix
import WorkflowRepair.Proofs.Script.Search

/-!
# Markers

A marker is put in the place of a statement, between texts of any kind. `Clear` says that it never
becomes part of a shape there: in no text around it does an occurrence touch it.
`clear_of_barrier` is a test for it, and the built-in marker passes for checks and for declarations.
-/

namespace WorkflowRepair.Repair

open Text

/-- Wherever the marker is put, every occurrence of the shape ends in front of it or begins behind
it. -/
def Clear (shape : List Char → Prop) (marker : List Char) : Prop :=
  ∀ front back pre text post, Occurs shape none (front ++ (marker ++ back)) pre text post →
    pre.length + text.length ≤ front.length ∨ front.length + marker.length ≤ pre.length

/-- The shape begins with a word character. -/
def BeginsWithWord (shape : List Char → Prop) : Prop :=
  ∀ text, shape text → text.head?.any isWord = true

theorem BeginsWithWord.ne_nil {shape : List Char → Prop} (h : BeginsWithWord shape)
    {text : List Char} (htext : shape text) : text ≠ [] := by
  rintro rfl
  have := h [] htext
  simp at this

theorem beginsWithWord_isCheck {name : List Char} (hname : Settings.isIdentifier name = true) :
    BeginsWithWord (IsCheck name) := by
  intro text h
  obtain ⟨c, name', rfl, hc⟩ := exists_cons_of_isIdentifier hname
  obtain ⟨tail, rfl, -⟩ := h.exists_tail
  simpa using hc

theorem beginsWithWord_isDeclaration (name : List Char) : BeginsWithWord (IsDeclaration name) := by
  intro text h
  obtain ⟨rest, rfl⟩ := h.exists_cons
  rfl

/-- At a word boundary in front of a word character stands no word character. -/
theorem any_isWord_of_isBoundary {before after : Option Char}
    (h : isBoundary before after = true) (hafter : after.any isWord = true) :
    before.any isWord = false := by
  simpa [isBoundary, hafter] using h

theorem isBoundary_of_any_isWord {before after : Option Char} (hbefore : before.any isWord = false)
    (hafter : after.any isWord = true) : isBoundary before after = true := by
  simp [isBoundary, hbefore, hafter]

/-- A character in front can only hide that something begins, and only as a word character. -/
theorem Begins.of_before {shape : List Char → Prop} (hword : BeginsWithWord shape)
    {before before' : Option Char} {cs : List Char}
    (hbefore : before.any isWord = true → before'.any isWord = true)
    (h : Begins shape before' cs) : Begins shape before cs := by
  obtain ⟨hbound, text, htext, post, rfl⟩ := h
  have hhead : (text ++ post).head?.any isWord = true := by
    have := hword text htext
    obtain ⟨c, tail, rfl⟩ := List.exists_cons_of_ne_nil (hword.ne_nil htext)
    exact this
  refine ⟨isBoundary_of_any_isWord ?_ hhead, text, htext, post, rfl⟩
  have hnot := any_isWord_of_isBoundary hbound hhead
  by_contra hne
  simp [hbefore (by simpa using hne)] at hnot

theorem NoneBegins.of_before {shape : List Char → Prop} (hword : BeginsWithWord shape)
    {before before' : Option Char} {front back : List Char}
    (hbefore : before.any isWord = true → before'.any isWord = true)
    (h : NoneBegins shape before front back) : NoneBegins shape before' front back := by
  cases front with
  | nil => exact noneBegins_nil
  | cons c front =>
    rw [noneBegins_cons_iff] at h ⊢
    exact ⟨fun hbegins => h.1 (hbegins.of_before hword hbefore), h.2⟩

namespace Clear

variable {shape : List Char → Prop} {marker : List Char}

/-- What begins in front of the marker ends in front of it. -/
theorem exists_prefix (h : Clear shape marker) {before : Option Char} {c : Char}
    {front back : List Char} (hbegins : Begins shape before (c :: (front ++ (marker ++ back)))) :
    ∃ text, shape text ∧ text <+: c :: front := by
  obtain ⟨hbound, text, htext, post, heq⟩ := hbegins
  have hocc : Occurs shape none (before.toList ++ c :: front ++ (marker ++ back)) before.toList
      text post := by
    refine ⟨by simp [heq], htext, ?_⟩
    rw [heq]
    cases before <;> exact hbound
  refine ⟨text, htext, ?_⟩
  rcases h _ _ _ _ _ hocc with hle | hle
  · have htextLe : text <+: c :: (front ++ (marker ++ back)) := ⟨post, heq⟩
    have hfrontLe : c :: front <+: c :: (front ++ (marker ++ back)) := ⟨marker ++ back, rfl⟩
    apply List.prefix_of_prefix_length_le htextLe hfrontLe
    simp at hle ⊢
    omega
  · simp at hle
    omega

/-- Nothing begins inside the marker. -/
theorem noneBegins (h : Clear shape marker) (hne : ∀ text, shape text → text ≠ [])
    {before : Option Char} {back : List Char} : NoneBegins shape before marker back := by
  rintro xs ys hmarker hys ⟨hbound, text, htext, post, heq⟩
  have hocc : Occurs shape none (before.toList ++ (marker ++ back)) (before.toList ++ xs)
      text post := by
    refine ⟨by simp [hmarker, heq], htext, ?_⟩
    rw [heq, lastChar_append]
    cases before <;> exact hbound
  have hpos := List.length_pos_iff.2 (hne text htext)
  have hpos' := List.length_pos_iff.2 hys
  rcases h _ _ _ _ _ hocc with hle | hle
  · rw [List.length_append] at hle
    omega
  · rw [hmarker] at hle
    simp only [List.length_append] at hle
    omega

end Clear

/-! ## A test -/

/-- The character at a place of an occurrence is a character of its text. -/
theorem Occurs.mem_of_getElem? {shape : List Char → Prop} {before : Option Char}
    {code pre text post : List Char} (h : Occurs shape before code pre text post) {n : Nat}
    {c : Char} (hc : code[n]? = some c) (hle : pre.length ≤ n)
    (hlt : n < pre.length + text.length) : c ∈ text := by
  rw [h.eq_append, List.getElem?_append_right hle, List.getElem?_append_left (by omega)] at hc
  exact List.mem_of_getElem? hc

/-- A marker is clear of a shape if its first character stands in no text of the shape, and no text
of the shape can begin behind it in the marker. -/
theorem clear_of_barrier {shape : List Char → Prop} {barrier : Char} {marker : List Char}
    (hbarrier : ∀ text, shape text → barrier ∉ text)
    (hmarker : ∀ xs ys back text, marker = xs ++ ys → ys ≠ [] → shape text →
      ¬ text <+: ys ++ back) : Clear shape (barrier :: marker) := by
  intro front back pre text post h
  by_cases hend : pre.length + text.length ≤ front.length
  · exact Or.inl hend
  right
  have hat : (front ++ (barrier :: marker ++ back))[front.length]? = some barrier := by simp
  have hlt : front.length < pre.length := by
    by_contra hle
    exact hbarrier text h.shape (h.mem_of_getElem? hat (by omega) (by omega))
  -- the occurrence begins behind the barrier, so it could only begin in the rest of the marker
  have hknown : front ++ [barrier] <+: pre := by
    have hfrontLe : front ++ [barrier] <+: front ++ (barrier :: marker ++ back) :=
      ⟨marker ++ back, by simp⟩
    apply List.prefix_of_prefix_length_le hfrontLe ⟨text ++ post, h.eq_append.symm⟩
    rw [List.length_append, List.length_singleton]
    omega
  obtain ⟨as, rfl⟩ := hknown
  have heq : marker ++ back = as ++ (text ++ post) := by
    have := h.eq_append
    simpa [List.append_assoc] using this
  rcases append_split heq with ⟨bs, has, -⟩ | ⟨ys, hys, hsplit, hpost⟩
  · rw [has]
    simp only [List.length_append, List.length_cons, List.length_nil]
    omega
  · exact absurd ⟨post, hpost⟩ (hmarker as ys back text hsplit hys h.shape)

/-! ## The built-in marker -/

/-- The name that is checked if the settings give no other. -/
def defaultName : List Char := ({} : DeclarationSettings).variableName.toList

/-- The marker that is put in if the settings give no other. -/
def defaultMarker : List Char := ({} : DeclarationSettings).marker.toList

theorem isIdentifier_defaultName : Settings.isIdentifier defaultName = true := by decide +kernel

/-- Whether two texts are equal as far as both of them go. -/
def agree : List Char → List Char → Bool
  | x :: xs, y :: ys => x == y && agree xs ys
  | _, _ => true

theorem agree_of_append_eq_append {xs ys s t : List Char} (h : xs ++ s = ys ++ t) :
    agree xs ys = true := by
  induction xs generalizing ys with
  | nil => simp [agree]
  | cons x xs ih =>
    cases ys with
    | nil => simp [agree]
    | cons y ys =>
      simp only [List.cons_append, List.cons.injEq] at h
      simp [agree, h.1, ih h.2]

/-- The name stands once in the built-in marker, and nowhere else in it could a name begin. -/
theorem agree_defaultName : ∀ ys ∈ defaultMarker.tails, ys ≠ [] → agree defaultName ys = true →
    ys = defaultName ++ " check moved after declaration".toList := by
  decide +kernel

theorem agree_let : ∀ ys ∈ defaultMarker.tails, ys ≠ [] → agree ['l', 'e', 't'] ys = false := by
  decide +kernel

theorem clear_isCheck_default : Clear (IsCheck defaultName) defaultMarker := by
  apply clear_of_barrier
  · intro text htext
    exact htext.not_mem isIdentifier_defaultName (by decide) (by decide) (by decide)
  · rintro xs ys back text hsplit hys ⟨gap, op, gap', lit, hgap, hop, -, -, rfl⟩ ⟨post, heq⟩
    have hmem : ys ∈ defaultMarker.tails :=
      (List.mem_tails _ _).2 ⟨'/' :: xs, by rw [List.cons_append, ← hsplit]; rfl⟩
    rw [List.append_assoc] at heq
    -- behind the name a comparison would have to stand, but there stands the word `check`
    rw [agree_defaultName ys hmem hys (agree_of_append_eq_append heq), List.append_assoc] at heq
    have hskip := congrArg skipBlanks (List.append_cancel_left heq)
    obtain ⟨o, op, rfl, ho⟩ := head_of_comparisons hop
    have ho' : isBlank o = false := by rcases ho with rfl | rfl <;> decide
    simp only [List.append_assoc, skipBlanks_append hgap, List.cons_append,
      skipBlanks_cons_of_not ho'] at hskip
    have hhead : some o = some 'c' := congrArg List.head? hskip
    rcases ho with rfl | rfl <;> simp at hhead

theorem clear_isDeclaration_default : Clear (IsDeclaration defaultName) defaultMarker := by
  apply clear_of_barrier
  · rintro text ⟨gap, gap', -, hgap, hgap', rfl⟩ hmem
    simp only [List.mem_append] at hmem
    rcases hmem with hmem | hmem | hmem | hmem | hmem
    · exact absurd hmem (by decide)
    · exact absurd (hgap _ hmem) (by decide)
    · exact absurd (isNameChar_of_isIdentifier isIdentifier_defaultName _ hmem) (by decide)
    · exact absurd (hgap' _ hmem) (by decide)
    · exact absurd hmem (by decide)
  · rintro xs ys back text hsplit hys ⟨gap, gap', -, -, -, rfl⟩ ⟨post, heq⟩
    have hmem : ys ∈ defaultMarker.tails :=
      (List.mem_tails _ _).2 ⟨'/' :: xs, by rw [List.cons_append, ← hsplit]; rfl⟩
    rw [List.append_assoc] at heq
    simpa [agree_let ys hmem hys] using agree_of_append_eq_append heq

end WorkflowRepair.Repair
