import Mathlib.Data.List.DropRight
import Mathlib.Data.List.Infix
import WorkflowRepair.Proofs.Script.Occurrence
import WorkflowRepair.Proofs.Text.Replace
import WorkflowRepair.Text.Template

/-!
# What stripping leaves

Stripping is a single pass, and where it takes a leftover away the text on its two sides meets. The
only thing that may come of it is a pair of closing braces. So the pass leaves a leftover exactly if
before it there was a torn one, with other leftovers between its closing braces
(`contains_stripped_iff`).

Rendering strips the filled template and trims it, which touches no leftover. What it gives is left
alone by all further rendering exactly if the filled template has no torn leftover
(`render_leaves_iff`).
-/

namespace WorkflowRepair.Text

/-! ## Shapes -/

/-- The text of a leftover. -/
def IsLeftover (text : List Char) : Prop :=
  ∃ inside, inside ≠ [] ∧ '}' ∉ inside ∧ text = '{' :: '{' :: (inside ++ ['}', '}'])

/-- The text of a torn leftover: between its closing braces stand others. -/
def IsTorn (text : List Char) : Prop :=
  ∃ inside others, inside ≠ [] ∧ '}' ∉ inside ∧ others ≠ [] ∧ (∀ other ∈ others, IsLeftover other) ∧
    text = '{' :: '{' :: (inside ++ '}' :: (others.flatten ++ ['}']))

/-- A shape stands at the head of a text. -/
def Opens (shape : List Char → Prop) (cs : List Char) : Prop := ∃ text, shape text ∧ text <+: cs

/-- A shape stands somewhere in a text. -/
def Contains (shape : List Char → Prop) (cs : List Char) : Prop := ∃ text, shape text ∧ text <:+: cs

theorem contains_cons_iff {shape : List Char → Prop} {c : Char} {cs : List Char} :
    Contains shape (c :: cs) ↔ Opens shape (c :: cs) ∨ Contains shape cs := by
  simp only [Contains, Opens, List.infix_cons_iff, and_or_left, exists_or]

/-- The first closing brace of a text stands behind something and in front of `next`. -/
def ClosesBefore (next : Char) (text : List Char) : Prop :=
  ∃ front back, front ≠ [] ∧ '}' ∉ front ∧ text = front ++ '}' :: next :: back

theorem not_mem_doubled {inside : List Char} (h : '}' ∉ inside) : '}' ∉ '{' :: '{' :: inside := by
  simp [h]

theorem IsLeftover.closesBefore {text : List Char} (h : IsLeftover text) :
    ClosesBefore '}' text := by
  obtain ⟨inside, -, hinside, rfl⟩ := h
  exact ⟨'{' :: '{' :: inside, [], List.cons_ne_nil _ _, not_mem_doubled hinside, rfl⟩

theorem IsTorn.closesBefore {text : List Char} (h : IsTorn text) : ClosesBefore '{' text := by
  obtain ⟨inside, others, -, hinside, hne, hothers, rfl⟩ := h
  obtain ⟨other, others, rfl⟩ := List.exists_cons_of_ne_nil hne
  obtain ⟨inside', -, -, rfl⟩ := hothers other List.mem_cons_self
  exact ⟨'{' :: '{' :: inside, _, List.cons_ne_nil _ _, not_mem_doubled hinside, rfl⟩

theorem ClosesBefore.ne_nil {next : Char} {text : List Char} (h : ClosesBefore next text) :
    text ≠ [] := by
  obtain ⟨front, back, -, -, rfl⟩ := h
  simp

theorem IsLeftover.ne_nil {text : List Char} (h : IsLeftover text) : text ≠ [] :=
  h.closesBefore.ne_nil

/-- What the first closing brace of a text says about a shape at its head. -/
theorem ClosesBefore.of_beginning {next : Char} {text front back : List Char}
    (h : ClosesBefore next text) (hfront : '}' ∉ front)
    (hbeginning : text <+: front ++ '}' :: back) :
    front ≠ [] ∧ back.head? = some next := by
  obtain ⟨front', back', hne, hfront', rfl⟩ := h
  obtain ⟨post, hpost⟩ := hbeginning
  rw [List.append_assoc, List.cons_append] at hpost
  have hclear : ∀ cs : List Char, '}' ∉ cs → ∀ c ∈ cs, ¬ c = '}' := by
    rintro cs hcs c hc rfl
    exact hcs hc
  obtain ⟨rfl, -, rfl⟩ :=
    Repair.append_cons_inj (hclear _ hfront') (hclear _ hfront) rfl rfl hpost
  exact ⟨hne, rfl⟩

/-- A shape does not stand at the head of a text that closes where no text of the shape does. -/
theorem not_opens {shape : List Char → Prop} {next : Char} {front back : List Char}
    (hshape : ∀ text, shape text → ClosesBefore next text) (hfront : '}' ∉ front)
    (hback : front = [] ∨ back.head? ≠ some next) : ¬ Opens shape (front ++ '}' :: back) := by
  rintro ⟨text, htext, hbeginning⟩
  obtain ⟨hne, hnext⟩ := (hshape text htext).of_beginning hfront hbeginning
  rcases hback with hnil | hback
  · exact hne hnil
  · exact hback hnext

theorem not_opens_leftover {front back : List Char} (hfront : '}' ∉ front)
    (hback : front = [] ∨ back.head? ≠ some '}') : ¬ Opens IsLeftover (front ++ '}' :: back) :=
  not_opens (fun _ => IsLeftover.closesBefore) hfront hback

theorem not_opens_torn {front back : List Char} (hfront : '}' ∉ front)
    (hback : front = [] ∨ back.head? ≠ some '{') : ¬ Opens IsTorn (front ++ '}' :: back) :=
  not_opens (fun _ => IsTorn.closesBefore) hfront hback

/-- What stands in front of a leftover and goes on with its opening braces belongs to it. -/
theorem IsLeftover.cons {kept text : List Char} (h : IsLeftover text) (hkept : '}' ∉ kept)
    (hhead : (kept ++ text).head? = some '{') : IsLeftover ('{' :: (kept ++ text)) := by
  obtain ⟨inside, hne, hinside, rfl⟩ := h
  cases kept with
  | nil => exact ⟨'{' :: inside, List.cons_ne_nil _ _, by simp [hinside], rfl⟩
  | cons c kept =>
    obtain rfl : c = '{' := Option.some.inj hhead
    rw [List.mem_cons, not_or] at hkept
    exact ⟨kept ++ '{' :: '{' :: inside, by simp, by simp [hkept.2, hinside], by simp⟩

/-! ## One step of the pass -/

/-- A text behind the pass. -/
def stripped (cs : List Char) : List Char := replaceAll strip 0 cs

theorem leftover?_append {inside : List Char} (hne : inside ≠ []) (hinside : '}' ∉ inside)
    (rest : List Char) : leftover? ('{' :: '{' :: (inside ++ '}' :: '}' :: rest)) = some rest := by
  have hall : ∀ c ∈ inside, (c != '}') = true := by
    intro c hc
    rw [bne_iff_ne]
    rintro rfl
    exact hinside hc
  have htake : (inside ++ '}' :: '}' :: rest).takeWhile (· != '}') = inside := by
    rw [List.takeWhile_append_of_pos hall]
    simp
  have hdrop : (inside ++ '}' :: '}' :: rest).dropWhile (· != '}') = '}' :: '}' :: rest := by
    rw [List.dropWhile_append_of_pos hall]
    simp
  simp only [leftover?, htake, hdrop, List.isEmpty_iff, if_neg hne]

theorem leftover?_eq_some_iff {cs rest : List Char} :
    leftover? cs = some rest ↔ ∃ text, IsLeftover text ∧ cs = text ++ rest := by
  constructor
  · intro h
    unfold leftover? at h
    split at h
    case h_2 => cases h
    case h_1 inside =>
      split at h
      case isTrue => cases h
      case isFalse hempty =>
        split at h
        case h_2 => cases h
        case h_1 behind hbehind =>
          obtain rfl := Option.some.inj h
          refine ⟨_, ⟨inside.takeWhile (· != '}'), ?_, ?_, rfl⟩, ?_⟩
          · rwa [List.isEmpty_iff] at hempty
          · intro hmem
            simpa using List.mem_takeWhile_imp hmem
          · have hsplit := List.takeWhile_append_dropWhile (p := (· != '}')) (l := inside)
            rw [hbehind] at hsplit
            simp [hsplit]
  · rintro ⟨_, ⟨inside, hne, hinside, rfl⟩, rfl⟩
    have := leftover?_append hne hinside rest
    simpa using this

theorem strip_eq_none_iff {cs : List Char} : strip cs = none ↔ ¬ Opens IsLeftover cs := by
  rw [strip, Option.map_eq_none_iff, Option.eq_none_iff_forall_not_mem]
  simp only [Option.mem_def, leftover?_eq_some_iff]
  constructor
  · rintro h ⟨text, htext, rest, rfl⟩
    exact h rest ⟨text, htext, rfl⟩
  · rintro h rest ⟨text, htext, rfl⟩
    exact h ⟨text, htext, rest, rfl⟩

theorem stripped_keep {c : Char} {rest : List Char} (h : ¬ Opens IsLeftover (c :: rest)) :
    stripped (c :: rest) = c :: stripped rest :=
  replaceAll_keep (strip_eq_none_iff.2 h)

theorem stripped_leftover {text : List Char} (h : IsLeftover text) (rest : List Char) :
    stripped (text ++ rest) = stripped rest := by
  have hrest : leftover? (text ++ rest) = some rest := leftover?_eq_some_iff.2 ⟨text, h, rfl⟩
  have hstrip : strip (text ++ rest) = some ([], text.length) := by
    rw [strip, hrest, Option.map_some, List.length_append, Nat.add_sub_cancel_right]
  exact replaceAll_match h.ne_nil hstrip

/-- The steps of the pass as an induction: each keeps a character or takes a leftover away. -/
@[elab_as_elim]
theorem stripped_induction {motive : List Char → Prop} (nil : motive [])
    (keep : ∀ c rest, ¬ Opens IsLeftover (c :: rest) → motive rest → motive (c :: rest))
    (leftover : ∀ text rest, IsLeftover text → motive rest → motive (text ++ rest))
    (cs : List Char) : motive cs := by
  induction hlength : cs.length using Nat.strongRecOn generalizing cs with
  | ind n ih =>
    cases cs with
    | nil => exact nil
    | cons c rest =>
      by_cases hopens : Opens IsLeftover (c :: rest)
      · obtain ⟨text, htext, behind, heq⟩ := hopens
        rw [← heq] at hlength ⊢
        have hpos := List.length_pos_iff.2 htext.ne_nil
        rw [List.length_append] at hlength
        exact leftover text behind htext (ih behind.length (by omega) behind rfl)
      · rw [List.length_cons] at hlength
        exact keep c rest hopens (ih rest.length (by omega) rest rfl)

/-! ## The pass forwards -/

theorem stripped_flatten {others : List (List Char)} (h : ∀ other ∈ others, IsLeftover other)
    (rest : List Char) : stripped (others.flatten ++ rest) = stripped rest := by
  induction others with
  | nil => rfl
  | cons other others ih =>
    rw [List.forall_mem_cons] at h
    rw [List.flatten_cons, List.append_assoc, stripped_leftover h.1, ih h.2]

theorem stripped_append {front back : List Char}
    (h : ∀ kept tail, front = kept ++ tail → tail ≠ [] → ¬ Opens IsLeftover (tail ++ back)) :
    stripped (front ++ back) = front ++ stripped back := by
  induction front with
  | nil => rfl
  | cons c front ih =>
    have hkeep := h [] (c :: front) rfl (List.cons_ne_nil c front)
    have hrest := ih fun kept tail hsplit => h (c :: kept) tail (by rw [hsplit]; rfl)
    rw [List.cons_append] at hkeep ⊢
    rw [stripped_keep hkeep, hrest, List.cons_append]

/-- Up to a closing brace that another brace does not follow, the pass keeps everything. -/
theorem stripped_closing {front back : List Char} (hfront : '}' ∉ front)
    (hback : back.head? ≠ some '}') :
    stripped (front ++ '}' :: back) = front ++ '}' :: stripped back := by
  have hclosing : ¬ Opens IsLeftover ('}' :: back) := not_opens_leftover List.not_mem_nil (.inl rfl)
  rw [stripped_append, stripped_keep hclosing]
  rintro kept tail rfl -
  exact not_opens_leftover (fun hmem => hfront (List.mem_append_right kept hmem)) (.inr hback)

/-! ## The pass backwards -/

/-- In front of a character that is left stood leftovers, and then the character. -/
theorem stripped_eq_cons {code out : List Char} {c : Char} (h : stripped code = c :: out) :
    ∃ (others : List (List Char)) (rest : List Char), (∀ other ∈ others, IsLeftover other) ∧
      code = others.flatten ++ c :: rest ∧ stripped rest = out := by
  induction code using stripped_induction with
  | nil => cases h
  | keep d rest hkeep _ =>
    rw [stripped_keep hkeep] at h
    obtain ⟨rfl, hout⟩ := List.cons.inj h
    exact ⟨[], rest, by simp, rfl, hout⟩
  | leftover text rest htext ih =>
    rw [stripped_leftover htext] at h
    obtain ⟨others, behind, hothers, rfl, hout⟩ := ih h
    exact ⟨text :: others, behind, List.forall_mem_cons.2 ⟨htext, hothers⟩, by simp, hout⟩

/-- What is left in one piece stood in one piece, or a leftover stood in it. -/
theorem stripped_eq_append {front back code : List Char} (h : stripped code = front ++ back) :
    (∃ rest, code = front ++ rest ∧ stripped rest = back) ∨
      ∃ kept d text rest, kept ++ [d] <+: front ∧ IsLeftover text ∧
        code = kept ++ (text ++ rest) := by
  induction front generalizing code with
  | nil => exact .inl ⟨code, rfl, h⟩
  | cons c front ih =>
    obtain ⟨others, rest, hothers, rfl, hrest⟩ := stripped_eq_cons h
    cases others with
    | cons other others =>
      have hother := hothers other List.mem_cons_self
      refine .inr ⟨[], c, other, others.flatten ++ c :: rest, ?_, hother, ?_⟩
      · exact List.prefix_append [c] front
      · simp
    | nil =>
      rcases ih hrest with ⟨rest, rfl, hback⟩ | ⟨kept, d, text, behind, hkept, htext, rfl⟩
      · exact .inl ⟨rest, rfl, hback⟩
      · exact .inr ⟨c :: kept, d, text, behind, (List.prefix_cons_inj c).2 hkept, htext, rfl⟩

/-! ## What the pass leaves -/

/-- A kept character that begins a leftover behind the pass began a torn one. -/
theorem opens_torn_of_stripped {c : Char} {rest : List Char}
    (hkeep : ¬ Opens IsLeftover (c :: rest)) (h : Opens IsLeftover (c :: stripped rest)) :
    Opens IsTorn (c :: rest) := by
  obtain ⟨_, ⟨inside, hne, hinside, rfl⟩, post, heq⟩ := h
  obtain ⟨rfl, hout⟩ := List.cons.inj heq
  have hsplit : stripped rest = '{' :: (inside ++ ['}']) ++ '}' :: post := by
    rw [← hout]
    simp
  rcases stripped_eq_append hsplit with
    ⟨behind, rfl, hbehind⟩ | ⟨kept, d, text, behind, hkept, htext, rfl⟩
  · -- up to the first closing brace nothing is taken away, so something is behind it
    obtain ⟨others, behind, hothers, rfl, -⟩ := stripped_eq_cons hbehind
    cases others with
    | nil => exact absurd ⟨_, ⟨inside, hne, hinside, rfl⟩, behind, by simp⟩ hkeep
    | cons other others =>
      exact ⟨_, ⟨inside, other :: others, hne, hinside, List.cons_ne_nil _ _, hothers, rfl⟩,
        behind, by simp⟩
  · -- a leftover before it would have been a longer one, which began with the kept character
    have hshort : kept <+: '{' :: inside := by
      rw [← List.cons_append] at hkept
      rcases List.prefix_concat_iff.1 hkept with heq | hkept
      · rw [(List.append_inj' heq rfl).1]
      · exact (List.prefix_append kept [d]).trans hkept
    have hclear : '}' ∉ kept := by
      intro hmem
      have := hshort.subset hmem
      simp [hinside] at this
    have hhead : (kept ++ text).head? = some '{' := by
      obtain ⟨inside', -, -, rfl⟩ := htext
      rcases List.prefix_cons_iff.1 hshort with rfl | ⟨kept, rfl, -⟩
      · rfl
      · rfl
    exact absurd ⟨_, htext.cons hclear hhead, behind, by simp⟩ hkeep

/-- Once what tears it is taken away, a torn leftover is one. -/
theorem opens_stripped_of_torn {c : Char} {rest : List Char} (h : Opens IsTorn (c :: rest)) :
    Opens IsLeftover (c :: stripped rest) := by
  obtain ⟨_, ⟨inside, others, hne, hinside, hothersNe, hothers, rfl⟩, post, heq⟩ := h
  obtain ⟨rfl, rfl⟩ := List.cons.inj heq
  obtain ⟨other, others, rfl⟩ := List.exists_cons_of_ne_nil hothersNe
  have hnext : ((other :: others).flatten ++ '}' :: post).head? ≠ some '}' := by
    obtain ⟨inside', -, -, rfl⟩ := hothers other List.mem_cons_self
    simp
  have hfirst : '}' ∉ '{' :: inside := by simp [hinside]
  have hlast : ¬ Opens IsLeftover ('}' :: post) := not_opens_leftover List.not_mem_nil (.inl rfl)
  refine ⟨_, ⟨inside, hne, hinside, rfl⟩, stripped post, ?_⟩
  have hstripped := stripped_closing hfirst hnext
  rw [stripped_flatten hothers, stripped_keep hlast] at hstripped
  simpa using hstripped.symm

theorem opens_stripped_iff {c : Char} {rest : List Char} (hkeep : ¬ Opens IsLeftover (c :: rest)) :
    Opens IsLeftover (c :: stripped rest) ↔ Opens IsTorn (c :: rest) :=
  ⟨opens_torn_of_stripped hkeep, opens_stripped_of_torn⟩

/-- Up to two closing braces in a row no torn leftover begins. -/
theorem contains_torn_closing_iff {front : List Char} (hfront : '}' ∉ front) (rest : List Char) :
    Contains IsTorn (front ++ '}' :: '}' :: rest) ↔ Contains IsTorn rest := by
  induction front with
  | nil =>
    have hfirst : ¬ Opens IsTorn ('}' :: '}' :: rest) := not_opens_torn hfront (.inl rfl)
    have hsecond : ¬ Opens IsTorn ('}' :: rest) := not_opens_torn hfront (.inl rfl)
    rw [List.nil_append, contains_cons_iff, or_iff_right hfirst, contains_cons_iff,
      or_iff_right hsecond]
  | cons c front ih =>
    have hclosing : ('}' :: rest).head? ≠ some '{' := by simp
    have hhere : ¬ Opens IsTorn (c :: (front ++ '}' :: '}' :: rest)) :=
      not_opens_torn hfront (.inr hclosing)
    have hrest := ih fun hmem => hfront (List.mem_cons_of_mem c hmem)
    rw [List.cons_append, contains_cons_iff, or_iff_right hhere]
    exact hrest

/-- No torn leftover begins in a leftover. -/
theorem contains_torn_leftover_iff {text : List Char} (h : IsLeftover text) (rest : List Char) :
    Contains IsTorn (text ++ rest) ↔ Contains IsTorn rest := by
  obtain ⟨inside, -, hinside, rfl⟩ := h
  simpa using contains_torn_closing_iff (not_mem_doubled hinside) rest

/-- The pass leaves a leftover exactly if there was a torn one. -/
theorem contains_stripped_iff (cs : List Char) :
    Contains IsLeftover (stripped cs) ↔ Contains IsTorn cs := by
  induction cs using stripped_induction with
  | nil =>
    have hnone : ∀ {next : Char} {text : List Char}, ClosesBefore next text → ¬ text <:+: [] :=
      fun h hinfix => h.ne_nil (List.infix_nil.1 hinfix)
    constructor
    · rintro ⟨text, htext, hinfix⟩
      exact absurd hinfix (hnone htext.closesBefore)
    · rintro ⟨text, htext, hinfix⟩
      exact absurd hinfix (hnone htext.closesBefore)
  | keep c rest hkeep ih =>
    rw [stripped_keep hkeep, contains_cons_iff, contains_cons_iff, opens_stripped_iff hkeep, ih]
  | leftover text rest htext ih =>
    rw [stripped_leftover htext, contains_torn_leftover_iff htext, ih]

/-! ## Trimming -/

theorem infix_dropWhile {p : Char → Bool} {c : Char} {tail cs : List Char} (hc : p c = false)
    (h : c :: tail <:+: cs) : c :: tail <:+: cs.dropWhile p := by
  induction cs with
  | nil => exact h
  | cons d cs ih =>
    rw [List.dropWhile_cons]
    rcases List.infix_cons_iff.1 h with hhead | htail
    · rw [List.cons_prefix_cons] at hhead
      rw [← hhead.1, hc]
      exact (List.cons_prefix_cons.2 ⟨rfl, hhead.2⟩).isInfix
    · split
      · exact ih htail
      · exact List.infix_cons htail

theorem trim_eq_rdropWhile (cs : List Char) : trim cs = (skipBlanks cs).rdropWhile isBlank := rfl

theorem isInfix_trim (cs : List Char) : trim cs <:+: cs :=
  (List.rdropWhile_prefix isBlank (skipBlanks cs)).isInfix.trans
    (List.dropWhile_suffix isBlank).isInfix

theorem trim_trim (cs : List Char) : trim (trim cs) = trim cs := by
  have hskip : skipBlanks (trim cs) = trim cs := by
    -- what trimming leaves of a text begins as the text behind its blanks does
    have hkept : trim cs <+: skipBlanks cs := List.rdropWhile_prefix isBlank (skipBlanks cs)
    have hself := List.dropWhile_eq_self_iff.1 (List.dropWhile_idempotent isBlank cs)
    refine List.dropWhile_eq_self_iff.2 fun hpos => ?_
    rw [hkept.getElem hpos]
    exact hself (hpos.trans_le hkept.length_le)
  rw [trim_eq_rdropWhile (trim cs), hskip, trim_eq_rdropWhile, List.rdropWhile_idempotent]

/-- Trimming keeps every leftover, and it makes none. -/
theorem contains_trim_iff (cs : List Char) :
    Contains IsLeftover (trim cs) ↔ Contains IsLeftover cs := by
  constructor
  · rintro ⟨text, htext, hinfix⟩
    exact ⟨text, htext, hinfix.trans (isInfix_trim cs)⟩
  · rintro ⟨_, ⟨inside, hne, hinside, rfl⟩, hinfix⟩
    refine ⟨_, ⟨inside, hne, hinside, rfl⟩, ?_⟩
    have hfront : '{' :: '{' :: (inside ++ ['}', '}']) <:+: skipBlanks cs :=
      infix_dropWhile (by decide) hinfix
    have hback := List.reverse_infix.2 hfront
    have hreverse : ('{' :: '{' :: (inside ++ ['}', '}'])).reverse =
        '}' :: '}' :: (inside.reverse ++ ['{', '{']) := by simp
    rw [hreverse] at hback
    have htrim := List.reverse_infix.2 (infix_dropWhile (p := isBlank) (by decide) hback)
    rwa [← hreverse, List.reverse_reverse] at htrim

/-! ## Rendering -/

/-- A template with the values of its keys, before anything is stripped. -/
def filled (template : String) (vars : Json.Members) (allowed : Option (List String)) : List Char :=
  replaceAll (fill vars allowed) 0 template.toList

theorem toList_render (template : String) (vars : Json.Members) (allowed : Option (List String)) :
    (render template vars allowed).toList = trim (stripped (filled template vars allowed)) := by
  rw [render, String.toList_ofList]
  rfl

theorem contains_render_iff (template : String) (vars : Json.Members)
    (allowed : Option (List String)) :
    Contains IsLeftover (render template vars allowed).toList ↔
      Contains IsTorn (filled template vars allowed) := by
  rw [toList_render, contains_trim_iff, contains_stripped_iff]

/-- Every placeholder has the shape of a leftover. -/
theorem opens_of_placeholder? {cs key rest : List Char} (h : placeholder? cs = some (key, rest)) :
    Opens IsLeftover cs := by
  unfold placeholder? at h
  split at h
  case h_2 => cases h
  case h_1 inside =>
    obtain ⟨gap, hgap, hinside⟩ := Repair.exists_blanks_skipBlanks inside
    have hkey := List.takeWhile_append_dropWhile (p := isKeyChar) (l := skipBlanks inside)
    obtain ⟨gap', hgap', hbehind⟩ :=
      Repair.exists_blanks_skipBlanks ((skipBlanks inside).dropWhile isKeyChar)
    have hchars : ∀ c ∈ (skipBlanks inside).takeWhile isKeyChar, isKeyChar c = true :=
      fun c hc => List.mem_takeWhile_imp hc
    simp only at h
    split at h
    case isTrue => cases h
    case isFalse hempty =>
      split at h
      case h_2 => cases h
      case h_1 behind hclosing =>
        generalize (skipBlanks inside).takeWhile isKeyChar = name at *
        rw [hclosing] at hbehind
        rw [hbehind] at hkey
        rw [← hkey] at hinside
        refine ⟨_, ⟨gap ++ (name ++ gap'), ?_, ?_, rfl⟩, behind, ?_⟩
        · rw [List.isEmpty_iff] at hempty
          simp [hempty]
        · -- neither the blanks nor the key hold a closing brace
          have hblank : isBlank '}' = false := by decide
          have hkeyChar : isKeyChar '}' = false := by decide
          intro hmem
          rcases List.mem_append.1 hmem with hmem | hmem
          · rw [hgap _ hmem] at hblank
            cases hblank
          · rcases List.mem_append.1 hmem with hmem | hmem
            · rw [hchars _ hmem] at hkeyChar
              cases hkeyChar
            · rw [hgap' _ hmem] at hblank
              cases hblank
        · simp [hinside]

theorem unmatched_strip_iff {cs : List Char} :
    Unmatched strip cs ↔ ¬ Contains IsLeftover cs := by
  constructor
  · rintro h ⟨text, htext, front, back, rfl⟩
    obtain ⟨c, tail, rfl⟩ := List.exists_cons_of_ne_nil htext.ne_nil
    have hsuffix : c :: (tail ++ back) <:+ front ++ (c :: tail) ++ back := by
      rw [List.append_assoc]
      exact List.suffix_append front _
    exact strip_eq_none_iff.1 (h _ _ hsuffix) ⟨_, htext, back, rfl⟩
  · rintro h c rest hsuffix
    rw [strip_eq_none_iff]
    rintro ⟨text, htext, hbeginning⟩
    exact h ⟨text, htext, hbeginning.isInfix.trans hsuffix.isInfix⟩

theorem unmatched_fill {cs : List Char} (h : ¬ Contains IsLeftover cs) (vars : Json.Members)
    (allowed : Option (List String)) : Unmatched (fill vars allowed) cs := by
  intro c rest hsuffix
  rw [fill, Option.map_eq_none_iff, Option.eq_none_iff_forall_not_mem]
  rintro ⟨key, behind⟩ hfound
  obtain ⟨text, htext, hbeginning⟩ := opens_of_placeholder? hfound
  exact h ⟨text, htext, hbeginning.isInfix.trans hsuffix.isInfix⟩

theorem erases_strip : Erases strip := by
  intro cs replacement length h
  obtain ⟨rest, -, hrest⟩ := Option.map_eq_some_iff.1 h
  exact (congrArg Prod.fst hrest).symm

/-- Without values every placeholder is taken away. -/
theorem erases_fill_nil (allowed : Option (List String)) : Erases (fill [] allowed) := by
  intro cs replacement length h
  obtain ⟨⟨key, rest⟩, -, hrest⟩ := Option.map_eq_some_iff.1 h
  have hempty : keyText [] allowed (String.ofList key) = "" := ite_self _
  exact (congrArg Prod.fst hrest).symm.trans (congrArg String.toList hempty)

/-- A trimmed text without leftovers is rendered as it is. -/
theorem render_eq_self {text : String} (htrim : trim text.toList = text.toList)
    (hclean : ¬ Contains IsLeftover text.toList) (vars : Json.Members)
    (allowed : Option (List String)) : render text vars allowed = text := by
  have hfilled : filled text vars allowed = text.toList :=
    (unmatched_fill hclean vars allowed).replaceAll_eq
  have hstripped : stripped text.toList = text.toList :=
    (unmatched_strip_iff.2 hclean).replaceAll_eq
  rw [← String.toList_inj, toList_render, hfilled, hstripped, htrim]

/-- Without values a text with a leftover is not rendered as it is: something is taken away. -/
theorem not_contains_of_render_eq {text : String} (h : render text [] none = text) :
    ¬ Contains IsLeftover text.toList := by
  have hrendered : text.toList = trim (stripped (filled text [] none)) := by
    rw [← toList_render, h]
  have htrimmed := (isInfix_trim (stripped (filled text [] none))).length_le
  rw [← hrendered] at htrimmed
  have hstripped := erases_strip.length_le 0 (filled text [] none)
  have hfilled : filled text [] none = text.toList :=
    ((erases_fill_nil none).unmatched (htrimmed.trans hstripped)).replaceAll_eq
  rw [hfilled] at htrimmed
  exact unmatched_strip_iff.1 (erases_strip.unmatched htrimmed)

/-- Rendering leaves a leftover exactly if the filled template has a torn one. Exactly if it leaves
none, all further rendering leaves the result alone. -/
theorem render_leaves_iff (template : String) (vars : Json.Members)
    (allowed : Option (List String)) :
    (Contains IsLeftover (render template vars allowed).toList ↔
        Contains IsTorn (filled template vars allowed)) ∧
      ((∀ vars' allowed', render (render template vars allowed) vars' allowed' =
          render template vars allowed) ↔ ¬ Contains IsTorn (filled template vars allowed)) := by
  have hleaves := contains_render_iff template vars allowed
  refine ⟨hleaves, fun hagain => ?_, fun htorn => ?_⟩
  · rw [← hleaves]
    exact not_contains_of_render_eq (hagain [] none)
  · rw [← hleaves] at htorn
    have htrim : trim (render template vars allowed).toList =
        (render template vars allowed).toList := by
      rw [toList_render, trim_trim]
    exact render_eq_self htrim htorn

/-- A dash in double braces keeps the closing braces of another placeholder apart. Once it is
stripped, they meet, and rendering again fills the placeholder in. -/
theorem render_leaves_placeholder :
    let template := "\x7b\x7ba\x7d\x7b\x7b-\x7d\x7d\x7d"
    let rendered := "\x7b\x7ba\x7d\x7d"
    render template [] none = rendered ∧ Contains IsLeftover rendered.toList ∧
      render rendered [("a", .string "x")] none = "x" := by
  intro template rendered
  have hrendered : render template [] none = rendered := by decide +kernel
  have hleftover : IsLeftover rendered.toList := ⟨['a'], by decide, by decide, by decide⟩
  have hagain : render rendered [("a", .string "x")] none = "x" := by decide +kernel
  exact ⟨hrendered, ⟨_, hleftover, List.infix_rfl⟩, hagain⟩

end WorkflowRepair.Text
