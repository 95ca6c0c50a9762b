import WorkflowRepair.Proofs.Json.Number
import WorkflowRepair.Proofs.Json.Text

/-!
# Reading values

The reader takes exactly the language of the grammar. `Reads` says so of a reader of single values,
wherever they stand in a text; it holds of `readValue` at every depth (`reads_readValue`), and for
whole texts it comes to `readText_eq_ok_iff`.
-/

namespace WorkflowRepair.Json

/-! ## Blanks -/

theorem skipBlanks_append {blanks : List Char} (h : Blank blanks) (cs : List Char) :
    skipBlanks (blanks ++ cs) = skipBlanks cs :=
  List.dropWhile_append_of_pos h

theorem skipBlanks_cons {c : Char} (h : isBlank c = false) (cs : List Char) :
    skipBlanks (c :: cs) = c :: cs := by
  simp [skipBlanks, h]

theorem exists_blank_append (cs : List Char) :
    ∃ blanks, Blank blanks ∧ cs = blanks ++ skipBlanks cs :=
  ⟨cs.takeWhile isBlank, fun _ hc => List.all_eq_true.1 List.all_takeWhile _ hc,
    List.takeWhile_append_dropWhile.symm⟩

theorem blank_nil : Blank [] := fun _ hc => absurd hc List.not_mem_nil

/-- A blank goes on with no number. -/
theorem ends_append {blanks cs : List Char} (h : Blank blanks) (hends : Ends cs) :
    Ends (blanks ++ cs) := by
  cases blanks with
  | nil => exact hends
  | cons c blanks =>
    have hblank := h c List.mem_cons_self
    simp only [isBlank, Bool.or_eq_true, beq_iff_eq] at hblank
    refine ends_cons ?_
    rcases hblank with ((rfl | rfl) | rfl) | rfl <;> decide

/-! ## Readers of single values -/

/-- A reader of single values takes what `P` says is a written value. -/
structure Reads (item : List Char → Except Fault (Value × List Char))
    (P : Source → List Char → Prop) : Prop where
  /-- A written value begins with no blank and no closing bracket. -/
  starts : ∀ source text, P source text → ∃ c rest, text = c :: rest ∧ isBlank c = false ∧ c ≠ ']'
  /-- What is written is read as it is meant. -/
  comes : ∀ source text blanks rest, P source text → Blank blanks → Ends rest →
    Comes (item (blanks ++ (text ++ rest))) source.value? rest
  /-- What is read is written. -/
  splits : ∀ cs v rest, item cs = .ok (v, rest) → Ends rest → ∃ source blanks text,
    P source text ∧ source.value? = some v ∧ Blank blanks ∧ cs = blanks ++ (text ++ rest)

section

variable {item : List Char → Except Fault (Value × List Char)} {P : Source → List Char → Prop}

/-! ## Items -/

theorem Separated.starts {α : Type} {P : α → List Char → Prop} {close : Char} {items : List α}
    {text : List Char} {C : Char → Prop} (h : Separated P close items text)
    (hP : ∀ a text, P a text → ∃ c rest, text = c :: rest ∧ C c) :
    ∃ c rest, text = c :: rest ∧ C c := by
  cases h with
  | last h hblanks =>
    rcases hP _ _ h with ⟨c, rest, rfl, hc⟩
    exact ⟨c, _, rfl, hc⟩
  | more h hfront hback hrest =>
    rcases hP _ _ h with ⟨c, rest, rfl, hc⟩
    exact ⟨c, _, rfl, hc⟩

theorem Separated.length_le {α : Type} {P : α → List Char → Prop} {close : Char} {items : List α}
    {text : List Char} (h : Separated P close items text) : items.length ≤ text.length := by
  induction h with
  | last =>
    simp only [List.length_cons, List.length_nil, List.length_append]
    omega
  | more =>
    simp only [List.length_cons, List.length_append]
    omega

/-- Neither a comma nor a bracket goes on with a number, nor do blanks in front of them. -/
theorem ends_delimiter {blanks rest : List Char} {c : Char} (hblanks : Blank blanks)
    (h : c ∈ [',', ']', '}']) : Ends (blanks ++ c :: rest) := by
  refine ends_append hblanks (ends_cons ?_)
  simp only [List.mem_cons, List.not_mem_nil, or_false] at h
  rcases h with rfl | rfl | rfl <;> decide

theorem skipBlanks_delimiter {blanks : List Char} {c : Char} (hblanks : Blank blanks)
    (rest : List Char) (h : c ∈ [',', ']', '}', ':']) : skipBlanks (blanks ++ c :: rest) = c :: rest := by
  rw [skipBlanks_append hblanks]
  refine skipBlanks_cons ?_ rest
  simp only [List.mem_cons, List.not_mem_nil, or_false] at h
  rcases h with rfl | rfl | rfl | rfl <;> decide

theorem comes_readItems (hitem : Reads item P) {items : List Source} {text : List Char}
    (h : Separated P ']' items text) (fuel : Nat) (hfuel : items.length ≤ fuel)
    (rest : List Char) :
    Comes (readItems item fuel (text ++ rest)) (itemValues? items) rest := by
  -- every item takes one step of the fuel
  induction h generalizing fuel with
  | @last source text blanks h hblanks =>
    rcases Nat.exists_eq_succ_of_ne_zero (Nat.ne_of_gt hfuel) with ⟨fuel, rfl⟩
    have hcomes := hitem.comes source text [] (blanks ++ ']' :: rest) h blank_nil
      (ends_delimiter hblanks (by simp))
    have hskip := skipBlanks_delimiter hblanks rest (c := ']') (by simp)
    simp only [List.append_assoc, List.cons_append, List.nil_append, readItems, itemValues?] at *
    rcases comes_iff.1 hcomes with ⟨v, hread, hvalue⟩ | ⟨fault, hread, hvalue⟩
    · simp only [hread, hvalue, hskip]
      rfl
    · simp only [hread, hvalue]
      exact ⟨fault, rfl⟩
  | @more source sources text front back others h hfront hback hrest ih =>
    rcases Nat.exists_eq_succ_of_ne_zero (Nat.ne_of_gt (Nat.lt_of_lt_of_le (Nat.succ_pos _) hfuel))
      with ⟨fuel, rfl⟩
    have hcomes := hitem.comes source text [] (front ++ ',' :: (back ++ (others ++ rest))) h
      blank_nil (ends_delimiter hfront (by simp))
    have hskip := skipBlanks_delimiter hfront (back ++ (others ++ rest)) (c := ',') (by simp)
    have hmore := ih fuel (by simp at hfuel; omega)
    rcases hrest.starts hitem.starts with ⟨c, others, rfl, hblank, hclose⟩
    have hnext : skipBlanks (back ++ (c :: others ++ rest)) = c :: (others ++ rest) := by
      rw [skipBlanks_append hback]
      exact skipBlanks_cons hblank _
    simp only [List.append_assoc, List.cons_append, List.nil_append, readItems, itemValues?] at *
    rcases comes_iff.1 hcomes with ⟨v, hread, hvalue⟩ | ⟨fault, hread, hvalue⟩
    · simp only [hread, hvalue, hskip, hnext]
      split
      case h_1 heq => cases heq
      case h_2 heq => exact absurd (List.cons.inj heq).1 hclose
      case h_3 =>
        rcases comes_iff.1 hmore with ⟨vs, hothers, hvalues⟩ | ⟨fault, hothers, hvalues⟩
        · simp only [hothers, hvalues]
          rfl
        · simp only [hothers, hvalues]
          exact ⟨fault, rfl⟩
    · simp only [hread, hvalue]
      exact ⟨fault, rfl⟩

theorem splits_readItems (hitem : Reads item P) {fuel : Nat} {cs rest : List Char}
    {vs : List Value} (h : readItems item fuel cs = .ok (vs, rest)) :
    ∃ items blanks text, Separated P ']' items text ∧ itemValues? items = some vs ∧
      Blank blanks ∧ cs = blanks ++ (text ++ rest) := by
  induction fuel generalizing cs vs with
  | zero => cases h
  | succ fuel ih =>
    simp only [readItems] at h
    split at h
    case h_1 => cases h
    case h_2 v behind hread =>
      rcases exists_blank_append behind with ⟨back, hback, hbehind⟩
      split at h
      case h_1 => cases h
      case h_2 others hclose =>
        injection h with h
        injection h with hvs hrest
        subst hvs hrest
        rw [hclose] at hbehind
        have hends : Ends behind := hbehind ▸ ends_delimiter hback (by simp)
        rcases hitem.splits _ _ _ hread hends with ⟨source, blanks, text, hP, hvalue, hblanks, rfl⟩
        refine ⟨[source], blanks, _, .last hP hback, ?_, hblanks, ?_⟩
        · simp only [itemValues?, hvalue]
        · simp only [hbehind, List.append_assoc, List.cons_append, List.nil_append]
      case h_3 others hcomma =>
        rw [hcomma] at hbehind
        have hends : Ends behind := hbehind ▸ ends_delimiter hback (by simp)
        rcases hitem.splits _ _ _ hread hends with ⟨source, blanks, text, hP, hvalue, hblanks, rfl⟩
        rcases exists_blank_append others with ⟨front, hfront, hothers⟩
        split at h
        case h_1 => cases h
        case h_2 => cases h
        case h_3 =>
          split at h
          case h_1 => cases h
          case h_2 vs others' hmore =>
            injection h with h
            injection h with hvs hrest
            subst hvs hrest
            rcases ih hmore with ⟨sources, blanks', text', hseparated, hvalues, hblanks', hskip⟩
            -- the blanks in front of the next item are all skipped at the comma
            have hfront' : Blank (front ++ blanks') := by
              intro c hc
              exact (List.mem_append.1 hc).elim (hfront c) (hblanks' c)
            refine ⟨source :: sources, blanks, _, .more hP hback hfront' hseparated, ?_, hblanks, ?_⟩
            · simp only [itemValues?, hvalue, hvalues]
            · rw [hbehind, hothers, hskip]
              simp only [List.append_assoc, List.cons_append]
      case h_4 => cases h

theorem comes_readArray (hitem : Reads item P) {items : List Source} {text : List Char}
    (h : Enclosed P '[' ']' items text) (rest : List Char) :
    Comes (readArray item (text ++ rest).tail) (itemValues? items) rest := by
  cases h with
  | @empty blanks hblanks =>
    have hskip := skipBlanks_delimiter hblanks rest (c := ']') (by simp)
    simp only [List.cons_append, List.append_assoc, List.nil_append, List.tail_cons, readArray,
      hskip]
    rfl
  | @filled _ blanks text hblanks h =>
    have hcomes := comes_readItems hitem h _
      (Nat.le_trans h.length_le (Nat.le_trans (by simp) (Nat.le_succ (text ++ rest).length))) rest
    rcases h.starts hitem.starts with ⟨c, others, rfl, hblank, hclose⟩
    have hskip : skipBlanks (blanks ++ (c :: others ++ rest)) = c :: (others ++ rest) := by
      rw [skipBlanks_append hblanks]
      exact skipBlanks_cons hblank _
    simp only [List.cons_append, List.append_assoc, List.tail_cons, readArray] at hskip hcomes ⊢
    rw [hskip]
    split
    case h_1 heq => cases heq
    case h_2 heq => exact absurd (List.cons.inj heq).1 hclose
    case h_3 => exact hcomes

theorem splits_readArray (hitem : Reads item P) {cs rest : List Char} {vs : List Value}
    (h : readArray item cs = .ok (vs, rest)) :
    ∃ items text, Enclosed P '[' ']' items text ∧ itemValues? items = some vs ∧
      '[' :: cs = text ++ rest := by
  unfold readArray at h
  rcases exists_blank_append cs with ⟨blanks, hblanks, hcs⟩
  split at h
  case h_1 => cases h
  case h_2 hclose =>
    injection h with h
    injection h with hvs hrest
    subst hvs hrest
    rw [hclose] at hcs
    exact ⟨[], _, .empty hblanks, rfl, by rw [hcs]; simp⟩
  case h_3 =>
    rcases splits_readItems hitem h with
      ⟨items, blanks', text, hseparated, hvalues, hblanks', hskip⟩
    have hall : Blank (blanks ++ blanks') := by
      intro c hc
      exact (List.mem_append.1 hc).elim (hblanks c) (hblanks' c)
    refine ⟨items, _, .filled hall hseparated, hvalues, ?_⟩
    rw [hcs, hskip]
    simp only [List.append_assoc, List.cons_append]

/-! ## Members -/

theorem comes_readMember (hitem : Reads item P) {member : String × Source} {text : List Char}
    (h : SpellsMember P member text) (rest : List Char) (hends : Ends rest) :
    Comes (readMember item (text ++ rest).tail) (member.2.value?.map fun v => (member.1, v))
      rest := by
  cases h with
  | @mk key source quoted front back text hkey hfront hback h =>
    have hread := readString_append hkey [] (front ++ ':' :: (back ++ (text ++ rest)))
    have hskip := skipBlanks_delimiter hfront (back ++ (text ++ rest)) (c := ':') (by simp)
    have hcomes := hitem.comes source text back rest h hback hends
    simp only [List.reverse_nil, List.nil_append, String.ofList_toList] at hread
    simp only [List.cons_append, List.append_assoc, List.tail_cons, readMember, hread, hskip]
    rcases comes_iff.1 hcomes with ⟨v, hvalue, hsource⟩ | ⟨fault, hvalue, hsource⟩
    · simp only [hvalue, hsource]
      rfl
    · simp only [hvalue, hsource]
      exact ⟨fault, rfl⟩

theorem splits_readMember (hitem : Reads item P) {cs rest : List Char} {pair : String × Value}
    (h : readMember item cs = .ok (pair, rest)) (hends : Ends rest) :
    ∃ source text, SpellsMember P (pair.1, source) text ∧ source.value? = some pair.2 ∧
      '"' :: cs = text ++ rest := by
  unfold readMember at h
  split at h
  case h_1 => cases h
  case h_2 key behind hkey =>
    rcases exists_quoted_of_readString hkey with ⟨chars, quoted, hquoted, rfl, rfl⟩
    rcases exists_blank_append behind with ⟨front, hfront, hbehind⟩
    split at h
    case h_1 => cases h
    case h_2 others hcolon =>
      rw [hcolon] at hbehind
      split at h
      case h_1 => cases h
      case h_2 v others' hread =>
        injection h with h
        injection h with hpair hrest
        subst hpair hrest
        rcases hitem.splits _ _ _ hread hends with ⟨source, back, text, hP, hvalue, hback, rfl⟩
        have hkey' : Quoted (String.ofList ([].reverse ++ chars)).toList quoted := by
          rwa [List.reverse_nil, List.nil_append, String.toList_ofList]
        refine ⟨source, _, .mk hkey' hfront hback hP, hvalue, ?_⟩
        rw [hbehind]
        simp only [List.cons_append, List.append_assoc]
    case h_3 => cases h

theorem spellsMember_starts {member : String × Source} {text : List Char}
    (h : SpellsMember P member text) : ∃ c rest, text = c :: rest ∧ c = '"' := by
  cases h with
  | mk => exact ⟨'"', _, rfl, rfl⟩

theorem comes_readMembers (hitem : Reads item P) {members : List (String × Source)}
    {text : List Char} (h : Separated (SpellsMember P) '}' members text) (fuel : Nat)
    (hfuel : members.length ≤ fuel) (rest : List Char) :
    Comes (readMembers item fuel (text ++ rest).tail) (memberValues? members) rest := by
  induction h generalizing fuel with
  | @last member text blanks h hblanks =>
    rcases Nat.exists_eq_succ_of_ne_zero (Nat.ne_of_gt hfuel) with ⟨fuel, rfl⟩
    have hcomes := comes_readMember hitem h (blanks ++ '}' :: rest)
      (ends_delimiter hblanks (by simp))
    have hskip := skipBlanks_delimiter hblanks rest (c := '}') (by simp)
    rcases member with ⟨key, source⟩
    simp only [List.append_assoc, List.cons_append, List.nil_append, readMembers, memberValues?]
    rcases comes_iff.1 hcomes with ⟨pair, hread, hvalue⟩ | ⟨fault, hread, hvalue⟩
    · rcases Option.map_eq_some_iff.1 hvalue with ⟨v, hsource, rfl⟩
      simp only [hread, hsource, hskip]
      rfl
    · simp only [hread, Option.map_eq_none_iff.1 hvalue]
      exact ⟨fault, rfl⟩
  | @more member members text front back others h hfront hback hrest ih =>
    rcases Nat.exists_eq_succ_of_ne_zero (Nat.ne_of_gt (Nat.lt_of_lt_of_le (Nat.succ_pos _) hfuel))
      with ⟨fuel, rfl⟩
    have hcomes := comes_readMember hitem h (front ++ ',' :: (back ++ (others ++ rest)))
      (ends_delimiter hfront (by simp))
    have hskip := skipBlanks_delimiter hfront (back ++ (others ++ rest)) (c := ',') (by simp)
    have hmore := ih fuel (by simp at hfuel; omega)
    rcases hrest.starts fun _ _ => spellsMember_starts with ⟨c, others, rfl, rfl⟩
    have hnext : skipBlanks (back ++ ('"' :: others ++ rest)) = '"' :: (others ++ rest) := by
      rw [skipBlanks_append hback]
      exact skipBlanks_cons (by decide) _
    rcases member with ⟨key, source⟩
    simp only [List.append_assoc, List.cons_append, readMembers, memberValues?, List.tail_cons]
      at hcomes hskip hnext hmore ⊢
    rcases comes_iff.1 hcomes with ⟨pair, hread, hvalue⟩ | ⟨fault, hread, hvalue⟩
    · rcases Option.map_eq_some_iff.1 hvalue with ⟨v, hsource, rfl⟩
      simp only [hread, hsource, hskip, hnext]
      rcases comes_iff.1 hmore with ⟨pairs, hothers, hvalues⟩ | ⟨fault, hothers, hvalues⟩
      · simp only [hothers, hvalues]
        rfl
      · simp only [hothers, hvalues]
        exact ⟨fault, rfl⟩
    · simp only [hread, Option.map_eq_none_iff.1 hvalue]
      exact ⟨fault, rfl⟩

theorem splits_readMembers (hitem : Reads item P) {fuel : Nat} {cs rest : List Char}
    {pairs : List (String × Value)} (h : readMembers item fuel cs = .ok (pairs, rest)) :
    ∃ members text, Separated (SpellsMember P) '}' members text ∧
      memberValues? members = some pairs ∧ '"' :: cs = text ++ rest := by
  induction fuel generalizing cs pairs with
  | zero => cases h
  | succ fuel ih =>
    simp only [readMembers] at h
    split at h
    case h_1 => cases h
    case h_2 pair behind hread =>
      rcases exists_blank_append behind with ⟨back, hback, hbehind⟩
      split at h
      case h_1 => cases h
      case h_2 others hclose =>
        injection h with h
        injection h with hpairs hrest
        subst hpairs hrest
        rw [hclose] at hbehind
        have hends : Ends behind := hbehind ▸ ends_delimiter hback (by simp)
        rcases splits_readMember hitem hread hends with ⟨source, text, hmember, hvalue, hcs⟩
        refine ⟨[(pair.1, source)], _, .last hmember hback, ?_, ?_⟩
        · simp only [memberValues?, hvalue]
        · rw [hcs, hbehind]
          simp only [List.append_assoc, List.cons_append, List.nil_append]
      case h_3 others hcomma =>
        rw [hcomma] at hbehind
        have hends : Ends behind := hbehind ▸ ends_delimiter hback (by simp)
        rcases splits_readMember hitem hread hends with ⟨source, text, hmember, hvalue, hcs⟩
        rcases exists_blank_append others with ⟨front, hfront, hothers⟩
        split at h
        case h_1 => cases h
        case h_2 key hquote =>
          rw [hquote] at hothers
          split at h
          case h_1 => cases h
          case h_2 pairs others' hmore =>
            injection h with h
            injection h with hpairs hrest
            subst hpairs hrest
            rcases ih hmore with ⟨members, text', hseparated, hvalues, hnext⟩
            refine ⟨(pair.1, source) :: members, _, .more hmember hback hfront hseparated, ?_, ?_⟩
            · simp only [memberValues?, hvalue, hvalues]
            · rw [hcs, hbehind, hothers, hnext]
              simp only [List.append_assoc, List.cons_append]
        case h_3 => cases h
        case h_4 => cases h
      case h_4 => cases h

theorem comes_readObject (hitem : Reads item P) {members : List (String × Source)}
    {text : List Char} (h : Enclosed (SpellsMember P) '{' '}' members text)
    (rest : List Char) :
    Comes (readObject item (text ++ rest).tail) (memberValues? members) rest := by
  cases h with
  | @empty blanks hblanks =>
    have hskip := skipBlanks_delimiter hblanks rest (c := '}') (by simp)
    simp only [List.cons_append, List.append_assoc, List.nil_append, List.tail_cons, readObject,
      hskip]
    rfl
  | @filled _ blanks text hblanks h =>
    rcases h.starts fun _ _ => spellsMember_starts with ⟨c, others, rfl, rfl⟩
    have hcomes := comes_readMembers hitem h ((others ++ rest).length + 1)
      (Nat.le_trans h.length_le (by simp)) rest
    have hskip : skipBlanks (blanks ++ ('"' :: others ++ rest)) = '"' :: (others ++ rest) := by
      rw [skipBlanks_append hblanks]
      exact skipBlanks_cons (by decide) _
    simp only [List.cons_append, List.append_assoc, List.tail_cons, readObject] at hskip hcomes ⊢
    rw [hskip]
    exact hcomes

theorem splits_readObject (hitem : Reads item P) {cs rest : List Char}
    {pairs : List (String × Value)} (h : readObject item cs = .ok (pairs, rest)) :
    ∃ members text, Enclosed (SpellsMember P) '{' '}' members text ∧
      memberValues? members = some pairs ∧ '{' :: cs = text ++ rest := by
  unfold readObject at h
  rcases exists_blank_append cs with ⟨blanks, hblanks, hcs⟩
  split at h
  case h_1 => cases h
  case h_2 hclose =>
    injection h with h
    injection h with hpairs hrest
    subst hpairs hrest
    rw [hclose] at hcs
    exact ⟨[], _, .empty hblanks, rfl, by rw [hcs]; simp⟩
  case h_3 hquote =>
    rcases splits_readMembers hitem h with ⟨members, text, hseparated, hvalues, hnext⟩
    refine ⟨members, _, .filled hblanks hseparated, hvalues, ?_⟩
    rw [hcs, hquote, hnext]
    simp only [List.append_assoc, List.cons_append]
  case h_4 => cases h

end

/-! ## Values -/

theorem readWord_append (v : Value) (letters rest : List Char) :
    readWord v letters (letters ++ rest) = .ok (v, rest) := by
  induction letters with
  | nil => rfl
  | cons l letters ih => simp [readWord, ih]

theorem eq_of_readWord {v w : Value} {letters cs rest : List Char}
    (h : readWord v letters cs = .ok (w, rest)) : w = v ∧ cs = letters ++ rest := by
  induction letters generalizing cs with
  | nil =>
    injection h with h
    injection h with hv hrest
    exact ⟨hv.symm, hrest⟩
  | cons l letters ih =>
    cases cs with
    | nil => cases h
    | cons c cs =>
      simp only [readWord] at h
      split at h
      case isTrue hletter =>
        rcases ih h with ⟨rfl, rfl⟩
        exact ⟨rfl, by rw [hletter]; rfl⟩
      case isFalse => cases h

/-- A character with which a number begins. -/
theorem exists_cons_literal_text (l : Literal) :
    ∃ c rest, l.text = c :: rest ∧ (c = '-' ∨ c.isDigit = true) := by
  cases hwhole : l.whole.chars with
  | nil => exact absurd hwhole l.whole.ne_nil
  | cons d ds =>
    have hd : d.isDigit = true := l.whole.isDigit d (by rw [hwhole]; exact List.mem_cons_self)
    unfold Literal.text
    split
    · exact ⟨'-', _, rfl, .inl rfl⟩
    · refine ⟨d, ds ++ (pointText l.decimals ++ exponentText l.exponent), ?_, .inr hd⟩
      rw [Literal.unsigned, hwhole]
      rfl

theorem readValue_append (depth : Nat) {blanks : List Char} (h : Blank blanks) (cs : List Char) :
    readValue depth (blanks ++ cs) = readValue depth cs := by
  unfold readValue
  rw [skipBlanks_append h]

/-- A digit is no blank. -/
theorem isBlank_of_isDigit {c : Char} (h : c.isDigit = true) : isBlank c = false := by
  cases hblank : isBlank c with
  | false => rfl
  | true =>
    simp only [isBlank, Bool.or_eq_true, beq_iff_eq] at hblank
    rcases hblank with ((rfl | rfl) | rfl) | rfl <;> exact absurd h (by decide)

theorem readValue_of_isDigit (depth : Nat) {c : Char} (h : c.isDigit = true) (cs : List Char) :
    readValue depth (c :: cs) =
      (readNumber false (c :: cs)).map fun (n, rest) => (.number n, rest) := by
  unfold readValue
  rw [skipBlanks_cons (isBlank_of_isDigit h)]
  split
  case h_9 heq =>
    injection heq with hc hcs
    subst hc hcs
    rw [if_pos h]
  all_goals
    rename_i heq
    cases heq
    try exact absurd h (by decide)

theorem readValue_minus (depth : Nat) (cs : List Char) :
    readValue depth ('-' :: cs) =
      (readNumber true cs).map fun (n, rest) => (.number n, rest) := by
  unfold readValue
  rfl

theorem readValue_text (depth : Nat) (l : Literal) (rest : List Char) :
    readValue depth (l.text ++ rest) =
      (readNumber l.negative (l.unsigned ++ rest)).map fun (n, rest) => (.number n, rest) := by
  unfold Literal.text
  cases hnegative : l.negative with
  | true => exact readValue_minus depth _
  | false =>
    cases hwhole : l.whole.chars with
    | nil => exact absurd hwhole l.whole.ne_nil
    | cons d ds =>
      have hd : d.isDigit = true := l.whole.isDigit d (by rw [hwhole]; exact List.mem_cons_self)
      simp only [Bool.false_eq_true, if_false, Literal.unsigned, hwhole, List.cons_append]
      exact readValue_of_isDigit depth hd _

/-- What stands in the text behind the bracket that opens a container. -/
theorem Enclosed.eq_cons {α : Type} {P : α → List Char → Prop} {opening close : Char}
    {items : List α} {text : List Char} (h : Enclosed P opening close items text)
    (rest : List Char) : text ++ rest = opening :: (text ++ rest).tail := by
  cases h <;> rfl

theorem spells_starts {depth : Nat} {source : Source} {text : List Char}
    (h : Spells depth source text) : ∃ c rest, text = c :: rest ∧ isBlank c = false ∧ c ≠ ']' := by
  have hstart : ∀ {c rest}, c ∈ ['n', 't', 'f', '"', '[', '{', '-'] → text = c :: rest →
      ∃ c rest, text = c :: rest ∧ isBlank c = false ∧ c ≠ ']' := by
    intro c rest hc heq
    refine ⟨c, rest, heq, ?_⟩
    simp only [List.mem_cons, List.not_mem_nil, or_false] at hc
    rcases hc with rfl | rfl | rfl | rfl | rfl | rfl | rfl <;> decide
  cases source with
  | null =>
    rw [Spells] at h
    exact hstart (by simp) h
  | bool b =>
    cases b with
    | true =>
      rw [Spells] at h
      exact hstart (by simp) h
    | false =>
      rw [Spells] at h
      exact hstart (by simp) h
  | number l =>
    rw [Spells] at h
    rcases exists_cons_literal_text l with ⟨c, rest, htext, rfl | hdigit⟩
    · exact hstart (by simp) (h.trans htext)
    · refine ⟨c, rest, h.trans htext, isBlank_of_isDigit hdigit, ?_⟩
      rintro rfl
      exact absurd hdigit (by decide)
  | string s =>
    rw [Spells] at h
    rcases h with ⟨quoted, -, htext⟩
    exact hstart (by simp) htext
  | array items =>
    rcases spells_array.1 h with ⟨inner, -, henclosed⟩
    exact hstart (by simp) ((List.append_nil text).symm.trans (henclosed.eq_cons []))
  | object members =>
    rcases spells_object.1 h with ⟨inner, -, henclosed⟩
    exact hstart (by simp) ((List.append_nil text).symm.trans (henclosed.eq_cons []))

/-- What is written is read as it is meant. -/
theorem comes_readValue (depth : Nat) (h : ∀ d, depth = d + 1 → Reads (readValue d) (Spells d))
    {source : Source} {text rest : List Char} (hspells : Spells depth source text)
    (hends : Ends rest) : Comes (readValue depth (text ++ rest)) source.value? rest := by
  cases source with
  | null =>
    rw [Spells] at hspells
    subst hspells
    unfold readValue
    exact readWord_append .null ['u', 'l', 'l'] rest
  | bool b =>
    cases b with
    | true =>
      rw [Spells] at hspells
      subst hspells
      unfold readValue
      exact readWord_append (.bool true) ['r', 'u', 'e'] rest
    | false =>
      rw [Spells] at hspells
      subst hspells
      unfold readValue
      exact readWord_append (.bool false) ['a', 'l', 's', 'e'] rest
  | number l =>
    rw [Spells] at hspells
    subst hspells
    rw [readValue_text, Source.value?]
    exact (comes_readNumber l hends).map _
  | string s =>
    rw [Spells] at hspells
    rcases hspells with ⟨quoted, hquoted, rfl⟩
    have hread := readString_append hquoted [] rest
    rw [List.reverse_nil, List.nil_append, String.ofList_toList] at hread
    unfold readValue
    show (readString 0 [] (quoted ++ rest)).map _ = .ok (Value.string s, rest)
    rw [hread]
    rfl
  | array items =>
    rcases spells_array.1 hspells with ⟨inner, rfl, henclosed⟩
    rw [henclosed.eq_cons, readValue, Source.value?]
    exact (comes_readArray (h inner rfl) henclosed rest).map _
  | object members =>
    rcases spells_object.1 hspells with ⟨inner, rfl, henclosed⟩
    rw [henclosed.eq_cons, readValue, Source.value?]
    exact (comes_readObject (h inner rfl) henclosed rest).map _

theorem of_map_ok {α β : Type} {result : Except Fault (α × List Char)} {f : α → β} {b : β}
    {rest : List Char} (h : (result.map fun (a, rest) => (f a, rest)) = .ok (b, rest)) :
    ∃ a, result = .ok (a, rest) ∧ b = f a := by
  cases result with
  | error fault => cases h
  | ok pair =>
    injection h with h
    injection h with hb hrest
    subst hrest
    exact ⟨pair.1, rfl, hb.symm⟩

/-- A number that is read is written by a literal of its sign. -/
theorem splits_readNumber (depth : Nat) {negative : Bool} {cs rest : List Char} {n : Number}
    (h : readNumber negative cs = .ok (n, rest)) (hends : Ends rest) :
    ∃ source text, Spells depth source text ∧ source.value? = some (.number n) ∧
      (if negative then '-' :: cs else cs) = text ++ rest := by
  rcases exists_literal_of_readNumber h with ⟨⟨l, rfl, rfl⟩, -⟩
  have hnumber := ((comes_readNumber l hends).eq_some h).1
  refine ⟨.number l, l.text, by rw [Spells], ?_, ?_⟩
  · rw [Source.value?, hnumber]
    rfl
  · unfold Literal.text
    split <;> rfl

/-- What is read is written. -/
theorem splits_readValue (depth : Nat) (h : ∀ d, depth = d + 1 → Reads (readValue d) (Spells d))
    {cs rest : List Char} {v : Value} (hread : readValue depth cs = .ok (v, rest))
    (hends : Ends rest) : ∃ source blanks text, Spells depth source text ∧
      source.value? = some v ∧ Blank blanks ∧ cs = blanks ++ (text ++ rest) := by
  rcases exists_blank_append cs with ⟨blanks, hblanks, hcs⟩
  -- the reader looks only at what stands behind the blanks
  suffices hskipped : ∃ source text, Spells depth source text ∧ source.value? = some v ∧
      skipBlanks cs = text ++ rest by
    rcases hskipped with ⟨source, text, hspells, hvalue, htext⟩
    exact ⟨source, blanks, text, hspells, hvalue, hblanks, by rw [← htext, ← hcs]⟩
  unfold readValue at hread
  split at hread
  case h_1 => cases hread
  case h_2 heq =>
    rcases eq_of_readWord hread with ⟨rfl, rfl⟩
    exact ⟨.null, _, by rw [Spells], rfl, heq⟩
  case h_3 heq =>
    rcases eq_of_readWord hread with ⟨rfl, rfl⟩
    exact ⟨.bool true, _, by rw [Spells], rfl, heq⟩
  case h_4 heq =>
    rcases eq_of_readWord hread with ⟨rfl, rfl⟩
    exact ⟨.bool false, _, by rw [Spells], rfl, heq⟩
  case h_5 cs' heq =>
    rcases of_map_ok hread with ⟨n, hnumber, rfl⟩
    rw [heq]
    exact splits_readNumber depth hnumber hends
  case h_6 cs' heq =>
    rcases of_map_ok hread with ⟨s, hstring, rfl⟩
    rcases exists_quoted_of_readString hstring with ⟨chars, quoted, hquoted, rfl, rfl⟩
    refine ⟨.string (String.ofList ([].reverse ++ chars)), '"' :: quoted, ?_, rfl, heq⟩
    rw [Spells, List.reverse_nil, List.nil_append, String.toList_ofList]
    exact ⟨quoted, hquoted, rfl⟩
  case h_7 cs' heq =>
    cases depth with
    | zero => cases hread
    | succ depth =>
      rcases of_map_ok hread with ⟨vs, harray, rfl⟩
      rcases splits_readArray (h depth rfl) harray with ⟨items, text, henclosed, hvalues, htext⟩
      refine ⟨.array items, text, by rwa [Spells], ?_, heq.trans htext⟩
      rw [Source.value?, hvalues]
      rfl
  case h_8 cs' heq =>
    cases depth with
    | zero => cases hread
    | succ depth =>
      rcases of_map_ok (f := fun pairs => Value.object (collectMembers pairs)) hread with
        ⟨pairs, hobject, rfl⟩
      rcases splits_readObject (h depth rfl) hobject with
        ⟨members, text, henclosed, hvalues, htext⟩
      refine ⟨.object members, text, by rwa [Spells], ?_, heq.trans htext⟩
      rw [Source.value?, hvalues]
      rfl
  case h_9 c cs' _ _ _ _ _ _ _ heq =>
    split at hread
    case isFalse => cases hread
    case isTrue hdigit =>
      rcases of_map_ok hread with ⟨n, hnumber, rfl⟩
      rw [heq]
      exact splits_readNumber depth hnumber hends

theorem reads_readValue (depth : Nat) : Reads (readValue depth) (Spells depth) := by
  have hstep : ∀ depth, (∀ d, depth = d + 1 → Reads (readValue d) (Spells d)) →
      Reads (readValue depth) (Spells depth) := by
    intro depth h
    refine ⟨fun _ _ => spells_starts, ?_, fun _ _ _ => splits_readValue depth h⟩
    intro source text blanks rest hspells hblanks hends
    rw [readValue_append depth hblanks]
    exact comes_readValue depth h hspells hends
  induction depth with
  | zero => exact hstep 0 fun d hd => by omega
  | succ depth ih =>
    refine hstep (depth + 1) fun d hd => ?_
    obtain rfl : depth = d := by omega
    exact ih

/-! ## Whole texts -/

theorem ends_of_blank {blanks : List Char} (h : Blank blanks) : Ends blanks := by
  have hends := ends_append h ends_nil
  rwa [List.append_nil] at hends

theorem skipBlanks_of_blank {blanks : List Char} (h : Blank blanks) : skipBlanks blanks = [] := by
  have hskip := skipBlanks_append h []
  rwa [List.append_nil] at hskip

/-- A text that writes a tree is read as the value held for the tree, or refused if there is none. -/
theorem readText_of_spells {source : Source} {text : String} (h : SpellsText source text) :
    (readText text).toOption = source.value? := by
  rcases h with ⟨front, core, back, hfront, hspells, hback, htext⟩
  have hcomes := (reads_readValue maxDepth).comes source core front back hspells hfront
    (ends_of_blank hback)
  unfold readText readAll
  rw [htext]
  rcases comes_iff.1 hcomes with ⟨v, hread, hvalue⟩ | ⟨fault, hread, hvalue⟩
  · simp only [hread, skipBlanks_of_blank hback, hvalue]
    rfl
  · simp only [hread, hvalue]
    rfl

/-- A text that is read writes a tree for which the result is held. -/
theorem exists_spells_of_readText {text : String} {v : Value} (h : readText text = .ok v) :
    ∃ source, SpellsText source text ∧ source.value? = some v := by
  unfold readText readAll at h
  cases hread : readValue maxDepth text.toList with
  | error fault => simp [hread] at h
  | ok pair =>
    rcases pair with ⟨w, rest⟩
    simp only [hread] at h
    rcases exists_blank_append rest with ⟨back, hback, hrest⟩
    cases hskip : skipBlanks rest with
    | cons c others => simp [hskip] at h
    | nil =>
      simp only [hskip] at h
      injection h with h
      subst h
      rw [hskip, List.append_nil] at hrest
      subst hrest
      rcases (reads_readValue maxDepth).splits _ _ _ hread (ends_of_blank hback) with
        ⟨source, front, core, hspells, hvalue, hfront, htext⟩
      exact ⟨source, ⟨front, core, rest, hfront, hspells, hback, htext⟩, hvalue⟩

/-- The reader takes exactly the texts that write a tree, for the value that is held for it. -/
theorem readText_eq_ok_iff {text : String} {v : Value} :
    readText text = .ok v ↔ ∃ source, SpellsText source text ∧ source.value? = some v := by
  constructor
  · exact exists_spells_of_readText
  · rintro ⟨source, hspells, hvalue⟩
    have hread := readText_of_spells hspells
    rw [hvalue] at hread
    cases htext : readText text with
    | error fault =>
      rw [htext] at hread
      cases hread
    | ok w =>
      rw [htext] at hread
      injection hread with hread
      rw [hread]

/-- A text still writes the same with more blanks behind it. -/
theorem SpellsText.append_blank {source : Source} {text blanks : String}
    (h : SpellsText source text) (hblanks : Blank blanks.toList) :
    SpellsText source (text ++ blanks) := by
  rcases h with ⟨front, core, back, hfront, hspells, hback, htext⟩
  refine ⟨front, core, back ++ blanks.toList, hfront, hspells, ?_, ?_⟩
  · intro c hc
    exact (List.mem_append.1 hc).elim (hback c) (hblanks c)
  · rw [String.toList_append, htext, List.append_assoc, List.append_assoc]

theorem readText_append_blank {text blanks : String} {v : Value} (h : readText text = .ok v)
    (hblanks : Blank blanks.toList) : readText (text ++ blanks) = .ok v := by
  rcases exists_spells_of_readText h with ⟨source, hspells, hvalue⟩
  exact readText_eq_ok_iff.2 ⟨source, hspells.append_blank hblanks, hvalue⟩

/-- No text that is read goes on to another one: with more behind it, it is refused, unless that
begins with a blank or goes on with a number. -/
theorem not_readText_append {text : String} {v : Value} (h : readText text = .ok v) {c : Char}
    (rest : List Char) (hblank : isBlank c = false)
    (hends : c.isDigit = false ∧ c ≠ '.' ∧ c ≠ 'e' ∧ c ≠ 'E') (w : Value) :
    readText (text ++ String.ofList (c :: rest)) ≠ .ok w := by
  rcases exists_spells_of_readText h with
    ⟨source, ⟨front, core, back, hfront, hspells, hback, htext⟩, hvalue⟩
  have hcomes := (reads_readValue maxDepth).comes source core front (back ++ c :: rest) hspells
    hfront (ends_append hback (ends_cons hends))
  rw [hvalue] at hcomes
  have hread : readValue maxDepth (text ++ String.ofList (c :: rest)).toList =
      .ok (v, back ++ c :: rest) := by
    rw [String.toList_append, String.toList_ofList, htext, List.append_assoc, List.append_assoc]
    exact hcomes
  have hskip : skipBlanks (back ++ c :: rest) = c :: rest :=
    (skipBlanks_append hback _).trans (skipBlanks_cons hblank rest)
  unfold readText readAll
  simp only [hread, hskip]
  exact fun hnever => nomatch hnever

end WorkflowRepair.Json
