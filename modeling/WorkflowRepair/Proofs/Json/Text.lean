import WorkflowRepair.Proofs.Json.Grammar

/-!
# Reading strings

The reader of strings takes exactly the insides of strings off a text: what is written inside a
string is read as the characters it stands for (`readString_append`), and whatever is read was
written so (`exists_quoted_of_readString`).
-/

namespace WorkflowRepair.Json

/-! ## Hexadecimal digits -/

/-- The digits of a quad do not depend on what comes behind them. -/
theorem hexQuad?_append (a b c d : Char) (rest : List Char) :
    hexQuad? (a :: b :: c :: d :: rest) = hexQuad? [a, b, c, d] := rfl

theorem length_le_byteCount (cs : List Char) : cs.length ≤ byteCount cs := by
  induction cs with
  | nil => exact Nat.le_refl _
  | cons c cs ih =>
    have hsize : byteCount (c :: cs) = c.utf8Size + byteCount cs := rfl
    have hpos := c.utf8Size_pos
    rw [hsize, List.length_cons]
    omega

theorem readHexQuad_append {a b c d : Char} {n : Nat} (h : hexQuad? [a, b, c, d] = some n)
    (rest : List Char) : readHexQuad (a :: b :: c :: d :: rest) = .ok n := by
  have hlength := length_le_byteCount (a :: b :: c :: d :: rest)
  simp only [List.length_cons] at hlength
  rw [readHexQuad, if_neg (by omega), hexQuad?_append, h]

theorem exists_of_readHexQuad {cs : List Char} {n : Nat} (h : readHexQuad cs = .ok n) :
    ∃ a b c d rest, cs = a :: b :: c :: d :: rest ∧ hexQuad? [a, b, c, d] = some n := by
  unfold readHexQuad at h
  split at h
  · cases h
  · split at h
    case h_1 hquad =>
      injection h with h
      subst h
      -- a text with a quad at its head has four characters
      match cs, hquad with
      | a :: b :: c :: d :: rest, hquad => exact ⟨a, b, c, d, rest, rfl, hquad⟩
    case h_2 => cases h

/-! ## Escapes -/

theorem readEscape_append {c : Char} {escaped : List Char} (h : Escape c escaped)
    (rest : List Char) : readEscape (escaped ++ rest) = .ok (c, escaped.length) := by
  cases h with
  | @unit _ _ _ _ n hquad hchar =>
    have hlow : ¬ (0xDC00 ≤ n ∧ n ≤ 0xDFFF) := fun hlow => hchar ⟨by omega, hlow.2⟩
    have hhigh : ¬ (0xD800 ≤ n ∧ n ≤ 0xDBFF) := fun hhigh => hchar ⟨hhigh.1, by omega⟩
    simp only [List.cons_append, List.nil_append, readEscape, readHexQuad_append hquad,
      if_neg hlow, if_neg hhigh, List.length_cons, List.length_nil]
  | @pair _ _ _ _ _ _ _ _ lead _ hlead htrail hleads htrails =>
    have hlow : ¬ (0xDC00 ≤ lead ∧ lead ≤ 0xDFFF) := by omega
    simp only [List.cons_append, List.nil_append, readEscape, readHexQuad_append hlead,
      if_neg hlow, if_pos hleads, List.drop_succ_cons, List.drop_zero, readTrail,
      readHexQuad_append htrail, if_pos htrails, List.length_cons, List.length_nil]
  | _ => rfl

theorem exists_pair_of_readTrail {lead : Nat} {cs : List Char} {c : Char}
    (h : readTrail lead cs = .ok c) :
    ∃ a b c' d trail rest, cs = '\\' :: 'u' :: a :: b :: c' :: d :: rest ∧
      hexQuad? [a, b, c', d] = some trail ∧ (0xDC00 ≤ trail ∧ trail ≤ 0xDFFF) ∧
      c = Char.ofNat (0x10000 + (lead - 0xD800) * 0x400 + (trail - 0xDC00)) := by
  unfold readTrail at h
  split at h
  case h_3 digits =>
    split at h
    case h_1 => cases h
    case h_2 trail hread =>
      split at h
      case isTrue htrails =>
        injection h with h
        rcases exists_of_readHexQuad hread with ⟨a, b, c', d, rest, rfl, hquad⟩
        exact ⟨a, b, c', d, trail, rest, rfl, hquad, htrails, h.symm⟩
      case isFalse => cases h
  all_goals cases h

theorem exists_escape_of_readEscape {cs : List Char} {c : Char} {length : Nat}
    (h : readEscape cs = .ok (c, length)) :
    ∃ escaped rest, Escape c escaped ∧ escaped.length = length ∧ cs = escaped ++ rest := by
  unfold readEscape at h
  split at h
  case h_1 => cases h
  case h_10 digits =>
    split at h
    case h_1 => cases h
    case h_2 n hread =>
      rcases exists_of_readHexQuad hread with ⟨a, b, c', d, rest, rfl, hquad⟩
      -- a quad is the lead of a pair or a unit by itself
      split at h
      · cases h
      case isFalse hlow =>
        split at h
        case isTrue hhigh =>
          simp only [List.drop_succ_cons, List.drop_zero] at h
          split at h
          · cases h
          case h_2 hpair =>
            injection h with h
            injection h with hc hlength
            subst hc hlength
            rcases exists_pair_of_readTrail hpair with
              ⟨a', b', c'', d', trail, rest', rfl, htrail, htrails, hchar⟩
            rw [hchar]
            exact ⟨_, rest', .pair hquad htrail hhigh htrails, rfl, rfl⟩
        case isFalse hhigh =>
          injection h with h
          injection h with hc hlength
          subst hc hlength
          have hchar : ¬ IsSurrogate n := by
            unfold IsSurrogate
            omega
          exact ⟨_, rest, .unit hquad hchar, rfl, rfl⟩
  case h_11 => cases h
  all_goals
    injection h with h
    injection h with hc hlength
    subst hc hlength
    exact ⟨_, _, by constructor, rfl, rfl⟩

/-! ## Strings -/

theorem readString_skip (skipped : List Char) (read rest : List Char) :
    readString skipped.length read (skipped ++ rest) = readString 0 read rest := by
  induction skipped with
  | nil => rfl
  | cons c skipped ih => exact ih

/-- The inside of a string is read as the characters it stands for. -/
theorem readString_append {chars text : List Char} (h : Quoted chars text)
    (read rest : List Char) :
    readString 0 read (text ++ rest) = .ok (String.ofList (read.reverse ++ chars), rest) := by
  induction h generalizing read with
  | close => simp [readString]
  | @plain c _ _ hquote hbackslash hcontrol _ ih =>
    have hcontrol : ¬ c.toNat < 32 := by omega
    simp [readString, hquote, hbackslash, hcontrol, ih]
  | @escape c escaped _ text hescape _ ih =>
    have hread := readEscape_append hescape (text ++ rest)
    simp only [List.cons_append, List.append_assoc, readString, hread, readString_skip, ih]
    simp

/-- What the reader of strings takes off a text is the inside of a string. -/
theorem exists_quoted_of_readString {read cs rest : List Char} {s : String}
    (h : readString 0 read cs = .ok (s, rest)) :
    ∃ chars text, Quoted chars text ∧ cs = text ++ rest ∧
      s = String.ofList (read.reverse ++ chars) := by
  -- an escape is longer than the character it stands for, so the induction is on the length
  induction hlength : cs.length using Nat.strong_induction_on generalizing read cs with
  | _ length ih =>
    cases cs with
    | nil => cases h
    | cons c cs =>
      simp only [readString] at h
      split at h
      case isTrue hquote =>
        injection h with h
        injection h with hs hrest
        subst hquote hs hrest
        exact ⟨[], _, .close, rfl, by simp⟩
      case isFalse hquote =>
        split at h
        case isTrue hbackslash =>
          subst hbackslash
          split at h
          · cases h
          case h_2 escaped taken hread =>
            rcases exists_escape_of_readEscape hread with ⟨text, others, hescape, rfl, rfl⟩
            rw [readString_skip] at h
            rcases ih others.length (by simp at hlength; omega) h rfl with
              ⟨chars, text', hquoted, rfl, rfl⟩
            exact ⟨escaped :: chars, '\\' :: (text ++ text'), .escape hescape hquoted, by simp,
              by simp⟩
        case isFalse hbackslash =>
          split at h
          · cases h
          case isFalse hcontrol =>
            rcases ih cs.length (by simp at hlength; omega) h rfl with
              ⟨chars, text, hquoted, rfl, rfl⟩
            exact ⟨c :: chars, c :: text, .plain hquote hbackslash (by omega) hquoted, rfl,
              by simp⟩

end WorkflowRepair.Json
