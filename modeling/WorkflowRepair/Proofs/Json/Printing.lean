import Mathlib.Data.Rat.Cast.Defs
import WorkflowRepair.Proofs.Json.Fraction
import WorkflowRepair.Proofs.Json.Stored

/-!
# What is printed

The spread form of a value is a text of the grammar (`spells_prettyChars`), whatever its numbers, with
fractions written as the literals of their shortest decimals. Where all numbers stand for integers,
the value that is held for the printed text is the value itself (`readText_pretty`).
-/

namespace WorkflowRepair.Json

/-! ## Numbers -/

/-- A number that stands for the integer `i`: the integer itself, or a zero held as a fraction for
the sake of its sign. -/
def Number.Denotes (i : Int) : Number → Prop
  | .integer j => j = i
  | .float x => x.toBits.toNat % Nat.pow 2 63 = 0 ∧ i = 0

/-- A number that is held and stands for an integer. -/
def Number.StoredWhole (n : Number) : Prop := n.Stored ∧ ∃ i, n.Denotes i

/-- Every number in a value stands for an integer. -/
def Value.AllWhole (v : Value) : Prop := v.AllNumbers fun n => ∃ i, n.Denotes i

/-- A literal denotes the integer that it writes. -/
theorem value_of_integer? {l : Literal} {i : Int} (h : l.integer? = some i) : l.value = i := by
  unfold Literal.integer? at h
  split at h
  case isFalse => cases h
  case isTrue hnone =>
    rw [Bool.and_eq_true, Option.isNone_iff_eq_none, Option.isNone_iff_eq_none] at hnone
    injection h with h
    have hdigits : l.allDigits = l.whole.chars := by simp [Literal.allDigits, hnone.1]
    have hscale : l.scale = 0 := by simp [Literal.scale, hnone.1, hnone.2]
    have hvalue : l.value = (if l.negative then -1 else 1) * (l.whole.value : ℚ) := by
      rw [Literal.value, hdigits, hscale, zpow_zero, mul_one]
      rfl
    rw [hvalue, ← h]
    split <;> simp

/-- An integer literal in range is held for what it writes. -/
theorem number?_of_integer? {l : Literal} {i : Int} (h : l.integer? = some i)
    (hrange : -(2 ^ 63 : Int) ≤ i ∧ i < 2 ^ 64) : ∃ n, l.number? = some n ∧ n.Denotes i := by
  have hinteger : i = if l.negative then -(l.whole.value : Int) else l.whole.value := by
    unfold Literal.integer? at h
    split at h
    · exact (Option.some.inj h).symm
    · cases h
  have hmax : maxInteger = 2 ^ 64 - 1 := rfl
  have hlow : Nat.pow 2 63 = 2 ^ 63 := rfl
  have hroom : l.whole.value ≤ maxInteger := by
    split at hinteger <;> omega
  refine ⟨_, number?_of_le h hroom, ?_⟩
  unfold signedInteger
  split
  case isTrue hnegative =>
    rw [if_pos hnegative] at hinteger
    split
    case isTrue houtside =>
      -- of the integers in range only minus zero is held as a fraction
      have hzero : l.whole.value = 0 := by omega
      rw [hzero] at hinteger ⊢
      exact ⟨by decide +kernel, hinteger⟩
    case isFalse => exact hinteger.symm
  case isFalse hnegative =>
    rw [if_neg hnegative] at hinteger
    exact hinteger.symm

/-- The literal of an integer. -/
def Literal.ofInt (i : Int) : Literal :=
  ⟨decide (i < 0), Digits.ofNat i.natAbs, by
    intro hzero
    by_cases h : i.natAbs = 0
    · rw [h]
      rfl
    · exact absurd hzero (head?_toDigits_ne h), none, none⟩

theorem text_ofInt (i : Int) : (Literal.ofInt i).text = integerText i := by
  have hunsigned : (Literal.ofInt i).unsigned = Nat.toDigits 10 i.natAbs := List.append_nil _
  unfold Literal.text integerText
  rw [hunsigned]
  by_cases h : i < 0
  · rw [if_pos h]
    exact if_pos (decide_eq_true h)
  · rw [if_neg h]
    exact if_neg (by simp [Literal.ofInt, h])

theorem integer?_ofInt (i : Int) : (Literal.ofInt i).integer? = some i := by
  show some (if decide (i < 0) = true then -((Digits.ofNat i.natAbs).value : Int)
    else (Digits.ofNat i.natAbs).value) = some i
  rw [Digits.value_ofNat]
  congr 1
  split
  case isTrue h =>
    have hneg := of_decide_eq_true h
    omega
  case isFalse h =>
    have hnonneg : ¬ i < 0 := fun hneg => h (decide_eq_true hneg)
    omega

/-- An integer in range is held for its own literal. -/
theorem number?_ofInt {i : Int} (h : (Number.integer i).Stored) :
    (Literal.ofInt i).number? = some (.integer i) := by
  have hmax : maxInteger = 2 ^ 64 - 1 := rfl
  have hlow : Nat.pow 2 63 = 2 ^ 63 := rfl
  have hrange : -(2 ^ 63 : Int) ≤ i ∧ i < 2 ^ 64 := h
  have hwhole : (Literal.ofInt i).whole.value = i.natAbs := Digits.value_ofNat _
  rw [number?_of_le (integer?_ofInt i) (by rw [hwhole]; omega), hwhole]
  show some (signedInteger (decide (i < 0)) i.natAbs) = _
  unfold signedInteger
  by_cases hneg : i < 0
  · rw [if_pos (decide_eq_true hneg), if_neg (by omega)]
    congr 2
    omega
  · rw [if_neg (by simp [hneg])]
    congr 2
    omega

/-- A literal that is written for a number. -/
structure Writes (l : Literal) (n : Number) : Prop where
  /-- It is written as the number is printed. -/
  text : l.text = n.text
  /-- It denotes the integer that the number stands for. -/
  value : ∀ i, n.Denotes i → l.value = i
  /-- A number that stands for an integer is held for it again. -/
  number : ∀ i, n.Denotes i → n.Stored → l.number? = some n

theorem writes_ofInt (i : Int) : Writes (.ofInt i) (.integer i) where
  text := text_ofInt i
  value j hj := by
    rw [value_of_integer? (integer?_ofInt i)]
    exact congrArg _ hj
  number _ _ hstored := number?_ofInt hstored

theorem exists_writes (n : Number) : ∃ l, Writes l n := by
  cases n with
  | integer i => exact ⟨.ofInt i, writes_ofInt i⟩
  | float x =>
    rcases exists_literal_fractionText x with ⟨l, htext, hzero⟩
    refine ⟨l, htext, fun i hi => ?_, fun i hi _ => (hzero hi.1).2⟩
    rw [(hzero hi.1).1, hi.2]
    rfl

/-! ## Strings -/

/-- The characters that have to be escaped get an escape of the grammar. -/
theorem quoted_escapeChar (c : Char) {chars text : List Char} (h : Quoted chars text) :
    Quoted (c :: chars) (escapeChar c ++ text) := by
  unfold escapeChar
  split
  case isTrue hc =>
    rw [hc]
    exact .escape .quote h
  split
  case isTrue hc =>
    rw [hc]
    exact .escape .backslash h
  split
  case isTrue hc =>
    rw [hc]
    exact .escape .backspace h
  split
  case isTrue hc =>
    rw [hc]
    exact .escape .formFeed h
  split
  case isTrue hc =>
    rw [hc]
    exact .escape .newline h
  split
  case isTrue hc =>
    rw [hc]
    exact .escape .return h
  split
  case isTrue hc =>
    rw [hc]
    exact .escape .tab h
  split
  case isTrue hcontrol =>
    -- two digits are enough for a control character
    have hquads : ∀ n < 32, hexQuad? ['0', '0', hexDigit (n / 16), hexDigit (n % 16)] = some n := by
      decide
    have hchar : ¬ IsSurrogate c.toNat := by
      unfold IsSurrogate
      omega
    have hescape := Escape.unit (hquads c.toNat hcontrol) hchar
    rw [Char.ofNat_toNat] at hescape
    exact .escape hescape h
  case isFalse hquote hbackslash _ _ _ _ _ hcontrol =>
    exact .plain hquote hbackslash (by omega) h

theorem quoted_flatMap (chars : List Char) : Quoted chars (chars.flatMap escapeChar ++ ['"']) := by
  induction chars with
  | nil => exact .close
  | cons c chars ih =>
    rw [List.flatMap_cons, List.append_assoc]
    exact quoted_escapeChar c ih

/-! ## Values -/

section

variable (literal : Number → Literal)

mutual

/-- The tree of a value, with the literals that are chosen for its numbers. -/
def Source.ofValue : Value → Source
  | .null => .null
  | .bool b => .bool b
  | .number n => .number (literal n)
  | .string s => .string s
  | .array items => .array (Source.ofItems items)
  | .object members => .object (Source.ofMembers members)

/-- The trees of items. -/
def Source.ofItems : List Value → List Source
  | [] => []
  | v :: rest => Source.ofValue v :: Source.ofItems rest

/-- The trees of members. -/
def Source.ofMembers : List (String × Value) → List (String × Source)
  | [] => []
  | (key, v) :: rest => (key, Source.ofValue v) :: Source.ofMembers rest

end

theorem blank_newline (level : Nat) : Blank (newline level) := by
  intro c hc
  rcases List.mem_cons.1 hc with rfl | hc
  · decide
  · rw [List.eq_of_mem_replicate hc]
    decide

variable {literal}

theorem separated_prettyItems {P : Source → List Char → Prop} {level : Nat} {v : Value}
    {rest : List Value}
    (h : ∀ w ∈ v :: rest, P (Source.ofValue literal w) (w.prettyChars (level + 1))) :
    Separated P ']' (Source.ofItems literal (v :: rest))
      (v.prettyChars (level + 1) ++ prettyItems level rest) := by
  induction rest generalizing v with
  | nil => exact .last (h v List.mem_cons_self) (blank_newline level)
  | cons w rest ih =>
    have hmore := ih fun w' hw' => h w' (List.mem_cons_of_mem _ hw')
    exact .more (h v List.mem_cons_self) blank_nil (blank_newline (level + 1)) hmore

theorem spellsMember_pretty {P : Source → List Char → Prop} {source : Source} {text : List Char}
    (key : String) (h : P source text) :
    SpellsMember P (key, source) (quoted key ++ ':' :: ' ' :: text) := by
  have hblank : Blank [' '] := by
    intro c hc
    rw [List.mem_singleton.1 hc]
    decide
  have hmember := SpellsMember.mk (quoted_flatMap key.toList) blank_nil hblank h
  simpa [quoted] using hmember

theorem separated_prettyMembers {P : Source → List Char → Prop} {level : Nat} {key : String}
    {v : Value} {rest : List (String × Value)}
    (h : ∀ member ∈ (key, v) :: rest,
      P (Source.ofValue literal member.2) (member.2.prettyChars (level + 1))) :
    Separated (SpellsMember P) '}' (Source.ofMembers literal ((key, v) :: rest))
      (quoted key ++ ':' :: ' ' :: (v.prettyChars (level + 1) ++ prettyMembers level rest)) := by
  have hfirst := spellsMember_pretty key (h (key, v) List.mem_cons_self)
  induction rest generalizing key v with
  | nil =>
    have hlast : Separated (SpellsMember P) '}' _ _ := .last hfirst (blank_newline level)
    simpa [Source.ofMembers, prettyMembers] using hlast
  | cons member rest ih =>
    rcases member with ⟨key', w⟩
    have hmore := ih (fun member hmember => h member (List.mem_cons_of_mem _ hmember))
      (spellsMember_pretty key' (h (key', w) (List.mem_cons_of_mem _ List.mem_cons_self)))
    have hall := Separated.more hfirst blank_nil (blank_newline (level + 1)) hmore
    simpa [Source.ofMembers, prettyMembers] using hall

/-- The spread form of a value is a text of the grammar. -/
theorem spells_prettyChars {N : Number → Prop} (hliteral : ∀ n, N n → (literal n).text = n.text)
    (depth : Nat) {v : Value} (h : v.Within N depth) (level : Nat) :
    Spells depth (Source.ofValue literal v) (v.prettyChars level) := by
  cases v with
  | null => rw [Source.ofValue, Spells, Value.prettyChars]
  | bool b => cases b <;> rw [Source.ofValue, Spells, Value.prettyChars]
  | number n =>
    rw [Source.ofValue, Spells, Value.prettyChars, hliteral n (Value.within_number.1 h)]
  | string s =>
    rw [Source.ofValue, Spells, Value.prettyChars]
    exact ⟨_, quoted_flatMap s.toList, rfl⟩
  | array items =>
    rcases h.exists_items with ⟨inner, rfl, hitems⟩
    rw [Source.ofValue, Spells]
    cases items with
    | nil =>
      rw [Value.prettyChars]
      exact .empty blank_nil
    | cons v rest =>
      rw [Value.prettyChars]
      exact .filled (blank_newline (level + 1)) (separated_prettyItems fun w hw =>
        spells_prettyChars hliteral inner (hitems w hw) (level + 1))
  | object members =>
    rcases h.exists_members with ⟨inner, rfl, -, hmembers⟩
    rw [Source.ofValue, Spells]
    cases members with
    | nil =>
      rw [Value.prettyChars]
      exact .empty blank_nil
    | cons member rest =>
      rcases member with ⟨key, v⟩
      rw [Value.prettyChars]
      exact .filled (blank_newline (level + 1)) (separated_prettyMembers fun member hmember =>
        spells_prettyChars hliteral inner (hmembers member hmember) (level + 1))
termination_by depth

/-! ## Integers again -/

theorem itemValues?_ofItems {items : List Value}
    (h : ∀ v ∈ items, (Source.ofValue literal v).value? = some v) :
    itemValues? (Source.ofItems literal items) = some items := by
  induction items with
  | nil => rfl
  | cons v items ih =>
    rw [Source.ofItems, itemValues?, h v List.mem_cons_self,
      ih fun w hw => h w (List.mem_cons_of_mem _ hw)]

theorem memberValues?_ofMembers {members : List (String × Value)}
    (h : ∀ member ∈ members, (Source.ofValue literal member.2).value? = some member.2) :
    memberValues? (Source.ofMembers literal members) = some members := by
  induction members with
  | nil => rfl
  | cons member members ih =>
    rcases member with ⟨key, v⟩
    rw [Source.ofMembers, memberValues?, h (key, v) List.mem_cons_self,
      ih fun w hw => h w (List.mem_cons_of_mem _ hw)]

/-- Where every number is held for its literal, a value is held for its own tree. -/
theorem value?_ofValue {N : Number → Prop} (hliteral : ∀ n, N n → (literal n).number? = some n)
    (depth : Nat) {v : Value} (h : v.Within N depth) :
    (Source.ofValue literal v).value? = some v := by
  cases v with
  | number n =>
    rw [Source.ofValue, Source.value?, hliteral n (Value.within_number.1 h)]
    rfl
  | array items =>
    rcases h.exists_items with ⟨inner, rfl, hitems⟩
    have hvalues : itemValues? (Source.ofItems literal items) = some items :=
      itemValues?_ofItems fun v hv => value?_ofValue hliteral inner (hitems v hv)
    rw [Source.ofValue, Source.value?, hvalues]
    rfl
  | object members =>
    rcases h.exists_members with ⟨inner, rfl, hkeys, hmembers⟩
    have hvalues : memberValues? (Source.ofMembers literal members) = some members :=
      memberValues?_ofMembers fun member hmember =>
        value?_ofValue hliteral inner (hmembers member hmember)
    rw [Source.ofValue, Source.value?, hvalues, Option.map_some, collectMembers_of_nodup hkeys]
  | _ => rfl
termination_by depth

end

/-- The printed form of a value is a text for it. -/
theorem spellsText_pretty_alone {literal : Number → Literal} {N : Number → Prop}
    (hliteral : ∀ n, N n → (literal n).text = n.text) {v : Value} (h : v.Within N maxDepth) :
    SpellsText (Source.ofValue literal v) v.pretty := by
  refine ⟨[], v.prettyChars 0, [], blank_nil, spells_prettyChars hliteral maxDepth h 0, blank_nil,
    ?_⟩
  rw [Value.pretty, String.toList_ofList, List.append_nil, List.nil_append]

theorem blank_lineEnd : Blank "\n".toList := blank_newline 0

/-- The printed form of a value on lines of its own is a text for it. -/
theorem spellsText_pretty {literal : Number → Literal} {N : Number → Prop}
    (hliteral : ∀ n, N n → (literal n).text = n.text) {v : Value} (h : v.Within N maxDepth) :
    SpellsText (Source.ofValue literal v) (v.pretty ++ "\n") :=
  (spellsText_pretty_alone hliteral h).append_blank blank_lineEnd

/-- Reading takes back what was printed, if all numbers stand for integers. -/
theorem readText_pretty_alone {v : Value} (h : v.Within Number.StoredWhole maxDepth) :
    readText v.pretty = .ok v := by
  choose literal hliteral using exists_writes
  have hnumber : ∀ n, Number.StoredWhole n → (literal n).number? = some n := by
    rintro n ⟨hstored, i, hi⟩
    exact (hliteral n).number i hi hstored
  exact readText_eq_ok_iff.2 ⟨Source.ofValue literal v,
    spellsText_pretty_alone (fun n _ => (hliteral n).text) h, value?_ofValue hnumber maxDepth h⟩

/-- Reading takes back what was printed on lines of its own. -/
theorem readText_pretty {v : Value} (h : v.Within Number.StoredWhole maxDepth) :
    readText (v.pretty ++ "\n") = .ok v :=
  readText_append_blank (readText_pretty_alone h) blank_lineEnd

/-! ## The end of a text -/

/-- Items after the first end in the last one and the closing bracket. -/
theorem exists_prettyItems_concat (level : Nat) (items : List Value) (v : Value) :
    ∃ front, prettyItems level (items ++ [v]) =
      front ++ (v.prettyChars (level + 1) ++ (newline level ++ [']'])) := by
  induction items with
  | nil => exact ⟨',' :: newline (level + 1), by simp [prettyItems]⟩
  | cons w items ih =>
    rcases ih with ⟨front, hfront⟩
    refine ⟨',' :: (newline (level + 1) ++ (w.prettyChars (level + 1) ++ front)), ?_⟩
    simp [prettyItems, hfront]

/-- An array ends in its last item and the closing bracket. -/
theorem exists_prettyChars_array_concat (level : Nat) (items : List Value) (v : Value) :
    ∃ front, (Value.array (items ++ [v])).prettyChars level =
      front ++ (v.prettyChars (level + 1) ++ (newline level ++ [']'])) := by
  cases items with
  | nil => exact ⟨'[' :: newline (level + 1), by simp [Value.prettyChars, prettyItems]⟩
  | cons w items =>
    rcases exists_prettyItems_concat level items v with ⟨front, hfront⟩
    refine ⟨'[' :: (newline (level + 1) ++ (w.prettyChars (level + 1) ++ front)), ?_⟩
    simp [Value.prettyChars, hfront]

/-- Members after the first end in the value of the last one and the closing brace. -/
theorem exists_prettyMembers_concat (level : Nat) (members : Members) (key : String) (v : Value) :
    ∃ front, prettyMembers level (members ++ [(key, v)]) =
      front ++ (v.prettyChars (level + 1) ++ (newline level ++ ['}'])) := by
  induction members with
  | nil =>
    exact ⟨',' :: (newline (level + 1) ++ (quoted key ++ [':', ' '])), by simp [prettyMembers]⟩
  | cons member members ih =>
    rcases ih with ⟨front, hfront⟩
    refine ⟨',' :: (newline (level + 1) ++ (quoted member.1 ++ ':' :: ' ' ::
      (member.2.prettyChars (level + 1) ++ front))), ?_⟩
    simp [prettyMembers, hfront]

/-- An object ends in the value of its last member and the closing brace. -/
theorem exists_prettyChars_object_concat (level : Nat) (members : Members) (key : String)
    (v : Value) :
    ∃ front, (Value.object (members ++ [(key, v)])).prettyChars level =
      front ++ (v.prettyChars (level + 1) ++ (newline level ++ ['}'])) := by
  cases members with
  | nil =>
    exact ⟨'{' :: (newline (level + 1) ++ (quoted key ++ [':', ' '])),
      by simp [Value.prettyChars, prettyMembers]⟩
  | cons member members =>
    rcases exists_prettyMembers_concat level members key v with ⟨front, hfront⟩
    refine ⟨'{' :: (newline (level + 1) ++ (quoted member.1 ++ ':' :: ' ' ::
      (member.2.prettyChars (level + 1) ++ front))), ?_⟩
    simp [Value.prettyChars, hfront]

end WorkflowRepair.Json
