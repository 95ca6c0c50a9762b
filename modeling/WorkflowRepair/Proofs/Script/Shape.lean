import WorkflowRepair.Settings.Validation

/-!
# Shapes of text

The three patterns of a script say what may stand at the head of a text. Here each is a set of
texts that is described on its own (`IsCheck`, `IsDeclaration`, `IsStatement`), and the functions
that look for a pattern find exactly these texts at a word boundary: `check?_eq_some_iff`,
`declares_eq_true_iff` and `statement?_eq_some_iff`.
-/

namespace WorkflowRepair.Repair

open Text

/-! ## The shapes -/

/-- A text of blanks only. -/
def Blanks (cs : List Char) : Prop := ∀ c ∈ cs, isBlank c = true

instance (cs : List Char) : Decidable (Blanks cs) := List.decidableBAll _ cs

/-- The four comparisons, loose and strict. -/
def comparisons : List (List Char) :=
  [['!', '='], ['!', '=', '='], ['=', '='], ['=', '=', '=']]

/-- The two ways to write an empty string. -/
def emptyStrings : List (List Char) := [['\'', '\''], ['"', '"']]

/-- The text of a check. -/
def IsCheck (name text : List Char) : Prop :=
  ∃ gap op gap' lit, Blanks gap ∧ op ∈ comparisons ∧ Blanks gap' ∧ lit ∈ emptyStrings ∧
    text = name ++ (gap ++ (op ++ (gap' ++ lit)))

/-- The text of a declaration. -/
def IsDeclaration (name text : List Char) : Prop :=
  ∃ gap gap', gap ≠ [] ∧ Blanks gap ∧ Blanks gap' ∧
    text = ['l', 'e', 't'] ++ (gap ++ (name ++ (gap' ++ ['='])))

/-- A text without braces. -/
def NoBrace (cs : List Char) : Prop := ∀ c ∈ cs, c ≠ '{' ∧ c ≠ '}'

instance (cs : List Char) : Decidable (NoBrace cs) := List.decidableBAll _ cs

/-- The text of a removable statement. -/
def IsStatement (name text : List Char) : Prop :=
  ∃ gap₁ gap₂ check gap₃ gap₄ body, Blanks gap₁ ∧ Blanks gap₂ ∧ IsCheck name check ∧
    Blanks gap₃ ∧ Blanks gap₄ ∧ NoBrace body ∧
    text = ['i', 'f'] ++ (gap₁ ++ ('(' :: (gap₂ ++ (check ++ (gap₃ ++ (')' :: (gap₄ ++
      ('{' :: (body ++ ['}'])))))))))

/-! ## Blanks -/

/-- The code points of the blanks. -/
def blankCodes : List Nat :=
  List.range' 9 5 ++ List.range' 0x2000 11 ++
    [0x20, 0x85, 0xA0, 0x1680, 0x2028, 0x2029, 0x202F, 0x205F, 0x3000]

theorem toNat_mem_blankCodes {c : Char} (h : isBlank c = true) : c.toNat ∈ blankCodes := by
  simp only [isBlank, Bool.or_eq_true, Bool.and_eq_true, decide_eq_true_eq, beq_iff_eq] at h
  simp only [blankCodes, List.mem_append, List.mem_range'_1, List.mem_cons, List.not_mem_nil,
    or_false]
  omega

theorem skipBlanks_cons_of_not {c : Char} {cs : List Char} (h : isBlank c = false) :
    skipBlanks (c :: cs) = c :: cs := by
  simp [skipBlanks, h]

theorem skipBlanks_append {gap : List Char} (h : Blanks gap) (cs : List Char) :
    skipBlanks (gap ++ cs) = skipBlanks cs := by
  induction gap with
  | nil => rfl
  | cons c gap ih =>
    have hc : isBlank c = true := h c (by simp)
    have hgap : Blanks gap := fun d hd => h d (by simp [hd])
    simpa [skipBlanks, hc] using ih hgap

theorem exists_blanks_skipBlanks (cs : List Char) :
    ∃ gap, Blanks gap ∧ cs = gap ++ skipBlanks cs := by
  refine ⟨cs.takeWhile isBlank, ?_, (List.takeWhile_append_dropWhile).symm⟩
  intro c hc
  exact List.all_eq_true.1 List.all_takeWhile c hc

theorem symbol?_eq_some_iff {symbol : Char} {cs rest : List Char}
    (hsymbol : isBlank symbol = false) :
    symbol? symbol cs = some rest ↔ ∃ gap, Blanks gap ∧ cs = gap ++ symbol :: rest := by
  constructor
  · intro h
    obtain ⟨gap, hgap, hcs⟩ := exists_blanks_skipBlanks cs
    have hskip : skipBlanks cs = [symbol] ++ rest := eq_append_of_after? h
    exact ⟨gap, hgap, by rw [hcs, hskip]; rfl⟩
  · rintro ⟨gap, hgap, rfl⟩
    rw [symbol?, skipBlanks_append hgap, skipBlanks_cons_of_not hsymbol]
    exact after?_append [symbol] rest

/-! ## Comparisons and empty strings -/

theorem exists_of_comparison? {cs rest : List Char} (h : comparison? cs = some rest) :
    ∃ op ∈ comparisons, cs = op ++ rest := by
  unfold comparison? at h
  split at h <;> simp_all [comparisons]

theorem comparison?_append {op rest : List Char} (hop : op ∈ comparisons)
    (hrest : rest.head? ≠ some '=') : comparison? (op ++ rest) = some rest := by
  simp only [comparisons, List.mem_cons, List.not_mem_nil, or_false] at hop
  rcases hop with rfl | rfl | rfl | rfl
  all_goals
    cases rest with
    | nil => rfl
    | cons c rest =>
      have hc : c ≠ '=' := by simpa using hrest
      simp [comparison?, hc]

theorem emptyString?_eq_some_iff {cs rest : List Char} :
    emptyString? cs = some rest ↔ ∃ lit ∈ emptyStrings, cs = lit ++ rest := by
  constructor
  · intro h
    unfold emptyString? at h
    split at h <;> simp_all [emptyStrings]
  · rintro ⟨lit, hlit, rfl⟩
    simp only [emptyStrings, List.mem_cons, List.not_mem_nil, or_false] at hlit
    rcases hlit with rfl | rfl <;> rfl

theorem head_of_comparisons {op : List Char} (h : op ∈ comparisons) :
    ∃ c rest, op = c :: rest ∧ (c = '!' ∨ c = '=') := by
  simp only [comparisons, List.mem_cons, List.not_mem_nil, or_false] at h
  rcases h with rfl | rfl | rfl | rfl <;> simp

theorem head_of_emptyStrings {lit : List Char} (h : lit ∈ emptyStrings) :
    ∃ c rest, lit = c :: rest ∧ (c = '\'' ∨ c = '"') := by
  simp only [emptyStrings, List.mem_cons, List.not_mem_nil, or_false] at h
  rcases h with rfl | rfl <;> simp

/-! ## Checks -/

/-- A check reads off the head of a text what the shape of a check allows. -/
theorem check?_eq_some_iff {name : List Char} {before : Option Char} {cs rest : List Char} :
    check? name before cs = some rest ↔
      isBoundary before cs.head? = true ∧ ∃ text, IsCheck name text ∧ cs = text ++ rest := by
  constructor
  · intro h
    unfold check? at h
    split at h
    case isFalse => simp at h
    case isTrue hbound =>
      refine ⟨hbound, ?_⟩
      simp only [Option.bind_eq_bind, Option.bind_eq_some_iff] at h
      obtain ⟨r₁, h₁, r₂, h₂, h₃⟩ := h
      obtain ⟨gap, hgap, e₁⟩ := exists_blanks_skipBlanks r₁
      obtain ⟨op, hop, e₂⟩ := exists_of_comparison? h₂
      obtain ⟨gap', hgap', e₃⟩ := exists_blanks_skipBlanks r₂
      obtain ⟨lit, hlit, e₄⟩ := emptyString?_eq_some_iff.1 h₃
      refine ⟨_, ⟨gap, op, gap', lit, hgap, hop, hgap', hlit, rfl⟩, ?_⟩
      rw [eq_append_of_after? h₁, e₁, e₂, e₃, e₄]
      simp
  · rintro ⟨hbound, text, ⟨gap, op, gap', lit, hgap, hop, hgap', hlit, rfl⟩, rfl⟩
    obtain ⟨o, op', rfl, ho⟩ := head_of_comparisons hop
    obtain ⟨l, lit', rfl, hl⟩ := head_of_emptyStrings hlit
    have ho' : isBlank o = false := by rcases ho with rfl | rfl <;> decide
    have hl' : isBlank l = false := by rcases hl with rfl | rfl <;> decide
    -- a longer comparison would be taken first, so what follows this one must not make it longer
    have hhead : (gap' ++ (l :: lit' ++ rest)).head? ≠ some '=' := by
      cases gap' with
      | nil => rcases hl with rfl | rfl <;> simp
      | cons c gap' =>
        intro hc
        have : isBlank c = true := hgap' c (by simp)
        simp only [List.cons_append, List.head?_cons, Option.some.injEq] at hc
        subst hc
        exact absurd this (by decide)
    unfold check?
    rw [if_pos hbound]
    simp only [List.append_assoc, after?_append, Option.bind_eq_bind, Option.bind_some,
      skipBlanks_append hgap]
    have hskip : skipBlanks (o :: op' ++ (gap' ++ (l :: lit' ++ rest))) =
        o :: op' ++ (gap' ++ (l :: lit' ++ rest)) := skipBlanks_cons_of_not ho'
    rw [hskip, comparison?_append hop hhead]
    simp only [Option.bind_some, skipBlanks_append hgap']
    have hskip' : skipBlanks (l :: lit' ++ rest) = l :: lit' ++ rest :=
      skipBlanks_cons_of_not hl'
    rw [hskip']
    exact emptyString?_eq_some_iff.2 ⟨_, hlit, rfl⟩

/-! ## Declarations -/

theorem afterBlanks_eq_true_iff {test : List Char → Bool} {cs : List Char} :
    afterBlanks test cs = true ↔
      ∃ gap rest, gap ≠ [] ∧ Blanks gap ∧ cs = gap ++ rest ∧ test rest = true := by
  induction cs with
  | nil =>
    simp only [afterBlanks]
    constructor
    · intro h
      simp at h
    · rintro ⟨gap, rest, hgap, -, h, -⟩
      exact absurd (List.append_eq_nil_iff.1 h.symm).1 hgap
  | cons c cs ih =>
    simp only [afterBlanks, Bool.and_eq_true, Bool.or_eq_true, ih]
    constructor
    · rintro ⟨hc, htest | ⟨gap, rest, -, hgap, rfl, htest⟩⟩
      · exact ⟨[c], cs, by simp, by simpa [Blanks] using hc, rfl, htest⟩
      · refine ⟨c :: gap, rest, by simp, ?_, rfl, htest⟩
        intro d hd
        rcases List.mem_cons.1 hd with rfl | hd
        · exact hc
        · exact hgap d hd
    · rintro ⟨gap, rest, hne, hgap, h, htest⟩
      obtain ⟨d, gap, rfl⟩ := List.exists_cons_of_ne_nil hne
      simp only [List.cons_append, List.cons.injEq] at h
      obtain ⟨rfl, rfl⟩ := h
      refine ⟨hgap c (by simp), ?_⟩
      cases gap with
      | nil => exact Or.inl htest
      | cons d gap =>
        exact Or.inr ⟨d :: gap, rest, by simp, fun x hx => hgap x (by simp [hx]), rfl, htest⟩

/-- A declaration is found exactly where its shape stands behind a word boundary. -/
theorem declares_eq_true_iff {name : List Char} {before : Option Char} {cs : List Char} :
    declares name before cs = true ↔
      isBoundary before cs.head? = true ∧ ∃ text, IsDeclaration name text ∧ text <+: cs := by
  simp only [declares, Bool.and_eq_true, Option.any_eq_true, afterBlanks_eq_true_iff]
  refine and_congr_right fun _ => ?_
  constructor
  · rintro ⟨r₁, h₁, gap, r₂, hne, hgap, rfl, r₃, h₃, h₄⟩
    obtain ⟨r₄, h₄⟩ := Option.isSome_iff_exists.1 h₄
    obtain ⟨gap', hgap', rfl⟩ := (symbol?_eq_some_iff (by decide)).1 h₄
    refine ⟨_, ⟨gap, gap', hne, hgap, hgap', rfl⟩, r₄, ?_⟩
    rw [eq_append_of_after? h₁, eq_append_of_after? h₃]
    simp
  · rintro ⟨text, ⟨gap, gap', hne, hgap, hgap', rfl⟩, rest, rfl⟩
    refine ⟨gap ++ (name ++ (gap' ++ ['='] ++ rest)), ?_, gap, _, hne, hgap, rfl,
      gap' ++ ['='] ++ rest, after?_append _ _, ?_⟩
    · simpa using after?_append ['l', 'e', 't'] (gap ++ (name ++ (gap' ++ '=' :: rest)))
    · refine Option.isSome_iff_exists.2 ⟨rest, ?_⟩
      exact (symbol?_eq_some_iff (by decide)).2 ⟨gap', hgap', by simp⟩

/-! ## Names -/

/-- The characters of a name. None of them is a blank or has a part in the syntax around it. -/
def isNameChar (c : Char) : Bool := c.isAlphanum || c == '_' || c == '$'

theorem isBlank_of_isNameChar {c : Char} (h : isNameChar c = true) : isBlank c = false := by
  cases hblank : isBlank c with
  | false => rfl
  | true =>
    have hcodes : ∀ n ∈ blankCodes, isNameChar (Char.ofNat n) = false := by decide +kernel
    have hnot := hcodes c.toNat (toNat_mem_blankCodes hblank)
    rw [Char.ofNat_toNat, h] at hnot
    simp at hnot

theorem toNat_lt_of_isAlphanum {c : Char} (h : c.isAlphanum = true) : c.toNat < 128 := by
  have hcases : ((decide ('A'.val ≤ c.val ∧ c.val ≤ 'Z'.val) ||
      (decide ('a'.val ≤ c.val) && decide (c.val ≤ 'z'.val))) ||
      (decide ('0'.val ≤ c.val) && decide (c.val ≤ '9'.val))) = true := h
  simp only [Bool.or_eq_true, Bool.and_eq_true, decide_eq_true_eq, UInt32.le_iff_toNat_le] at hcases
  have hupper : 'Z'.val.toNat = 90 := rfl
  have hlower : 'z'.val.toNat = 122 := rfl
  have hdigit : '9'.val.toNat = 57 := rfl
  have hval : c.toNat = c.val.toNat := rfl
  omega

theorem isWord_of_isNameChar {c : Char} (h : isNameChar c = true) (hc : c ≠ '$') :
    isWord c = true := by
  have hbasic : isBasicWord c = true := by
    simpa [isNameChar, isBasicWord, hc] using h
  have hlt : c.toNat < 128 := by
    rcases Bool.or_eq_true_iff.1 hbasic with halphanum | hunderscore
    · exact toNat_lt_of_isAlphanum halphanum
    · rw [beq_iff_eq.1 hunderscore]
      decide
  simp [isWord, hlt, hbasic]

/-- What a name promises: it begins with a word character, and all its characters are name
characters. -/
theorem exists_cons_of_isIdentifier {name : List Char} (h : Settings.isIdentifier name = true) :
    ∃ c rest, name = c :: rest ∧ isWord c = true := by
  cases name with
  | nil => simp [Settings.isIdentifier] at h
  | cons c rest =>
    simp only [Settings.isIdentifier, Bool.and_eq_true] at h
    refine ⟨c, rest, rfl, isWord_of_isNameChar ?_ ?_⟩
    · rcases Bool.or_eq_true_iff.1 h.1 with hc | hc <;> simp [isNameChar, Char.isAlphanum, hc]
    · rintro rfl
      simp at h

theorem isNameChar_of_isIdentifier {name : List Char} (h : Settings.isIdentifier name = true) :
    ∀ c ∈ name, isNameChar c = true := by
  cases name with
  | nil => simp
  | cons d rest =>
    simp only [Settings.isIdentifier, Bool.and_eq_true, List.all_eq_true] at h
    intro c hc
    rcases List.mem_cons.1 hc with rfl | hc
    · rcases Bool.or_eq_true_iff.1 h.1 with hc | hc <;> simp [isNameChar, Char.isAlphanum, hc]
    · exact h.2 c hc

/-! ## Statements -/

theorem body?_eq_some_iff {cs rest : List Char} :
    body? cs = some rest ↔
      ∃ gap body, Blanks gap ∧ NoBrace body ∧ cs = gap ++ '{' :: (body ++ '}' :: rest) := by
  simp only [body?, Option.bind_eq_some_iff]
  constructor
  · rintro ⟨inside, h₁, h₂⟩
    obtain ⟨gap, hgap, rfl⟩ := (symbol?_eq_some_iff (by decide)).1 h₁
    refine ⟨gap, inside.takeWhile fun c => c != '{' && c != '}', hgap, ?_, ?_⟩
    · intro c hc
      simpa using List.all_eq_true.1 List.all_takeWhile c hc
    · have hinside : inside.takeWhile (fun c => c != '{' && c != '}') ++ '}' :: rest = inside := by
        have h := eq_append_of_after? h₂
        rw [← List.singleton_append, ← h, List.takeWhile_append_dropWhile]
      rw [hinside]
  · rintro ⟨gap, body, hgap, hbody, rfl⟩
    refine ⟨body ++ '}' :: rest, (symbol?_eq_some_iff (by decide)).2 ⟨gap, hgap, rfl⟩, ?_⟩
    -- a body without braces is taken as far as its own closing one
    have hdrop : (body ++ '}' :: rest).dropWhile (fun c => c != '{' && c != '}') =
        '}' :: rest := by
      rw [List.dropWhile_append_of_pos]
      · simp
      · intro c hc
        simpa using hbody c hc
    rw [hdrop]
    exact after?_append ['}'] rest

theorem isBoundary_check {name check : List Char} {before : Option Char}
    (hname : Settings.isIdentifier name = true) (hcheck : IsCheck name check)
    (hbefore : before.any isWord = false) : isBoundary before check.head? = true := by
  obtain ⟨c, name', rfl, hc⟩ := exists_cons_of_isIdentifier hname
  obtain ⟨gap, op, gap', lit, -, -, -, -, rfl⟩ := hcheck
  simp [isBoundary, hbefore, hc]

/-- A statement is read off the head of a text exactly where its shape stands behind a word
boundary. -/
theorem statement?_eq_some_iff {name : List Char} {before : Option Char} {cs rest : List Char}
    (hname : Settings.isIdentifier name = true) :
    statement? name before cs = some rest ↔
      isBoundary before cs.head? = true ∧ ∃ text, IsStatement name text ∧ cs = text ++ rest := by
  constructor
  · intro h
    unfold statement? at h
    split at h
    case isFalse => simp at h
    case isTrue hbound =>
      refine ⟨hbound, ?_⟩
      simp only [Option.bind_eq_bind, Option.bind_eq_some_iff] at h
      obtain ⟨r₁, h₁, r₂, h₂, r₃, h₃, r₄, h₄, h₅⟩ := h
      obtain ⟨gap₁, hgap₁, rfl⟩ := (symbol?_eq_some_iff (by decide)).1 h₂
      obtain ⟨gap₂, hgap₂, e₂⟩ := exists_blanks_skipBlanks r₂
      obtain ⟨-, check, hcheck, e₃⟩ := check?_eq_some_iff.1 h₃
      obtain ⟨gap₃, hgap₃, rfl⟩ := (symbol?_eq_some_iff (by decide)).1 h₄
      obtain ⟨gap₄, body, hgap₄, hbody, rfl⟩ := body?_eq_some_iff.1 h₅
      refine ⟨_, ⟨gap₁, gap₂, check, gap₃, gap₄, body, hgap₁, hgap₂, hcheck, hgap₃, hgap₄, hbody,
        rfl⟩, ?_⟩
      rw [eq_append_of_after? h₁, e₂, e₃]
      simp
  · rintro ⟨hbound, text, ⟨gap₁, gap₂, check, gap₃, gap₄, body, hgap₁, hgap₂, hcheck, hgap₃,
      hgap₄, hbody, rfl⟩, rfl⟩
    -- the blanks in front of the check are skipped, and end at its name
    have hskip : ∀ tail, skipBlanks (gap₂ ++ (check ++ tail)) = check ++ tail := by
      intro tail
      obtain ⟨c, name', rfl, -⟩ := exists_cons_of_isIdentifier hname
      obtain ⟨gap, op, gap', lit, -, -, -, -, rfl⟩ := hcheck
      have hc : isBlank c = false :=
        isBlank_of_isNameChar (isNameChar_of_isIdentifier hname c (by simp))
      rw [skipBlanks_append hgap₂]
      exact skipBlanks_cons_of_not hc
    have hhead : ∀ tail, isBoundary (some '(') (check ++ tail).head? = true := by
      intro tail
      obtain ⟨c, name', rfl, -⟩ := exists_cons_of_isIdentifier hname
      have : isBoundary (some '(') check.head? = true := isBoundary_check hname hcheck (by decide)
      obtain ⟨gap, op, gap', lit, -, -, -, -, rfl⟩ := hcheck
      exact this
    unfold statement?
    rw [if_pos hbound]
    simp only [List.append_assoc, List.cons_append, List.nil_append, Option.bind_eq_bind,
      Option.bind_eq_some_iff]
    refine ⟨_, after?_append ['i', 'f'] _, _, (symbol?_eq_some_iff (by decide)).2
      ⟨gap₁, hgap₁, rfl⟩, _, ?_, _, (symbol?_eq_some_iff (by decide)).2 ⟨gap₃, hgap₃, rfl⟩,
      body?_eq_some_iff.2 ⟨gap₄, body, hgap₄, hbody, rfl⟩⟩
    rw [hskip]
    exact check?_eq_some_iff.2 ⟨hhead _, check, hcheck, rfl⟩

end WorkflowRepair.Repair
