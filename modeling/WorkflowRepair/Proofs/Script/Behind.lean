import WorkflowRepair.Proofs.Script.Limit
import WorkflowRepair.Proofs.Script.Loop

/-!
# What stands behind the declaration

A pass stops at the first declaration it finds, but every pass looks for that declaration anew. A
marker that ends in a word character may come to stand right in front of it and hide it; then a
later pass goes on to the next declaration.

* `pass_append`: as long as no statement reaches past the old declaration (`Overruns`), a pass works
  on the part in front of it alone;
* `broken_pass_of_overruns`, `broken_pass`: once one does, a character behind the old declaration is
  lost, and no later pass brings it back;
* `suffix_iff_not_overruns`: so what stood behind the declaration is kept exactly if no stage
  overruns.
-/

namespace WorkflowRepair.Repair

open Text

/-- A text with the marker in the place of each of its removable statements. -/
def replaceEvery (name marker text : List Char) : List Char :=
  (replaceStatements name marker text.length 0 none text).1

/-- A statement ends behind `front`, and still in front of the first declaration. -/
def Overruns (name front back : List Char) : Prop :=
  ∃ declared pre text post, firstDeclaration name (front ++ back) = some declared ∧
    Occurs (IsStatement name) none (front ++ back) pre text post ∧
    front.length < pre.length + text.length ∧ pre.length + text.length ≤ declared

/-- The text ends like `back` up to a place where `back` has a closing brace and the text has
not. -/
def Broken (back text : List Char) : Prop :=
  ∃ pre c post front, text = pre ++ c :: post ∧ back = front ++ '}' :: post ∧ c ≠ '}'

variable {name marker front back code out : List Char} {declared removed : Nat}

theorem exists_replaced_replaceEvery (hname : Settings.isIdentifier name = true)
    (marker text : List Char) :
    ∃ count, Replaced name marker text.length none text (replaceEvery name marker text) count :=
  ⟨_, replaced_replaceStatements hname marker text.length none text⟩

/-! ## No declaration in front -/

theorem le_of_firstDeclaration_append (h : NoneBegins (IsDeclaration name) none front back)
    (hdecl : firstDeclaration name (front ++ back) = some declared) : front.length ≤ declared := by
  obtain ⟨pre, text, post, hocc, rfl⟩ := exists_occurs_of_firstDeclaration hdecl
  by_contra hlt
  rcases append_split hocc.eq_append with ⟨as, hpre, -⟩ | ⟨ys, hys, hfront, hback⟩
  · rw [hpre, List.length_append] at hlt
    omega
  · refine h pre ys hfront hys ?_
    rw [← hback]
    exact hocc.begins

theorem noneBegins_replaceEvery (hname : Settings.isIdentifier name = true)
    (hclear : Clear (IsDeclaration name) marker)
    (h : NoneBegins (IsDeclaration name) none front back) :
    NoneBegins (IsDeclaration name) none (replaceEvery name marker front) back := by
  obtain ⟨count, hreplaced⟩ := exists_replaced_replaceEvery hname marker front
  exact hreplaced.noneBegins hclear (beginsWithWord_isDeclaration name) id h

/-- Where there is no declaration, replacing makes none. -/
theorem firstDeclaration_replaceEvery_eq_none (hname : Settings.isIdentifier name = true)
    (hclear : Clear (IsDeclaration name) marker)
    (hnone : firstDeclaration name (front ++ back) = none) :
    firstDeclaration name (replaceEvery name marker front ++ back) = none := by
  have hword := beginsWithWord_isDeclaration name
  obtain ⟨count, hreplaced⟩ := exists_replaced_replaceEvery hname marker front
  rw [firstDeclaration_eq_none_iff, noneBegins_append_iff] at hnone ⊢
  obtain ⟨hfront, hback⟩ := hnone
  exact ⟨hreplaced.noneBegins hclear hword id hfront,
    hback.of_before hword (hreplaced.any_isWord_lastChar id)⟩

/-! ## One stage -/

/-- As long as nothing overruns, a pass works on the part in front of the declaration alone. -/
theorem pass_append (hname : Settings.isIdentifier name = true)
    (hfront : NoneBegins (IsDeclaration name) none front back)
    (hdecl : firstDeclaration name (front ++ back) = some declared)
    (hnot : ¬ Overruns name front back) :
    pass name marker (front ++ back) = replaceEvery name marker front ++ back := by
  obtain ⟨removed, hreplaced⟩ := exists_replaced_pass hname marker hdecl
  have hends : ∀ pre text post, Occurs (IsStatement name) none (front ++ back) pre text post →
      pre.length + text.length ≤ declared → pre.length + text.length ≤ front.length := by
    intro pre text post hocc hend
    by_contra hlt
    exact hnot ⟨declared, pre, text, post, hdecl, hocc, by omega, hend⟩
  have hlower := hreplaced.lower (le_of_firstDeclaration_append hfront hdecl) hends
  obtain ⟨front', hout, hfront'⟩ := hlower.exists_append hname
  have heq := hfront'.eq_replaceStatements hname
  rw [hout, replaceEvery, heq]

namespace Broken

theorem not_suffix {text : List Char} (h : Broken back text) : ¬ back <:+ text := by
  obtain ⟨pre, c, post, front', rfl, rfl, hc⟩ := h
  rintro ⟨ws, heq⟩
  have hlen : (ws ++ front').length = pre.length := by
    have := congrArg List.length heq
    simp only [List.length_append, List.length_cons] at this ⊢
    omega
  rw [← List.append_assoc] at heq
  have := (List.append_inj heq hlen).2
  simp only [List.cons.injEq] at this
  exact hc this.1.symm

/-- The last statement that a pass replaces leaves everything behind it, and its closing brace
becomes the last character of the marker. -/
theorem of_last {marker' pre text post front' : List Char} {c : Char} (hc : c ≠ '}')
    (htext : IsStatement name text) (hcode : front ++ back = pre ++ (text ++ post))
    (hlen : front.length < pre.length + text.length)
    (hout : out = front' ++ (marker' ++ [c] ++ post)) : Broken back out := by
  obtain ⟨init, rfl⟩ := htext.exists_concat
  have hcode' : front ++ back = (pre ++ init) ++ '}' :: post := by simp [hcode]
  rcases append_split hcode' with ⟨as, -, hback⟩ | ⟨bs, hbs, hfront, -⟩
  · exact ⟨front' ++ marker', c, post, as, by simp [hout], hback, hc⟩
  · have := List.length_pos_iff.2 hbs
    rw [hfront] at hlen
    simp only [List.length_append, List.length_singleton] at hlen
    omega

end Broken

/-- No pass mends what is broken: it replaces statements in front of the broken place and keeps
that place, or replaces one behind it and breaks another place. -/
theorem broken_pass {text marker' : List Char} {c : Char}
    (hname : Settings.isIdentifier name = true) (hmarker : marker = marker' ++ [c]) (hc : c ≠ '}')
    (h : Broken back text) : Broken back (pass name marker text) := by
  by_cases hpremature : HasPremature name text
  · obtain ⟨declared, removed, hreplaced, hne⟩ :=
      exists_replaced_of_hasPremature hname hpremature marker
    obtain ⟨pre, d, post, front', htext, hback, hd⟩ := h
    obtain ⟨pre₂, statement, post₂, front₂, hsplit, hout, hstatement, -⟩ :=
      hreplaced.exists_last hname hne
    obtain ⟨init, rfl⟩ := hstatement.exists_concat
    have heq : (pre₂ ++ init) ++ '}' :: post₂ = pre ++ d :: post := by
      rw [← htext, hsplit]
      simp
    rcases append_split heq with ⟨as, -, hpost⟩ | ⟨bs, hbs, -, hpost⟩
    · -- the statement ends in front of the broken place, or at it if that were a brace
      cases as with
      | nil =>
        simp only [List.nil_append, List.cons.injEq] at hpost
        exact absurd hpost.1.symm hd
      | cons a as =>
        simp only [List.cons_append, List.cons.injEq] at hpost
        exact ⟨front₂ ++ (marker ++ as), d, post, front', by simp [hout, hpost.2], hback, hd⟩
    · -- the statement ends behind the broken place, where `back` goes on as the script does
      obtain ⟨b, bs, rfl⟩ := List.exists_cons_of_ne_nil hbs
      simp only [List.cons_append, List.cons.injEq] at hpost
      exact ⟨front₂ ++ marker', c, post₂, front' ++ '}' :: bs, by rw [hout, hmarker]; simp,
        by simp [hback, hpost.2], hc⟩
  · rwa [pass_of_not_hasPremature hname hpremature]

theorem broken_iterate {text marker' : List Char} {c : Char}
    (hname : Settings.isIdentifier name = true) (hmarker : marker = marker' ++ [c]) (hc : c ≠ '}')
    (h : Broken back text) (n : Nat) : Broken back ((pass name marker)^[n] text) := by
  induction n with
  | zero => exact h
  | succ n ih =>
    rw [Function.iterate_succ_apply']
    exact broken_pass hname hmarker hc ih

theorem broken_pass_of_overruns {marker' : List Char} {c : Char}
    (hname : Settings.isIdentifier name = true) (hmarker : marker = marker' ++ [c]) (hc : c ≠ '}')
    (h : Overruns name front back) : Broken back (pass name marker (front ++ back)) := by
  obtain ⟨declared, pre, text, post, hdecl, hocc, hlt, hle⟩ := h
  obtain ⟨removed, hreplaced⟩ := exists_replaced_pass hname marker hdecl
  have hne : removed ≠ 0 := by
    intro hzero
    have := (hreplaced.count_eq_zero_iff hname).1 hzero pre text post hocc
    omega
  obtain ⟨pre', text', post', front', hcode, hout, htext', hlast⟩ := hreplaced.exists_last hname hne
  have hend := hlast pre text post hocc hle
  exact Broken.of_last hc htext' hcode (by omega) (by rw [hout, hmarker])

/-! ## All stages -/

section

variable (hname : Settings.isIdentifier name = true) (hclear : Clear (IsDeclaration name) marker)

include hname hclear

theorem noneBegins_iterate (h : NoneBegins (IsDeclaration name) none front back) (k : Nat) :
    NoneBegins (IsDeclaration name) none ((replaceEvery name marker)^[k] front) back := by
  induction k with
  | zero => exact h
  | succ k ih =>
    rw [Function.iterate_succ_apply']
    exact noneBegins_replaceEvery hname hclear ih

theorem firstDeclaration_iterate_eq_none {j k : Nat} (hle : j ≤ k)
    (hnone : firstDeclaration name ((replaceEvery name marker)^[j] front ++ back) = none) :
    firstDeclaration name ((replaceEvery name marker)^[k] front ++ back) = none := by
  induction k, hle using Nat.le_induction with
  | base => exact hnone
  | succ k _ ih =>
    rw [Function.iterate_succ_apply']
    exact firstDeclaration_replaceEvery_eq_none hname hclear ih

/-- Before anything overruns, the passes work on the part in front of the declaration, until no
declaration is found any more. -/
theorem iterate_pass_append (hfront : NoneBegins (IsDeclaration name) none front back) {k : Nat}
    (hnot : ∀ i < k, ¬ Overruns name ((replaceEvery name marker)^[i] front) back) :
    ∃ j ≤ k, (pass name marker)^[k] (front ++ back) =
        (replaceEvery name marker)^[j] front ++ back ∧
      (j = k ∨ firstDeclaration name ((replaceEvery name marker)^[j] front ++ back) = none) := by
  induction k with
  | zero => exact ⟨0, Nat.le_refl _, rfl, Or.inl rfl⟩
  | succ k ih =>
    obtain ⟨j, hj, hcode, hstage⟩ := ih fun i hi => hnot i (by omega)
    rw [Function.iterate_succ_apply', hcode]
    cases hdecl : firstDeclaration name ((replaceEvery name marker)^[j] front ++ back) with
    | none => exact ⟨j, by omega, pass_of_firstDeclaration_eq_none hdecl, Or.inr hdecl⟩
    | some declared =>
      -- no earlier pass has stopped, since without a declaration there is never one again
      have hjk : j = k := hstage.resolve_right (by simp [hdecl])
      refine ⟨k + 1, Nat.le_refl _, ?_, Or.inl rfl⟩
      rw [Function.iterate_succ_apply', ← hjk]
      exact pass_append hname (noneBegins_iterate hname hclear hfront j) hdecl
        (hjk ▸ hnot k (by omega))

/-- What stands behind the declaration is kept exactly if no stage overruns. -/
theorem suffix_iff_not_overruns {marker' : List Char} {c : Char}
    (hcheck : Clear (IsCheck name) marker) (hmarker : marker = marker' ++ [c]) (hc : c ≠ '}')
    (hfront : NoneBegins (IsDeclaration name) none front back)
    (hfix : fix name marker (front ++ back) = .patched out removed) :
    back <:+ out ↔ ∀ k, ¬ Overruns name ((replaceEvery name marker)^[k] front) back := by
  have hout := eq_iterate_of_fix hname hfix
  constructor
  · intro hsuffix k
    induction k using Nat.strongRecOn with
    | ind k ih =>
      intro hoverruns
      obtain ⟨j, hj, hcode, hstage⟩ := iterate_pass_append hname hclear hfront ih
      have hjk : j = k := by
        refine hstage.resolve_right fun hnone => ?_
        obtain ⟨declared, -, -, -, hdecl, -⟩ := hoverruns
        simp [firstDeclaration_iterate_eq_none hname hclear hj hnone] at hdecl
      rw [hjk] at hcode
      have hbroken : Broken back ((pass name marker)^[k + 1] (front ++ back)) := by
        rw [Function.iterate_succ_apply', hcode]
        exact broken_pass_of_overruns hname hmarker hc hoverruns
      -- the script that is given out is settled, so further passes over the broken one lead to it
      have hsettled := not_hasPremature_iterate hname hcheck
        (Nat.le_refl (countChecks name (front ++ back)))
      have hlater := iterate_pass_add hname hsettled
        (Nat.le_add_right (countChecks name (front ++ back)) (k + 1))
      rw [Function.iterate_add_apply, ← hout] at hlater
      exact (hlater ▸ broken_iterate hname hmarker hc hbroken _).not_suffix hsuffix
  · intro hnot
    obtain ⟨j, -, hcode, -⟩ := iterate_pass_append hname hclear hfront fun i _ => hnot i
    rw [hout, hcode]
    exact List.suffix_append _ _

end

/-! ## A declaration behind anything but a brace -/

theorem lastChar_iterate_replaceEvery (hname : Settings.isIdentifier name = true)
    (marker : List Char) (hlast : lastChar none front ≠ some '}') (k : Nat) :
    lastChar none ((replaceEvery name marker)^[k] front) = lastChar none front := by
  induction k with
  | zero => rfl
  | succ k ih =>
    obtain ⟨count, hreplaced⟩ :=
      exists_replaced_replaceEvery hname marker ((replaceEvery name marker)^[k] front)
    rw [Function.iterate_succ_apply', hreplaced.lastChar_eq (by rwa [ih]), ih]

/-- A declaration that does not stand right behind a closing brace is never hidden. -/
theorem not_overruns_of_lastChar_ne (hname : Settings.isIdentifier name = true)
    (marker : List Char) (hlast : lastChar none front ≠ some '}')
    (hbegins : Begins (IsDeclaration name) (lastChar none front) back) (k : Nat) :
    ¬ Overruns name ((replaceEvery name marker)^[k] front) back := by
  rintro ⟨declared, pre, text, post, hdecl, -, hlt, hle⟩
  have hsame := lastChar_iterate_replaceEvery hname marker hlast k
  rw [← hsame] at hbegins
  obtain ⟨hbound, decl, hshape, rest, rfl⟩ := hbegins
  have := le_of_firstDeclaration hdecl ⟨rfl, hshape, hbound⟩
  omega

/-! ## The built-in name and marker -/

/-- With the built-in settings, what stands behind the first declaration of a patched script is kept
exactly if no stage overruns; and none does unless the declaration stands right behind a closing
brace. -/
theorem drop_suffix_iff_not_overruns
    (hfix : fix defaultName defaultMarker code = .patched out removed)
    (hdecl : firstDeclaration defaultName code = some declared) :
    (code.drop declared <:+ out ↔
      ∀ k, ¬ Overruns defaultName
        ((replaceEvery defaultName defaultMarker)^[k] (code.take declared)) (code.drop declared)) ∧
    ((code.take declared).getLast? ≠ some '}' → code.drop declared <:+ out) := by
  have hsplit : code.take declared ++ code.drop declared = code :=
    List.take_append_drop declared code
  have hmarker : defaultMarker = defaultMarker.dropLast ++ ['n'] := by decide +kernel
  -- the declaration that is found is the first one, so none begins in front of it
  have hfront : NoneBegins (IsDeclaration defaultName) none (code.take declared)
      (code.drop declared) := by
    rw [noneBegins_isDeclaration_iff]
    intro n hn
    rw [hsplit, hdecl, Option.some.injEq] at hn
    rw [← hn]
    exact List.length_take_le declared code
  have hiff := suffix_iff_not_overruns isIdentifier_defaultName clear_isDeclaration_default
    clear_isCheck_default hmarker (by decide) hfront (hsplit.symm ▸ hfix)
  refine ⟨hiff, fun hlast => hiff.2 ?_⟩
  rw [← lastChar_none] at hlast
  refine not_overruns_of_lastChar_ne isIdentifier_defaultName defaultMarker hlast ?_
  obtain ⟨pre, text, post, hocc, rfl⟩ := exists_occurs_of_firstDeclaration hdecl
  rw [hocc.eq_append, List.take_left, List.drop_left]
  exact hocc.begins

/-- A script whose first declaration stands right behind a statement, and which checks its variable
once more before it declares it a second time. -/
def twiceDeclared : List Char :=
  ("if(denyReason=='')\x7b\x7dlet denyReason=1;" ++
    "if(denyReason=='')\x7b\x7dlet denyReason=2").toList

theorem fix_twiceDeclared :
    fix defaultName defaultMarker twiceDeclared =
      .patched ("// denyReason check moved after declarationlet denyReason=1;" ++
        "// denyReason check moved after declarationlet denyReason=2").toList 2 := by
  decide +kernel

theorem firstDeclaration_twiceDeclared :
    firstDeclaration defaultName twiceDeclared = some 20 := by
  decide +kernel

/-- The check behind its first declaration is replaced as well. -/
theorem twiceDeclared_loses_check :
    fix defaultName defaultMarker twiceDeclared =
        .patched ("// denyReason check moved after declarationlet denyReason=1;" ++
          "// denyReason check moved after declarationlet denyReason=2").toList 2 ∧
      firstDeclaration defaultName twiceDeclared = some 20 ∧
      ¬ twiceDeclared.drop 20 <:+
        ("// denyReason check moved after declarationlet denyReason=1;" ++
          "// denyReason check moved after declarationlet denyReason=2").toList :=
  ⟨fix_twiceDeclared, firstDeclaration_twiceDeclared, by decide +kernel⟩

/-- Some stage of that script overruns. -/
theorem twiceDeclared_overruns :
    ∃ k, Overruns defaultName
      ((replaceEvery defaultName defaultMarker)^[k] (twiceDeclared.take 20))
      (twiceDeclared.drop 20) := by
  by_contra hnone
  have hkept := (drop_suffix_iff_not_overruns fix_twiceDeclared
    firstDeclaration_twiceDeclared).1.2 fun k hover => hnone ⟨k, hover⟩
  exact absurd hkept (by decide +kernel)

end WorkflowRepair.Repair
