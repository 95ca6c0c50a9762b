import WorkflowRepair.Proofs.Script.Completed
import WorkflowRepair.Proofs.Script.Settled
import WorkflowRepair.Proofs.Settings.Accepted

/-!
# Repairing a script twice

The check of the settings looks at the marker alone, but what counts is what the marker forms with
the text around it. A marker may end like a check and be completed by what follows: then a pass can
put a new check in the place of the one it takes away, and the loop ends too early. So the settings
repair every script in one go exactly if their marker is not `Completable`; only where an `if` can
begin in the name is that not enough (`not_repairsOnce_closingMarker`).
-/

namespace WorkflowRepair.Repair

open Settings (Field validate validate_eq_ok_iff)

variable {settings : Settings} {name marker code out : List Char} {removed : Nat}

/-- A script that is not settled by as many passes as it had checks went through a pass that did
not lower the number of its checks. -/
theorem exists_countChecks_le_of_hasPremature (hname : Settings.isIdentifier name = true)
    (h : HasPremature name ((pass name marker)^[countChecks name code] code)) :
    ∃ k < countChecks name code,
      countChecks name ((pass name marker)^[k] code) ≤
        countChecks name ((pass name marker)^[k + 1] code) := by
  by_contra hnone
  -- if every pass took a check away, none would be left
  have hdrop : ∀ k ≤ countChecks name code,
      countChecks name ((pass name marker)^[k] code) + k ≤ countChecks name code := by
    intro k hk
    induction k with
    | zero => exact Nat.le_refl _
    | succ k ih =>
      have hlt : ¬ countChecks name ((pass name marker)^[k] code) ≤
          countChecks name ((pass name marker)^[k + 1] code) :=
        fun hle => hnone ⟨k, by omega, hle⟩
      have := ih (by omega)
      omega
  have hpos := countChecks_pos_of_checksEarly hname (checksEarly_of_hasPremature hname h)
  have := hdrop _ (Nat.le_refl _)
  omega

/-- A patched script is left alone by a second repair exactly if one of the first passes, as many as
there were checks, settled it. If it is not left alone, then one of these passes did not lower the
number of checks. -/
theorem fix_ne_patched_iff_settled (hname : Settings.isIdentifier name = true)
    (hfix : fix name marker code = .patched out removed) :
    ((∀ out' removed', fix name marker out ≠ .patched out' removed') ↔
      ∃ passes ≤ countChecks name code, ¬ HasPremature name ((pass name marker)^[passes] code)) ∧
    ((∃ out' removed', fix name marker out = .patched out' removed') →
      ∃ k < countChecks name code,
        countChecks name ((pass name marker)^[k] code) ≤
          countChecks name ((pass name marker)^[k + 1] code)) := by
  have hout := eq_iterate_of_fix hname hfix
  have hagain := exists_fix_eq_patched_iff hname marker out
  refine ⟨⟨fun hnot => ?_, ?_⟩, fun h => ?_⟩
  · refine ⟨_, Nat.le_refl _, fun hpremature => ?_⟩
    rw [← hout] at hpremature
    obtain ⟨out', removed', h⟩ := hagain.2 hpremature
    exact hnot out' removed' h
  · rintro ⟨passes, hle, hsettled⟩ out' removed' h
    have hpremature := hagain.1 ⟨out', removed', h⟩
    rw [hout, iterate_pass_add hname hsettled hle] at hpremature
    exact hsettled hpremature
  · apply exists_countChecks_le_of_hasPremature hname
    rw [← hout]
    exact hagain.1 h

/-! ## All scripts -/

/-- A script that is patched is not patched again. -/
def RepairsOnce (name marker : List Char) : Prop :=
  ∀ code out removed, fix name marker code = .patched out removed →
    ∀ out' removed', fix name marker out ≠ .patched out' removed'

/-- What the check of the settings promises about a marker. -/
theorem noneBegins_of_accepted (h : Settings.Accepted settings)
    (hname : name = settings.declaration.variableName.toList)
    (hmarker : marker = settings.declaration.marker.toList) :
    marker ≠ [] ∧ NoneBegins (IsCheck name) none marker [] ∧
      NoneBegins (IsDeclaration name) none marker [] := by
  have hmentions := h.not_mentions
  rw [Settings.markerMentions, ← hname, ← hmarker, mentions, Bool.or_eq_false_iff,
    Option.isSome_eq_false_iff, Option.isSome_eq_false_iff, Option.isNone_iff_eq_none,
    Option.isNone_iff_eq_none] at hmentions
  refine ⟨?_, (findStart_eq_none_iff checkBegins_iff).1 hmentions.1,
    firstDeclaration_eq_none_iff.1 hmentions.2⟩
  rintro rfl
  have hblank := h.not_blank .marker
  simp [Text.isBlankText, Field.value, ← hmarker] at hblank

/-- Accepted settings repair every script in one go exactly if no texts complete their marker to a
statement. For a name in which an `if` can begin, that is necessary, and a marker that is clear of
checks is enough. -/
theorem repairsOnce_iff_not_completable (hvalid : validate settings = .ok ())
    (hname : name = settings.declaration.variableName.toList)
    (hmarker : marker = settings.declaration.marker.toList) :
    (RepairsOnce name marker → ¬ Completable name marker) ∧
    (NoIfInside name → ¬ Completable name marker → RepairsOnce name marker) ∧
    (Clear (IsCheck name) marker → RepairsOnce name marker) ∧
    ∀ code out removed, fix name marker code = .patched out removed →
      ((∀ out' removed', fix name marker out ≠ .patched out' removed') ↔
        ∃ passes ≤ countChecks name code,
          ¬ HasPremature name ((pass name marker)^[passes] code)) ∧
      ((∃ out' removed', fix name marker out = .patched out' removed') →
        ∃ k < countChecks name code,
          countChecks name ((pass name marker)^[k] code) ≤
            countChecks name ((pass name marker)^[k + 1] code)) := by
  have haccepted := validate_eq_ok_iff.1 hvalid
  have hident : Settings.isIdentifier name = true := hname ▸ haccepted.identifier
  obtain ⟨hne, hcheck, hdecl⟩ := noneBegins_of_accepted haccepted hname hmarker
  -- texts that complete the marker are made a script, an inert marker settles every script
  refine ⟨fun honce hcompletable => ?_, fun hif hnot code out removed hfix => ?_,
    fun hclear code out removed hfix => fix_ne_patched_of_patched hident hclear hfix,
    fun code out removed hfix => fix_ne_patched_iff_settled hident hfix⟩
  · obtain ⟨code, out, removed, hfix, out', removed', hagain⟩ :=
      hcompletable.exists_patched_twice hident hdecl
    exact honce code out removed hfix out' removed' hagain
  · have hinert : Inert name marker := ⟨hident, hne, hif, hcheck, hnot⟩
    exact (fix_ne_patched_iff_settled hident hfix).1.2
      ⟨_, Nat.le_refl _, hinert.not_hasPremature_iterate code⟩

/-! ## A name in which an `if` begins -/

/-- A marker that closes a body and goes on with a part of an opening. -/
def closingMarker : List Char := "\x7df(i".toList

/-- It does not end with an opening, since no `i` stands in front of its `f`. -/
theorem IsOpening.ne_closing {pre opening front : List Char} (h : IsOpening opening) :
    pre ++ opening ≠ front ++ ['}', 'f', '('] := by
  intro heq
  obtain ⟨gap, gap', hgap, hgap', rfl⟩ := h
  have hback := congrArg List.reverse heq
  simp only [List.reverse_append, List.reverse_cons, List.reverse_nil, List.append_assoc,
    List.nil_append, List.cons_append] at hback
  rcases List.append_eq_cons_iff.1 hback with ⟨-, hback⟩ | ⟨gap'', hgap'', -⟩
  · simp only [List.cons.injEq, true_and] at hback
    rcases List.append_eq_cons_iff.1 hback with ⟨-, hback⟩ | ⟨gap'', hgap'', -⟩
    · simp at hback
    · have hmem : 'f' ∈ gap := List.mem_reverse.1 (by simp [hgap''])
      exact absurd (hgap _ hmem) (by decide)
  · have hmem : '(' ∈ gap' := List.mem_reverse.1 (by simp [hgap''])
    exact absurd (hgap' _ hmem) (by decide)

/-- No check ends in it in front of its last character. -/
theorem IsCheck.suffix_closing {pre check front rest : List Char} (h : IsCheck ['i'] check)
    (hsplit : pre ++ (check ++ rest) = front ++ ['}', 'f', '(']) :
    pre.length + check.length ≤ front.length := by
  rw [← List.append_assoc] at hsplit
  rcases append_split hsplit with ⟨as, hfront, -⟩ | ⟨ds, hds, hcheck, hmarker⟩
  · rw [hfront, List.length_append, List.length_append]
    omega
  · obtain ⟨init, q, rfl, hq⟩ := h.exists_quote_behind (by decide) hcheck hds
    have hmem : q ∈ ['}', 'f', '('] := by simp [hmarker]
    simp only [List.mem_cons, List.not_mem_nil, or_false] at hmem
    rcases hmem with rfl | rfl | rfl <;> exact absurd hq (by decide)

/-- No texts complete it: a check could only begin with its last character, and no `if` stands in
front of its parenthesis. -/
theorem not_completable_closingMarker : ¬ Completable ['i'] closingMarker := by
  rintro ⟨front, back, pre, opening, check, entry, body, post, h⟩
  have hbegins := h.begins
  have hends := h.ends
  have hlen : closingMarker.length = 4 := by decide +kernel
  have heq : front ++ ['}', 'f', '('] ++ 'i' :: back =
      pre ++ opening ++ (check ++ (entry ++ (body ++ '}' :: post))) := by
    rw [List.append_assoc, List.append_assoc]
    exact h.eq_append
  rcases append_split heq with ⟨as, hopening, -⟩ | ⟨bs, hbs, hsplit, hrest⟩
  · -- the check begins with the last character
    have hnil : as = [] := by
      have hlength := congrArg List.length hopening
      simp only [List.length_append, List.length_cons, List.length_nil] at hlength
      exact List.eq_nil_of_length_eq_zero (by omega)
    rw [hnil, List.append_nil] at hopening
    exact h.isOpening.ne_closing hopening
  rcases append_split hrest with ⟨as, rfl, -⟩ | ⟨cs, -, hcheck, -⟩
  · -- it ends in front of the last character
    have hle := h.isCheck.suffix_closing hsplit.symm
    rw [List.length_append] at hle
    omega
  · -- it goes over the parenthesis
    have hconcat : pre ++ opening ++ bs = front ++ ['}', 'f'] ++ ['('] := by
      rw [← hsplit]
      simp
    obtain ⟨bs, rfl⟩ := exists_concat_of_append hconcat hbs
    have hparen : '(' ∈ check := by simp [hcheck]
    exact h.isCheck.not_mem (by decide) (by decide) (by decide) (by decide) hparen

/-- Yet a script is patched twice: where such a marker has closed a body and is replaced together
with it, what is left of it stands behind the end of the next one, and both make an opening. -/
theorem not_repairsOnce_closingMarker : ¬ RepairsOnce ['i'] closingMarker := by
  have hfix : fix ['i'] closingMarker
      "if(i=='')\x7bif(i=='')\x7b\x7d=='')\x7b\x7d let i=1".toList =
        .patched "\x7df(if(i=='')\x7b\x7d let i=1".toList 2 := by
    decide +kernel
  have hagain : fix ['i'] closingMarker "\x7df(if(i=='')\x7b\x7d let i=1".toList =
      .patched "\x7df(\x7df(i let i=1".toList 1 := by
    decide +kernel
  intro honce
  exact honce _ _ _ hfix _ _ hagain

/-! ## Settings that are accepted -/

/-- Settings with a marker that reads as the beginning of a statement. -/
def openSettings : Settings :=
  { declaration := { marker := "if (denyReason =" } }

/-- A script that completes this marker to a new statement. -/
def completingScript : List Char :=
  "if (denyReason == '')\x7b\x7d= '') \x7b\x7d\nlet denyReason=1".toList

theorem validate_openSettings : validate openSettings = .ok () := rfl

theorem fix_completingScript :
    fix openSettings.declaration.variableName.toList openSettings.declaration.marker.toList
        completingScript =
      .patched "if (denyReason == '') \x7b\x7d\nlet denyReason=1".toList 1 := by
  decide +kernel

theorem fix_completedScript :
    fix openSettings.declaration.variableName.toList openSettings.declaration.marker.toList
        "if (denyReason == '') \x7b\x7d\nlet denyReason=1".toList =
      .patched "if (denyReason =\nlet denyReason=1".toList 1 := by
  decide +kernel

/-- These settings are accepted, the script is patched, and what it becomes is patched again. -/
theorem completingScript_patched_twice :
    validate openSettings = .ok () ∧
      fix openSettings.declaration.variableName.toList openSettings.declaration.marker.toList
          completingScript =
        .patched "if (denyReason == '') \x7b\x7d\nlet denyReason=1".toList 1 ∧
      fix openSettings.declaration.variableName.toList openSettings.declaration.marker.toList
          "if (denyReason == '') \x7b\x7d\nlet denyReason=1".toList =
        .patched "if (denyReason =\nlet denyReason=1".toList 1 :=
  ⟨validate_openSettings, fix_completingScript, fix_completedScript⟩

/-- The texts of that script around its statement complete the marker. -/
theorem completable_openSettings :
    Completable openSettings.declaration.variableName.toList
      openSettings.declaration.marker.toList :=
  ⟨[], "= '') \x7b\x7d".toList, [], "if (".toList, "denyReason == ''".toList, ") \x7b".toList, [],
    [], ⟨by decide +kernel,
      ⟨[' '], [], by simp [Blanks]; decide, by simp [Blanks], by decide +kernel⟩,
      ⟨[' '], ['=', '='], [' '], ['\'', '\''], by simp [Blanks]; decide, by decide,
        by simp [Blanks]; decide, by decide, by decide +kernel⟩,
      ⟨[], [' '], by simp [Blanks], by simp [Blanks]; decide, by decide +kernel⟩,
      by simp [NoBrace], rfl⟩, rfl, by decide +kernel, by decide +kernel⟩

/-- So these settings repair some script more than once, as the built-in ones do not. -/
theorem repairsOnce_default_not_open :
    RepairsOnce defaultName defaultMarker ∧
      ¬ RepairsOnce openSettings.declaration.variableName.toList
        openSettings.declaration.marker.toList := by
  have hvalid : validate {} = .ok () := rfl
  refine ⟨?_, fun honce => ?_⟩
  · exact (repairsOnce_iff_not_completable hvalid rfl rfl).2.2.1 clear_isCheck_default
  · exact (repairsOnce_iff_not_completable validate_openSettings rfl rfl).1 honce
      completable_openSettings

end WorkflowRepair.Repair
