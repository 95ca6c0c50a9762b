import WorkflowRepair.Proofs.Script.Pass

/-!
# What the limit of a pass protects

A pass touches nothing beyond its limit, and of what it does only the statements in front of the
limit decide.

* `Replaced.exists_append`: with the limit at the end of a front part, a pass over the whole script
  is a pass over that part;
* `Replaced.lower`: the limit can be lowered past places where no statement ends;
* `Replaced.exists_last`: behind the last replaced statement everything stays.
-/

namespace WorkflowRepair.Repair

open Text

variable {name marker : List Char} {limit : Nat} {before : Option Char}
  {code out : List Char} {count : Nat}

theorem Replaced.of_nil (h : Replaced name marker limit before [] out count) :
    out = [] ∧ count = 0 := by
  generalize hcode : ([] : List Char) = code at h
  cases h with
  | nil => exact ⟨rfl, rfl⟩
  | keep => simp at hcode
  | stop htext => exact absurd hcode.symm (htext.append_ne_nil _)
  | replace htext => exact absurd hcode.symm (htext.append_ne_nil _)

/-- A pass keeps a part in front where no statement begins. -/
theorem Replaced.append_left {front : List Char}
    (h : NoneBegins (IsStatement name) before front code)
    (hrest : Replaced name marker (limit - front.length) (lastChar before front) code out count) :
    Replaced name marker limit before (front ++ code) (front ++ out) count := by
  induction front generalizing limit before with
  | nil => exact hrest
  | cons c front ih =>
    obtain ⟨hhead, htail⟩ := noneBegins_cons_iff.1 h
    rw [lastChar_cons, List.length_cons, Nat.add_comm, Nat.sub_add_eq] at hrest
    exact .keep hhead (ih htail hrest)

/-- Where no statement begins, nothing is replaced. -/
theorem Replaced.of_noneBegins (h : NoneBegins (IsStatement name) before code []) :
    Replaced name marker limit before code code 0 := by
  have hkept : Replaced name marker limit before (code ++ []) (code ++ []) 0 := .append_left h .nil
  rwa [List.append_nil] at hkept

/-- A pass that stops at the end of a front part leaves what is behind it, and what it does in front
does not depend on it. -/
theorem Replaced.exists_append {front back : List Char} (hname : Settings.isIdentifier name = true)
    (h : Replaced name marker front.length before (front ++ back) out count) :
    ∃ front', out = front' ++ back ∧
      Replaced name marker front.length before front front' count := by
  generalize hlimit : front.length = limit at h
  generalize hcode : front ++ back = code at h
  induction h generalizing front back with
  | nil =>
    obtain ⟨rfl, rfl⟩ := List.append_eq_nil_iff.1 hcode
    exact ⟨[], rfl, .nil⟩
  | @keep limit before c rest out count hnot hrest ih =>
    cases front with
    | nil =>
      -- the limit is reached, and the rest of the pass replaces nothing
      obtain rfl : limit = 0 := hlimit.symm
      obtain ⟨front', hout, hfront⟩ := @ih [] rest (by simp) rfl
      obtain ⟨rfl, rfl⟩ := hfront.of_nil
      exact ⟨[], by rw [hout, hcode]; rfl, .nil⟩
    | cons d front =>
      simp only [List.cons_append, List.cons.injEq] at hcode
      obtain ⟨rfl, rfl⟩ := hcode
      obtain ⟨front', rfl, hfront⟩ := @ih front back (by rw [← hlimit]; simp) rfl
      refine ⟨d :: front', rfl, .keep (fun hbegins => hnot ?_) hfront⟩
      exact hbegins.append_right (by simp) back
  | @stop limit before text rest htext _ hlt =>
    refine ⟨front, hcode.symm, .of_noneBegins ?_⟩
    rcases append_split hcode.symm with ⟨as, hfront, -⟩ | ⟨ys, hys, hsplit, -⟩
    · rw [← hlimit, hfront, List.length_append] at hlt
      omega
    · -- the statement reaches beyond the front part, so in that part alone nothing is found
      rw [hsplit] at htext
      exact htext.noneBegins_front hname hys
  | @replace limit before text rest out count htext hbound hle _ ih =>
    rcases append_split hcode.symm with ⟨as, rfl, rfl⟩ | ⟨ys, hys, hsplit, -⟩
    · rw [List.length_append] at hlimit
      obtain ⟨front', rfl, hrest⟩ := @ih as back (by omega) rfl
      exact ⟨marker ++ front', by simp, .replace htext hbound hle hrest⟩
    · have := List.length_pos_iff.2 hys
      rw [hsplit, List.length_append] at hle
      omega

/-- The limit can be lowered past places where no statement ends. -/
theorem Replaced.lower {limit' : Nat} (h : Replaced name marker limit before code out count)
    (hle : limit' ≤ limit)
    (hends : ∀ pre text post, Occurs (IsStatement name) before code pre text post →
      pre.length + text.length ≤ limit → pre.length + text.length ≤ limit') :
    Replaced name marker limit' before code out count := by
  induction h generalizing limit' with
  | nil => exact .nil
  | keep hnot _ ih =>
    refine .keep hnot (ih (by omega) fun pre text post hocc hend => ?_)
    have hpos := hocc.shape.length_pos
    have := hends _ _ _ hocc.cons (by rw [List.length_cons]; omega)
    rw [List.length_cons] at this
    omega
  | stop htext hbound hlimit => exact .stop htext hbound (by omega)
  | @replace limit before text rest _ _ htext hbound hlimit _ ih =>
    -- the replaced statement itself ends in time, so the new limit is not in front of its end
    have hhead := hends [] text rest (htext.occurs_head hbound rest) (by simpa using hlimit)
    rw [List.length_nil] at hhead
    refine .replace htext hbound (by omega) (ih (by omega) fun pre text' post hocc hend => ?_)
    rw [← htext.lastChar_eq before] at hocc
    have := hends _ _ _ hocc.append_left (by rw [List.length_append]; omega)
    rw [List.length_append] at this
    omega

/-- Behind the last replaced statement everything stays, and no statement behind it ends in time. -/
theorem Replaced.exists_last (hname : Settings.isIdentifier name = true)
    (h : Replaced name marker limit before code out count) (hcount : count ≠ 0) :
    ∃ pre text post front, code = pre ++ (text ++ post) ∧ out = front ++ (marker ++ post) ∧
      IsStatement name text ∧
      ∀ pre' text' post', Occurs (IsStatement name) before code pre' text' post' →
        pre'.length + text'.length ≤ limit →
        pre'.length + text'.length ≤ pre.length + text.length := by
  induction h with
  | nil => exact absurd rfl hcount
  | stop => exact absurd rfl hcount
  | @keep limit before c rest out count hnot _ ih =>
    obtain ⟨pre, text, post, front, rfl, rfl, htext, hlast⟩ := ih hcount
    refine ⟨c :: pre, text, post, c :: front, rfl, rfl, htext, fun pre' text' post' hocc hend => ?_⟩
    cases pre' with
    | nil => exact absurd (hocc.eq_append ▸ hocc.begins) hnot
    | cons d pre' =>
      rw [List.length_cons] at hend ⊢
      have := hlast _ _ _ hocc.of_cons.2 (by omega)
      rw [List.length_cons]
      omega
  | @replace limit before text rest out count htext hbound hle hrest ih =>
    -- this is the last one if none is replaced behind it
    by_cases hzero : count = 0
    · refine ⟨[], text, rest, [], rfl, ?_, htext, fun pre' text' post' hocc hend => ?_⟩
      · rw [hrest.eq_of_count_eq_zero hzero]
        rfl
      · rcases hocc.eq_or_behind_statement hname htext with ⟨rfl, rfl⟩ | ⟨as, rfl, hocc'⟩
        · exact Nat.le_refl _
        · have := (hrest.count_eq_zero_iff hname).1 hzero _ _ _ hocc'
          rw [List.length_append] at hend
          omega
    · obtain ⟨pre, text₂, post, front, rfl, rfl, htext₂, hlast⟩ := ih hzero
      refine ⟨text ++ pre, text₂, post, marker ++ front, by simp, by simp, htext₂,
        fun pre' text' post' hocc hend => ?_⟩
      rw [List.length_append]
      rcases hocc.eq_or_behind_statement hname htext with ⟨rfl, rfl⟩ | ⟨as, rfl, hocc'⟩
      · rw [List.length_nil]
        omega
      · rw [List.length_append] at hend ⊢
        have := hlast _ _ _ hocc' (by omega)
        omega

/-- Unless a script ends with a closing brace, a pass keeps its last character. -/
theorem Replaced.lastChar_eq (h : Replaced name marker limit before code out count)
    (hlast : lastChar before code ≠ some '}') : lastChar before out = lastChar before code := by
  induction h with
  | nil => rfl
  | keep _ _ ih =>
    rw [lastChar_cons] at hlast
    rw [lastChar_cons, lastChar_cons, ih hlast]
  | stop => rfl
  | @replace limit before text rest out count htext _ _ _ ih =>
    rw [lastChar_append, htext.lastChar_eq] at hlast
    have hne : out ≠ [] := by
      rintro rfl
      exact hlast (ih hlast).symm
    rw [lastChar_append, lastChar_append, htext.lastChar_eq, lastChar_of_ne_nil hne _ (some '}'),
      ih hlast]

end WorkflowRepair.Repair
