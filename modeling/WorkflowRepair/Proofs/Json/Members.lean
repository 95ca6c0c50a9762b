import WorkflowRepair.Json.Value

/-!
# Storing under a present key

Storing a value under a key that is present changes one member and nothing else (`DiffersAt`).
-/

namespace WorkflowRepair.Json.Members

/-- Two objects have the same members in the same order, but for one member under `key`, which has
the value `value` in the first and `value'` in the second. -/
def DiffersAt (key : String) (value value' : Value) (members members' : Members) : Prop :=
  ∃ front back, members = front ++ (key, value) :: back ∧
    members' = front ++ (key, value') :: back ∧ contains key front = false

theorem differsAt_insert {key : String} {value : Value} {members : Members}
    (h : get? key members = some value) (value' : Value) :
    DiffersAt key value value' members (insert key value' members) := by
  induction members with
  | nil => simp at h
  | cons head rest ih =>
    obtain ⟨k, v⟩ := head
    by_cases hk : k = key
    · simp only [get?, hk, if_true, Option.some.injEq] at h
      exact ⟨[], rest, by rw [hk, h]; rfl, by simp [insert, hk], rfl⟩
    · simp only [get?, hk, if_false] at h
      obtain ⟨front, back, hmembers, hmembers', hfront⟩ := ih h
      refine ⟨(k, v) :: front, back, by rw [hmembers]; rfl, ?_, ?_⟩
      · simp [insert, hk, hmembers']
      · simpa [contains, get?, hk] using hfront

theorem insert_insert (key : String) (value value' : Value) (members : Members) :
    insert key value' (insert key value members) = insert key value' members := by
  induction members with
  | nil => simp [insert]
  | cons head rest ih =>
    obtain ⟨k, v⟩ := head
    by_cases hk : k = key
    · simp [insert, hk]
    · simp [insert, hk, ih]

namespace DiffersAt

variable {key : String} {value value' : Value} {members members' : Members}

theorem keys_eq (h : DiffersAt key value value' members members') :
    keys members' = keys members := by
  obtain ⟨front, back, rfl, rfl, -⟩ := h
  simp [keys]

theorem get?_append (front : Members) (k : String) (back : Members) :
    get? k (front ++ back) = (get? k front).or (get? k back) := by
  induction front with
  | nil => rfl
  | cons head front ih =>
    obtain ⟨k', v⟩ := head
    by_cases hk : k' = k
    · simp [get?, hk]
    · simp [get?, hk, ih]

theorem get?_ne (h : DiffersAt key value value' members members') {other : String}
    (hne : other ≠ key) : get? other members' = get? other members := by
  obtain ⟨front, back, rfl, rfl, -⟩ := h
  simp [get?_append, get?, Ne.symm hne]

theorem get?_left (h : DiffersAt key value value' members members') :
    get? key members = some value := by
  obtain ⟨front, back, rfl, -, hfront⟩ := h
  have hnone : get? key front = none := by simpa [contains] using hfront
  simp [get?_append, get?, hnone]

theorem get?_right (h : DiffersAt key value value' members members') :
    get? key members' = some value' := by
  obtain ⟨front, back, -, rfl, hfront⟩ := h
  have hnone : get? key front = none := by simpa [contains] using hfront
  simp [get?_append, get?, hnone]

/-- Objects that differ are different. -/
theorem ne (h : DiffersAt key value value' members members') (hne : value' ≠ value) :
    members' ≠ members := by
  rintro rfl
  have := h.get?_left
  rw [h.get?_right, Option.some.injEq] at this
  exact hne this

end DiffersAt

end WorkflowRepair.Json.Members
