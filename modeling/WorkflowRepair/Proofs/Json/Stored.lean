import Mathlib.Algebra.Group.Int.Defs
import Mathlib.Data.List.Induction
import Mathlib.Data.List.Nodup
import WorkflowRepair.Proofs.Json.Members
import WorkflowRepair.Proofs.Json.Reading

/-!
# What is held for a text

The values that come from a text have three properties that every writer of documents relies on
(`Value.Stored`): integers are in range, the keys of an object differ, and containers are nested no
deeper than the reader goes. `stored_of_readText` gives them, and `Value.Within.insert` keeps them
when a member is stored.
-/

namespace WorkflowRepair.Json

/-! ## Keys -/

namespace Members

theorem contains_eq_false_of_not_mem {key : String} {members : Members}
    (h : key ∉ keys members) : contains key members = false := by
  induction members with
  | nil => rfl
  | cons head rest ih =>
    rcases head with ⟨k, v⟩
    simp only [keys, List.map_cons, List.mem_cons, not_or] at h
    have hrest := ih h.2
    simp only [contains, get?, if_neg (Ne.symm h.1)] at hrest ⊢
    exact hrest

theorem mem_of_get? {key : String} {value : Value} {members : Members}
    (h : get? key members = some value) : (key, value) ∈ members := by
  induction members with
  | nil => cases h
  | cons head rest ih =>
    rcases head with ⟨k, v⟩
    simp only [get?] at h
    split at h
    case isTrue hk =>
      injection h with h
      rw [hk, h]
      exact List.mem_cons_self
    case isFalse => exact List.mem_cons_of_mem _ (ih h)

/-- Where the keys differ, a member is found under its key. -/
theorem get?_of_mem {key : String} {value : Value} {members : Members}
    (hkeys : (keys members).Nodup) (h : (key, value) ∈ members) :
    get? key members = some value := by
  induction members with
  | nil => cases h
  | cons head rest ih =>
    rcases head with ⟨k, v⟩
    rcases List.nodup_cons.1 hkeys with ⟨hfirst, hrest⟩
    rcases List.mem_cons.1 h with heq | hmem
    · injection heq with hk hv
      subst hk hv
      simp [get?]
    · have hne : k ≠ key := by
        rintro rfl
        exact hfirst (List.mem_map.2 ⟨(k, value), hmem, rfl⟩)
      simp only [get?, if_neg hne]
      exact ih hrest hmem

theorem mem_insert {key : String} {value : Value} {members : Members} {member : String × Value}
    (h : member ∈ insert key value members) : member = (key, value) ∨ member ∈ members := by
  induction members with
  | nil => exact .inl (List.mem_singleton.1 h)
  | cons head rest ih =>
    rcases head with ⟨k, v⟩
    simp only [insert] at h
    split at h
    case isTrue hk =>
      rcases List.mem_cons.1 h with heq | hmem
      · exact .inl (by rw [heq, hk])
      · exact .inr (List.mem_cons_of_mem _ hmem)
    case isFalse =>
      rcases List.mem_cons.1 h with heq | hmem
      · exact .inr (by rw [heq]; exact List.mem_cons_self)
      · exact (ih hmem).imp id (List.mem_cons_of_mem _)

theorem nodup_keys_insert {key : String} {members : Members} (value : Value)
    (h : (keys members).Nodup) : (keys (insert key value members)).Nodup := by
  cases hcontains : contains key members with
  | true => rwa [keys_insert_of_contains value hcontains]
  | false =>
    have hnot : key ∉ keys members := by
      intro hmem
      rcases List.mem_map.1 hmem with ⟨⟨k, v⟩, hmember, rfl⟩
      have hget := get?_of_mem h hmember
      simp [contains, hget] at hcontains
    rw [insert_of_not_contains value hcontains, keys, List.map_append]
    refine List.nodup_append.2 ⟨h, List.nodup_singleton _, ?_⟩
    rintro k hk k' hk' rfl
    rw [List.map_singleton, List.mem_singleton] at hk'
    subst hk'
    exact hnot hk

end Members

theorem collectMembers_append (pairs : List (String × Value)) (pair : String × Value) :
    collectMembers (pairs ++ [pair]) = Members.insert pair.1 pair.2 (collectMembers pairs) := by
  unfold collectMembers
  rw [List.foldl_append]
  rfl

theorem nodup_keys_collectMembers (pairs : List (String × Value)) :
    (Members.keys (collectMembers pairs)).Nodup := by
  induction pairs using List.reverseRecOn with
  | nil => exact List.nodup_nil
  | append_singleton pairs pair ih =>
    rw [collectMembers_append]
    exact Members.nodup_keys_insert _ ih

theorem mem_of_mem_collectMembers {pairs : List (String × Value)} {member : String × Value}
    (h : member ∈ collectMembers pairs) : member ∈ pairs := by
  induction pairs using List.reverseRecOn with
  | nil => exact h
  | append_singleton pairs pair ih =>
    rw [collectMembers_append] at h
    rcases Members.mem_insert h with rfl | hmem
    · exact List.mem_append_right _ (List.mem_singleton_self _)
    · exact List.mem_append_left _ (ih hmem)

/-- Members whose keys differ are collected as they are. -/
theorem collectMembers_of_nodup {members : Members} (h : (Members.keys members).Nodup) :
    collectMembers members = members := by
  induction members using List.reverseRecOn with
  | nil => rfl
  | append_singleton members member ih =>
    rw [Members.keys, List.map_append] at h
    rcases List.nodup_append.1 h with ⟨hkeys, -, hdisjoint⟩
    have hnot : member.1 ∉ Members.keys members := by
      intro hmem
      exact hdisjoint _ hmem _ (List.mem_singleton_self _) rfl
    rw [collectMembers_append, ih hkeys,
      Members.insert_of_not_contains _ (Members.contains_eq_false_of_not_mem hnot)]

/-! ## Stored values -/

/-- Integers are held in the range in which they are held exactly. -/
def Number.Stored : Number → Prop
  | .integer i => -(2 ^ 63 : Int) ≤ i ∧ i < 2 ^ 64
  | .float _ => True

/-- Containers are nested at most `depth` levels deep, the keys of every object differ, and `N`
holds of all numbers. -/
def Value.Within (N : Number → Prop) : (depth : Nat) → Value → Prop
  | _, .null => True
  | _, .bool _ => True
  | _, .number n => N n
  | _, .string _ => True
  | depth + 1, .array items => ∀ v ∈ items, Value.Within N depth v
  | depth + 1, .object members =>
    (Members.keys members).Nodup ∧ ∀ member ∈ members, Value.Within N depth member.2
  | 0, .array _ => False
  | 0, .object _ => False

section

variable {N : Number → Prop} {depth : Nat}

theorem Value.within_null : Value.null.Within N depth := by
  cases depth <;> exact trivial

theorem Value.within_bool {b : Bool} : (Value.bool b).Within N depth := by
  cases depth <;> exact trivial

theorem Value.within_string {s : String} : (Value.string s).Within N depth := by
  cases depth <;> exact trivial

theorem Value.within_number {n : Number} : (Value.number n).Within N depth ↔ N n := by
  cases depth <;> exact Iff.rfl

theorem Value.within_array {items : List Value} :
    (Value.array items).Within N (depth + 1) ↔ ∀ v ∈ items, v.Within N depth :=
  Iff.rfl

theorem Value.within_object {members : Members} :
    (Value.object members).Within N (depth + 1) ↔
      (Members.keys members).Nodup ∧ ∀ member ∈ members, member.2.Within N depth :=
  Iff.rfl

/-- An array takes a level for itself, and its items stay within the others. -/
theorem Value.Within.exists_items {items : List Value} (h : (Value.array items).Within N depth) :
    ∃ inner, depth = inner + 1 ∧ ∀ v ∈ items, v.Within N inner := by
  cases depth with
  | zero => exact h.elim
  | succ inner => exact ⟨inner, rfl, Value.within_array.1 h⟩

theorem Value.Within.exists_members {members : Members}
    (h : (Value.object members).Within N depth) :
    ∃ inner, depth = inner + 1 ∧ (Members.keys members).Nodup ∧
      ∀ member ∈ members, member.2.Within N inner := by
  cases depth with
  | zero => exact h.elim
  | succ inner => exact ⟨inner, rfl, Value.within_object.1 h⟩

end

/-- What can be held for a text with containers nested at most `depth` levels deep. -/
def Value.Stored (depth : Nat) (v : Value) : Prop := v.Within Number.Stored depth

/-- A condition holds of every number in a value. -/
def Value.AllNumbers (P : Number → Prop) (v : Value) : Prop :=
  ∀ position n, v.at? position = some (.number n) → P n

/-- Every number in a value is held as an integer. -/
def Value.AllIntegers (v : Value) : Prop :=
  ∀ position n, v.at? position = some (.number n) → ∃ i, n = .integer i

theorem stored_signedInteger (negative : Bool) {i : Nat} (h : i ≤ maxInteger) :
    (signedInteger negative i).Stored := by
  have hmax : maxInteger = 2 ^ 64 - 1 := rfl
  have hlow : Nat.pow 2 63 = 2 ^ 63 := rfl
  unfold signedInteger
  split
  · split
    · exact trivial
    · show -(2 ^ 63 : Int) ≤ -(i : Int) ∧ -(i : Int) < 2 ^ 64
      omega
  · show -(2 ^ 63 : Int) ≤ (i : Int) ∧ (i : Int) < 2 ^ 64
    omega

theorem stored_of_number? {l : Literal} {n : Number} (h : l.number? = some n) : n.Stored := by
  unfold Literal.number? at h
  split at h
  case h_1 hread =>
    injection h with h
    subst h
    rcases (exists_literal_of_readNumber hread).2 with ⟨x, rfl⟩ | ⟨i, hi, rfl⟩
    · exact trivial
    · exact stored_signedInteger _ hi
  case h_2 => cases h

/-- Every item or member between brackets is written somewhere. -/
theorem Enclosed.exists_text {α : Type} {P : α → List Char → Prop} {opening close : Char}
    {items : List α} {text : List Char} (h : Enclosed P opening close items text) :
    ∀ a ∈ items, ∃ text, P a text := by
  cases h with
  | empty => exact fun a ha => absurd ha List.not_mem_nil
  | filled _ h =>
    induction h with
    | last h =>
      intro a ha
      rw [List.mem_singleton.1 ha]
      exact ⟨_, h⟩
    | more h _ _ _ ih =>
      intro a ha
      rcases List.mem_cons.1 ha with rfl | ha
      · exact ⟨_, h⟩
      · exact ih a ha

theorem exists_of_itemValues? {items : List Source} {vs : List Value}
    (h : itemValues? items = some vs) : ∀ v ∈ vs, ∃ source ∈ items, source.value? = some v := by
  induction items generalizing vs with
  | nil =>
    injection h with h
    subst h
    exact fun v hv => absurd hv List.not_mem_nil
  | cons source sources ih =>
    rw [itemValues?] at h
    split at h
    case h_1 w ws hvalue hothers =>
      injection h with h
      subst h
      intro v hv
      rcases List.mem_cons.1 hv with rfl | hv
      · exact ⟨source, List.mem_cons_self, hvalue⟩
      · rcases ih hothers v hv with ⟨other, hmem, hother⟩
        exact ⟨other, List.mem_cons_of_mem _ hmem, hother⟩
    case h_2 => cases h

theorem exists_of_memberValues? {members : List (String × Source)}
    {pairs : List (String × Value)} (h : memberValues? members = some pairs) :
    ∀ pair ∈ pairs, ∃ source, (pair.1, source) ∈ members ∧ source.value? = some pair.2 := by
  induction members generalizing pairs with
  | nil =>
    injection h with h
    subst h
    exact fun v hv => absurd hv List.not_mem_nil
  | cons member members ih =>
    rcases member with ⟨key, source⟩
    rw [memberValues?] at h
    split at h
    case h_1 w ws hvalue hothers =>
      injection h with h
      subst h
      intro pair hpair
      rcases List.mem_cons.1 hpair with rfl | hpair
      · exact ⟨source, List.mem_cons_self, hvalue⟩
      · rcases ih hothers pair hpair with ⟨other, hmem, hother⟩
        exact ⟨other, List.mem_cons_of_mem _ hmem, hother⟩
    case h_2 => cases h

theorem stored_of_spells (depth : Nat) {source : Source} {text : List Char} {v : Value}
    (h : Spells depth source text) (hvalue : source.value? = some v) : v.Stored depth := by
  cases source with
  | null =>
    injection hvalue with hvalue
    subst hvalue
    exact Value.within_null
  | bool b =>
    injection hvalue with hvalue
    subst hvalue
    exact Value.within_bool
  | string s =>
    injection hvalue with hvalue
    subst hvalue
    exact Value.within_string
  | number l =>
    rw [Source.value?] at hvalue
    rcases Option.map_eq_some_iff.1 hvalue with ⟨n, hnumber, rfl⟩
    exact Value.within_number.2 (stored_of_number? hnumber)
  | array items =>
    rw [Source.value?] at hvalue
    rcases Option.map_eq_some_iff.1 hvalue with ⟨vs, hvalues, rfl⟩
    rcases spells_array.1 h with ⟨depth, rfl, henclosed⟩
    refine Value.within_array.2 fun v hv => ?_
    rcases exists_of_itemValues? hvalues v hv with ⟨source, hmem, hsource⟩
    rcases henclosed.exists_text source hmem with ⟨text, hspells⟩
    exact stored_of_spells depth hspells hsource
  | object members =>
    rw [Source.value?] at hvalue
    rcases Option.map_eq_some_iff.1 hvalue with ⟨pairs, hvalues, rfl⟩
    rcases spells_object.1 h with ⟨depth, rfl, henclosed⟩
    refine Value.within_object.2 ⟨nodup_keys_collectMembers pairs, fun member hmember => ?_⟩
    rcases exists_of_memberValues? hvalues member (mem_of_mem_collectMembers hmember) with
      ⟨source, hmem, hsource⟩
    rcases henclosed.exists_text _ hmem with ⟨text, hmemberText⟩
    cases hmemberText with
    | mk _ _ _ hspells => exact stored_of_spells depth hspells hsource
termination_by depth

/-- What is read from a text is stored. -/
theorem stored_of_readText {text : String} {v : Value} (h : readText text = .ok v) :
    v.Stored maxDepth := by
  rcases exists_spells_of_readText h with ⟨source, ⟨_, core, _, _, hspells, _⟩, hvalue⟩
  exact stored_of_spells maxDepth hspells hvalue

/-! ## All numbers -/

section

variable {P : Number → Prop}

theorem Value.AllNumbers.item {items : List Value} {v : Value}
    (h : (Value.array items).AllNumbers P) (hv : v ∈ items) : v.AllNumbers P := by
  intro position n hn
  rcases List.getElem?_of_mem hv with ⟨index, hindex⟩
  refine h (.item index :: position) n ?_
  rw [Value.at?, hindex]
  exact hn

theorem Value.AllNumbers.member {members : Members} {member : String × Value}
    (h : (Value.object members).AllNumbers P) (hkeys : (Members.keys members).Nodup)
    (hmember : member ∈ members) : member.2.AllNumbers P := by
  intro position n hn
  refine h (.member member.1 :: position) n ?_
  rw [Value.at?, Members.get?_of_mem hkeys hmember]
  exact hn

/-- What holds of the numbers at all positions holds of what is stored. -/
theorem within_of_allNumbers {N : Number → Prop} (depth : Nat) {v : Value} (h : v.Within N depth)
    (hnumbers : v.AllNumbers P) : v.Within (fun n => N n ∧ P n) depth := by
  cases v with
  | null => exact Value.within_null
  | bool b => exact Value.within_bool
  | string s => exact Value.within_string
  | number n => exact Value.within_number.2 ⟨Value.within_number.1 h, hnumbers [] n rfl⟩
  | array items =>
    rcases h.exists_items with ⟨inner, rfl, hitems⟩
    exact Value.within_array.2 fun v hv =>
      within_of_allNumbers inner (hitems v hv) (hnumbers.item hv)
  | object members =>
    rcases h.exists_members with ⟨inner, rfl, hkeys, hmembers⟩
    exact Value.within_object.2 ⟨hkeys, fun member hmember =>
      within_of_allNumbers inner (hmembers member hmember) (hnumbers.member hkeys hmember)⟩
termination_by depth

end

/-! ## Storing members -/

section

variable {N : Number → Prop} {depth : Nat}

theorem Value.Within.member {members : Members} {key : String} {v : Value}
    (h : (Value.object members).Within N (depth + 1)) (hv : Members.get? key members = some v) :
    v.Within N depth := by
  exact (Value.within_object.1 h).2 _ (Members.mem_of_get? hv)

theorem Value.Within.insert {members : Members} {v : Value} (key : String)
    (h : (Value.object members).Within N (depth + 1)) (hv : v.Within N depth) :
    (Value.object (Members.insert key v members)).Within N (depth + 1) := by
  rw [Value.within_object] at h ⊢
  refine ⟨Members.nodup_keys_insert v h.1, fun member hmember => ?_⟩
  rcases Members.mem_insert hmember with rfl | hmem
  · exact hv
  · exact h.2 member hmem

end

end WorkflowRepair.Json
