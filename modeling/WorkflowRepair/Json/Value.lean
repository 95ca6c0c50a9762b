/-!
# JSON values

Values as they stand in a document: an object is the list of its members in document order, and
a number remembers whether it was held as an integer or as a binary fraction.
-/

namespace WorkflowRepair.Json

/-- A number. Integers from `-2^63` to `2^64 - 1` are held exactly; every other number is held as
the nearest binary fraction the reader could form. -/
inductive Number where
  | integer (value : Int)
  | float (value : Float)
deriving Inhabited

/-- A JSON value. -/
inductive Value where
  | null
  | bool (value : Bool)
  | number (value : Number)
  | string (value : String)
  | array (items : List Value)
  | object (members : List (String × Value))
deriving Inhabited

/-- The members of an object, in document order. -/
abbrev Members := List (String × Value)

/-! ## Kinds -/

/-- The six kinds of value. -/
inductive Kind where
  | null
  | boolean
  | number
  | string
  | array
  | object
deriving DecidableEq, Repr

/-- The kind with its article, as messages name it. -/
def Kind.phrase : Kind → String
  | .null => "null"
  | .boolean => "a boolean"
  | .number => "a number"
  | .string => "a string"
  | .array => "an array"
  | .object => "an object"

namespace Value

/-- The kind of a value. -/
def kind : Value → Kind
  | .null => .null
  | .bool _ => .boolean
  | .number _ => .number
  | .string _ => .string
  | .array _ => .array
  | .object _ => .object

/-- The text of a string value. -/
def text? : Value → Option String
  | .string s => some s
  | _ => none

/-- A number value that holds a count. -/
def ofNat (n : Nat) : Value := .number (.integer n)

end Value

/-! ## Members -/

namespace Members

/-- The value stored under `key`. -/
def get? (key : String) : Members → Option Value
  | [] => none
  | (k, v) :: rest => if k = key then some v else get? key rest

/-- Whether some member is stored under `key`. -/
def contains (key : String) (members : Members) : Bool :=
  (get? key members).isSome

/-- Store `value` under `key`: a present key keeps its place, a new one goes last. -/
def insert (key : String) (value : Value) : Members → Members
  | [] => [(key, value)]
  | (k, v) :: rest => if k = key then (k, value) :: rest else (k, v) :: insert key value rest

/-- The keys in document order. -/
def keys (members : Members) : List String := members.map (·.1)

@[simp]
theorem get?_nil (key : String) : get? key [] = none := rfl

theorem get?_insert_self (key : String) (value : Value) (members : Members) :
    get? key (insert key value members) = some value := by
  induction members with
  | nil => simp [insert, get?]
  | cons head rest ih =>
    obtain ⟨k, v⟩ := head
    by_cases h : k = key <;> simp [insert, get?, h, ih]

theorem get?_insert_ne {key other : String} (value : Value) (members : Members)
    (h : other ≠ key) : get? other (insert key value members) = get? other members := by
  induction members with
  | nil => simp [insert, get?, Ne.symm h]
  | cons head rest ih =>
    obtain ⟨k, v⟩ := head
    by_cases hk : k = key
    · subst hk
      simp [insert, get?, Ne.symm h]
    · simp [insert, get?, hk, ih]

/-- Storing under a present key keeps the keys. -/
theorem keys_insert_of_contains {key : String} (value : Value) {members : Members}
    (h : contains key members = true) : keys (insert key value members) = keys members := by
  induction members with
  | nil => simp [contains] at h
  | cons head rest ih =>
    obtain ⟨k, v⟩ := head
    by_cases hk : k = key
    · simp [insert, keys, hk]
    · have hr : contains key rest = true := by simpa [contains, get?, hk] using h
      have := ih hr
      simp only [keys] at this
      simp [insert, keys, hk, this]

/-- Storing under an absent key appends one member. -/
theorem insert_of_not_contains {key : String} (value : Value) {members : Members}
    (h : contains key members = false) : insert key value members = members ++ [(key, value)] := by
  induction members with
  | nil => rfl
  | cons head rest ih =>
    obtain ⟨k, v⟩ := head
    by_cases hk : k = key
    · simp [contains, get?, hk] at h
    · have hr : contains key rest = false := by simpa [contains, get?, hk] using h
      simp [insert, hk, ih hr]

end Members

end WorkflowRepair.Json
