/-!
# Configuration values

The values of a TOML text. Of numbers and truth values only the kind is kept: nothing reads more of
them.
-/

namespace WorkflowRepair.Toml

/-- The kinds of value that are kept as a kind only. -/
inductive Scalar where
  | integer
  | float
  | boolean
deriving DecidableEq, Repr

/-- A value. -/
inductive Value where
  | string (text : String)
  | scalar (kind : Scalar)
  /-- A date, a time of day, or both. -/
  | dateTime
  | array (items : List Value)
  | table (members : List (String × Value))
deriving Inhabited

/-- The members of a table. -/
abbrev Table := List (String × Value)

/-- The value under a key. -/
def Table.get? (key : String) : Table → Option Value
  | [] => none
  | (k, v) :: rest => if k = key then some v else get? key rest

end WorkflowRepair.Toml
