import WorkflowRepair.Toml.Value

/-!
# Sections

A section groups texts under keys. It is written as a table, or as an array in which the texts stand
in the order of their keys; a date in its place is an empty section. Keys that nobody asks for, and
items behind the last one, are passed over.
-/

namespace WorkflowRepair.Toml

/-- A section. -/
inductive Section where
  | named (members : Table)
  | listed (items : List Value)

namespace Section

/-- The section that a value is, if it can be one. -/
def ofValue? : Value → Option Section
  | .table members => some (.named members)
  | .array items => some (.listed items)
  | .dateTime => some (.named [])
  | _ => none

/-- The section under a key of a table; a missing one is empty. -/
def ofTable? (key : String) (table : Table) : Option Section :=
  match table.get? key with
  | none => some (.named [])
  | some v => ofValue? v

/-- The value under a key whose place among the keys is `position`. -/
def get? (key : String) (position : Nat) : Section → Option Value
  | .named members => members.get? key
  | .listed items => items[position]?

/-- The text under a key, `default` if it is missing. None if another value stands there. -/
def text? (key : String) (position : Nat) (default : String) (group : Section) : Option String :=
  match group.get? key position with
  | none => some default
  | some (.string text) => some text
  | some _ => none

end Section

end WorkflowRepair.Toml
