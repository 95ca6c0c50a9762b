import WorkflowRepair.Toml.Value

/-!
# Tables under construction

The statements of a TOML text fill tables that other statements have begun. Which statement may add
to which table depends on how the table came about: a header, a dotted key, or only the way to
another table.
-/

namespace WorkflowRepair.Toml

/-- How a table came about. -/
inductive Origin where
  /-- By a header of its own. -/
  | header
  /-- By dotted keys. -/
  | dotted
  /-- On the way to the table of a header. -/
  | way
deriving DecidableEq, Repr

mutual

/-- A table under construction. -/
inductive Draft where
  | mk (origin : Origin) (entries : List (String × Entry))

/-- What stands under a key of such a table. -/
inductive Entry where
  /-- A value that is complete. -/
  | value (value : Value)
  | table (draft : Draft)
  /-- Tables under one header; new statements go to the last one. -/
  | tables (earlier : List Draft) (last : Draft)

end

namespace Draft

/-- How the table came about. -/
def origin : Draft → Origin
  | .mk origin _ => origin

/-- The entries of the table. -/
def entries : Draft → List (String × Entry)
  | .mk _ entries => entries

/-- A table with nothing in it. -/
def empty (origin : Origin) : Draft := .mk origin []

/-- The entry under a key. -/
def get? (key : String) (draft : Draft) : Option Entry :=
  (draft.entries.find? (·.1 == key)).map (·.2)

/-- The table with an entry put under a key. A new key goes last. -/
def put (key : String) (entry : Entry) (draft : Draft) : Draft :=
  if (draft.get? key).isSome then
    .mk draft.origin (draft.entries.map fun (k, e) => (k, if k == key then entry else e))
  else .mk draft.origin (draft.entries ++ [(key, entry)])

/-- Change the table at the end of a path. Missing tables on the way are begun with `origin`. Dotted
keys do not lead through the table of a header, and nothing leads through a value. -/
def change (origin : Origin) (f : Draft → Option Draft) : List String → Draft → Option Draft
  | [], draft => f draft
  | key :: path, draft =>
    match draft.get? key with
    | none => ((empty origin).change origin f path).map fun t => draft.put key (.table t)
    | some (.value _) => none
    | some (.table t) =>
      if origin = .dotted ∧ t.origin = .header then none
      else (t.change origin f path).map fun t => draft.put key (.table t)
    | some (.tables earlier last) =>
      (last.change origin f path).map fun t => draft.put key (.tables earlier t)

/-- Begin the table of a header. It may exist so far only as the way to another table. -/
def openTable (key : String) (draft : Draft) : Option Draft :=
  match draft.get? key with
  | none => some (draft.put key (.table (empty .header)))
  | some (.table (.mk .way entries)) => some (draft.put key (.table (.mk .header entries)))
  | _ => none

/-- Begin one more table of a header that stands for several. -/
def openNext (key : String) (draft : Draft) : Option Draft :=
  match draft.get? key with
  | none => some (draft.put key (.tables [] (empty .header)))
  | some (.tables earlier last) =>
    some (draft.put key (.tables (earlier ++ [last]) (empty .header)))
  | _ => none

/-- Store a value under a key that is free. Behind a dotted path only a table of dotted keys takes
it. -/
def store (isDotted : Bool) (key : String) (value : Value) (draft : Draft) : Option Draft :=
  if (draft.origin == .dotted) == isDotted && (draft.get? key).isNone then
    some (draft.put key (.value value))
  else none

/-- Store a value under a dotted key. -/
def assign (path : List String) (value : Value) (draft : Draft) : Option Draft :=
  match path.getLast? with
  | none => none
  | some key => draft.change .dotted (store (1 < path.length) key value) path.dropLast

end Draft

mutual

/-- The table that a draft has become. -/
def Draft.members : Draft → Table
  | .mk _ entries => entriesMembers entries

/-- The members that entries have become. -/
def entriesMembers : List (String × Entry) → Table
  | [] => []
  | (key, entry) :: rest => (key, entry.finish) :: entriesMembers rest

/-- The value that an entry has become. -/
def Entry.finish : Entry → Value
  | .value value => value
  | .table draft => .table draft.members
  | .tables earlier last => .array (draftsFinish earlier ++ [.table last.members])

/-- The values that drafts have become. -/
def draftsFinish : List Draft → List Value
  | [] => []
  | draft :: rest => .table draft.members :: draftsFinish rest

end

end WorkflowRepair.Toml
