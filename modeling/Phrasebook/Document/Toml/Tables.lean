import Phrasebook.Document.Basic

/-!
# Putting TOML tables together

A TOML text names the place of every value by a path of keys.  A table may come about in three ways,
and these decide what may be added to it later.

## Main definitions

- `Node` is a value, a table or a list of tables that is being put together; `Origin` says how a
  table came about.
- `assign?` puts a value at a path inside a table.
- `openTable?` and `openListTable?` put the table of a header into the whole.
- `Node.document` is the finished tree.
-/

namespace Phrasebook.Toml

/-- How a table came about: by a header of its own, on the way of another header, or on the way of a
key with dots. -/
inductive Origin where
  | header
  | passed
  | dotted
  deriving DecidableEq, Repr

/-- A part of a tree that is being put together.  Of a list of tables, the last is still open. -/
inductive Node where
  | value (document : Document)
  | table (origin : Origin) (fields : List (String × Node))
  | tables (earlier : List (List (String × Node))) (last : List (String × Node))

/-- The fields of a table that is being put together. -/
abbrev Fields := List (String × Node)

namespace Fields

/-- The part under a name. -/
def get? (fields : Fields) (name : String) : Option Node :=
  Dict.lookup name fields

/-- Puts a part under a name. -/
def put (fields : Fields) (name : String) (node : Node) : Fields :=
  Dict.bindIn name node fields

end Fields

/-- A path of keys: those on the way and the last one. -/
structure KeyPath where
  above : List String
  name : String

/-- Puts a value under a path of keys with dots between them.  Tables on the way are made if they
are missing.  The way may not lead through tables with a header of their own, and the last table
on it has to have come about by keys with dots. -/
def assign? (fields : Fields) (name : String) (value : Document) : List String → Option Fields
  | [] => if (fields.get? name).isSome then none else some (fields.put name (.value value))
  | key :: rest =>
    match fields.get? key with
    | none => do
      let inner ← assign? [] name value rest
      pure (fields.put key (.table .dotted inner))
    | some (.table .dotted inner) => do
      let inner ← assign? inner name value rest
      pure (fields.put key (.table .dotted inner))
    | some (.table .passed inner) =>
      if rest = [] then none
      else do
        let inner ← assign? inner name value rest
        pure (fields.put key (.table .passed inner))
    | some (.tables earlier last) =>
      if rest = [] then none
      else do
        let last ← assign? last name value rest
        pure (fields.put key (.tables earlier last))
    | some (.table .header _) => none
    | some (.value _) => none

/-- Puts values under paths in turn. -/
def assignAll? (fields : Fields) (values : List (KeyPath × Document)) : Option Fields :=
  values.foldlM (fun fields entry => assign? fields entry.1.name entry.2 entry.1.above) fields

/-- Changes the table to which the way of a header leads.  Tables on the way are made if they are
missing; of a list of tables the way leads through the last. -/
def descend? (change : Fields → Option Fields) : List String → Fields → Option Fields
  | [], fields => change fields
  | key :: rest, fields =>
    match fields.get? key with
    | none => do
      let inner ← descend? change rest []
      pure (fields.put key (.table .passed inner))
    | some (.table origin inner) => do
      let inner ← descend? change rest inner
      pure (fields.put key (.table origin inner))
    | some (.tables earlier last) => do
      let last ← descend? change rest last
      pure (fields.put key (.tables earlier last))
    | some (.value _) => none

/-- Puts the table of a header in place.  There may be no such table yet, unless one came about on
the way of another header. -/
def openTable? (path : KeyPath) (values : List (KeyPath × Document)) (root : Fields) :
    Option Fields :=
  let change (parent : Fields) : Option Fields := do
    let inner ← match parent.get? path.name with
      | none => some []
      | some (.table .passed inner) => some inner
      | some _ => none
    pure (parent.put path.name (.table .header (← assignAll? inner values)))
  descend? change path.above root

/-- Adds a table to the list of tables of a header. -/
def openListTable? (path : KeyPath) (values : List (KeyPath × Document)) (root : Fields) :
    Option Fields :=
  let change (parent : Fields) : Option Fields := do
    let earlier ← match parent.get? path.name with
      | none => some []
      | some (.tables earlier last) => some (earlier ++ [last])
      | some _ => none
    pure (parent.put path.name (.tables earlier (← assignAll? [] values)))
  descend? change path.above root

mutual

/-- The finished tree of a part. -/
def Node.document : Node → Document
  | .value document => document
  | .table _ fields => .table (documentsOf fields)
  | .tables earlier last => .list (tablesOf earlier ++ [.table (documentsOf last)])
termination_by structural node => node

/-- The finished fields of a table. -/
def documentsOf : List (String × Node) → List (String × Document)
  | [] => []
  | field :: rest => documentOf field :: documentsOf rest
termination_by structural fields => fields

/-- A finished field. -/
def documentOf : String × Node → String × Document
  | (name, node) => (name, node.document)
termination_by structural field => field

/-- The finished tables of a list. -/
def tablesOf : List (List (String × Node)) → List Document
  | [] => []
  | fields :: rest => .table (documentsOf fields) :: tablesOf rest
termination_by structural tables => tables

end

end Phrasebook.Toml
