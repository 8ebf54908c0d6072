import Phrasebook.Dict
import Phrasebook.Number.Float

/-!
# Documents

A `Document` is the tree of values that a JSON or a TOML text writes.  The fields of a table stand
in the order in which they are written, repeated ones included.

## Main definitions

- `Document` with its `depth` and `isReadable`.
- `Document.leaves` are the texts in a tree of tables, each under its path of keys.

## Design notes

A JSON text may be well formed and still hold a part without a value: a string with half of a
surrogate pair, a number beyond all floating-point numbers, an object with such a key.  Such a part
is `unreadable`.  Whoever looks at it fails, and whoever passes over it does not.
-/

namespace Phrasebook

/-- A tree of values.  A `moment` is a date, a time or both. -/
inductive Document where
  | null
  | boolean (value : Bool)
  | integer (value : Int)
  | float (value : Number.BinaryFloat)
  | text (value : String)
  | moment
  | list (items : List Document)
  | table (fields : List (String × Document))
  | unreadable

namespace Document

instance : Inhabited Document := ⟨null⟩

mutual

/-- The number of lists and tables around the innermost part of a tree. -/
def depth : Document → Nat
  | .list items => depthOfItems items + 1
  | .table fields => depthOfFields fields + 1
  | _ => 0
termination_by structural document => document

/-- The largest depth among the items of a list. -/
def depthOfItems : List Document → Nat
  | [] => 0
  | item :: rest => max (depth item) (depthOfItems rest)
termination_by structural items => items

/-- The largest depth among the fields of a table. -/
def depthOfFields : List (String × Document) → Nat
  | [] => 0
  | field :: rest => max (depthOfField field) (depthOfFields rest)
termination_by structural fields => fields

/-- The depth of the value of a field. -/
def depthOfField : String × Document → Nat
  | (_, value) => depth value
termination_by structural field => field

end

mutual

/-- Whether every part of a tree has a value. -/
def isReadable : Document → Bool
  | .unreadable => false
  | .list items => isReadableItems items
  | .table fields => isReadableFields fields
  | _ => true
termination_by structural document => document

/-- Whether every part of the items of a list has a value. -/
def isReadableItems : List Document → Bool
  | [] => true
  | item :: rest => isReadable item && isReadableItems rest
termination_by structural items => items

/-- Whether every part of the fields of a table has a value. -/
def isReadableFields : List (String × Document) → Bool
  | [] => true
  | field :: rest => isReadableField field && isReadableFields rest
termination_by structural fields => fields

/-- Whether every part of the value of a field has a value. -/
def isReadableField : String × Document → Bool
  | (_, value) => isReadable value
termination_by structural field => field

end

/-- The path of a key below a path. -/
def pathBelow (path : Option String) (key : String) : String :=
  match path with
  | none => key
  | some above => above ++ "." ++ key

/-- The order of named parts by name. -/
def nameLe {α : Type} (a b : String × α) : Bool := a.1 ≤ b.1

/-- Named parts in the order of their names; of parts of one name the last. -/
def arrange {α : Type} (parts : List (String × α)) : List (String × α) :=
  (Dict.ofList parts).entries.mergeSort nameLe

mutual

/-- The texts of a tree of tables by path, below a path.  A path is the keys on the way with dots in
between.  The fields of a table come in the order of their keys, and of repeated ones the last;
values that are neither texts nor tables are left out, and so is a text without a path. -/
def leaves (path : Option String) : Document → List (String × String)
  | .text value =>
    match path with
    | none => []
    | some name => [(name, value)]
  | .table fields => (arrange (leavesOfFields path fields)).flatMap Prod.snd
  | _ => []
termination_by structural document => document

/-- The texts below each field of a table, by key. -/
def leavesOfFields (path : Option String) :
    List (String × Document) → List (String × List (String × String))
  | [] => []
  | field :: rest => leavesOfField path field :: leavesOfFields path rest
termination_by structural fields => fields

/-- The texts below a field, with its key. -/
def leavesOfField (path : Option String) :
    String × Document → String × List (String × String)
  | (key, value) => (key, leaves (some (pathBelow path key)) value)
termination_by structural field => field

end

/-- The messages of a tree: its texts by path; of two texts under one path the last. -/
def messages (document : Document) : Dict String String := Dict.ofList (document.leaves none)

end Document

end Phrasebook
