import Phrasebook.Document.Basic

/-!
# Records and choices in documents

A record may be written as a table of its fields by name, or as a list of its fields in order.  Of a
table, fields that the record does not have are passed over.  Of a list, fields at the end may be
left out.

A choice between names is written as the name, or as a table of one field under that name.

## Main definitions

- `Dialect` says which notation a document is from; the two differ in small things.
- `Document.record?` gives the fields of a record, and `Document.choice?` the name of a choice.
- `asText?`, `asBoolean?`, `asWord?`, `asList?` and `asOptional?` read the value of a field.
-/

namespace Phrasebook

/-- The notation of a document. -/
inductive Dialect where
  | json
  | toml
  deriving DecidableEq, Repr

namespace Document

/-- The fields that are written, by name.  The `names` are those of the record, in order.  No name
of the record may be repeated.  A JSON list may not be longer than the record; what a TOML list
has beyond it is passed over.  A date is a table without fields of the record. -/
def record? (dialect : Dialect) (names : List String) : Document → Option (Dict String Document)
  | .table fields =>
    let known := fields.filter fun field => decide (field.1 ∈ names)
    if (known.map Prod.fst).Nodup then some (Dict.ofList known) else none
  | .list items =>
    if dialect = .json ∧ names.length < items.length then none
    else some (Dict.ofList (names.zip items))
  | .moment => some Dict.empty
  | _ => none

/-- Whether a value may stand beside the name of a choice: in JSON only nothing at all, in TOML an
empty table or list. -/
def isEmptyPayload (dialect : Dialect) (payload : Document) : Bool :=
  match dialect, payload with
  | .json, .null => true
  | .toml, .table [] => true
  | .toml, .list [] => true
  | _, _ => false

/-- The name of a choice. -/
def choice? (dialect : Dialect) : Document → Option String
  | .text name => some name
  | .table [(name, payload)] => if isEmptyPayload dialect payload then some name else none
  | _ => none

/-- A text. -/
def asText? : Document → Option String
  | .text value => some value
  | _ => none

/-- A truth value. -/
def asBoolean? : Document → Option Bool
  | .boolean value => some value
  | _ => none

/-- A whole number of 64 bits without a sign. -/
def asWord? : Document → Option UInt64
  | .integer value =>
    if 0 ≤ value ∧ value < 0x10000000000000000 then some (UInt64.ofNat value.toNat) else none
  | _ => none

/-- A list whose items are read one by one. -/
def asList? {α : Type} (read : Document → Option α) : Document → Option (List α)
  | .list items => items.mapM read
  | _ => none

/-- A value or nothing. -/
def asOptional? {α : Type} (read : Document → Option α) : Document → Option (Option α)
  | .null => some none
  | value => (read value).map some

/-- Reads a field that has to be there. -/
def required {α : Type} (fields : Dict String Document) (name : String)
    (read : Document → Option α) : Option α :=
  (fields.get? name).bind read

/-- Reads a field; `standard` stands for one that is left out. -/
def optional {α : Type} (fields : Dict String Document) (name : String) (standard : α)
    (read : Document → Option α) : Option α :=
  match fields.get? name with
  | none => some standard
  | some value => read value

/-- The field of a value that may be nothing; nothing is left out. -/
def fieldOf {α : Type} (name : String) (write : α → Document) : Option α → List (String × Document)
  | none => []
  | some value => [(name, write value)]

end Document

end Phrasebook
