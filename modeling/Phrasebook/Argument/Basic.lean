import Phrasebook.Argument.Value
import Phrasebook.Dict

/-!
# Arguments of a message

Arguments bind names to what is put into a message in their place.  They keep the order in which the
names were first bound; it settles which of two placeholders that begin at the same position of a
plain message is taken.

## Main definitions

- `Argument` is nothing, a rich text, or a value.
- `Arguments` are the bindings, with `bind`, `ofPairs` and `ofUnordered`.
-/

namespace Phrasebook

/-- What is put into a message. -/
inductive Argument where
  | null
  | rich (text : RichText)
  | value (v : Value)

namespace Argument

/-- A value as an argument; a rich text is put in as such. -/
def ofValue : Value → Argument
  | ⟨.rich, text⟩ => rich text
  | other => value other

/-- The text of an argument where no formatter applies. -/
def plainText : Argument → String
  | null => "null"
  | rich text => text.plainText
  | value v => v.text

/-- Whether an argument is nothing. -/
def isNull : Argument → Bool
  | null => true
  | _ => false

end Argument

/-- The arguments of a message, in the order in which their names were first bound. -/
abbrev Arguments := Dict String Argument

namespace Arguments

/-- Binds a name and answers what it was bound to before. -/
def bind (arguments : Arguments) (name : String) (argument : Argument) :
    Option Argument × Arguments :=
  (arguments.get? name, arguments.insert name argument)

/-- Binds names given in turn with their arguments; a name is the text of an argument.  A last name
without an argument is bound to nothing. -/
def bindPairs (arguments : Arguments) : List Argument → Arguments
  | [] => arguments
  | [name] => arguments.insert name.plainText .null
  | name :: argument :: rest => bindPairs (arguments.insert name.plainText argument) rest

/-- The arguments given as a list of names and arguments in turn. -/
def ofPairs (pairs : List Argument) : Arguments := bindPairs Dict.empty pairs

/-- The order of bindings by name. -/
def nameLe (a b : String × Argument) : Bool := a.1 ≤ b.1

/-- The arguments of bindings without an order of their own: ordered by name. -/
def ofUnordered (bindings : Dict String Argument) : Arguments where
  entries := bindings.entries.mergeSort nameLe
  nodup := ((List.mergeSort_perm bindings.entries nameLe).map Prod.fst).nodup_iff.2 bindings.nodup

end Arguments

end Phrasebook
