import Phrasebook.Number.Float
import Phrasebook.RichText

/-!
# Values with an exact kind

A value that is put into a message has a kind, and its kind decides which formatter applies to it.
Kinds are exact: an eight-bit number is of another kind than a sixteen-bit number, and a fixed text
is of another kind than a text made while running.

## Main definitions

- `Kind` names the kinds and `Kind.Carrier` gives the values of one.
- `Kind.textOf` writes a value, `Kind.read?` reads one.
- `Value` is a value together with its kind; `Value.as?` asks whether it is of a given one.
-/

namespace Phrasebook

/-- The sizes of whole numbers, in bits. -/
inductive Width where
  | w8
  | w16
  | w32
  | w64
  | w128
  deriving DecidableEq, Repr

namespace Width

/-- The number of bits of a width. -/
def bits : Width → Nat
  | w8 => 8
  | w16 => 16
  | w32 => 32
  | w64 => 64
  | w128 => 128

/-- The number of values of a width. -/
def values (width : Width) : Nat := Nat.pow 2 width.bits

/-- Half the number of values of a width: that many numbers with a sign are negative. -/
def half (width : Width) : Nat := Nat.pow 2 (width.bits - 1)

end Width

/-- The kinds of values.  `text` is a text made while running and `fixedText` one that is part of
the program; a `rank` is a place in an order, written after a number sign. -/
inductive Kind where
  | boolean
  | signed (width : Width)
  | unsigned (width : Width)
  | single
  | double
  | character
  | text
  | fixedText
  | rank
  | rich
  deriving DecidableEq, Repr

namespace Kind

/-- The values of a kind. -/
abbrev Carrier : Kind → Type
  | boolean => Bool
  | signed width => { n : Int // -Int.ofNat width.half ≤ n ∧ n < Int.ofNat width.half }
  | unsigned width => Fin width.values
  | single => Number.BinaryFloat
  | double => Number.BinaryFloat
  | character => Char
  | text => String
  | fixedText => String
  | rank => Fin 256
  | rich => RichText

/-- The text of a value of a kind. -/
def textOf : (kind : Kind) → kind.Carrier → String
  | boolean, value => cond value "true" "false"
  | signed _, value => toString value.val
  | unsigned _, value => toString value.val
  | single, value => Number.BinaryFloat.text .single value
  | double, value => Number.BinaryFloat.text .double value
  | character, value => String.singleton value
  | text, value => value
  | fixedText, value => value
  | rank, value => "#" ++ toString value.val
  | rich, value => RichText.plainText value

/-- Reads a value of a kind.  Rich text has no written form. -/
def read? (kind : Kind) (written : String) : Option kind.Carrier :=
  match kind with
  | boolean =>
    if written = "true" then some true else if written = "false" then some false else none
  | signed width =>
    match Number.readInteger (width.half - 1) written.toList with
    | .ok n =>
      if h : -Int.ofNat width.half ≤ n ∧ n < Int.ofNat width.half then some ⟨n, h⟩ else none
    | .error _ => none
  | unsigned width =>
    match Number.readNatural (width.values - 1) written.toList with
    | .ok n => if h : n < width.values then some ⟨n, h⟩ else none
    | .error _ => none
  | single => Number.read? .single written.toList
  | double => Number.read? .double written.toList
  | character =>
    match written.toList with
    | [c] => some c
    | _ => none
  | text => some written
  | fixedText => some written
  | rank =>
    match Number.readNatural 255 written.toList with
    | .ok n => if h : n < 256 then some ⟨n, h⟩ else none
    | .error _ => none
  | rich => none

end Kind

/-- A value together with its kind. -/
structure Value where
  kind : Kind
  datum : kind.Carrier

namespace Value

/-- The text of a value. -/
def text (value : Value) : String := value.kind.textOf value.datum

/-- What is in a value, if it is of exactly the given kind. -/
def as? (value : Value) (kind : Kind) : Option kind.Carrier :=
  if h : value.kind = kind then some (h ▸ value.datum) else none

@[simp]
theorem as?_kind (value : Value) : value.as? value.kind = some value.datum := dif_pos rfl

end Value

end Phrasebook
