import Phrasebook.Text.Inspect

/-!
# Text decorations

Five decorations, each with a one-letter code from `k` to `o`, and sets of them.

## Main definitions

- `Decoration` with `Decoration.ofCode?`, `code` and `name`.
- `Decorations` is a set: one flag per decoration, so two sets with the same members are equal.
-/

namespace Phrasebook

/-- The decorations, in the order of their codes `k` to `o`. -/
inductive Decoration where
  | obfuscated
  | bold
  | strikethrough
  | underlined
  | italic
  deriving DecidableEq, Repr

namespace Decoration

/-- All decorations, in code order. -/
def all : List Decoration := [obfuscated, bold, strikethrough, underlined, italic]

/-- The code letter of a decoration, in lower case. -/
def code : Decoration → Char
  | obfuscated => 'k'
  | bold => 'l'
  | strikethrough => 'm'
  | underlined => 'n'
  | italic => 'o'

/-- The name of a decoration, in lower case. -/
def name : Decoration → String
  | obfuscated => "obfuscated"
  | bold => "bold"
  | strikethrough => "strikethrough"
  | underlined => "underlined"
  | italic => "italic"

/-- The name of a decoration as a title. -/
def title : Decoration → String
  | obfuscated => "Obfuscated"
  | bold => "Bold"
  | strikethrough => "Strikethrough"
  | underlined => "Underlined"
  | italic => "Italic"

/-- The decoration of a code letter; the case of ASCII letters does not matter. -/
def ofCode? (letter : Char) : Option Decoration :=
  all.find? fun decoration => decoration.code = letter.toLower

/-- The decoration of a given name. -/
def ofName? (name : String) : Option Decoration :=
  all.find? fun decoration => decoration.name = name

@[simp]
theorem ofCode?_code (decoration : Decoration) : ofCode? decoration.code = some decoration := by
  cases decoration <;> rfl

end Decoration

/-- A set of decorations. -/
structure Decorations where
  obfuscated : Bool := false
  bold : Bool := false
  strikethrough : Bool := false
  underlined : Bool := false
  italic : Bool := false
  deriving DecidableEq, Repr

namespace Decorations

/-- The set without members. -/
def empty : Decorations := {}

/-- Whether a decoration is a member. -/
def contains (set : Decorations) : Decoration → Bool
  | .obfuscated => set.obfuscated
  | .bold => set.bold
  | .strikethrough => set.strikethrough
  | .underlined => set.underlined
  | .italic => set.italic

/-- Makes a decoration a member or not. -/
def put (set : Decorations) (decoration : Decoration) (member : Bool) : Decorations :=
  match decoration with
  | .obfuscated => { set with obfuscated := member }
  | .bold => { set with bold := member }
  | .strikethrough => { set with strikethrough := member }
  | .underlined => { set with underlined := member }
  | .italic => { set with italic := member }

/-- Adds a decoration. -/
def insert (set : Decorations) (decoration : Decoration) : Decorations := set.put decoration true

/-- Takes a decoration away. -/
def erase (set : Decorations) (decoration : Decoration) : Decorations := set.put decoration false

/-- The members, in code order. -/
def toList (set : Decorations) : List Decoration := Decoration.all.filter set.contains

/-- Whether there is no member. -/
def isEmpty (set : Decorations) : Bool := set = empty

/-- The set of the decorations of a list. -/
def ofList (decorations : List Decoration) : Decorations := decorations.foldl insert empty

/-- The titles of the members in braces. -/
def describe (set : Decorations) : String := Text.set (set.toList.map Decoration.title)

@[simp]
theorem contains_empty (decoration : Decoration) : empty.contains decoration = false := by
  cases decoration <;> rfl

theorem contains_put (set : Decorations) (decoration : Decoration) (member : Bool)
    (other : Decoration) :
    (set.put decoration member).contains other =
      if other = decoration then member else set.contains other := by
  cases decoration <;> cases other <;> rfl

theorem contains_insert (set : Decorations) (decoration other : Decoration) :
    (set.insert decoration).contains other =
      (decide (other = decoration) || set.contains other) := by
  rw [insert, contains_put]
  by_cases h : other = decoration <;> simp [h]

end Decorations

end Phrasebook
