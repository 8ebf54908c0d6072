import Phrasebook.RichText

/-!
# Formatting codes

A formatting code changes the style of the text after it.  It follows one of two introducers and is
a letter, a digit, or `#` and six hexadecimal digits.  Letters and digits may be in either ASCII
case.

## Main definitions

- `Code` is a formatting code as it is written, `Code.source` its characters and `Code.read?` the
  reader of one after an introducer.
- `Pen` is the style in effect while a template is read; `Pen.apply` is what a code does to it.
-/

namespace Phrasebook.Template

/-- A formatting code as it is written after its introducer. -/
inductive Code where
  | decoration (letter : Char)
  | reset (letter : Char)
  | color (digit : Char)
  | hex (digits : List Char)
  deriving DecidableEq, Repr

/-- The characters that introduce a formatting code. -/
def isIntroducer (c : Char) : Bool := c = '&' || c = '§'

/-- The letters that add a decoration. -/
def isDecorationLetter (c : Char) : Bool := ('k' ≤ c && c ≤ 'o') || ('K' ≤ c && c ≤ 'O')

/-- The letters that reset the style. -/
def isResetLetter (c : Char) : Bool := c = 'r' || c = 'R'

/-- The hexadecimal digits, which select a color. -/
def isHexDigit (c : Char) : Bool :=
  ('0' ≤ c && c ≤ '9') || ('a' ≤ c && c ≤ 'f') || ('A' ≤ c && c ≤ 'F')

namespace Code

/-- The number of hexadecimal digits of a color. -/
def hexLength : Nat := 6

/-- The characters of a code, without its introducer. -/
def source : Code → List Char
  | decoration letter => [letter]
  | reset letter => [letter]
  | color digit => [digit]
  | hex digits => '#' :: digits

/-- Reads a code at the start of a text, and what follows it. -/
def read? : List Char → Option (Code × List Char)
  | [] => none
  | c :: rest =>
    if isDecorationLetter c then some (decoration c, rest)
    else if isResetLetter c then some (reset c, rest)
    else if isHexDigit c then some (color c, rest)
    else if c = '#' ∧ (rest.take hexLength).length = hexLength ∧
        (rest.take hexLength).all isHexDigit then
      some (hex (rest.take hexLength), rest.drop hexLength)
    else none

/-- A code that is read and what follows it make up the text. -/
theorem source_append_of_read? {text after : List Char} {code : Code}
    (h : read? text = some (code, after)) : code.source ++ after = text := by
  cases text with
  | nil => cases h
  | cons c rest =>
    simp only [read?] at h
    split at h
    · cases h
      rfl
    · split at h
      · cases h
        rfl
      · split at h
        · cases h
          rfl
        · split at h
          · rename_i hash
            cases h
            rw [source, hash.1, List.cons_append, List.take_append_drop]
          · cases h

theorem length_lt_of_read? {text after : List Char} {code : Code}
    (h : read? text = some (code, after)) : after.length < text.length := by
  rw [← source_append_of_read? h, List.length_append]
  have : 0 < code.source.length := by
    cases code <;> simp [source]
  omega

end Code

/-- The style in effect while a template is read. -/
structure Pen where
  color : Option TextColor := none
  decorations : Decorations := {}
  deriving DecidableEq, Repr

namespace Pen

/-- The style of text written with a pen. -/
def style (pen : Pen) : Style := Style.colored pen.color pen.decorations

/-- What a code does to a pen: a decoration is added; a color clears the decorations, and so does a
reset, which selects the reset color.  There is no answer for a letter without a decoration or a
color and for digits without a value. -/
def after? (pen : Pen) : Code → Option Pen
  | .decoration letter =>
    (Decoration.ofCode? letter).map fun decoration =>
      { pen with decorations := pen.decorations.insert decoration }
  | .reset _ => some { color := some .reset }
  | .color digit => (NamedColor.ofCode? digit).map fun color => { color := some (.named color) }
  | .hex digits => (hexValue? digits).map fun value => { color := some (.rgb value.toUInt32) }

/-- The pen after a code; a code without a meaning leaves it alone. -/
def apply (pen : Pen) (code : Code) : Pen := (pen.after? code).getD pen

end Pen

end Phrasebook.Template
