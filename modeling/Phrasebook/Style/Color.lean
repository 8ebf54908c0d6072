/-!
# Text colors

Sixteen colors have a name and a one-digit code, in the order of their codes; any other color is
given by its red, green and blue parts in one number.

## Main definitions

- `NamedColor` with `NamedColor.ofCode?`, `code`, `name` and `rgb`.
- `TextColor`, its 24-bit `value` and its text, which is the name or `#` and hexadecimal digits.
-/

namespace Phrasebook

/-- The colors with a one-digit code, in the order of their codes `0` to `f`. -/
inductive NamedColor where
  | black
  | darkBlue
  | darkGreen
  | darkAqua
  | darkRed
  | darkPurple
  | gold
  | gray
  | darkGray
  | blue
  | green
  | aqua
  | red
  | lightPurple
  | yellow
  | white
  deriving DecidableEq, Repr

/-- The value of a hexadecimal digit, in either case. -/
def hexDigitValue? (c : Char) : Option Nat :=
  if '0' ≤ c ∧ c ≤ '9' then some (c.toNat - '0'.toNat)
  else if 'a' ≤ c ∧ c ≤ 'f' then some (c.toNat - 'a'.toNat + 10)
  else if 'A' ≤ c ∧ c ≤ 'F' then some (c.toNat - 'A'.toNat + 10)
  else none

/-- The number written by hexadecimal digits, most significant first. -/
def hexValue? (digits : List Char) : Option Nat :=
  digits.foldl (fun value c => do
    let value ← value
    let digit ← hexDigitValue? c
    pure (16 * value + digit)) (some 0)

namespace NamedColor

/-- All named colors, in code order. -/
def all : List NamedColor :=
  [black, darkBlue, darkGreen, darkAqua, darkRed, darkPurple, gold, gray, darkGray, blue, green,
    aqua, red, lightPurple, yellow, white]

/-- The color of a code digit, in either case. -/
def ofCode? (code : Char) : Option NamedColor := do
  let index ← hexDigitValue? code
  all[index]?

/-- The code digit of a color, in lower case. -/
def code : NamedColor → Char
  | black => '0'
  | darkBlue => '1'
  | darkGreen => '2'
  | darkAqua => '3'
  | darkRed => '4'
  | darkPurple => '5'
  | gold => '6'
  | gray => '7'
  | darkGray => '8'
  | blue => '9'
  | green => 'a'
  | aqua => 'b'
  | red => 'c'
  | lightPurple => 'd'
  | yellow => 'e'
  | white => 'f'

/-- Red, green and blue in 24 bits. -/
def rgb : NamedColor → Nat
  | black => 0x000000
  | darkBlue => 0x0000AA
  | darkGreen => 0x00AA00
  | darkAqua => 0x00AAAA
  | darkRed => 0xAA0000
  | darkPurple => 0xAA00AA
  | gold => 0xFFAA00
  | gray => 0xAAAAAA
  | darkGray => 0x555555
  | blue => 0x5555FF
  | green => 0x55FF55
  | aqua => 0x55FFFF
  | red => 0xFF5555
  | lightPurple => 0xFF55FF
  | yellow => 0xFFFF55
  | white => 0xFFFFFF

/-- The name, with underscores between its words. -/
def name : NamedColor → String
  | black => "black"
  | darkBlue => "dark_blue"
  | darkGreen => "dark_green"
  | darkAqua => "dark_aqua"
  | darkRed => "dark_red"
  | darkPurple => "dark_purple"
  | gold => "gold"
  | gray => "gray"
  | darkGray => "dark_gray"
  | blue => "blue"
  | green => "green"
  | aqua => "aqua"
  | red => "red"
  | lightPurple => "light_purple"
  | yellow => "yellow"
  | white => "white"

/-- The color of a given name. -/
def ofName? (name : String) : Option NamedColor := all.find? fun color => color.name = name

@[simp]
theorem ofCode?_code (color : NamedColor) : ofCode? color.code = some color := by
  cases color <;> rfl

end NamedColor

/-- A color of text: a named one, or one given by a number whose low 24 bits are its red, green and
blue parts. -/
inductive TextColor where
  | named (color : NamedColor)
  | rgb (value : UInt32)
  deriving DecidableEq, Repr

namespace TextColor

/-- The color that the reset code selects. -/
def reset : TextColor := named .white

/-- Red, green and blue in 24 bits; higher bits of a number are dropped. -/
def value : TextColor → Nat
  | named color => color.rgb
  | rgb number => number.toNat % 0x1000000

/-- The hexadecimal digits of a number in lower case, at least `width` of them. -/
def hexDigits (width number : Nat) : List Char :=
  let digits := Nat.toDigits 16 number
  List.replicate (width - digits.length) '0' ++ digits

/-- The name of a named color; otherwise `#` and at least six hexadecimal digits. -/
def text : TextColor → String
  | named color => color.name
  | rgb number => String.ofList ('#' :: hexDigits 6 number.toNat)

end TextColor

end Phrasebook
