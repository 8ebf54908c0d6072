import Phrasebook.Document.Basic
import Phrasebook.Style.Color
import Phrasebook.Text.Reader

/-!
# Scalar values of TOML texts

Strings, numbers, dates and truth values, as TOML 1.0 writes them.

## Main definitions

- `basicString` and `literalString` are strings in one line, `longBasicString` and
  `longLiteralString` those over several lines; `string` is any of them.
- `moment`, `float` and `integer` begin with a sign or a digit.
- `scalar` is any of these values.

## Design notes

Reading is by trial: a shorter reading is taken where a longer one fails, and what is left over is
then refused by whoever reads on.
-/

namespace Phrasebook.Toml

open Text Text.Reader

/-- A line end. -/
def newline : Reader Unit := exactly '\n' <|> literal ['\r', '\n']

/-- Spaces and tabs. -/
def isBlank (c : Char) : Bool := c = ' ' || c = '\t'

/-- Skips spaces and tabs. -/
def skipBlanks : Reader Unit := do
  let _ ← takeWhile isBlank

/-- The characters that may stand in strings and comments as they are: all but line ends and other
control characters. -/
def isPlain (c : Char) : Bool := c = '\t' || (0x20 ≤ c.toNat && c.toNat ≤ 0x7E) || 0x80 ≤ c.toNat

/-- The characters of a basic string that stand for themselves. -/
def isBasic (c : Char) : Bool := isPlain c && c ≠ '"' && c ≠ '\\'

/-- The characters of a literal string. -/
def isLiteral (c : Char) : Bool := isPlain c && c ≠ '\''

/-- A character given by a number of hexadecimal digits. -/
def scalarValue (digits : Nat) : Reader Char := do
  let written ← takeExactly (fun c => (hexDigitValue? c).isSome) digits
  match hexValue? written with
  | some value =>
    if value < 0xD800 ∨ (0xE000 ≤ value ∧ value < 0x110000) then pure (Char.ofNat value)
    else failure
  | none => failure

/-- An escaped character. -/
def escaped : Reader Char := do
  exactly '\\'
  let c ← next
  if c = '"' ∨ c = '\\' then pure c
  else if c = 'b' then pure '\x08'
  else if c = 't' then pure '\t'
  else if c = 'n' then pure '\n'
  else if c = 'f' then pure '\x0c'
  else if c = 'r' then pure '\r'
  else if c = 'u' then scalarValue 4
  else if c = 'U' then scalarValue 8
  else failure

/-- A string in double quotes. -/
def basicString : Reader String := do
  exactly '"'
  let content ← many (satisfy isBasic <|> escaped)
  exactly '"'
  pure (String.ofList content)

/-- A string in single quotes, without escapes. -/
def literalString : Reader String := do
  exactly '\''
  let content ← takeWhile isLiteral
  exactly '\''
  pure (String.ofList content)

/-- A backslash at the end of a line; it takes with it all white space up to the next text. -/
def continuation : Reader Unit := do
  exactly '\\'
  skipBlanks
  newline
  let _ ← many ((do let _ ← satisfy isBlank) <|> newline)

/-- One or two quotes inside a string over several lines. -/
def innerQuotes (quote : Char) : Reader (List Char) := do
  let quotes ← takeWhile1 fun c => c = quote
  if quotes.length ≤ 2 then pure quotes else failure

/-- The end of a string over several lines: three quotes, with up to two more before them that
belong to the string. -/
def closingQuotes (quote : Char) : Reader (List Char) := do
  let quotes ← takeWhile fun c => c = quote
  if 3 ≤ quotes.length ∧ quotes.length ≤ 5 then pure (quotes.drop 3) else failure

/-- A string over several lines between three quotes on either side.  A line end right after the
opening quotes does not belong to it, and every line end counts as a line feed. -/
def longString (quote : Char) (piece : Reader (List Char)) : Reader String := do
  literal [quote, quote, quote]
  let _ ← optionally newline
  let pieces ← many (piece <|> (do newline; pure ['\n']) <|> innerQuotes quote)
  let last ← closingQuotes quote
  pure (String.ofList (pieces.flatten ++ last))

/-- A string over several lines with escapes. -/
def longBasicString : Reader String :=
  longString '"' (takeWhile1 isBasic <|> (do continuation; pure []) <|> (do pure [← escaped]))

/-- A string over several lines without escapes. -/
def longLiteralString : Reader String := longString '\'' (takeWhile1 isLiteral)

/-- Any string. -/
def string : Reader String :=
  longBasicString <|> basicString <|> longLiteralString <|> literalString

/-- Digits of a class, with single underscores between digits, which are left out. -/
def digitGroups (accepted : Char → Bool) : Reader (List Char) := do
  let first ← takeWhile1 accepted
  let more ← many (do exactly '_'; takeWhile1 accepted)
  pure (first ++ more.flatten)

/-- An optional sign. -/
def sign : Reader (List Char) := do
  let found ← optionally (satisfy fun c => c = '+' || c = '-')
  pure found.toList

/-- The digits of a decimal number: a zero alone, or digits of which the first is not zero. -/
def decimalDigits : Reader (List Char) := (do exactly '0'; pure ['0']) <|> digitGroups Char.isDigit

/-- A number in another base after a zero and a letter. -/
def basedInteger (base : Nat) (letter : Char) (accepted : Char → Bool) : Reader Int := do
  literal ['0', letter]
  let digits ← digitGroups accepted
  let value := digits.foldl (fun value c => base * value + (hexDigitValue? c).getD 0) 0
  if value < 0x8000000000000000 then pure (Int.ofNat value) else failure

/-- A whole number of 64 bits. -/
def decimalInteger : Reader Int := do
  let sign ← sign
  let digits ← decimalDigits
  match Number.readInteger 0x7FFFFFFFFFFFFFFF (sign ++ digits) with
  | .ok value => pure value
  | .error _ => failure

/-- Any whole number. -/
def integer : Reader Int :=
  basedInteger 16 'x' (fun c => (hexDigitValue? c).isSome) <|>
  basedInteger 8 'o' (fun c => '0' ≤ c && c ≤ '7') <|>
  basedInteger 2 'b' (fun c => c = '0' || c = '1') <|>
  decimalInteger

/-- A point and the digits after it. -/
def fraction : Reader (List Char) := do
  exactly '.'
  let digits ← digitGroups Char.isDigit
  pure ('.' :: digits)

/-- An exponent. -/
def exponent : Reader (List Char) := do
  let mark ← satisfy fun c => c = 'e' || c = 'E'
  let sign ← sign
  let digits ← digitGroups Char.isDigit
  pure (mark :: (sign ++ digits))

/-- The value of a floating-point number.  A number above all others is refused. -/
def floatValue (written : List Char) : Reader Number.BinaryFloat :=
  match Number.read? .double written with
  | some (.infinite false) => failure
  | some value => pure value
  | none => failure

/-- A floating-point number with a fraction or an exponent. -/
def writtenFloat : Reader Number.BinaryFloat := do
  let sign ← sign
  let digits ← decimalDigits
  let fraction ← optionally fraction
  let exponent ← optionally exponent
  if fraction.isNone && exponent.isNone then failure
  else floatValue (sign ++ digits ++ fraction.getD [] ++ exponent.getD [])

/-- Infinity, or no number. -/
def namedFloat : Reader Number.BinaryFloat := do
  let sign ← sign
  (do literal "inf".toList; pure (.infinite (sign == ['-']))) <|>
    (do literal "nan".toList; pure .nan)

/-- Any floating-point number. -/
def float : Reader Number.BinaryFloat := writtenFloat <|> namedFloat

/-- A number of a fixed count of digits between two bounds. -/
def bounded (count low high : Nat) : Reader Nat := do
  let value := Number.digitsValue (← takeExactly Char.isDigit count)
  if low ≤ value ∧ value ≤ high then pure value else failure

/-- The number of days in a month. -/
def daysIn (year month : Nat) : Nat :=
  if month = 2 then
    if year % 4 = 0 ∧ (year % 100 ≠ 0 ∨ year % 400 = 0) then 29 else 28
  else if month = 4 ∨ month = 6 ∨ month = 9 ∨ month = 11 then 30
  else 31

/-- A date. -/
def date : Reader Unit := do
  let year ← bounded 4 0 9999
  exactly '-'
  let month ← bounded 2 1 12
  exactly '-'
  let _ ← bounded 2 1 (daysIn year month)

/-- A time of day. -/
def time : Reader Unit := do
  let _ ← bounded 2 0 23
  exactly ':'
  let _ ← bounded 2 0 59
  exactly ':'
  let _ ← bounded 2 0 60
  let _ ← optionally (do exactly '.'; takeWhile1 Char.isDigit)

/-- The offset of a time from the universal one. -/
def offset : Reader Unit :=
  (do let _ ← satisfy fun c => c = 'Z' || c = 'z') <|>
  (do
    let _ ← satisfy fun c => c = '+' || c = '-'
    let _ ← bounded 2 0 23
    exactly ':'
    let _ ← bounded 2 0 59)

/-- A time of day after a date. -/
def timeOfDate : Reader Unit := do
  let _ ← satisfy fun c => c = 'T' || c = 't' || c = ' '
  time
  let _ ← optionally offset

/-- A date, a time, or both. -/
def moment : Reader Unit := (do date; let _ ← optionally timeOfDate) <|> time

/-- A truth value. -/
def boolean : Reader Bool :=
  (do literal "true".toList; pure true) <|> (do literal "false".toList; pure false)

/-- Any scalar value. -/
def scalar : Reader Document :=
  Document.text <$> string <|>
  (do moment; pure .moment) <|>
  Document.float <$> float <|>
  Document.integer <$> integer <|>
  Document.boolean <$> boolean

end Phrasebook.Toml
