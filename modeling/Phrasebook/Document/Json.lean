import Phrasebook.Document.Basic
import Phrasebook.Style.Color
import Phrasebook.Text.Reader

/-!
# JSON texts

A JSON text is cut into tokens, and the tokens are put together into a `Document` by a machine that
keeps a stack of the lists and tables that are still open.

## Main definitions

- `Json.Token` and `Json.tokens?`.
- `Json.Builder` is the state of the machine, `Builder.step?` takes one token.
- `Document.ofJson?` reads a text; `Document.ofJsonFully?` also asks that every part has a value and
  that the text is not nested too deeply.
-/

namespace Phrasebook.Json

open Text Text.Reader

/-- The smallest pieces of a JSON text.  A key or text without a value is `none`. -/
inductive Token where
  | beginList
  | endList
  | beginTable
  | endTable
  | colon
  | comma
  | text (value : Option String)
  | scalar (value : Document)

/-- The value of four hexadecimal digits. -/
def hexUnit : Reader Nat := do
  let digits ← takeExactly (fun c => (hexDigitValue? c).isSome) 4
  match hexValue? digits with
  | some value => pure value
  | none => failure

/-- What follows a backslash, as a UTF-16 unit. -/
def escape : Reader Nat := do
  let c ← next
  if c = '"' ∨ c = '\\' ∨ c = '/' then pure c.toNat
  else if c = 'b' then pure 8
  else if c = 'f' then pure 12
  else if c = 'n' then pure 10
  else if c = 'r' then pure 13
  else if c = 't' then pure 9
  else if c = 'u' then hexUnit
  else failure

/-- A character of a string as a number.  Only an escape can give half of a surrogate pair. -/
def stringUnit : Reader Nat := do
  let c ← next
  if c = '\\' then escape
  else if c = '"' ∨ c.toNat < 0x20 then failure
  else pure c.toNat

/-- Whether a number is the first half of a surrogate pair. -/
def isHighSurrogate (unit : Nat) : Bool := 0xD800 ≤ unit && unit < 0xDC00

/-- Whether a number is the second half of a surrogate pair. -/
def isLowSurrogate (unit : Nat) : Bool := 0xDC00 ≤ unit && unit < 0xE000

/-- Joins the halves of surrogate pairs; a half alone has no value. -/
def joinUnits? : List Nat → Option (List Char)
  | [] => some []
  | [unit] =>
    if isHighSurrogate unit || isLowSurrogate unit then none else some [Char.ofNat unit]
  | unit :: follower :: rest =>
    if isHighSurrogate unit then
      if isLowSurrogate follower then
        (joinUnits? rest).map
          (Char.ofNat (0x10000 + (unit - 0xD800) * 0x400 + (follower - 0xDC00)) :: ·)
      else none
    else if isLowSurrogate unit then none
    else (joinUnits? (follower :: rest)).map (Char.ofNat unit :: ·)

/-- A string. -/
def string : Reader (Option String) := do
  exactly '"'
  let units ← many stringUnit
  exactly '"'
  pure ((joinUnits? units).map String.ofList)

/-- The digits before the point: a zero alone, or digits of which the first is not zero. -/
def wholeDigits : Reader (List Char) := do
  let first ← satisfy Char.isDigit
  if first = '0' then pure ['0']
  else
    let rest ← takeWhile Char.isDigit
    pure (first :: rest)

/-- A point and the digits after it. -/
def fraction : Reader (List Char) := do
  exactly '.'
  takeWhile1 Char.isDigit

/-- An exponent. -/
def exponent : Reader Int := do
  let _ ← satisfy fun c => c = 'e' || c = 'E'
  let sign ← optionally (satisfy fun c => c = '+' || c = '-')
  let magnitude := Number.digitsValue (← takeWhile1 Char.isDigit)
  pure (if sign = some '-' then - Int.ofNat magnitude else Int.ofNat magnitude)

/-- The first number that a number of 64 bits does not reach. -/
def significandLimit : Nat := 0x10000000000000000

/-- Puts digits at the end of a number while the result stays below the limit.  Answers the digits
that are left over as well. -/
def takeSignificant (significand : Nat) : List Char → Nat × List Char
  | [] => (significand, [])
  | digit :: rest =>
    let longer := 10 * significand + (Number.decimalDigit? digit).getD 0
    if longer < significandLimit then takeSignificant longer rest
    else (significand, digit :: rest)

/-- The document of a floating-point number.  Of its digits as many count as together stay below the
limit; a digit left over before the point only moves the point, and one after it does nothing. -/
def floatDocument (negative : Bool) (whole fraction : List Char) (exponent : Int) : Document :=
  let (significand, wholeRest) := takeSignificant 0 whole
  let (significand, fractionRest) := takeSignificant significand fraction
  let places : Int := (fraction.length : Int) - fractionRest.length
  match Number.ofRoundedParts .double negative significand
      (exponent + wholeRest.length - places) with
  | .finite negative mantissa power => .float (.finite negative mantissa power)
  | _ => .unreadable

/-- The document of a whole number.  Numbers beyond 64 bits and the negative zero are floating-point
numbers. -/
def integerDocument (negative : Bool) (digits : List Char) : Document :=
  let magnitude := Number.digitsValue digits
  if negative then
    if 0 < magnitude ∧ magnitude ≤ 0x8000000000000000 then .integer (- Int.ofNat magnitude)
    else floatDocument negative digits [] 0
  else if magnitude < significandLimit then .integer (Int.ofNat magnitude)
  else floatDocument negative digits [] 0

/-- A number. -/
def number : Reader Document := do
  let sign ← optionally (exactly '-')
  let digits ← wholeDigits
  let fraction ← optionally fraction
  let exponent ← optionally exponent
  if fraction.isNone && exponent.isNone then pure (integerDocument sign.isSome digits)
  else
    pure (floatDocument sign.isSome digits (fraction.getD []) (exponent.getD 0))

/-- A token that is one character. -/
def punctuation : Reader Token := do
  let c ← next
  if c = '[' then pure .beginList
  else if c = ']' then pure .endList
  else if c = '{' then pure .beginTable
  else if c = '}' then pure .endTable
  else if c = ':' then pure .colon
  else if c = ',' then pure .comma
  else failure

/-- A token that is a word. -/
def word : Reader Document :=
  (do literal "null".toList; pure .null) <|>
  (do literal "true".toList; pure (.boolean true)) <|>
  (do literal "false".toList; pure (.boolean false))

/-- Any token. -/
def token : Reader Token :=
  punctuation <|> Token.text <$> string <|> Token.scalar <$> (word <|> number)

/-- The characters between tokens. -/
def isSpace (c : Char) : Bool := c = ' ' || c = '\t' || c = '\n' || c = '\r'

/-- The tokens of a text. -/
def tokens? (text : List Char) : Option (List Token) :=
  whole? (do
    let _ ← takeWhile isSpace
    many (do
      let found ← token
      let _ ← takeWhile isSpace
      pure found)) text

/-- A list or table that is still open, with what has been read of it, the last part first. -/
inductive Frame where
  | list (items : List Document)
  | table (fields : List (Option String × Document))
  | field (fields : List (Option String × Document)) (key : Option String)

/-- What has to follow. -/
inductive Expectation where
  | value
  | valueOrEnd
  | key
  | keyOrEnd
  | colon (key : Option String)
  | separator (value : Document)

/-- The open lists and tables, the innermost first, and what has to follow. -/
structure Builder where
  frames : List Frame
  expected : Expectation

/-- The table of fields; it is unreadable if one of its keys is. -/
def tableOf (fields : List (Option String × Document)) : Document :=
  match fields.mapM fun field => field.1.map fun key => (key, field.2) with
  | some fields => .table fields
  | none => .unreadable

namespace Builder

/-- Takes the first token of a value. -/
def beginValue? (frames : List Frame) : Token → Option Builder
  | .beginList => some ⟨.list [] :: frames, .valueOrEnd⟩
  | .beginTable => some ⟨.table [] :: frames, .keyOrEnd⟩
  | .text (some value) => some ⟨frames, .separator (.text value)⟩
  | .text none => some ⟨frames, .separator .unreadable⟩
  | .scalar value => some ⟨frames, .separator value⟩
  | _ => none

/-- Takes a token after a value. -/
def endValue? (value : Document) : List Frame → Token → Option Builder
  | .list items :: frames, .comma => some ⟨.list (value :: items) :: frames, .value⟩
  | .list items :: frames, .endList =>
    some ⟨frames, .separator (.list (value :: items).reverse)⟩
  | .field fields key :: frames, .comma => some ⟨.table ((key, value) :: fields) :: frames, .key⟩
  | .field fields key :: frames, .endTable =>
    some ⟨frames, .separator (tableOf ((key, value) :: fields).reverse)⟩
  | _, _ => none

/-- Takes one token. -/
def step? (builder : Builder) (token : Token) : Option Builder :=
  match builder.expected, token, builder.frames with
  | .separator value, token, frames => endValue? value frames token
  | .colon key, .colon, .table fields :: frames => some ⟨.field fields key :: frames, .value⟩
  | .key, .text key, frames => some ⟨frames, .colon key⟩
  | .keyOrEnd, .text key, frames => some ⟨frames, .colon key⟩
  | .keyOrEnd, .endTable, _ :: frames => some ⟨frames, .separator (.table [])⟩
  | .valueOrEnd, .endList, _ :: frames => some ⟨frames, .separator (.list [])⟩
  | .valueOrEnd, token, frames => beginValue? frames token
  | .value, token, frames => beginValue? frames token
  | _, _, _ => none

/-- The document, if it is complete. -/
def document? : Builder → Option Document
  | ⟨[], .separator value⟩ => some value
  | _ => none

end Builder

/-- The document of tokens. -/
def documentOf? (tokens : List Token) : Option Document := do
  let builder ← tokens.foldlM Builder.step? ⟨[], .value⟩
  builder.document?

end Phrasebook.Json

namespace Phrasebook

namespace Document

/-- Reads a JSON text. -/
def ofJson? (text : String) : Option Document := do
  Json.documentOf? (← Json.tokens? text.toList)

/-- The depth of lists and tables that a message file may reach. -/
def deepest : Nat := 127

/-- Reads a JSON text of which every part is used. -/
def ofJsonFully? (text : String) : Option Document :=
  (ofJson? text).filter fun document => document.isReadable && decide (document.depth ≤ deepest)

end Document

end Phrasebook
