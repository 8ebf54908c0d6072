import Phrasebook.Text.Displayable
import Phrasebook.Style.Color

/-!
# One-line descriptions of records

A record is described by its name and its fields in braces, a list by its items in brackets, a set
by its members in braces, and a text in double quotes.

## Main definitions

- `quoted` writes a text in double quotes; characters that are not displayable are escaped.
- `openBrace` and `closeBrace` are the two braces, and `braced` writes a text between them.
- `record` and `openRecord` write a record, the latter with two dots for what it leaves out.
- `list` and `set` write items that are already described.
-/

namespace Phrasebook.Text

/-- The characters that stand for one character of a quoted text. -/
def quotedChar (c : Char) : List Char :=
  if c = '\x00' then ['\\', '0']
  else if c = '\t' then ['\\', 't']
  else if c = '\r' then ['\\', 'r']
  else if c = '\n' then ['\\', 'n']
  else if c = '\\' then ['\\', '\\']
  else if c = '"' then ['\\', '"']
  else if isDisplayable c then [c]
  else ['\\', 'u', '{'] ++ TextColor.hexDigits 1 c.toNat ++ ['}']

/-- A text in double quotes. -/
def quoted (text : String) : String :=
  String.ofList ('"' :: text.toList.flatMap quotedChar ++ ['"'])

/-- The opening brace. -/
def openBrace : String := String.singleton '{'

/-- The closing brace. -/
def closeBrace : String := String.singleton '}'

@[simp]
theorem toList_openBrace : openBrace.toList = ['{'] := rfl

@[simp]
theorem toList_closeBrace : closeBrace.toList = ['}'] := rfl

/-- A text in braces. -/
def braced (text : String) : String := openBrace ++ text ++ closeBrace

@[simp]
theorem toList_braced (text : String) : (braced text).toList = '{' :: text.toList ++ ['}'] := by
  simp [braced]

/-- Items in brackets. -/
def list (items : List String) : String := "[" ++ ", ".intercalate items ++ "]"

/-- Items in braces. -/
def set (items : List String) : String := braced (", ".intercalate items)

/-- A record with the given fields. -/
def record (name : String) (fields : List (String × String)) : String :=
  name ++ " " ++
    braced (" " ++ ", ".intercalate (fields.map fun field => field.1 ++ ": " ++ field.2) ++ " ")

/-- A record that has more fields than the given ones. -/
def openRecord (name : String) (fields : List (String × String)) : String :=
  name ++ " " ++
    braced
      (" " ++ String.join (fields.map fun field => field.1 ++ ": " ++ field.2 ++ ", ") ++ ".. ")

end Phrasebook.Text
