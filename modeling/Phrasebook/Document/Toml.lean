import Phrasebook.Document.Toml.Scalar
import Phrasebook.Document.Toml.Tables

/-!
# TOML texts

A TOML text is a sequence of lines; a line may hold a header or a value with its key.

## Main definitions

- `Toml.value` reads a value that is nested in at most a number of others.
- `Toml.lines` reads the lines of a text.
- `Document.ofToml?` reads a text.
-/

namespace Phrasebook.Toml

open Text Text.Reader

/-- A comment up to the end of its line. -/
def comment : Reader Unit := do
  exactly '#'
  let _ ← takeWhile isPlain

/-- The characters of a key without quotes. -/
def isKeyChar (c : Char) : Bool := c.isAlphanum || c = '-' || c = '_'

/-- A single key. -/
def simpleKey : Reader String :=
  basicString <|> literalString <|> (do pure (String.ofList (← takeWhile1 isKeyChar)))

/-- A key among blanks. -/
def paddedKey : Reader String := do
  skipBlanks
  let key ← simpleKey
  skipBlanks
  pure key

/-- The number of parts that a path of keys does not reach, and of values nested in each other. -/
def nestingLimit : Nat := 80

/-- A path of keys with dots between them. -/
def keyPath : Reader KeyPath := do
  let first ← paddedKey
  let more ← many (do exactly '.'; paddedKey)
  let keys := first :: more
  if nestingLimit ≤ keys.length then failure
  else pure ⟨keys.dropLast, keys.getLast?.getD first⟩

/-- A value with its key, in terms of a reader for the value. -/
def assignment (value : Reader Document) : Reader (KeyPath × Document) := do
  let path ← keyPath
  exactly '='
  skipBlanks
  let document ← value
  pure (path, document)

/-- Skips blanks, line ends and comments. -/
def skipGap : Reader Unit := do
  let _ ← many ((do let _ ← takeWhile1 isBlank) <|> newline <|> comment)

/-- Items with commas between them. -/
def separated {α : Type} (item : Reader α) : Reader (List α) := do
  match ← optionally item with
  | none => pure []
  | some first => do
    let more ← many (do exactly ','; item)
    pure (first :: more)

/-- A list, in terms of a reader for its items.  A comma may follow the last item. -/
def list (value : Reader Document) : Reader Document := do
  exactly '['
  let items ← separated (do skipGap; let item ← value; skipGap; pure item)
  if items.isEmpty then pure ()
  else
    let _ ← optionally (exactly ',')
  skipGap
  exactly ']'
  pure (.list items)

/-- A table in one line, in terms of a reader for its values. -/
def inlineTable (value : Reader Document) : Reader Document := do
  exactly '{'
  let values ← separated (do let entry ← assignment value; skipBlanks; pure entry)
  skipBlanks
  exactly '}'
  match assignAll? [] values with
  | some fields => pure (.table (documentsOf fields))
  | none => failure

/-- A value with at most a number of others nested in each other around its scalars. -/
def value : Nat → Reader Document
  | 0 => scalar
  | levels + 1 => list (value levels) <|> inlineTable (value levels) <|> scalar

/-- The header of a table, or of one more table in a list. -/
inductive Header where
  | table (path : KeyPath)
  | listTable (path : KeyPath)

/-- A line that says something. -/
inductive Statement where
  | header (header : Header)
  | assign (path : KeyPath) (document : Document)

/-- The header of one more table in a list. -/
def listHeader : Reader Header := do
  literal ['[', '[']
  let path ← keyPath
  literal [']', ']']
  pure (.listTable path)

/-- The header of a table. -/
def tableHeader : Reader Header := do
  exactly '['
  let path ← keyPath
  exactly ']'
  pure (.table path)

/-- A line without its end. -/
def line : Reader (Option Statement) := do
  skipBlanks
  let found ← optionally
    (Statement.header <$> (listHeader <|> tableHeader) <|>
      (do
        let (path, document) ← assignment (value (nestingLimit - 1))
        pure (.assign path document)))
  skipBlanks
  let _ ← optionally comment
  pure found

/-- The lines of a text; a byte order mark may precede them. -/
def lines : Reader (List Statement) := do
  let _ ← optionally (exactly '\ufeff')
  let ended ← many (do let found ← line; newline; pure found)
  let last ← line
  pure ((ended ++ [last]).filterMap id)

/-- Splits statements into the values before the first header, and each header with its values. -/
def sections : List Statement →
    List (KeyPath × Document) × List (Header × List (KeyPath × Document))
  | [] => ([], [])
  | .assign path document :: rest =>
    let (values, others) := sections rest
    ((path, document) :: values, others)
  | .header header :: rest =>
    let (values, others) := sections rest
    ([], (header, values) :: others)

/-- Puts the table of a header and its values in place. -/
def addSection? (root : Fields) : Header × List (KeyPath × Document) → Option Fields
  | (.table path, values) => openTable? path values root
  | (.listTable path, values) => openListTable? path values root

/-- The table that statements describe. -/
def tableOf? (statements : List Statement) : Option Fields := do
  let (values, others) := sections statements
  let root ← assignAll? [] values
  others.foldlM addSection? root

end Phrasebook.Toml

namespace Phrasebook.Document

/-- Reads a TOML text. -/
def ofToml? (text : String) : Option Document := do
  let statements ← Text.Reader.whole? Toml.lines text.toList
  let fields ← Toml.tableOf? statements
  pure (.table (Toml.documentsOf fields))

end Phrasebook.Document
