/-!
# Reading text from the front

A `Reader` takes something off the front of a text and leaves the rest, or fails.  Readers are
combined with `do`; `p <|> q` tries `q` at the same place if `p` fails.

## Main definitions

- `next`, `satisfy`, `exactly`, `literal` and `takeWhile` take characters.
- `many` repeats a reader as long as it succeeds and takes something.
- `Reader.whole?` reads a text to its end.
-/

namespace Phrasebook.Text

/-- Takes an `α` off the front of a text, or fails. -/
abbrev Reader (α : Type) := StateT (List Char) Option α

namespace Reader

variable {α β : Type}

/-- Takes one character. -/
def next : Reader Char := fun
  | [] => none
  | c :: rest => some (c, rest)

/-- Takes one character of a class. -/
def satisfy (accepted : Char → Bool) : Reader Char := fun
  | [] => none
  | c :: rest => if accepted c then some (c, rest) else none

/-- Takes a given character. -/
def exactly (c : Char) : Reader Unit := fun
  | [] => none
  | d :: rest => if d = c then some ((), rest) else none

/-- Takes given characters. -/
def literal (expected : List Char) : Reader Unit := fun text =>
  if expected.isPrefixOf text then some ((), text.drop expected.length) else none

/-- Takes the longest run of characters of a class; it may be empty. -/
def takeWhile (accepted : Char → Bool) : Reader (List Char) := fun text =>
  some (text.takeWhile accepted, text.dropWhile accepted)

/-- Takes the longest run of characters of a class; it may not be empty. -/
def takeWhile1 (accepted : Char → Bool) : Reader (List Char) := do
  let taken ← takeWhile accepted
  if taken.isEmpty then failure else pure taken

/-- Takes a given number of characters of a class. -/
def takeExactly (accepted : Char → Bool) (count : Nat) : Reader (List Char) := fun text =>
  let taken := text.take count
  if taken.length = count ∧ taken.all accepted then some (taken, text.drop count) else none

/-- Repeats a reader at most a number of times. -/
def repeatUpTo (reader : Reader α) : Nat → List Char → List α × List Char
  | 0, text => ([], text)
  | n + 1, text =>
    match reader text with
    | none => ([], text)
    | some (a, rest) =>
      let (more, last) := repeatUpTo reader n rest
      (a :: more, last)

/-- Repeats a reader as long as it succeeds.  A reader that takes something each time succeeds at
most once for every character. -/
def many (reader : Reader α) : Reader (List α) := fun text =>
  some (repeatUpTo reader text.length text)

/-- Tries a reader; a failure takes nothing. -/
def optionally (reader : Reader α) : Reader (Option α) := fun text =>
  match reader text with
  | none => some (none, text)
  | some (a, rest) => some (some a, rest)

/-- What a reader makes of a whole text. -/
def whole? (reader : Reader α) (text : List Char) : Option α :=
  match reader text with
  | some (a, []) => some a
  | _ => none

end Reader

end Phrasebook.Text
