/-!
# Paths

A path is text in which slashes separate names; a path that begins with a slash is absolute.

## Main definitions

- `Path.join` puts a part after a base; an absolute part replaces the base.
- `Path.components` are the names of a path, with empty ones where slashes meet.
- `Path.isSame` compares two paths name by name.
-/

namespace Phrasebook.Path

/-- Whether a path begins with a slash. -/
def isAbsolute : List Char → Bool
  | '/' :: _ => true
  | _ => false

/-- A base followed by a part.  An absolute part replaces the base; otherwise a slash is put between
the two, unless the base is empty or ends in one. -/
def joinChars (base part : List Char) : List Char :=
  if isAbsolute part then part
  else if base = [] ∨ base.getLast? = some '/' then base ++ part
  else base ++ '/' :: part

/-- `joinChars` on strings. -/
def join (base part : String) : String := String.ofList (joinChars base.toList part.toList)

/-- Cuts a text at every separator; there is one more piece than separators. -/
def splitAt (isSeparator : Char → Bool) : List Char → List (List Char)
  | [] => [[]]
  | c :: rest =>
    if isSeparator c then [] :: splitAt isSeparator rest
    else
      match splitAt isSeparator rest with
      | [] => [[c]]
      | piece :: pieces => (c :: piece) :: pieces

/-- The names between the slashes of a path. -/
def components (path : String) : List String :=
  (splitAt (fun c => c = '/') path.toList).map String.ofList

/-- Whether a name leads nowhere: an empty one, or a single point. -/
def isIdle (name : String) : Bool := name = "" || name = "."

/-- The names that a path is compared by.  Names that lead nowhere do not count, except for a single
point at the beginning. -/
def landmarks (path : String) : List String :=
  match components path with
  | [] => []
  | first :: rest =>
    if first = "." then first :: rest.filter fun name => !isIdle name
    else (first :: rest).filter fun name => !isIdle name

/-- Whether two paths are the same apart from repeated slashes, slashes at the end and points. -/
def isSame (path other : String) : Bool :=
  isAbsolute path.toList = isAbsolute other.toList && landmarks path = landmarks other

end Phrasebook.Path
