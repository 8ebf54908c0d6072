import Phrasebook.Files.Path

/-!
# Language tags

A tag consists of subtags between hyphens or underscores: a language, then optionally a script, a
region and variants, in this order.  The canonical text writes the language and the variants in
lower case, the script with a capital, the region in upper case, and the variants in order and
once each.

## Main definitions

- `readLanguage?`, `readScript?`, `readRegion?` and `readVariant?` are the classes of subtags.
- `LanguageTag.parse?` reads a tag, `LanguageTag.text` is its canonical text.
- `LanguageTag.primary` is the canonical language subtag, `und` for an undetermined language.
-/

namespace Phrasebook

/-- A parsed language tag.  No language means that it is undetermined. -/
structure LanguageTag where
  language : Option (List Char)
  script : Option (List Char)
  region : Option (List Char)
  variants : List (List Char)
  deriving DecidableEq, Repr

namespace LanguageTag

/-- The subtag of an undetermined language. -/
def undetermined : List Char := ['u', 'n', 'd']

/-- A language: two, three or five to eight letters.  The answer is in lower case, and nothing for
the undetermined language. -/
def readLanguage? (subtag : List Char) : Option (Option (List Char)) :=
  if 2 ≤ subtag.length ∧ subtag.length ≤ 8 ∧ subtag.length ≠ 4 ∧ subtag.all Char.isAlpha then
    let lower := subtag.map Char.toLower
    some (if lower = undetermined then none else some lower)
  else none

/-- A script: four letters, answered with a capital. -/
def readScript? : List Char → Option (List Char)
  | [a, b, c, d] =>
    if [a, b, c, d].all Char.isAlpha then some [a.toUpper, b.toLower, c.toLower, d.toLower]
    else none
  | _ => none

/-- A region: two letters, answered in upper case, or three digits. -/
def readRegion? (subtag : List Char) : Option (List Char) :=
  if subtag.length = 2 ∧ subtag.all Char.isAlpha then some (subtag.map Char.toUpper)
  else if subtag.length = 3 ∧ subtag.all Char.isDigit then some subtag
  else none

/-- Whether a character is in the ASCII range and not NUL. -/
def isPlainChar (c : Char) : Bool := 0 < c.toNat && c.toNat < 128

/-- A variant, answered in lower case: five to eight letters and digits, or four characters.  Of
four characters the first is a digit, or the other three are letters and digits. -/
def readVariant? (subtag : List Char) : Option (List Char) :=
  let accepted :=
    if subtag.length = 4 then
      subtag.all isPlainChar &&
        ((subtag.take 1).all Char.isDigit || (subtag.drop 1).all Char.isAlphanum)
    else 5 ≤ subtag.length && subtag.length ≤ 8 && subtag.all Char.isAlphanum
  if accepted then some (subtag.map Char.toLower) else none

/-- The order of variants. -/
def variantLe (a b : List Char) : Bool := String.ofList a ≤ String.ofList b

/-- Drops repetitions next to each other. -/
def dropRepeats : List (List Char) → List (List Char)
  | a :: b :: rest => if a = b then dropRepeats (b :: rest) else a :: dropRepeats (b :: rest)
  | rest => rest

/-- Variants in order and once each. -/
def arrange (variants : List (List Char)) : List (List Char) :=
  dropRepeats (variants.mergeSort variantLe)

/-- Reads the script, if the first subtag is one. -/
def takeScript : List (List Char) → Option (List Char) × List (List Char)
  | [] => (none, [])
  | subtag :: rest =>
    match readScript? subtag with
    | some script => (some script, rest)
    | none => (none, subtag :: rest)

/-- Reads the region, if the first subtag is one. -/
def takeRegion : List (List Char) → Option (List Char) × List (List Char)
  | [] => (none, [])
  | subtag :: rest =>
    match readRegion? subtag with
    | some region => (some region, rest)
    | none => (none, subtag :: rest)

/-- The subtags of a tag. -/
def subtags (tag : String) : List (List Char) :=
  Path.splitAt (fun c => c = '-' || c = '_') tag.toList

/-- Reads a language tag. -/
def parse? (tag : String) : Option LanguageTag :=
  match subtags tag with
  | [] => none
  | first :: rest => do
    let language ← readLanguage? first
    let (script, rest) := takeScript rest
    let (region, rest) := takeRegion rest
    let variants ← rest.mapM readVariant?
    pure { language, script, region, variants := arrange variants }

/-- The canonical language subtag. -/
def primary (tag : LanguageTag) : List Char := tag.language.getD undetermined

/-- The canonical text of a tag. -/
def text (tag : LanguageTag) : String :=
  "-".intercalate
    ((tag.primary :: (tag.script.toList ++ tag.region.toList ++ tag.variants)).map String.ofList)

end LanguageTag

end Phrasebook
