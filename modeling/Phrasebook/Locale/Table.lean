import Phrasebook.Dict
import Phrasebook.Error
import Phrasebook.Locale.Tag

/-!
# Locale tables

A table of parsed locale tags that is looked up by primary language subtag, so a table with `en-US`
answers for `en`, `en-GB` and `EN`.

## Main definitions

- `LocaleTable.insert` and `ofTags` build a table; the last tag of a primary subtag wins.
- `LocaleTable.get?` looks a tag up by what stands before its first hyphen or underscore.
-/

namespace Phrasebook

/-- Locale tags by primary language subtag. -/
structure LocaleTable where
  locales : Dict (List Char) LanguageTag

namespace LocaleTable

/-- The table without tags. -/
def empty : LocaleTable := ⟨Dict.empty⟩

/-- Adds a tag; it replaces one with the same primary subtag. -/
def insert (table : LocaleTable) (tag : LanguageTag) : LocaleTable :=
  ⟨table.locales.insert tag.primary tag⟩

/-- Adds tags in turn, up to the first that cannot be read. -/
def insertTags (table : LocaleTable) : List String → Except LoadError LocaleTable
  | [] => .ok table
  | tag :: rest =>
    match LanguageTag.parse? tag with
    | some parsed => insertTags (table.insert parsed) rest
    | none => .error (.invalidLanguage tag)

/-- The table of the given tags. -/
def ofTags (tags : List String) : Except LoadError LocaleTable := empty.insertTags tags

/-- The tags of widely used locales. -/
def commonTags : List String := ["en-US", "es-ES", "fr-FR", "de-DE"]

/-- The table of widely used locales. -/
def common : LocaleTable :=
  (commonTags.filterMap LanguageTag.parse?).foldl insert empty

/-- The part of a tag before its first hyphen or underscore, in lower case. -/
def primaryOf (tag : String) : List Char :=
  (tag.toList.takeWhile fun c => c ≠ '-' && c ≠ '_').map Char.toLower

/-- The locale that a tag stands for. -/
def get? (table : LocaleTable) (tag : String) : Option LanguageTag :=
  table.locales.get? (primaryOf tag)

/-- The number of locales. -/
def size (table : LocaleTable) : Nat := table.locales.size

/-- Whether there is no locale. -/
def isEmpty (table : LocaleTable) : Bool := table.locales.isEmpty

end LocaleTable

end Phrasebook
