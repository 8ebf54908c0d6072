import Phrasebook.Language.Basic
import Phrasebook.Locale.Table
import Phrasebook.Text.Inspect

/-!
# The registry of languages

The registry holds the known languages by identifier, together with the locale table that their
locale tags are looked up in.  It may have a loader, from which it can be filled anew.

## Main definitions

- `LanguageRegistry.insert`, `remove` and `reload`.
- `LanguageRegistry.languages` lists the languages in the order of their identifiers; the default
  language is the first of them that is marked as default.
-/

namespace Phrasebook

/-- The known languages by identifier.  The loader, if there is one, is what loading the languages
anew would answer. -/
structure LanguageRegistry where
  known : Dict String Language
  locales : LocaleTable
  loader : Option (Except LoadError (List Language))

namespace LanguageRegistry

/-- A registry without languages. -/
def empty (locales : LocaleTable) : LanguageRegistry := ⟨Dict.empty, locales, none⟩

/-- Adds a language; it replaces one with the same identifier. -/
def insert (registry : LanguageRegistry) (language : Language) : LanguageRegistry :=
  { registry with known := registry.known.insert language.identifier language }

/-- A registry of languages, added in turn. -/
def ofLanguages (locales : LocaleTable) (languages : List Language) : LanguageRegistry :=
  languages.foldl insert (empty locales)

/-- The language with an identifier. -/
def language? (registry : LanguageRegistry) (identifier : String) : Option Language :=
  registry.known.get? identifier

/-- Removes a language by identifier and answers the one that is removed. -/
def remove (registry : LanguageRegistry) (identifier : String) :
    Option Language × LanguageRegistry :=
  (registry.language? identifier, { registry with known := registry.known.erase identifier })

/-- The order of languages by identifier. -/
def identifierLe (a b : Language) : Bool := a.identifier ≤ b.identifier

/-- The languages in the order of their identifiers. -/
def languages (registry : LanguageRegistry) : List Language :=
  registry.known.values.mergeSort identifierLe

/-- The first language marked as default. -/
def defaultLanguage? (registry : LanguageRegistry) : Option Language :=
  registry.languages.find? Language.isDefault

/-- The locale of a language, if it has a locale tag that the table knows. -/
def locale? (registry : LanguageRegistry) (language : Language) : Option LanguageTag :=
  language.locale.bind registry.locales.get?

/-- The number of languages. -/
def size (registry : LanguageRegistry) : Nat := registry.known.size

/-- Replaces all languages by what the loader answers.  Without a loader nothing changes. -/
def reload (registry : LanguageRegistry) : Except LoadError LanguageRegistry :=
  match registry.loader with
  | none => .ok registry
  | some (.error error) => .error error
  | some (.ok loaded) =>
    .ok { registry with
      known := Dict.ofList (loaded.map fun language => (language.identifier, language)) }

/-- The description of a registry. -/
def describe (registry : LanguageRegistry) : String :=
  Text.record "LanguageRegistry"
    [("languages", Text.list (registry.known.keys.map Text.quoted)),
      ("locales", Text.record "LocaleTable"
        [("locales", Text.set (registry.locales.locales.entries.map fun entry =>
          Text.quoted (String.ofList entry.1) ++ ": " ++ entry.2.text))]),
      ("loader", if registry.loader.isSome then "true" else "false")]

end LanguageRegistry

end Phrasebook
