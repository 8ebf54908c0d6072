import Phrasebook.Document.Record
import Phrasebook.Language.Basic

/-!
# Languages in documents

A language is a record; all fields but its identifier and its name may be left out.
-/

namespace Phrasebook.Language

/-- The names of the fields of a language, in order. -/
def fieldNames : List String :=
  ["identifier", "name", "is_default", "country", "fallback", "locale"]

/-- Reads a language. -/
def ofDocument? (dialect : Dialect) (document : Document) : Option Language := do
  let fields ← document.record? dialect fieldNames
  let identifier ← Document.required fields "identifier" Document.asText?
  let name ← Document.required fields "name" Document.asText?
  let isDefault ← Document.optional fields "is_default" false Document.asBoolean?
  let country ← Document.optional fields "country" none (Document.asOptional? Document.asText?)
  let fallback ← Document.optional fields "fallback" none (Document.asOptional? Document.asText?)
  let locale ← Document.optional fields "locale" none (Document.asOptional? Document.asText?)
  pure { identifier, name, isDefault, country, fallback, locale }

/-- Writes a language; what it does not have is left out. -/
def toDocument (language : Language) : Document :=
  .table
    ([("identifier", .text language.identifier), ("name", .text language.name),
      ("is_default", .boolean language.isDefault)] ++
      Document.fieldOf "country" .text language.country ++
      Document.fieldOf "fallback" .text language.fallback ++
      Document.fieldOf "locale" .text language.locale)

end Phrasebook.Language
