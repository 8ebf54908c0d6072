import Mathlib.Data.Option.Basic
import Phrasebook.Config.Load
import Phrasebook.Proofs.Document.Records

/-!
# Configurations that were written

A configuration and its parts are written as records, and read back as they were.  Two things could
go wrong.  A field that is left out is read as its default, so only what the default stands for may
be left out.  And a default is a populated value in places, so nothing else may be left out: an
empty list is written as one.

None of this asks for a configuration without faults.

## Main statement

`reads_written`: configurations and languages are read back as they were written.
-/

namespace Phrasebook

open Document

variable (dialect : Dialect)

namespace Language

/-- **Languages are read back**, without what they do not have. -/
theorem undoes_toDocument : Undoes (ofDocument? dialect) toDocument := by
  intro language
  obtain ⟨record, found, held⟩ :=
    record?_of_eq_table dialect (rfl : language.toDocument = .table _)
      (by
        simp only [List.map_append]
        exact (((List.Sublist.refl _).append (map_fst_fieldOf_sublist _ _ _)).append
          (map_fst_fieldOf_sublist _ _ _)).append (map_fst_fieldOf_sublist _ _ _))
      (by decide : fieldNames.Nodup)
  have identifier : required record "identifier" asText? = some language.identifier :=
    required_eq_some undoes_text (by simp [held, Dict.lookup])
  have name : required record "name" asText? = some language.name :=
    required_eq_some undoes_text (by simp [held, Dict.lookup])
  have isDefault : optional record "is_default" false asBoolean? = some language.isDefault :=
    optional_eq_some undoes_boolean (by simp [held, Dict.lookup])
  have country : optional record "country" none (asOptional? asText?) = some language.country :=
    optional_eq_of_fieldOf undoes_text (by simp)
      (by simp [held, Dict.lookup, Dict.lookup_append, lookup_fieldOf])
  have fallback : optional record "fallback" none (asOptional? asText?) = some language.fallback :=
    optional_eq_of_fieldOf undoes_text (by simp)
      (by simp [held, Dict.lookup, Dict.lookup_append, lookup_fieldOf])
  have locale : optional record "locale" none (asOptional? asText?) = some language.locale :=
    optional_eq_of_fieldOf undoes_text (by simp)
      (by simp [held, Dict.lookup, Dict.lookup_append, lookup_fieldOf])
  simp only [ofDocument?, found, identifier, name, isDefault, country, fallback, locale,
    Option.bind_eq_bind, Option.bind_some, Option.pure_def]

end Language

namespace CacheSettings

theorem undoes_toDocument : Undoes (ofDocument? dialect) toDocument := by
  intro cache
  obtain ⟨record, found, held⟩ :=
    record?_of_eq_table dialect (rfl : cache.toDocument = .table _) (List.Sublist.refl fieldNames)
      (by decide)
  have enabled (standard : Bool) :
      optional record "enabled" standard asBoolean? = some cache.enabled :=
    optional_eq_some undoes_boolean (by simp [held, Dict.lookup])
  have keyFormat (standard : String) :
      optional record "key_format" standard asText? = some cache.keyFormat :=
    optional_eq_some undoes_text (by simp [held, Dict.lookup])
  have lifetime (standard : UInt64) :
      optional record "ttl_secs" standard asWord? = some cache.lifetime :=
    optional_eq_some undoes_word (by simp [held, Dict.lookup])
  have lock (standard : Bool) : optional record "lock" standard asBoolean? = some cache.lock :=
    optional_eq_some undoes_boolean (by simp [held, Dict.lookup])
  have lockWait (standard : UInt64) :
      optional record "lock_wait_secs" standard asWord? = some cache.lockWait :=
    optional_eq_some undoes_word (by simp [held, Dict.lookup])
  have onLockFailure (standard : LockFailureAction) :
      optional record "on_lock_failure" standard (readAction? dialect) =
        some cache.onLockFailure :=
    optional_eq_some (undoes_choice LockFailureAction.ofName?_name dialect)
      (by simp [held, Dict.lookup])
  have capacity (standard : UInt64) :
      optional record "max_capacity" standard asWord? = some cache.capacity :=
    optional_eq_some undoes_word (by simp [held, Dict.lookup])
  simp only [ofDocument?, found, enabled, keyFormat, lifetime, lock, lockWait, onLockFailure,
    capacity, Option.bind_eq_bind, Option.bind_some, Option.pure_def]

end CacheSettings

namespace LogSection

theorem undoes_toDocument : Undoes (ofDocument? dialect) toDocument := by
  intro log
  obtain ⟨record, found, held⟩ :=
    record?_of_eq_table dialect (rfl : log.toDocument = .table _)
      (by
        rw [List.map_append]
        exact (List.Sublist.refl _).append (map_fst_fieldOf_sublist _ _ _))
      (by decide : fieldNames.Nodup)
  have level (standard : String) :
      optional record "level" standard asText? = some log.level :=
    optional_eq_some undoes_text (by simp [held, Dict.lookup])
  have format (standard : LogFormat) :
      optional record "format" standard (LogFormat.ofDocument? dialect) = some log.format :=
    optional_eq_some (undoes_choice LogFormat.ofName?_name dialect) (by simp [held, Dict.lookup])
  have file : optional record "file_path" none (asOptional? asText?) = some log.file :=
    optional_eq_of_fieldOf undoes_text (by simp) (by simp [held, Dict.lookup, lookup_fieldOf])
  simp only [ofDocument?, found, level, format, file, Option.bind_eq_bind, Option.bind_some,
    Option.pure_def]

end LogSection

namespace Config

/-- A directory is written as the only field of a record. -/
theorem undoes_directory :
    Undoes (readDirectory? dialect) fun directory => .table [("directory", .text directory)] := by
  intro directory
  obtain ⟨record, found, held⟩ :=
    record?_of_eq_table dialect (rfl : Document.table [("directory", .text directory)] = .table _)
      (List.Sublist.refl directoryNames) (by decide)
  simp only [readDirectory?, found, Option.bind_eq_bind, Option.bind_some]
  exact optional_eq_some undoes_text (by simp [held, Dict.lookup])

/-- **Configurations are read back**, in any notation. -/
theorem undoes_toDocument : Undoes (ofDocument? dialect) toDocument := by
  intro config
  obtain ⟨record, found, held⟩ :=
    record?_of_eq_table dialect (rfl : config.toDocument = .table _) (List.Sublist.refl fieldNames)
      (by decide)
  have defaultLanguage (standard : String) :
      optional record "default_language" standard asText? = some config.defaultLanguage :=
    optional_eq_some undoes_text (by simp [held, Dict.lookup])
  have languages (standard : List Language) :
      optional record "languages" standard (asList? (Language.ofDocument? dialect)) =
        some config.languages :=
    optional_eq_some (Language.undoes_toDocument dialect).list (by simp [held, Dict.lookup])
  have bundles (standard : List String) :
      optional record "bundles" standard (asList? asText?) = some config.bundles :=
    optional_eq_some undoes_text.list (by simp [held, Dict.lookup])
  have locales (standard : List String) :
      optional record "locales" standard (asList? asText?) = some config.locales :=
    optional_eq_some undoes_text.list (by simp [held, Dict.lookup])
  have directory (standard : String) :
      optional record "messages" standard (readDirectory? dialect) = some config.directory :=
    optional_eq_some (undoes_directory dialect) (by simp [held, Dict.lookup])
  have cache (standard : CacheSettings) :
      optional record "cache" standard (CacheSettings.ofDocument? dialect) = some config.cache :=
    optional_eq_some (CacheSettings.undoes_toDocument dialect) (by simp [held, Dict.lookup])
  have log (standard : LogSection) :
      optional record "logging" standard (LogSection.ofDocument? dialect) = some config.log :=
    optional_eq_some (LogSection.undoes_toDocument dialect) (by simp [held, Dict.lookup])
  simp only [ofDocument?, found, defaultLanguage, languages, bundles, locales, directory, cache,
    log, Option.bind_eq_bind, Option.bind_some, Option.pure_def]

end Config

/-- **What was written is read back**, from the JSON document that is written and from any text of
this document: configurations, with or without faults, and languages by themselves. -/
theorem reads_written :
    (∀ config : Config, Config.ofDocument? .json config.toDocument = some config ∧
      ∀ text, ofJson? text = some config.toDocument → Config.ofJson? text = some config) ∧
    ∀ language : Language, Language.ofDocument? .json language.toDocument = some language ∧
      ∀ text, ofJson? text = some language.toDocument →
        (ofJson? text).bind (Language.ofDocument? .json) = some language := by
  refine ⟨fun config => ?_, fun language => ?_⟩
  · have back := Config.undoes_toDocument .json config
    refine ⟨back, fun text written => ?_⟩
    rw [Config.ofJson?, written, Option.bind_some, back]
  · have back := Language.undoes_toDocument .json language
    refine ⟨back, fun text written => ?_⟩
    rw [written, Option.bind_some, back]

/-- A configuration with nothing in it. -/
def poor : Config where
  defaultLanguage := ""
  languages := []
  locales := []
  directory := ""
  cache :=
    { keyFormat := "", lifetime := 0xFFFFFFFFFFFFFFFF, lock := false, lockWait := 0, capacity := 0 }
  log := { level := "", format := .json }

set_option maxRecDepth 20000 in
theorem reads_written_poor :
    Config.ofJson?
        (Text.braced
          ("\"default_language\":\"\",\"languages\":[]," ++
            "\"bundles\":[],\"locales\":[]," ++
            "\"messages\":" ++ Text.braced "\"directory\":\"\"" ++ "," ++
            "\"cache\":" ++ Text.braced
              ("\"enabled\":true,\"key_format\":\"\"," ++
                "\"ttl_secs\":18446744073709551615," ++
                "\"lock\":false,\"lock_wait_secs\":0," ++
                "\"on_lock_failure\":\"fail\",\"max_capacity\":0") ++ "," ++
            "\"logging\":" ++ Text.braced "\"level\":\"\",\"format\":\"json\"")) = some poor ∧
      (ofJson? (Text.braced "\"identifier\":\"pt\",\"name\":\"\",\"is_default\":false")).bind
        (Language.ofDocument? .json) = some { identifier := "pt", name := "" } :=
  ⟨(reads_written.1 poor).2 _ rfl,
    (reads_written.2 { identifier := "pt", name := "" }).2 _ rfl⟩

end Phrasebook
