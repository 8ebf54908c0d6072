import Phrasebook.Config.Basic
import Phrasebook.Language.Document

/-!
# Configurations in documents

A configuration is a record of records.  Every field may be left out; the standard configuration
stands for it.

## Main definitions

- `Config.ofDocument?` reads a configuration.
- `Config.toDocument` writes one.
-/

namespace Phrasebook

namespace CacheSettings

/-- The names of the fields of the cache, in order. -/
def fieldNames : List String :=
  ["enabled", "key_format", "ttl_secs", "lock", "lock_wait_secs", "on_lock_failure", "max_capacity"]

/-- Reads what happens when a lock is not free. -/
def readAction? (dialect : Dialect) (document : Document) : Option LockFailureAction :=
  (document.choice? dialect).bind LockFailureAction.ofName?

/-- Reads the settings of the cache. -/
def ofDocument? (dialect : Dialect) (document : Document) : Option CacheSettings := do
  let standard : CacheSettings := {}
  let fields ← document.record? dialect fieldNames
  let enabled ← Document.optional fields "enabled" standard.enabled Document.asBoolean?
  let keyFormat ← Document.optional fields "key_format" standard.keyFormat Document.asText?
  let lifetime ← Document.optional fields "ttl_secs" standard.lifetime Document.asWord?
  let lock ← Document.optional fields "lock" standard.lock Document.asBoolean?
  let lockWait ← Document.optional fields "lock_wait_secs" standard.lockWait Document.asWord?
  let onLockFailure ←
    Document.optional fields "on_lock_failure" standard.onLockFailure (readAction? dialect)
  let capacity ← Document.optional fields "max_capacity" standard.capacity Document.asWord?
  pure { enabled, keyFormat, lifetime, lock, lockWait, onLockFailure, capacity }

/-- Writes the settings of the cache. -/
def toDocument (cache : CacheSettings) : Document :=
  .table
    [("enabled", .boolean cache.enabled), ("key_format", .text cache.keyFormat),
      ("ttl_secs", .integer (Int.ofNat cache.lifetime.toNat)), ("lock", .boolean cache.lock),
      ("lock_wait_secs", .integer (Int.ofNat cache.lockWait.toNat)),
      ("on_lock_failure", .text cache.onLockFailure.name),
      ("max_capacity", .integer (Int.ofNat cache.capacity.toNat))]

end CacheSettings

namespace LogSection

/-- The names of the fields of the log, in order. -/
def fieldNames : List String := ["level", "format", "file_path"]

/-- Reads the settings of the log. -/
def ofDocument? (dialect : Dialect) (document : Document) : Option LogSection := do
  let standard : LogSection := {}
  let fields ← document.record? dialect fieldNames
  let level ← Document.optional fields "level" standard.level Document.asText?
  let format ←
    Document.optional fields "format" standard.format (LogFormat.ofDocument? dialect)
  let file ←
    Document.optional fields "file_path" standard.file (Document.asOptional? Document.asText?)
  pure { level, format, file }

/-- Writes the settings of the log. -/
def toDocument (log : LogSection) : Document :=
  .table
    ([("level", .text log.level), ("format", .text log.format.name)] ++
      Document.fieldOf "file_path" .text log.file)

end LogSection

namespace Config

/-- The name of the only field of the part about message files. -/
def directoryNames : List String := ["directory"]

/-- Reads the directory of the message files. -/
def readDirectory? (dialect : Dialect) (document : Document) : Option String := do
  let fields ← document.record? dialect directoryNames
  Document.optional fields "directory" standard.directory Document.asText?

/-- The names of the fields of a configuration, in order. -/
def fieldNames : List String :=
  ["default_language", "languages", "bundles", "locales", "messages", "cache", "logging"]

/-- Reads a configuration. -/
def ofDocument? (dialect : Dialect) (document : Document) : Option Config := do
  let fields ← document.record? dialect fieldNames
  let defaultLanguage ←
    Document.optional fields "default_language" standard.defaultLanguage Document.asText?
  let languages ←
    Document.optional fields "languages" standard.languages
      (Document.asList? (Language.ofDocument? dialect))
  let bundles ←
    Document.optional fields "bundles" standard.bundles (Document.asList? Document.asText?)
  let locales ←
    Document.optional fields "locales" standard.locales (Document.asList? Document.asText?)
  let directory ← Document.optional fields "messages" standard.directory (readDirectory? dialect)
  let cache ←
    Document.optional fields "cache" standard.cache (CacheSettings.ofDocument? dialect)
  let log ← Document.optional fields "logging" standard.log (LogSection.ofDocument? dialect)
  pure { defaultLanguage, languages, bundles, locales, directory, cache, log }

/-- Writes a configuration. -/
def toDocument (config : Config) : Document :=
  .table
    [("default_language", .text config.defaultLanguage),
      ("languages", .list (config.languages.map Language.toDocument)),
      ("bundles", .list (config.bundles.map .text)),
      ("locales", .list (config.locales.map .text)),
      ("messages", .table [("directory", .text config.directory)]),
      ("cache", config.cache.toDocument),
      ("logging", config.log.toDocument)]

end Config

end Phrasebook
