import Phrasebook.Cache.Options
import Phrasebook.Files.Path
import Phrasebook.Language.Basic
import Phrasebook.Locale.Table
import Phrasebook.Logging

/-!
# Configurations

A configuration names the languages, the bundles to load and where they are, and how they are
cached.  Every part has a default.
-/

namespace Phrasebook

/-- How loaded bundles are cached.  Times are in seconds. -/
structure CacheSettings where
  enabled : Bool := true
  keyFormat : String := "cache:{bundle}:{kind}"
  lifetime : UInt64 := 86400
  lock : Bool := true
  lockWait : UInt64 := 60
  onLockFailure : LockFailureAction := .fail
  capacity : UInt64 := 1024
  deriving DecidableEq, Repr

/-- Which lines the log keeps, how they are written, and the file they are written to. -/
structure LogSection where
  level : String := "info"
  format : LogFormat := .pretty
  file : Option String := none
  deriving DecidableEq, Repr

/-- A configuration: the identifier of the default language, the languages, the bundles in the
order in which they are loaded, the tags of the locale table, the directory of the message files,
the cache and the log. -/
structure Config where
  defaultLanguage : String := "en"
  languages : List Language :=
    [{ identifier := "en"
       name := "English"
       isDefault := true
       country := some "US"
       locale := some "en" }]
  bundles : List String := []
  locales : List String := LocaleTable.commonTags
  directory : String := "locales"
  cache : CacheSettings := {}
  log : LogSection := {}
  deriving DecidableEq, Repr

namespace Config

/-- The configuration used where nothing is said. -/
def standard : Config := {}

/-- Whether two optional paths are the same. -/
def isSameFile : Option String → Option String → Bool
  | none, none => true
  | some path, some other => Path.isSame path other
  | _, _ => false

/-- Whether two configurations say the same; their paths may be spelled differently. -/
def isSame (config other : Config) : Bool :=
  Path.isSame config.directory other.directory && isSameFile config.log.file other.log.file &&
    config = { other with
      directory := config.directory
      log := { other.log with file := config.log.file } }

end Config

end Phrasebook
