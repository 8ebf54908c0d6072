import Phrasebook.Cache.Source
import Phrasebook.Config.Load
import Phrasebook.Engine.Basic
import Phrasebook.Source.Directory

/-!
# What a configuration describes

The languages of a configuration with the default one marked, the registry that holds them, the
options of the cache and of the log, the source of the messages, and the engine with the
configured bundles.

## Main definitions

- `Config.languageRegistry` and `Config.messageSource`.
- `Config.build` makes an engine and loads the configured bundles in order.
-/

namespace Phrasebook

/-- The options of a cached source. -/
def CacheSettings.options (cache : CacheSettings) : CacheOptions where
  keyFormat := cache.keyFormat
  lifetime := Duration.ofSeconds cache.lifetime.toNat
  locking :=
    { lock := cache.lock
      wait := Duration.ofSeconds cache.lockWait.toNat
      failureAction := cache.onLockFailure }

/-- The settings of the log. -/
def LogSection.settings (log : LogSection) : LogSettings :=
  { level := log.level, format := log.format, file := log.file }

namespace Config

/-- The languages, of which the one named as default is marked. -/
def resolvedLanguages (config : Config) : List Language :=
  config.languages.map fun language =>
    if language.identifier = config.defaultLanguage then { language with isDefault := true }
    else language

/-- The locale table of the configured tags. -/
def localeTable (config : Config) : Except ConfigError LocaleTable :=
  match LocaleTable.ofTags config.locales with
  | .ok table => .ok table
  | .error error => .error (.load error)

/-- The registry of the configured languages.  Loading it anew restores them. -/
def languageRegistry (config : Config) : Except ConfigError LanguageRegistry := do
  let locales ← config.localeTable
  pure
    { LanguageRegistry.ofLanguages locales config.resolvedLanguages with
      loader := some (.ok config.resolvedLanguages) }

/-- The source that reads the message files, behind a cache if caching is enabled. -/
def messageSource (config : Config) (tree : FileTree) (working : List String) :
    FrontedSource DirectorySource MemoryCache :=
  let source : DirectorySource := ⟨⟨config.directory⟩, tree, working⟩
  if config.cache.enabled then
    .cached
      { source
        backend := MemoryCache.ofCapacity config.cache.capacity
        options := config.cache.options }
  else .direct source

/-- Makes an engine and loads the configured bundles in order, up to the first failure.  There is no
answer only if a load never completes. -/
def build (ε : Type) [MessageEntry ε] (config : Config) (tree : FileTree) (working : List String) :
    Option (Except ConfigError (Engine ε × FrontedSource DirectorySource MemoryCache)) :=
  match config.languageRegistry with
  | .error error => some (.error error)
  | .ok registry =>
    let begun : Engine ε × FrontedSource DirectorySource MemoryCache :=
      ({ registry }, config.messageSource tree working)
    match (Engine.addBundles config.bundles).run begun with
    | (none, _) => none
    | (some (.error error), _) => some (.error (.load error))
    | (some (.ok ()), built) => some (.ok built)

end Config

end Phrasebook
