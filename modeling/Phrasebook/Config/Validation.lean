import Phrasebook.Config.Basic
import Phrasebook.Language.Fallback
import Phrasebook.Text.Blank

/-!
# Validation of configurations

A configuration is checked as a whole: every fault is reported, in a fixed order.

## Main definitions

- `ConfigFault` is a fault, with its wording.
- `Config.faults` lists the faults of a configuration.
- `fallbackCycle?` is the cycle that a language's fallbacks lead into.
-/

namespace Phrasebook

/-- What is wrong with a configuration. -/
inductive ConfigFault where
  | noLanguage
  | blankIdentifier
  | duplicateLanguage (identifier : String)
  | contradictingDefault (identifier defaultLanguage : String)
  | unknownDefault (defaultLanguage : String)
  | unknownFallback (identifier fallback : String)
  | fallbackCycle (identifiers : List String)
  | invalidBundleName (name : String)
  | duplicateBundle (name : String)
  | invalidLocale (tag : String)
  | zeroLifetime
  | zeroLockWait
  | missingPlace (place : String)
  | blankLevel
  deriving DecidableEq, Repr

/-- The wording of a fault. -/
def ConfigFault.message : ConfigFault → String
  | noLanguage => "at least one language must be configured"
  | blankIdentifier => "language identifiers must not be empty"
  | duplicateLanguage identifier => "duplicate language identifier '" ++ identifier ++ "'"
  | contradictingDefault identifier defaultLanguage =>
    "language '" ++ identifier ++ "' is marked default but default_language is '" ++
      defaultLanguage ++ "'"
  | unknownDefault defaultLanguage =>
    "default_language '" ++ defaultLanguage ++ "' is not a configured language"
  | unknownFallback identifier fallback =>
    "language '" ++ identifier ++ "' falls back to unknown language '" ++ fallback ++ "'"
  | fallbackCycle identifiers => "fallback cycle: " ++ " -> ".intercalate identifiers
  | invalidBundleName name => "invalid bundle name '" ++ name ++ "'"
  | duplicateBundle name => "duplicate bundle '" ++ name ++ "'"
  | invalidLocale tag => "invalid locale tag '" ++ tag ++ "'"
  | zeroLifetime => "cache.ttl_secs must be greater than zero"
  | zeroLockWait => "cache.lock_wait_secs must be greater than zero"
  | missingPlace place => "cache.key_format must contain " ++ place
  | blankLevel => "logging.level must not be empty"

/-- The characters that a bundle's name may begin with. -/
def isBundleNameStart (c : Char) : Bool := c.isAlphanum || c = '_'

/-- The characters of a bundle's name. -/
def isBundleNameChar (c : Char) : Bool := isBundleNameStart c || c = '.' || c = '-'

/-- Whether a text may be the name of a bundle.  Names become names of files and parts of keys. -/
def isBundleName (name : String) : Bool :=
  match name.toList with
  | [] => false
  | first :: rest => isBundleNameStart first && rest.all isBundleNameChar

/-- The cycle that fallbacks lead into from a registered language on, after the visited identifiers,
which are listed last first.  A cycle ends with the identifier that it begins with. -/
def cycleAfter? (registry : LanguageRegistry) (visited : List String)
    (language : { l : Language // l ∈ registry.known.values }) : Option (List String) :=
  let identifier := language.val.identifier
  if _new : identifier ∈ visited then
    some (identifier :: (visited.takeWhile fun other => other ≠ identifier).reverse ++ [identifier])
  else
    match registry.fallback? language.val with
    | none => none
    | some next => cycleAfter? registry (identifier :: visited) next
termination_by (registry.unvisited visited).length
decreasing_by exact registry.length_unvisited_cons_lt visited language _new

/-- The cycle that the fallbacks of a language lead into. -/
def fallbackCycle? (registry : LanguageRegistry) (language : Language) : Option (List String) :=
  match registry.fallback? language with
  | none => none
  | some next => cycleAfter? registry [language.identifier] next

namespace Config

/-- The languages by identifier, as far as they have one; of two with the same identifier the
last. -/
def candidates (config : Config) : LanguageRegistry :=
  LanguageRegistry.ofLanguages LocaleTable.empty
    (config.languages.filter fun language => !Text.isBlankText language.identifier)

/-- Faults of the languages by themselves, after the identifiers seen before. -/
def languageFaults (defaultLanguage : String) : List String → List Language → List ConfigFault
  | _, [] => []
  | seen, language :: rest =>
    let identifier := language.identifier
    let blank := Text.isBlankText identifier
    (if blank then [.blankIdentifier]
      else if identifier ∈ seen then [.duplicateLanguage identifier] else []) ++
    (if language.isDefault ∧ identifier ≠ defaultLanguage then
      [.contradictingDefault identifier defaultLanguage] else []) ++
    languageFaults defaultLanguage (if blank then seen else identifier :: seen) rest

/-- The fault of a fallback that is not configured. -/
def fallbackFault? (registry : LanguageRegistry) (language : Language) : Option ConfigFault :=
  match language.fallback with
  | none => none
  | some fallback =>
    if (registry.language? fallback).isSome then none
    else some (.unknownFallback language.identifier fallback)

/-- The members of a cycle in a fixed order. -/
def membersOf (cycle : List String) : List String :=
  cycle.dropLast.mergeSort fun a b => decide (a ≤ b)

/-- Faults of cycles, each cycle once, after the cycles with the given members. -/
def cycleFaults (registry : LanguageRegistry) :
    List (List String) → List Language → List ConfigFault
  | _, [] => []
  | reported, language :: rest =>
    match fallbackCycle? registry language with
    | none => cycleFaults registry reported rest
    | some cycle =>
      if membersOf cycle ∈ reported then cycleFaults registry reported rest
      else .fallbackCycle cycle :: cycleFaults registry (membersOf cycle :: reported) rest

/-- Faults of the languages, alone and together. -/
def allLanguageFaults (config : Config) : List ConfigFault :=
  if config.languages = [] then [.noLanguage]
  else
    let registry := config.candidates
    languageFaults config.defaultLanguage [] config.languages ++
    (if (registry.language? config.defaultLanguage).isSome then []
      else [.unknownDefault config.defaultLanguage]) ++
    config.languages.filterMap (fallbackFault? registry) ++
    cycleFaults registry [] config.languages

/-- Faults of the bundles, after the names seen before. -/
def bundleFaults : List String → List String → List ConfigFault
  | _, [] => []
  | seen, name :: rest =>
    (if isBundleName name then [] else [.invalidBundleName name]) ++
    (if name ∈ seen then [.duplicateBundle name] else []) ++
    bundleFaults (name :: seen) rest

/-- Faults of the locale tags. -/
def localeFaults (tags : List String) : List ConfigFault :=
  (tags.filter fun tag => (LanguageTag.parse? tag).isNone).map .invalidLocale

/-- Faults of the cache. -/
def cacheFaults (cache : CacheSettings) : List ConfigFault :=
  (if cache.lifetime = 0 then [.zeroLifetime] else []) ++
  (if cache.lock = true ∧ cache.lockWait = 0 then [.zeroLockWait] else []) ++
  ([CacheOptions.bundlePlace, CacheOptions.kindPlace].filter fun place =>
    !Text.occursIn place.toList cache.keyFormat.toList).map .missingPlace

/-- All faults of a configuration. -/
def faults (config : Config) : List ConfigFault :=
  config.allLanguageFaults ++ bundleFaults [] config.bundles ++ localeFaults config.locales ++
    cacheFaults config.cache ++
    (if Text.isBlankText config.log.level then [.blankLevel] else [])

end Config

end Phrasebook
