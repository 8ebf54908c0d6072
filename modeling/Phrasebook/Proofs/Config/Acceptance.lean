import Phrasebook.Config.Load
import Phrasebook.Proofs.Config.Cycle

/-!
# Which configurations are accepted

Validation goes on after a fault, so that all faults are reported at once: a blank identifier is
left out, a repeated one replaces the one before, and the later checks work on the registry of what
remains.  None of that shows in what is accepted.  A configuration is accepted exactly when it is
acceptable (`Config.IsAcceptable`), which speaks of the configured languages, bundles, tags and
settings only.

Each list of faults has a lemma that says when it is empty.  For the languages the order of the
checks matters: only if no identifier is blank or comes twice does the registry hold just what is
configured (`candidates_eq_ofLanguages`), and only if the fallbacks are configured as well do they
lead where the languages say (`leads_ofLanguages_iff`).

## Main statement

`validate_eq_ok_iff`: validation answers the configuration exactly when it is acceptable.
-/

namespace Phrasebook

open Relation

/-! ## Names of bundles -/

/-- A **word character** is an ASCII letter, an ASCII digit or the underscore. -/
def IsWordChar (c : Char) : Prop :=
  ('A' ≤ c ∧ c ≤ 'Z') ∨ ('a' ≤ c ∧ c ≤ 'z') ∨ ('0' ≤ c ∧ c ≤ '9') ∨ c = '_'

/-- A **bundle name** is a word character and then any number of word characters, full stops and
hyphens. -/
def IsBundleName (name : String) : Prop :=
  ∃ first rest, name.toList = first :: rest ∧ IsWordChar first ∧
    ∀ c ∈ rest, IsWordChar c ∨ c = '.' ∨ c = '-'

theorem decide_between_iff {c low high : Char} :
    (decide (c.val ≥ low.val) && decide (c.val ≤ high.val)) = true ↔ low ≤ c ∧ c ≤ high := by
  rw [Bool.and_eq_true, decide_eq_true_iff, decide_eq_true_iff]
  rfl

theorem isBundleNameStart_iff {c : Char} : isBundleNameStart c = true ↔ IsWordChar c := by
  have upper : c.isUpper = true ↔ 'A' ≤ c ∧ c ≤ 'Z' := decide_eq_true_iff
  have lower : c.isLower = true ↔ 'a' ≤ c ∧ c ≤ 'z' := decide_between_iff
  have digit : c.isDigit = true ↔ '0' ≤ c ∧ c ≤ '9' := decide_between_iff
  have classes : c.isAlphanum = ((c.isUpper || c.isLower) || c.isDigit) := rfl
  simp [isBundleNameStart, IsWordChar, classes, upper, lower, digit, or_assoc]

theorem isBundleNameChar_iff {c : Char} :
    isBundleNameChar c = true ↔ IsWordChar c ∨ c = '.' ∨ c = '-' := by
  simp [isBundleNameChar, isBundleNameStart_iff, or_assoc]

theorem isBundleName_iff {name : String} : isBundleName name = true ↔ IsBundleName name := by
  unfold isBundleName IsBundleName
  cases name.toList with
  | nil => simp
  | cons first rest => simp [isBundleNameStart_iff, isBundleNameChar_iff]

/-! ## Blank texts -/

theorem Text.isBlankText_eq_false_iff {text : String} :
    Text.isBlankText text = false ↔ ∃ c ∈ text.toList, Text.isBlank c = false := by
  simp [Text.isBlankText]

/-! ## Acceptable configurations -/

namespace Config

/-- A configured identifier **falls back to** another, which some language of that identifier
names. -/
def FallsBack (config : Config) (identifier fallback : String) : Prop :=
  ∃ language ∈ config.languages, language.identifier = identifier ∧
    language.fallback = some fallback

/-- What is asked of the languages of a configuration. -/
structure HasSoundLanguages (config : Config) : Prop where
  /-- There is a language. -/
  inhabited : config.languages ≠ []
  /-- No identifier is blank. -/
  named : ∀ language ∈ config.languages, ∃ c ∈ language.identifier.toList, Text.isBlank c = false
  /-- No identifier comes twice. -/
  distinct : (config.languages.map Language.identifier).Nodup
  /-- Only the default language may be marked as default. -/
  singleDefault : ∀ language ∈ config.languages, language.isDefault = true →
    language.identifier = config.defaultLanguage
  /-- The default language is configured. -/
  knownDefault : config.defaultLanguage ∈ config.languages.map Language.identifier
  /-- All fallbacks are configured. -/
  knownFallbacks : ∀ language ∈ config.languages, ∀ fallback, language.fallback = some fallback →
    fallback ∈ config.languages.map Language.identifier
  /-- No identifier comes back to itself along fallbacks. -/
  acyclic : ∀ identifier, ¬ TransGen config.FallsBack identifier identifier

/-- **What is asked of a configuration.** -/
structure IsAcceptable (config : Config) : Prop extends HasSoundLanguages config where
  /-- All bundles have bundle names. -/
  bundleNames : ∀ name ∈ config.bundles, IsBundleName name
  /-- No bundle comes twice. -/
  distinctBundles : config.bundles.Nodup
  /-- All locale tags can be read. -/
  readableLocales : ∀ tag ∈ config.locales, ∃ parsed, LanguageTag.parse? tag = some parsed
  /-- Messages are kept for some time. -/
  lifetime : config.cache.lifetime ≠ 0
  /-- A lock is waited for. -/
  lockWait : config.cache.lock = true → config.cache.lockWait ≠ 0
  /-- Keys tell bundles apart. -/
  bundlePlace : "{bundle}".toList <:+: config.cache.keyFormat.toList
  /-- Keys tell locks and messages apart. -/
  kindPlace : "{kind}".toList <:+: config.cache.keyFormat.toList
  /-- The level of the log is not blank. -/
  level : ∃ c ∈ config.log.level.toList, Text.isBlank c = false

/-! ## Faults of the languages -/

variable {registry : LanguageRegistry} {languages : List Language}

/-- The identifiers that have been seen and those that follow must all be different. -/
theorem languageFaults_eq_nil_iff {defaultLanguage : String} {seen : List String}
    (apart : seen.Nodup) :
    languageFaults defaultLanguage seen languages = [] ↔
      (∀ language ∈ languages, Text.isBlankText language.identifier = false) ∧
      (seen ++ languages.map Language.identifier).Nodup ∧
      ∀ language ∈ languages, language.isDefault = true →
        language.identifier = defaultLanguage := by
  induction languages generalizing seen with
  | nil => simp [languageFaults, apart]
  | cons language rest ih =>
    have middle : (seen ++ (language :: rest).map Language.identifier).Nodup ↔
        (language.identifier :: seen ++ rest.map Language.identifier).Nodup := List.nodup_middle
    cases blank : Text.isBlankText language.identifier with
    | true => simp [languageFaults, blank]
    | false =>
      rw [middle]
      by_cases again : language.identifier ∈ seen
      · simp [languageFaults, blank, again]
      · have onward := ih (List.nodup_cons.2 ⟨again, apart⟩)
        simp [languageFaults, blank, again, onward, and_left_comm]

theorem filterMap_fallbackFault?_eq_nil_iff :
    languages.filterMap (fallbackFault? registry) = [] ↔
      ∀ language ∈ languages, ∀ fallback, language.fallback = some fallback →
        (registry.language? fallback).isSome = true := by
  rw [List.filterMap_eq_nil_iff]
  refine forall₂_congr fun language _ => ?_
  cases names : language.fallback <;> simp [fallbackFault?, names, Option.isSome_iff_ne_none]

/-- The first cycle that is found is reported. -/
theorem cycleFaults_eq_nil_iff :
    cycleFaults registry [] languages = [] ↔
      ∀ language ∈ languages, fallbackCycle? registry language = none := by
  induction languages with
  | nil => simp [cycleFaults]
  | cons language rest ih =>
    cases found : fallbackCycle? registry language <;> simp [cycleFaults, found, ih]

/-- Without blank identifiers the candidates are the configured languages. -/
theorem candidates_eq_ofLanguages {config : Config}
    (named : ∀ language ∈ config.languages, Text.isBlankText language.identifier = false) :
    config.candidates = LanguageRegistry.ofLanguages LocaleTable.empty config.languages := by
  rw [candidates, List.filter_eq_self.2 fun language mem => by simp [named language mem]]

/-- If the identifiers are different, a registry leads where its languages say, as far as those
fallbacks are configured. -/
theorem leads_ofLanguages_iff {locales : LocaleTable}
    (distinct : (languages.map Language.identifier).Nodup) {identifier fallback : String} :
    (LanguageRegistry.ofLanguages locales languages).Leads identifier fallback ↔
      (∃ language ∈ languages, language.identifier = identifier ∧
        language.fallback = some fallback) ∧ fallback ∈ languages.map Language.identifier := by
  have held : ∀ {identifier language},
      (LanguageRegistry.ofLanguages locales languages).language? identifier = some language ↔
        language ∈ languages ∧ language.identifier = identifier :=
    LanguageRegistry.language?_ofLanguages_eq_some_iff distinct
  constructor
  · rintro ⟨here, next, heldHere, ⟨named, names, heldNext⟩, rfl⟩
    obtain ⟨mem, same⟩ := held.1 heldHere
    obtain ⟨memNext, rfl⟩ := held.1 heldNext
    exact ⟨⟨here, mem, same, names⟩, List.mem_map_of_mem memNext⟩
  · rintro ⟨⟨here, mem, same, names⟩, known⟩
    obtain ⟨next, memNext, sameNext⟩ := List.mem_map.1 known
    exact ⟨here, next, held.2 ⟨mem, same⟩, ⟨fallback, names, held.2 ⟨memNext, sameNext⟩⟩, sameNext⟩

/-- The searches for cycles from the configured languages report nothing exactly when no identifier
comes back to itself. -/
theorem cycleFaults_candidates_eq_nil_iff {config : Config}
    (named : ∀ language ∈ config.languages, Text.isBlankText language.identifier = false)
    (distinct : (config.languages.map Language.identifier).Nodup)
    (known : ∀ language ∈ config.languages, ∀ fallback, language.fallback = some fallback →
      fallback ∈ config.languages.map Language.identifier) :
    cycleFaults config.candidates [] config.languages = [] ↔
      ∀ identifier, ¬ TransGen config.FallsBack identifier identifier := by
  have leads : (LanguageRegistry.ofLanguages LocaleTable.empty config.languages).Leads =
      config.FallsBack := by
    funext identifier fallback
    refine propext ((leads_ofLanguages_iff distinct).trans (and_iff_left_of_imp ?_))
    rintro ⟨language, mem, -, names⟩
    exact known language mem fallback names
  rw [candidates_eq_ofLanguages named, cycleFaults_eq_nil_iff, ← leads,
    ← fallbackCycle?_eq_none_iff (LanguageRegistry.isKeyed_ofLanguages _ _)]
  simp only [LanguageRegistry.mem_values_ofLanguages_iff distinct]

/-- The languages have no faults exactly when they are sound. -/
theorem allLanguageFaults_eq_nil_iff {config : Config} :
    config.allLanguageFaults = [] ↔ config.HasSoundLanguages := by
  constructor
  · intro silent
    have inhabited : config.languages ≠ [] := by
      intro empty
      simp [allLanguageFaults, empty] at silent
    simp only [allLanguageFaults, if_neg inhabited, List.append_eq_nil_iff,
      languageFaults_eq_nil_iff List.nodup_nil, filterMap_fallbackFault?_eq_nil_iff,
      ite_eq_left_iff, List.cons_ne_nil, imp_false, not_not] at silent
    obtain ⟨⟨⟨⟨named, distinct, marked⟩, default⟩, fallbacks⟩, cycles⟩ := silent
    -- The registry of the later checks holds just the configured languages.
    rw [candidates_eq_ofLanguages named] at default fallbacks
    have known : ∀ language ∈ config.languages, ∀ fallback, language.fallback = some fallback →
        fallback ∈ config.languages.map Language.identifier :=
      fun language mem fallback names =>
        LanguageRegistry.isSome_language?_ofLanguages_iff.1 (fallbacks language mem fallback names)
    exact {
      inhabited, distinct
      named := fun language mem => Text.isBlankText_eq_false_iff.1 (named language mem)
      singleDefault := marked
      knownDefault := LanguageRegistry.isSome_language?_ofLanguages_iff.1 default
      knownFallbacks := known
      acyclic := (cycleFaults_candidates_eq_nil_iff named distinct known).1 cycles }
  · intro sound
    have named : ∀ language ∈ config.languages, Text.isBlankText language.identifier = false :=
      fun language mem => Text.isBlankText_eq_false_iff.2 (sound.named language mem)
    have held : ∀ identifier ∈ config.languages.map Language.identifier,
        (config.candidates.language? identifier).isSome = true := by
      intro identifier mem
      rw [candidates_eq_ofLanguages named]
      exact LanguageRegistry.isSome_language?_ofLanguages_iff.2 mem
    have alone : languageFaults config.defaultLanguage [] config.languages = [] :=
      (languageFaults_eq_nil_iff List.nodup_nil).2 ⟨named, sound.distinct, sound.singleDefault⟩
    have fallbacks : config.languages.filterMap (fallbackFault? config.candidates) = [] :=
      filterMap_fallbackFault?_eq_nil_iff.2 fun language mem fallback names =>
        held fallback (sound.knownFallbacks language mem fallback names)
    have cycles : cycleFaults config.candidates [] config.languages = [] :=
      (cycleFaults_candidates_eq_nil_iff named sound.distinct sound.knownFallbacks).2 sound.acyclic
    simp [allLanguageFaults, sound.inhabited, alone, held _ sound.knownDefault, fallbacks, cycles]

/-! ## Faults of the rest -/

/-- The names that have been seen and those that follow must all be different. -/
theorem bundleFaults_eq_nil_iff {seen names : List String} (apart : seen.Nodup) :
    bundleFaults seen names = [] ↔
      (∀ name ∈ names, IsBundleName name) ∧ (seen ++ names).Nodup := by
  induction names generalizing seen with
  | nil => simp [bundleFaults, apart]
  | cons name rest ih =>
    have middle : (seen ++ name :: rest).Nodup ↔ (name :: seen ++ rest).Nodup := List.nodup_middle
    rw [middle]
    by_cases again : name ∈ seen
    · simp [bundleFaults, again]
    · have onward := ih (List.nodup_cons.2 ⟨again, apart⟩)
      simp [bundleFaults, again, onward, isBundleName_iff, and_assoc]

theorem localeFaults_eq_nil_iff {tags : List String} :
    localeFaults tags = [] ↔ ∀ tag ∈ tags, ∃ parsed, LanguageTag.parse? tag = some parsed := by
  simp [localeFaults, List.filter_eq_nil_iff, Option.ne_none_iff_exists']

theorem cacheFaults_eq_nil_iff {cache : CacheSettings} :
    cacheFaults cache = [] ↔
      cache.lifetime ≠ 0 ∧ (cache.lock = true → cache.lockWait ≠ 0) ∧
      CacheOptions.bundlePlace.toList <:+: cache.keyFormat.toList ∧
      CacheOptions.kindPlace.toList <:+: cache.keyFormat.toList := by
  simp [cacheFaults, List.filter_eq_nil_iff, Text.occursIn_iff]

/-- A configuration has no faults exactly when it is acceptable. -/
theorem faults_eq_nil_iff {config : Config} : config.faults = [] ↔ config.IsAcceptable := by
  have level : (if Text.isBlankText config.log.level then [ConfigFault.blankLevel] else []) = [] ↔
      ∃ c ∈ config.log.level.toList, Text.isBlank c = false := by
    rw [← Text.isBlankText_eq_false_iff]
    simp
  simp only [faults, List.append_eq_nil_iff, allLanguageFaults_eq_nil_iff,
    bundleFaults_eq_nil_iff List.nodup_nil, localeFaults_eq_nil_iff, cacheFaults_eq_nil_iff, level,
    List.nil_append]
  constructor
  · rintro ⟨⟨⟨⟨sound, bundleNames, distinctBundles⟩, readableLocales⟩, lifetime, lockWait,
      bundlePlace, kindPlace⟩, level⟩
    exact { sound with
      bundleNames, distinctBundles, readableLocales, lifetime, lockWait, bundlePlace, kindPlace,
      level }
  · intro acceptable
    exact ⟨⟨⟨⟨acceptable.toHasSoundLanguages, acceptable.bundleNames,
      acceptable.distinctBundles⟩, acceptable.readableLocales⟩,
      acceptable.lifetime, acceptable.lockWait, acceptable.bundlePlace, acceptable.kindPlace⟩,
      acceptable.level⟩

theorem validate_eq_ok_iff_faults {config answer : Config} :
    config.validate = .ok answer ↔ answer = config ∧ config.faults = [] := by
  unfold validate
  cases config.faults with
  | nil => simp [eq_comm]
  | cons fault faults => simp

/-- **What is accepted.**  Validation answers exactly the acceptable configurations, as they are. -/
theorem validate_eq_ok_iff (config answer : Config) :
    config.validate = .ok answer ↔ answer = config ∧ config.IsAcceptable := by
  rw [validate_eq_ok_iff_faults, faults_eq_nil_iff]

end Config

end Phrasebook
