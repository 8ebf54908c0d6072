import Phrasebook.Config.Build
import Phrasebook.Proofs.Config.Acceptance
import Phrasebook.Proofs.Locale.Table

/-!
# Fallbacks of an accepted configuration end at a root

Validation follows the fallbacks of a configuration by itself, and the registry's chains follow them
again when messages are looked up.  The two walks share nothing: the first one carries a list of
visited identifiers and looks for a repetition, the second one breaks off at a repetition without a
word, and also at a fallback that it does not find.  This module shows that the second one has no
occasion to, if the first one has found nothing.

The registry of a configuration holds the configured languages (`IsHeldBy`).  The default one is
marked on the way there, which changes no identifier and no fallback.  So all languages of a route
through such a registry are configured ones.  The last of them cannot name an unknown fallback, and
it cannot go back to an earlier language either, since that one leads to it.  What remains is that
it has no fallback.

## Main statement

`reachesRoot_of_validate`: from every language of an accepted configuration, the chain follows the
fallbacks up to a language that has none.
-/

namespace Phrasebook

open Relation

namespace Config

variable {config : Config} {registry : LanguageRegistry}

/-! ## The registry of a configuration -/

theorem map_identifier_resolvedLanguages (config : Config) :
    config.resolvedLanguages.map Language.identifier =
      config.languages.map Language.identifier := by
  rw [resolvedLanguages, List.map_map]
  refine List.map_congr_left fun language _ => ?_
  show (if language.identifier = config.defaultLanguage then { language with isDefault := true }
    else language).identifier = language.identifier
  split <;> rfl

/-- Marking the default language changes neither identifiers nor fallbacks. -/
theorem exists_configured_of_mem_resolvedLanguages {language : Language}
    (mem : language ∈ config.resolvedLanguages) :
    ∃ configured ∈ config.languages, configured.identifier = language.identifier ∧
      configured.fallback = language.fallback := by
  obtain ⟨configured, memConfigured, rfl⟩ := List.mem_map.1 mem
  refine ⟨configured, memConfigured, ?_⟩
  split <;> exact ⟨rfl, rfl⟩

/-- A registry **holds the languages of a configuration**, each under its identifier, and no
others. -/
def IsHeldBy (config : Config) (registry : LanguageRegistry) : Prop :=
  ∀ identifier language, registry.language? identifier = some language ↔
    language ∈ config.resolvedLanguages ∧ language.identifier = identifier

/-- An acceptable configuration has a registry, which holds its languages. -/
theorem IsAcceptable.exists_languageRegistry (acceptable : config.IsAcceptable) :
    ∃ registry, config.languageRegistry = .ok registry ∧ config.IsHeldBy registry := by
  obtain ⟨locales, table⟩ :
      ∃ locales, LocaleTable.empty.insertTags config.locales = .ok locales :=
    LocaleTable.exists_insertTags_eq_ok acceptable.readableLocales
  have distinct : (config.resolvedLanguages.map Language.identifier).Nodup :=
    config.map_identifier_resolvedLanguages.symm ▸ acceptable.distinct
  refine ⟨{ LanguageRegistry.ofLanguages locales config.resolvedLanguages with
    loader := some (.ok config.resolvedLanguages) }, ?_, ?_⟩
  · simp [languageRegistry, localeTable, LocaleTable.ofTags, table, bind, Except.bind, pure,
      Except.pure]
  · intro identifier language
    show (LanguageRegistry.ofLanguages locales config.resolvedLanguages).language? identifier =
      some language ↔ _
    exact LanguageRegistry.language?_ofLanguages_eq_some_iff distinct

theorem IsHeldBy.mem_languages_iff (held : config.IsHeldBy registry) {language : Language} :
    language ∈ registry.languages ↔ language ∈ config.resolvedLanguages := by
  have keyed : registry.IsKeyed := fun identifier other found => ((held identifier other).1 found).2
  rw [LanguageRegistry.languages, List.mem_mergeSort, keyed.mem_values_iff, held]
  exact and_iff_left rfl

/-! ## Routes through it -/

theorem IsHeldBy.mem_of_fallsBackTo (held : config.IsHeldBy registry) {here next : Language}
    (step : registry.FallsBackTo here next) : next ∈ config.resolvedLanguages := by
  obtain ⟨identifier, -, found⟩ := step
  exact ((held identifier next).1 found).1

/-- A registered step is a configured one. -/
theorem IsHeldBy.fallsBack (held : config.IsHeldBy registry) {here next : Language}
    (mem : here ∈ config.resolvedLanguages) (step : registry.FallsBackTo here next) :
    config.FallsBack here.identifier next.identifier := by
  obtain ⟨identifier, names, found⟩ := step
  obtain rfl := ((held identifier next).1 found).2
  obtain ⟨configured, memConfigured, same, sameFallback⟩ :=
    exists_configured_of_mem_resolvedLanguages mem
  exact ⟨configured, memConfigured, same, sameFallback.trans names⟩

/-- All languages of a route are configured. -/
theorem IsHeldBy.mem_of_mem_route (held : config.IsHeldBy registry) {language : Language}
    {route : List Language} (mem : language ∈ config.resolvedLanguages)
    (isRoute : registry.IsRoute [] language route) :
    ∀ visited ∈ route, visited ∈ config.resolvedLanguages := by
  obtain ⟨rest, rfl⟩ := isRoute.exists_eq_cons
  refine isRoute.follows.induction (· ∈ config.resolvedLanguages) _ ?_ fun _ => mem
  intro here next step _
  exact held.mem_of_fallsBackTo step

/-- All languages of a route lead to its last one. -/
theorem IsHeldBy.reflTransGen_last (held : config.IsHeldBy registry) {language last : Language}
    {route : List Language} (mem : language ∈ config.resolvedLanguages)
    (isRoute : registry.IsRoute [] language route) (isLast : route.getLast? = some last) :
    ∀ visited ∈ route, ReflTransGen config.FallsBack visited.identifier last.identifier := by
  have leads : ∀ visited ∈ route, visited ∈ config.resolvedLanguages →
      ReflTransGen config.FallsBack visited.identifier last.identifier := by
    refine isRoute.follows.backwards_induction _ _ ?_ ?_
    · intro here next step onward memHere
      exact .head (held.fallsBack memHere step) (onward (held.mem_of_fallsBackTo step))
    · intro inhabited _
      obtain rfl := Option.some.inj ((List.getLast?_eq_some_getLast inhabited).symm.trans isLast)
      exact .refl
  intro visited memVisited
  exact leads visited memVisited (held.mem_of_mem_route mem isRoute visited memVisited)

/-- **A route ends where there is no fallback**, if the languages are sound. -/
theorem HasSoundLanguages.fallback_last (sound : config.HasSoundLanguages)
    (held : config.IsHeldBy registry) {language last : Language} {route : List Language}
    (mem : language ∈ config.resolvedLanguages) (isRoute : registry.IsRoute [] language route)
    (isLast : route.getLast? = some last) : last.fallback = none := by
  have memLast : last ∈ config.resolvedLanguages :=
    held.mem_of_mem_route mem isRoute last (List.mem_of_getLast? isLast)
  cases isRoute.ends last isLast with
  | root unnamed => exact unnamed
  | dangling identifier names unknown =>
    -- The fallback is configured, so it is held.
    obtain ⟨configured, memConfigured, -, sameFallback⟩ :=
      exists_configured_of_mem_resolvedLanguages memLast
    have known := sound.knownFallbacks configured memConfigured identifier
      (sameFallback.trans names)
    rw [← map_identifier_resolvedLanguages] at known
    obtain ⟨next, memNext, named⟩ := List.mem_map.1 known
    rw [(held identifier next).2 ⟨memNext, named⟩] at unknown
    cases unknown
  | repetition next step again =>
    -- The language that comes back leads to the last one, and the last one leads back to it.
    obtain ⟨earlier, memEarlier, same⟩ := List.mem_map.1 again
    have forth := held.reflTransGen_last mem isRoute isLast earlier memEarlier
    have back := held.fallsBack memLast step
    rw [← same] at back
    exact absurd (TransGen.tail' forth back) (sound.acyclic earlier.identifier)

/-- A language **reaches a root** in a registry: its chain lists a route of configured languages,
the last of which has no fallback. -/
def ReachesRoot (config : Config) (registry : LanguageRegistry) (language : Language) : Prop :=
  ∃ route, registry.IsRoute [] language route ∧
    registry.chain language = route.map Language.identifier ∧
    (∀ visited ∈ route, ∃ configured ∈ config.languages,
      configured.identifier = visited.identifier ∧ configured.fallback = visited.fallback) ∧
    ∃ last ∈ route.getLast?, last.fallback = none

theorem HasSoundLanguages.reachesRoot (sound : config.HasSoundLanguages)
    (held : config.IsHeldBy registry) {language : Language}
    (mem : language ∈ config.resolvedLanguages) : config.ReachesRoot registry language := by
  obtain ⟨route, isRoute, chain⟩ := registry.exists_isRoute_chain language
  refine ⟨route, isRoute, chain, ?_, ?_⟩
  · intro visited memVisited
    exact exists_configured_of_mem_resolvedLanguages
      (held.mem_of_mem_route mem isRoute visited memVisited)
  · obtain ⟨rest, rfl⟩ := isRoute.exists_eq_cons
    have isLast := List.getLast?_eq_some_getLast (List.cons_ne_nil language rest)
    exact ⟨_, isLast, sound.fallback_last held mem isRoute isLast⟩

/-- **Chains of an accepted configuration are complete.**  The registry of an accepted configuration
can be made and holds the configured languages, and each of them reaches a root in it.  So no chain
is cut by a repetition or by an unknown fallback. -/
theorem reachesRoot_of_validate (accepted : config.validate = .ok config) :
    ∃ registry, config.languageRegistry = .ok registry ∧
      (∀ language, language ∈ registry.languages ↔ language ∈ config.resolvedLanguages) ∧
      ∀ language ∈ registry.languages, config.ReachesRoot registry language := by
  have acceptable : config.IsAcceptable :=
    faults_eq_nil_iff.1 (validate_eq_ok_iff_faults.1 accepted).2
  obtain ⟨registry, made, held⟩ := acceptable.exists_languageRegistry
  refine ⟨registry, made, fun language => held.mem_languages_iff, ?_⟩
  intro language registered
  exact acceptable.reachesRoot held (held.mem_languages_iff.1 registered)

/-- A regional language that falls back to a language that falls back to the default one. -/
def regional : Config where
  languages :=
    [{ identifier := "en", name := "English", isDefault := true },
      { identifier := "es", name := "Español", fallback := some "en" },
      { identifier := "es_mx", name := "Español de México", fallback := some "es" }]

theorem reachesRoot_regional :
    regional.validate = .ok regional ∧
      ∃ registry, regional.languageRegistry = .ok registry ∧
        (∀ language, language ∈ registry.languages ↔ language ∈ regional.resolvedLanguages) ∧
        ∀ language ∈ registry.languages, regional.ReachesRoot registry language := by
  have accepted : regional.validate = .ok regional :=
    validate_eq_ok_iff_faults.2 ⟨rfl, by decide +kernel⟩
  exact ⟨accepted, reachesRoot_of_validate accepted⟩

end Config

end Phrasebook
