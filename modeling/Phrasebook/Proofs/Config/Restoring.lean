import Phrasebook.Proofs.Config.Roots
import Phrasebook.Proofs.Language.History

/-!
# A registry that is loaded anew holds the configured languages

The registry of a configuration has a loader, which answers the configured languages again.  What
happens to the registry in between does not matter, because single changes leave the loader and the
locale table alone, and those two are all that loading needs.  It does not merge anything: neither a
language that was added nor a mark on it is left over.

A configuration may be without a mark on its default language.  The mark is then set on the way to
the registry, and the loader has to answer the languages with the mark.  It answers the same list
that the registry was made from, so that what is loaded is the registry as it was at first.

## Main statements

- `reload_foldl_apply`: loading undoes all changes to a registry that was made from what is loaded.
- `reload_eq_of_validate`: so it does for the registry of an accepted configuration, which shows the
  configured languages.
-/

namespace Phrasebook

namespace LanguageRegistry

/-! ## What changes leave alone -/

theorem locales_foldl_apply (registry : LanguageRegistry) (edits : List RegistryEdit) :
    (edits.foldl RegistryEdit.apply registry).locales = registry.locales := by
  induction edits generalizing registry with
  | nil => rfl
  | cons edit rest ih =>
    rw [List.foldl_cons, ih]
    cases edit <;> rfl

theorem loader_foldl_apply (registry : LanguageRegistry) (edits : List RegistryEdit) :
    (edits.foldl RegistryEdit.apply registry).loader = registry.loader := by
  induction edits generalizing registry with
  | nil => rfl
  | cons edit rest ih =>
    rw [List.foldl_cons, ih]
    cases edit <;> rfl

/-- Languages that are added in turn make the same dictionary as languages that are loaded. -/
theorem known_ofLanguages (locales : LocaleTable) (languages : List Language) :
    (ofLanguages locales languages).known =
      Dict.ofList (languages.map fun language => (language.identifier, language)) := by
  induction languages using List.reverseRecOn with
  | nil => rfl
  | append_singleton languages language ih =>
    rw [ofLanguages_concat, List.map_append, Dict.ofList, Dict.insertAll, List.foldl_append]
    show (ofLanguages locales languages).known.insert language.identifier language = _
    rw [ih]
    rfl

/-- **Loading undoes all changes.**  A registry that was made from the languages that its loader
answers is the same again after any changes and a load. -/
theorem reload_foldl_apply {registry : LanguageRegistry} {loaded : List Language}
    (known : registry.known =
      Dict.ofList (loaded.map fun language => (language.identifier, language)))
    (loader : registry.loader = some (.ok loaded)) (edits : List RegistryEdit) :
    (edits.foldl RegistryEdit.apply registry).reload = .ok registry := by
  have locales := locales_foldl_apply registry edits
  have sameLoader := loader_foldl_apply registry edits
  rw [loader] at sameLoader
  rw [reload, sameLoader]
  dsimp only
  rw [locales, ← loader, ← known]

end LanguageRegistry

namespace Config

variable {config : Config} {registry : LanguageRegistry}

/-! ## The registry as it was made -/

/-- **A registry shows the languages of a configuration** as they are configured, but for the mark
on the default one. -/
structure IsShownBy (config : Config) (registry : LanguageRegistry) : Prop where
  /-- All languages are listed, once and with all their fields, and no others are. -/
  lists : registry.languages.Perm (config.languages.map fun configured =>
    if configured.identifier = config.defaultLanguage then { configured with isDefault := true }
    else configured)
  /-- Their identifiers get strictly greater, byte by byte. -/
  ordered : registry.languages.Pairwise fun language next =>
    Text.Precedes language.identifier next.identifier
  /-- One language is marked, which is the default one, under the name that is configured. -/
  marked : ∃ language ∈ registry.languages, language.identifier = config.defaultLanguage ∧
    registry.defaultLanguage? = some language ∧
      ∀ other ∈ registry.languages, other.isDefault = true ↔ other = language

/-- In sound languages just the default language is marked. -/
theorem HasSoundLanguages.isDefault_iff (sound : config.HasSoundLanguages) {language : Language}
    (mem : language ∈ config.resolvedLanguages) :
    language.isDefault = true ↔ language.identifier = config.defaultLanguage := by
  obtain ⟨configured, memConfigured, rfl⟩ := List.mem_map.1 mem
  split
  · rename_i isDefault
    exact iff_of_true rfl isDefault
  · rename_i other
    exact iff_of_false (fun marked => other (sound.singleDefault configured memConfigured marked))
      other

/-- A registry that holds the languages of a sound configuration shows them. -/
theorem HasSoundLanguages.isShownBy (sound : config.HasSoundLanguages)
    (held : config.IsHeldBy registry) : config.IsShownBy registry := by
  have keyed : registry.IsKeyed := fun identifier other found => ((held identifier other).1 found).2
  have ordered := keyed.pairwise_languages
  have distinct : (config.resolvedLanguages.map Language.identifier).Nodup :=
    config.map_identifier_resolvedLanguages.symm ▸ sound.distinct
  have lists : registry.languages.Perm config.resolvedLanguages := by
    have once : registry.languages.Nodup := by
      refine List.Pairwise.imp ?_ ordered
      rintro language _ precedes rfl
      exact List.lt_irrefl _ precedes
    rw [List.perm_ext_iff_of_nodup once distinct.of_map]
    exact fun language => held.mem_languages_iff
  obtain ⟨default, memDefault, named⟩ : ∃ default ∈ config.resolvedLanguages,
      default.identifier = config.defaultLanguage := by
    rw [← List.mem_map, map_identifier_resolvedLanguages]
    exact sound.knownDefault
  have listed := lists.mem_iff.2 memDefault
  have marked : ∀ other ∈ registry.languages, other.isDefault = true ↔ other = default := by
    intro other listedOther
    have memOther := lists.mem_iff.1 listedOther
    rw [sound.isDefault_iff memOther, ← named]
    exact ⟨List.inj_on_of_nodup_map distinct memOther memDefault, congrArg _⟩
  refine ⟨lists, ordered, default, listed, named, ?_, marked⟩
  refine keyed.defaultLanguage?_eq_some_iff.2 ⟨listed, (marked default listed).2 rfl, ?_⟩
  exact fun other listedOther isDefault => Or.inl ((marked other listedOther).1 isDefault)

/-- The registry of a configuration is made from the languages that its loader answers. -/
theorem known_and_loader_of_languageRegistry (made : config.languageRegistry = .ok registry) :
    registry.known = Dict.ofList
        (config.resolvedLanguages.map fun language => (language.identifier, language)) ∧
      registry.loader = some (.ok config.resolvedLanguages) := by
  rw [languageRegistry] at made
  cases table : config.localeTable with
  | error error =>
    rw [table] at made
    cases made
  | ok locales =>
    rw [table] at made
    cases made
    exact ⟨LanguageRegistry.known_ofLanguages locales config.resolvedLanguages, rfl⟩

/-- **Loading restores the configured languages.**  The registry of an accepted configuration can be
made and shows the configured languages, with a mark on the default one and on no other.  After any
changes to it, loading succeeds and comes to this registry again. -/
theorem reload_eq_of_validate (accepted : config.validate = .ok config) :
    ∃ registry, config.languageRegistry = .ok registry ∧ config.IsShownBy registry ∧
      ∀ edits : List RegistryEdit,
        (edits.foldl RegistryEdit.apply registry).reload = .ok registry := by
  have acceptable : config.IsAcceptable :=
    faults_eq_nil_iff.1 (validate_eq_ok_iff_faults.1 accepted).2
  obtain ⟨registry, made, held⟩ := acceptable.exists_languageRegistry
  obtain ⟨known, loader⟩ := known_and_loader_of_languageRegistry made
  exact ⟨registry, made, acceptable.isShownBy held,
    LanguageRegistry.reload_foldl_apply known loader⟩

/-- The default language is neither the first one nor marked by itself. -/
def bilingual : Config where
  defaultLanguage := "es"
  languages :=
    [{ identifier := "en", name := "English", fallback := some "es" },
      { identifier := "es", name := "Español", country := some "ES" }]

/-- The default language is removed, and two others come in, both of them marked. -/
theorem reload_eq_bilingual :
    bilingual.validate = .ok bilingual ∧
      (∃ registry, bilingual.languageRegistry = .ok registry ∧ bilingual.IsShownBy registry ∧
        ∀ edits : List RegistryEdit,
          (edits.foldl RegistryEdit.apply registry).reload = .ok registry) ∧
      ∃ registry, bilingual.languageRegistry = .ok registry ∧
        (List.foldl RegistryEdit.apply registry
          [.remove "es", .insert { identifier := "de", name := "Deutsch", isDefault := true },
            .insert { identifier := "en", name := "Englisch", isDefault := true }]).reload =
          .ok registry := by
  have accepted : bilingual.validate = .ok bilingual :=
    validate_eq_ok_iff_faults.2 ⟨rfl, by decide +kernel⟩
  obtain ⟨registry, made, -, reload⟩ := reload_eq_of_validate accepted
  exact ⟨accepted, reload_eq_of_validate accepted, registry, made, reload _⟩

end Config

end Phrasebook
