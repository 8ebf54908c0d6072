import Mathlib.Data.List.Induction
import Mathlib.Data.List.Nodup
import Phrasebook.Language.Registry

/-!
# What a registry of languages holds

A registry made from a list of languages holds, under every identifier, the last language of the
list with that identifier.  If the identifiers of the list are different, it holds exactly the list.

A registry is *keyed* when it holds every language under the language's own identifier.  All
registries that are made from lists are; what is true of keyed registries needs no list.

## Main statements

- `language?_ofLanguages`: the last language of an identifier is the one that is held.
- `language?_ofLanguages_eq_some_iff`: with different identifiers, the registry is the list.
-/

namespace Phrasebook.LanguageRegistry

variable {registry : LanguageRegistry} {locales : LocaleTable} {languages : List Language}

theorem language?_insert (registry : LanguageRegistry) (language : Language)
    (identifier : String) :
    (registry.insert language).language? identifier =
      if identifier = language.identifier then some language
      else registry.language? identifier :=
  Dict.get?_insert registry.known language.identifier language identifier

theorem ofLanguages_concat (locales : LocaleTable) (languages : List Language)
    (language : Language) :
    ofLanguages locales (languages ++ [language]) =
      (ofLanguages locales languages).insert language := by
  rw [ofLanguages, List.foldl_append]
  rfl

/-- The last language of an identifier is the one that is held. -/
theorem language?_ofLanguages (locales : LocaleTable) (languages : List Language)
    (identifier : String) :
    (ofLanguages locales languages).language? identifier =
      languages.reverse.find? fun language => language.identifier = identifier := by
  induction languages using List.reverseRecOn with
  | nil => rfl
  | append_singleton languages language ih =>
    rw [ofLanguages_concat, language?_insert, ih, List.reverse_concat, List.find?_cons]
    by_cases same : identifier = language.identifier
    · simp [same]
    · simp [same, Ne.symm same]

theorem mem_of_language?_ofLanguages {identifier : String} {language : Language}
    (held : (ofLanguages locales languages).language? identifier = some language) :
    language ∈ languages ∧ language.identifier = identifier := by
  rw [language?_ofLanguages] at held
  exact ⟨List.mem_reverse.1 (List.mem_of_find?_eq_some held), by simpa using List.find?_some held⟩

theorem isSome_language?_ofLanguages_iff {identifier : String} :
    ((ofLanguages locales languages).language? identifier).isSome = true ↔
      identifier ∈ languages.map Language.identifier := by
  rw [language?_ofLanguages, List.find?_isSome]
  simp

/-- With different identifiers, the registry holds exactly the languages of the list. -/
theorem language?_ofLanguages_eq_some_iff
    (distinct : (languages.map Language.identifier).Nodup) {identifier : String}
    {language : Language} :
    (ofLanguages locales languages).language? identifier = some language ↔
      language ∈ languages ∧ language.identifier = identifier := by
  refine ⟨mem_of_language?_ofLanguages, ?_⟩
  rintro ⟨mem, rfl⟩
  have known : ((ofLanguages locales languages).language? language.identifier).isSome = true :=
    isSome_language?_ofLanguages_iff.2 (List.mem_map_of_mem mem)
  obtain ⟨held, found⟩ := Option.isSome_iff_exists.1 known
  obtain ⟨heldMem, same⟩ := mem_of_language?_ofLanguages found
  rw [found, List.inj_on_of_nodup_map distinct heldMem mem same]

/-! ## Keyed registries -/

/-- A registry is **keyed** when it holds every language under its own identifier. -/
def IsKeyed (registry : LanguageRegistry) : Prop :=
  ∀ identifier language, registry.language? identifier = some language →
    language.identifier = identifier

theorem isKeyed_ofLanguages (locales : LocaleTable) (languages : List Language) :
    (ofLanguages locales languages).IsKeyed :=
  fun _ _ held => (mem_of_language?_ofLanguages held).2

/-- The languages of a keyed registry are those that it holds under their own identifiers. -/
theorem IsKeyed.mem_values_iff (keyed : registry.IsKeyed) {language : Language} :
    language ∈ registry.known.values ↔
      registry.language? language.identifier = some language := by
  constructor
  · intro mem
    obtain ⟨⟨identifier, held⟩, entry, rfl⟩ := List.mem_map.1 mem
    have found : registry.language? identifier = some held := Dict.get?_of_mem_entries entry
    rw [keyed identifier held found, found]
  · exact Dict.mem_values_of_get?

/-- A keyed registry holds its languages under their identifiers. -/
theorem IsKeyed.map_identifier_values (keyed : registry.IsKeyed) :
    registry.known.values.map Language.identifier = registry.known.keys := by
  rw [Dict.values, Dict.keys, List.map_map]
  refine List.map_congr_left fun entry mem => ?_
  exact keyed entry.1 entry.2 (Dict.get?_of_mem_entries mem)

theorem mem_values_ofLanguages_iff (distinct : (languages.map Language.identifier).Nodup)
    {language : Language} :
    language ∈ (ofLanguages locales languages).known.values ↔ language ∈ languages := by
  rw [(isKeyed_ofLanguages locales languages).mem_values_iff,
    language?_ofLanguages_eq_some_iff distinct]
  exact and_iff_left rfl

end Phrasebook.LanguageRegistry
