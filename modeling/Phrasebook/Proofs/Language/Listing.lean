import Phrasebook.Proofs.Language.Registry
import Phrasebook.Proofs.Text.ByteOrder

/-!
# How a registry lists its languages

A registry holds its languages by identifier in no particular order, and sorts them whenever they
are listed.  If it is keyed, no two of them have the same identifier.  So there is only one order to
list them in, and of the languages that are marked as default, the one that is found is the one with
the least identifier.

## Main statements

- `IsKeyed.pairwise_languages`: identifiers get greater and greater along the list.
- `IsKeyed.defaultLanguage?_eq_some_iff`: the default language is the first marked one.
-/

namespace Phrasebook

/-- In a list in which each element precedes all that follow, the first one with a property is the
one that precedes all others with it. -/
theorem find?_eq_some_iff_of_pairwise {α : Type} {r : α → α → Prop} {accepts : α → Bool} {a : α}
    {elements : List α} (asymm : ∀ b c, r b c → ¬ r c b) (sorted : elements.Pairwise r) :
    elements.find? accepts = some a ↔
      a ∈ elements ∧ accepts a = true ∧
        ∀ other ∈ elements, accepts other = true → other = a ∨ r a other := by
  have first : ∀ {b}, elements.find? accepts = some b →
      ∀ other ∈ elements, accepts other = true → other = b ∨ r b other := by
    intro b found other mem accepted
    obtain ⟨-, before, after, rfl, rejected⟩ := List.find?_eq_some_iff_append.1 found
    rcases List.mem_append.1 mem with mem | mem
    · have notAccepted := rejected other mem
      rw [accepted] at notAccepted
      cases notAccepted
    · rcases List.mem_cons.1 mem with same | mem
      · exact Or.inl same
      · exact Or.inr ((List.pairwise_cons.1 (List.pairwise_append.1 sorted).2.1).1 other mem)
  constructor
  · intro found
    exact ⟨List.mem_of_find?_eq_some found, List.find?_some found, first found⟩
  · rintro ⟨mem, accepted, least⟩
    obtain ⟨b, found⟩ := Option.isSome_iff_exists.1
      (List.find?_isSome.2 ⟨a, mem, accepted⟩)
    rcases first found a mem accepted with rfl | before
    · exact found
    · rcases least b (List.mem_of_find?_eq_some found) (List.find?_some found) with rfl | after
      · exact found
      · exact absurd after (asymm b a before)

namespace LanguageRegistry

variable {registry : LanguageRegistry}

theorem mem_languages_iff {language : Language} :
    language ∈ registry.languages ↔ language ∈ registry.known.values := by
  rw [languages, List.mem_mergeSort]

/-- Every language is listed once. -/
theorem length_languages (registry : LanguageRegistry) :
    registry.languages.length = registry.size := by
  rw [languages, List.length_mergeSort, Dict.values, List.length_map]
  rfl

/-- **A keyed registry lists its languages in the order of their identifiers**, each of which is
strictly greater than the one before. -/
theorem IsKeyed.pairwise_languages (keyed : registry.IsKeyed) :
    registry.languages.Pairwise fun language next =>
      Text.Precedes language.identifier next.identifier := by
  have sorted : registry.languages.Pairwise fun language next =>
      identifierLe language next = true := by
    refine List.pairwise_mergeSort ?_ ?_ _
    · simpa [identifierLe] using fun a b c : Language => String.le_trans
    · simpa [identifierLe] using fun a b : Language => String.le_total a.identifier b.identifier
  have distinct : (registry.languages.map Language.identifier).Nodup := by
    refine ((List.mergeSort_perm _ _).map Language.identifier).nodup_iff.2 ?_
    rw [keyed.map_identifier_values]
    exact registry.known.nodup_keys
  refine (sorted.and (List.pairwise_map.1 distinct)).imp ?_
  rintro language next ⟨le, ne⟩
  rw [Text.precedes_iff_lt]
  by_contra notLess
  exact ne (String.le_antisymm (by simpa [identifierLe] using le) (String.not_lt.1 notLess))

/-- **The default language** of a keyed registry is the one that is marked as default and has the
least identifier of all that are. -/
theorem IsKeyed.defaultLanguage?_eq_some_iff (keyed : registry.IsKeyed) {language : Language} :
    registry.defaultLanguage? = some language ↔
      language ∈ registry.languages ∧ language.isDefault = true ∧
        ∀ other ∈ registry.languages, other.isDefault = true →
          other = language ∨ Text.Precedes language.identifier other.identifier :=
  find?_eq_some_iff_of_pairwise (fun _ _ => List.lt_asymm) keyed.pairwise_languages

/-- There is no default language exactly if no language is marked as default. -/
theorem defaultLanguage?_eq_none_iff :
    registry.defaultLanguage? = none ↔
      ∀ language ∈ registry.languages, language.isDefault = false := by
  rw [defaultLanguage?, List.find?_eq_none]
  simp

end LanguageRegistry

end Phrasebook
