import Phrasebook.Language.Registry

/-!
# Fallback chains

A message that is missing in a language is looked for in the language it falls back to, and so on.
The chain begins with the requested language, which need not be registered, and ends at a language
without a fallback, at a fallback that is not registered, or before the first identifier that would
come a second time.

## Main definitions

- `LanguageRegistry.fallback?` is the registered language that a language falls back to.
- `LanguageRegistry.chain` lists the identifiers of the chain.

## Design notes

Only the first identifier of a chain may be unregistered.  All further ones are identifiers of
registered languages and differ from each other, so the chain is finite: the registered identifiers
not yet visited become fewer with every step.
-/

namespace Phrasebook

namespace LanguageRegistry

/-- The registered language that a language falls back to. -/
def fallback? (registry : LanguageRegistry) (language : Language) :
    Option { l : Language // l ∈ registry.known.values } :=
  match language.fallback with
  | none => none
  | some identifier =>
    match found : registry.known.get? identifier with
    | none => none
    | some l => some ⟨l, Dict.mem_values_of_get? found⟩

/-- The identifiers of registered languages that have not been visited. -/
def unvisited (registry : LanguageRegistry) (visited : List String) : List String :=
  (registry.known.values.map Language.identifier).filter fun identifier =>
    decide (identifier ∉ visited)

theorem length_unvisited_cons_lt (registry : LanguageRegistry) (visited : List String)
    (language : { l : Language // l ∈ registry.known.values })
    (new : language.val.identifier ∉ visited) :
    (registry.unvisited (language.val.identifier :: visited)).length <
      (registry.unvisited visited).length := by
  have split : registry.unvisited (language.val.identifier :: visited) =
      (registry.unvisited visited).filter fun identifier =>
        decide (identifier ≠ language.val.identifier) := by
    unfold unvisited
    rw [List.filter_filter]
    congr 1
    funext identifier
    simp [not_or]
  rw [split, List.length_filter_lt_length_iff_exists]
  refine ⟨language.val.identifier, ?_, by simp⟩
  have known : language.val.identifier ∈ registry.known.values.map Language.identifier :=
    List.mem_map.2 ⟨language.val, language.property, rfl⟩
  exact List.mem_filter.2 ⟨known, by simpa using new⟩

/-- The chain from a registered language on, after the visited identifiers. -/
def chainFrom (registry : LanguageRegistry) (visited : List String)
    (language : { l : Language // l ∈ registry.known.values }) : List String :=
  if _new : language.val.identifier ∈ visited then []
  else
    language.val.identifier ::
      match registry.fallback? language.val with
      | none => []
      | some next => chainFrom registry (language.val.identifier :: visited) next
termination_by (registry.unvisited visited).length
decreasing_by exact length_unvisited_cons_lt registry visited language _new

/-- The identifiers to look a message up under: that of the requested language, then those of the
languages it falls back to. -/
def chain (registry : LanguageRegistry) (language : Language) : List String :=
  language.identifier ::
    match registry.fallback? language with
    | none => []
    | some next => registry.chainFrom [language.identifier] next

end LanguageRegistry

end Phrasebook
