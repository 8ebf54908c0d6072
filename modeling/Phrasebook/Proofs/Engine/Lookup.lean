import Phrasebook.Engine.Basic
import Phrasebook.Proofs.Language.Route

/-!
# Looking a message up along a route

A message is looked up under the identifiers of a fallback chain, in order.  The chain is a route
through the registry (`Phrasebook.Proofs.Language.Route`), so what is found is the entry of the
nearest language of the route that has one, whatever else the registry and the store hold.

## Main statement

`entry_on_route`: for every requested language there is exactly one route; the chain is its list of
identifiers, and a lookup answers the entry of the nearest language on it that holds the key.
-/

namespace Phrasebook.Engine

variable {ε : Type}

/-- An entry is found exactly if some language of a route holds the key; it is the one of the
nearest such language. -/
theorem entry_eq_some_iff {engine : Engine ε} {language : Language} {route : List Language}
    (chain : engine.registry.chain language = route.map Language.identifier) {key : String}
    {entry : ε} :
    engine.entry key language = some entry ↔
      ∃ before nearest after, route = before ++ nearest :: after ∧
        engine.store.lookup key nearest.identifier = some entry ∧
          ∀ nearer ∈ before, engine.store.lookup key nearer.identifier = none := by
  rw [Engine.entry, chain, List.findSome?_map, List.findSome?_eq_some_iff]
  rfl

/-- Nothing is found exactly if no language of a route holds the key. -/
theorem entry_eq_none_iff {engine : Engine ε} {language : Language} {route : List Language}
    (chain : engine.registry.chain language = route.map Language.identifier) {key : String} :
    engine.entry key language = none ↔
      ∀ visited ∈ route, engine.store.lookup key visited.identifier = none := by
  rw [Engine.entry, chain, List.findSome?_map, List.findSome?_eq_none_iff]
  rfl

/-- **Lookups follow the route.**  For every engine and every requested language, registered or not,
there is exactly one route from that language: it follows registered fallbacks, repeats no
identifier, and ends only at a language without a fallback, at one whose fallback is not registered,
or before the first repetition.  It has at most one language more than the registry, and the
fallback chain lists its identifiers.  A key is looked up along it: the entry is that of the nearest
language that holds the key, and there is none exactly if no language of the route does. -/
theorem entry_on_route (engine : Engine ε) (language : Language) :
    ∃ route, engine.registry.IsRoute [] language route ∧
      (∀ other, engine.registry.IsRoute [] language other → other = route) ∧
      engine.registry.chain language = route.map Language.identifier ∧
      route.length ≤ engine.registry.size + 1 ∧
      ∀ key,
        (∀ entry, engine.entry key language = some entry ↔
          ∃ before nearest after, route = before ++ nearest :: after ∧
            engine.store.lookup key nearest.identifier = some entry ∧
              ∀ nearer ∈ before, engine.store.lookup key nearer.identifier = none) ∧
        (engine.entry key language = none ↔
          ∀ visited ∈ route, engine.store.lookup key visited.identifier = none) ∧
        (engine.hasMessage key language = false ↔
          ∀ visited ∈ route, engine.store.lookup key visited.identifier = none) := by
  obtain ⟨route, isRoute, chain⟩ := engine.registry.exists_isRoute_chain language
  refine ⟨route, isRoute, fun other => isRoute.eq_of_isRoute, chain, isRoute.length_le, ?_⟩
  intro key
  have absent : engine.entry key language = none ↔
      ∀ visited ∈ route, engine.store.lookup key visited.identifier = none :=
    entry_eq_none_iff chain
  refine ⟨fun entry => entry_eq_some_iff chain, absent, ?_⟩
  rw [← absent, hasMessage, Option.isSome_eq_false_iff, Option.isNone_iff_eq_none]

end Phrasebook.Engine
