import Mathlib.Data.List.Chain
import Mathlib.Data.List.Nodup
import Mathlib.Data.List.Perm.Subperm
import Phrasebook.Language.Fallback

/-!
# The route of a fallback chain

A registry may hold anything: fallbacks that lead in circles, fallbacks that nobody has registered,
and languages asked for that are not the registered ones of their name.  This module says which
languages a chain passes, without the list of visited identifiers that `LanguageRegistry.chain`
works with.

A *route* begins at the requested language; each language on it is the registered fallback of the
one before; no identifier comes twice; and it does not end before it has to.  There are three
reasons to end (`EndsAt`): the last language has no fallback, it names one that is not registered,
or the one it names has an identifier that has come before.

The first language of a route is the only one that need not be registered.  A registered language of
the same identifier does not stand in for it: its fallback is not followed, and should the route
come back to it, that is a repetition.

## Main statements

- `exists_isRoute_chain`: the chain is the list of identifiers of a route.
- `IsRoute.eq_of_isRoute`: there is only one route.
- `IsRoute.length_le`: it has at most one language more than the registry.
-/

namespace Phrasebook

namespace LanguageRegistry

variable {registry : LanguageRegistry}

/-! ## One step -/

/-- A language **falls back to** another, which the registry holds under the identifier that the
first one names. -/
def FallsBackTo (registry : LanguageRegistry) (here next : Language) : Prop :=
  ∃ identifier, here.fallback = some identifier ∧ registry.language? identifier = some next

theorem FallsBackTo.unique {here next other : Language} (step : registry.FallsBackTo here next)
    (otherStep : registry.FallsBackTo here other) : next = other := by
  obtain ⟨identifier, names, known⟩ := step
  obtain ⟨otherIdentifier, otherNames, otherKnown⟩ := otherStep
  obtain rfl := Option.some.inj (names.symm.trans otherNames)
  exact Option.some.inj (known.symm.trans otherKnown)

theorem FallsBackTo.mem_values {here next : Language} (step : registry.FallsBackTo here next) :
    next ∈ registry.known.values := by
  obtain ⟨identifier, -, known⟩ := step
  exact Dict.mem_values_of_get? known

/-- The fallback that is looked up is the one that the language falls back to. -/
theorem fallsBackTo_of_fallback?_eq_some {here : Language}
    {next : { l : Language // l ∈ registry.known.values }}
    (found : registry.fallback? here = some next) : registry.FallsBackTo here next := by
  unfold fallback? at found
  split at found
  · cases found
  · rename_i identifier names
    split at found
    · cases found
    · rename_i l known
      cases found
      exact ⟨identifier, names, known⟩

/-- No fallback is found if none is named or the one that is named is not registered. -/
theorem fallback?_eq_none_iff {here : Language} :
    registry.fallback? here = none ↔ here.fallback = none ∨
      ∃ identifier, here.fallback = some identifier ∧ registry.language? identifier = none := by
  unfold fallback?
  split
  · rename_i names
    simp [names]
  · rename_i identifier names
    split
    · rename_i unknown
      simpa [names, language?] using unknown
    · rename_i l known
      simp [names, language?, known]

theorem not_fallsBackTo_of_fallback?_eq_none {here next : Language}
    (none : registry.fallback? here = none) : ¬ registry.FallsBackTo here next := by
  rintro ⟨identifier, names, known⟩
  rcases fallback?_eq_none_iff.1 none with unnamed | ⟨other, otherNames, unknown⟩
  · rw [names] at unnamed
    cases unnamed
  · obtain rfl := Option.some.inj (names.symm.trans otherNames)
    rw [known] at unknown
    cases unknown

/-! ## Routes -/

/-- **Why a route ends at a language**, when these identifiers have come, its own included. -/
inductive EndsAt (registry : LanguageRegistry) (seen : List String) (last : Language) : Prop
  /-- It has no fallback. -/
  | root (unnamed : last.fallback = none)
  /-- Nobody has registered its fallback. -/
  | dangling (identifier : String) (names : last.fallback = some identifier)
      (unknown : registry.language? identifier = none)
  /-- Its fallback would be the first to come a second time. -/
  | repetition (next : Language) (step : registry.FallsBackTo last next)
      (again : next.identifier ∈ seen)

/-- **A route from a language**, after the visited identifiers. -/
structure IsRoute (registry : LanguageRegistry) (visited : List String) (language : Language)
    (route : List Language) : Prop where
  begins : route.head? = some language
  follows : route.IsChain registry.FallsBackTo
  distinct : (visited ++ route.map Language.identifier).Nodup
  ends : ∀ last ∈ route.getLast?,
    registry.EndsAt (visited ++ route.map Language.identifier) last

theorem IsRoute.exists_eq_cons {visited : List String} {language : Language}
    {route : List Language} (isRoute : registry.IsRoute visited language route) :
    ∃ rest, route = language :: rest :=
  ⟨route.tail, List.eq_cons_of_mem_head? isRoute.begins⟩

/-- A route that ends at once. -/
theorem isRoute_singleton_iff {visited : List String} {language : Language} :
    registry.IsRoute visited language [language] ↔
      (visited ++ [language.identifier]).Nodup ∧
        registry.EndsAt (visited ++ [language.identifier]) language := by
  constructor
  · intro isRoute
    exact ⟨isRoute.distinct, isRoute.ends language rfl⟩
  · rintro ⟨distinct, ends⟩
    refine ⟨rfl, List.isChain_singleton language, distinct, ?_⟩
    rintro last ⟨⟩
    exact ends

/-- A route goes on as a route from the next language, after one more identifier. -/
theorem isRoute_cons_cons_iff {visited : List String} {language next : Language}
    {rest : List Language} :
    registry.IsRoute visited language (language :: next :: rest) ↔
      registry.FallsBackTo language next ∧
        registry.IsRoute (visited ++ [language.identifier]) next (next :: rest) := by
  have seen : visited ++ (language :: next :: rest).map Language.identifier =
      visited ++ [language.identifier] ++ (next :: rest).map Language.identifier := by
    simp
  constructor
  · intro isRoute
    obtain ⟨step, follows⟩ := List.isChain_cons_cons.1 isRoute.follows
    refine ⟨step, rfl, follows, seen ▸ isRoute.distinct, fun last mem => seen ▸ ?_⟩
    exact isRoute.ends last (by rwa [List.getLast?_cons_cons])
  · rintro ⟨step, isRoute⟩
    refine ⟨rfl, List.isChain_cons_cons.2 ⟨step, isRoute.follows⟩, seen ▸ isRoute.distinct, ?_⟩
    intro last mem
    rw [List.getLast?_cons_cons] at mem
    exact seen ▸ isRoute.ends last mem

/-! ## The chain is a route -/

/-- One step of a chain.  The recursion keeps the visited identifiers last first. -/
theorem exists_isRoute_step {visited : List String} {language : Language}
    (distinct : (language.identifier :: visited).Nodup)
    (onward : ∀ next : { l : Language // l ∈ registry.known.values },
      next.val.identifier ∉ language.identifier :: visited →
        ∃ route, registry.IsRoute (language.identifier :: visited).reverse next route ∧
          registry.chainFrom (language.identifier :: visited) next =
            route.map Language.identifier) :
    ∃ route, registry.IsRoute visited.reverse language route ∧
      (language.identifier ::
        match registry.fallback? language with
        | none => []
        | some next => registry.chainFrom (language.identifier :: visited) next) =
        route.map Language.identifier := by
  have seen : (language.identifier :: visited).reverse =
      visited.reverse ++ [language.identifier] := List.reverse_cons
  have distinctSeen : (visited.reverse ++ [language.identifier]).Nodup :=
    seen ▸ List.nodup_reverse.2 distinct
  cases found : registry.fallback? language with
  | none =>
    refine ⟨[language], isRoute_singleton_iff.2 ⟨distinctSeen, ?_⟩, rfl⟩
    rcases fallback?_eq_none_iff.1 found with unnamed | ⟨identifier, names, unknown⟩
    · exact EndsAt.root unnamed
    · exact EndsAt.dangling identifier names unknown
  | some next =>
    have step := fallsBackTo_of_fallback?_eq_some found
    by_cases again : next.val.identifier ∈ language.identifier :: visited
    · refine ⟨[language], isRoute_singleton_iff.2 ⟨distinctSeen, ?_⟩, ?_⟩
      · exact EndsAt.repetition next.val step (seen ▸ List.mem_reverse.2 again)
      · show language.identifier :: registry.chainFrom (language.identifier :: visited) next =
          [language.identifier]
        rw [chainFrom, dif_pos again]
    · obtain ⟨route, isRoute, chain⟩ := onward next again
      obtain ⟨rest, rfl⟩ := isRoute.exists_eq_cons
      refine ⟨language :: next.val :: rest, isRoute_cons_cons_iff.2 ⟨step, seen ▸ isRoute⟩, ?_⟩
      exact congrArg (language.identifier :: ·) chain

/-- A chain from a registered language that has not been visited is a route. -/
theorem exists_isRoute_chainFrom {visited : List String}
    {language : { l : Language // l ∈ registry.known.values }} (distinct : visited.Nodup)
    (new : language.val.identifier ∉ visited) :
    ∃ route, registry.IsRoute visited.reverse language route ∧
      registry.chainFrom visited language = route.map Language.identifier := by
  induction visited, language using chainFrom.induct registry with
  | case1 visited language old => exact absurd old new
  | case2 visited language _ ih =>
    have distinctHere : (language.val.identifier :: visited).Nodup :=
      List.nodup_cons.2 ⟨new, distinct⟩
    rw [chainFrom, dif_neg new]
    exact exists_isRoute_step distinctHere fun next => ih next distinctHere

/-- **The chain is a route.**  It lists the identifiers of a route from the requested language,
which may be any language. -/
theorem exists_isRoute_chain (registry : LanguageRegistry) (language : Language) :
    ∃ route, registry.IsRoute [] language route ∧
      registry.chain language = route.map Language.identifier := by
  have distinct : [language.identifier].Nodup := List.nodup_singleton language.identifier
  exact exists_isRoute_step distinct fun _ => exists_isRoute_chainFrom distinct

/-! ## There is only one route -/

/-- A language at which a route ends falls back to no language that could come next. -/
theorem EndsAt.mem_of_fallsBackTo {seen : List String} {last next : Language}
    (ends : registry.EndsAt seen last) (step : registry.FallsBackTo last next) :
    next.identifier ∈ seen := by
  cases ends with
  | root unnamed =>
    obtain ⟨identifier, names, -⟩ := step
    rw [names] at unnamed
    cases unnamed
  | dangling identifier names unknown =>
    obtain ⟨other, otherNames, known⟩ := step
    obtain rfl := Option.some.inj (names.symm.trans otherNames)
    rw [known] at unknown
    cases unknown
  | repetition other otherStep again =>
    rw [step.unique otherStep]
    exact again

/-- A route that ends at once is the only one. -/
theorem IsRoute.eq_singleton {visited : List String} {language : Language} {route : List Language}
    (isRoute : registry.IsRoute visited language route)
    (ends : registry.EndsAt (visited ++ [language.identifier]) language) : route = [language] := by
  obtain ⟨rest, rfl⟩ := isRoute.exists_eq_cons
  cases rest with
  | nil => rfl
  | cons next rest =>
    obtain ⟨step, onward⟩ := isRoute_cons_cons_iff.1 isRoute
    -- The next identifier would have come before, which the rest of the route does not allow.
    have again := ends.mem_of_fallsBackTo step
    have apart := List.nodup_append.1 onward.distinct
    exact absurd rfl (apart.2.2 next.identifier again next.identifier (by simp))

/-- **There is only one route from a language.** -/
theorem IsRoute.eq_of_isRoute {visited : List String} {language : Language}
    {route other : List Language} (isRoute : registry.IsRoute visited language route)
    (isOther : registry.IsRoute visited language other) : other = route := by
  induction route generalizing visited language other with
  | nil => cases isRoute.begins
  | cons first rest ih =>
    obtain rfl : first = language := Option.some.inj isRoute.begins
    cases rest with
    | nil => exact isOther.eq_singleton (isRoute_singleton_iff.1 isRoute).2
    | cons next rest =>
      obtain ⟨step, onward⟩ := isRoute_cons_cons_iff.1 isRoute
      obtain ⟨otherRest, rfl⟩ := isOther.exists_eq_cons
      cases otherRest with
      | nil => exact (isRoute.eq_singleton (isRoute_singleton_iff.1 isOther).2).symm
      | cons otherNext otherRest =>
        obtain ⟨otherStep, otherOnward⟩ := isRoute_cons_cons_iff.1 isOther
        obtain rfl := step.unique otherStep
        rw [ih onward otherOnward]

/-! ## How long it is -/

/-- All languages of a route but the first are registered. -/
theorem mem_values_of_isChain {here : Language} {rest : List Language}
    (follows : (here :: rest).IsChain registry.FallsBackTo) :
    ∀ language ∈ rest, language ∈ registry.known.values := by
  induction rest generalizing here with
  | nil => simp
  | cons next rest ih =>
    obtain ⟨step, follows⟩ := List.isChain_cons_cons.1 follows
    intro language mem
    rcases List.mem_cons.1 mem with rfl | mem
    · exact step.mem_values
    · exact ih follows language mem

/-- **A route has at most one language more than the registry**: after the first, its identifiers
are different ones of registered languages. -/
theorem IsRoute.length_le {visited : List String} {language : Language} {route : List Language}
    (isRoute : registry.IsRoute visited language route) : route.length ≤ registry.size + 1 := by
  obtain ⟨rest, rfl⟩ := isRoute.exists_eq_cons
  have registered := mem_values_of_isChain isRoute.follows
  have distinct : (rest.map Language.identifier).Nodup :=
    (List.nodup_cons.1 (List.nodup_append.1 isRoute.distinct).2.1).2
  have among : rest.map Language.identifier ⊆ registry.known.values.map Language.identifier :=
    List.map_subset Language.identifier registered
  calc (language :: rest).length
      = (rest.map Language.identifier).length + 1 := by rw [List.length_map]; rfl
    _ ≤ (registry.known.values.map Language.identifier).length + 1 :=
        Nat.succ_le_succ (List.subperm_of_subset distinct among).length_le
    _ = registry.size + 1 := by rw [List.length_map]; simp [Dict.values, size, Dict.size]

end LanguageRegistry

end Phrasebook
