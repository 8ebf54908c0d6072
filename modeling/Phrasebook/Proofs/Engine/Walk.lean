import Phrasebook.Engine.Basic
import Phrasebook.Proofs.Language.Route

/-!
# A lookup, step by step

A lookup reads the published store once.  From then on it walks along the fallback chain, asking the
registry for one language after the other, and all that while others may publish stores and change
the registry.  Here a lookup is what it has read, where it has been, and where it goes next.  What
the registry may answer is left open, and nothing ties its answers to each other.

## Main definitions

- `Lookup` with `Lookup.Step`.
- `Lookup.Sound` is what can be said of a lookup at any time.

## Main statement

`Lookup.Sound.eq_entry`: as long as a registry answers the same, a lookup finds what `Engine.entry`
finds in the store that it has read.
-/

namespace Phrasebook

/-! ## What can happen -/

/-- **A lookup under way**: the store it has read, the identifiers it has passed, in order, and the
language that comes next. -/
inductive Lookup (ε : Type) where
  | waiting
  | walking (snapshot : Store ε) (visited : List String) (next : Option Language)
  | answered (snapshot : Store ε) (visited : List String) (result : Option ε)

/-- What a registry may answer when it is asked for an identifier. -/
abbrev Resolving := String → Option Language → Prop

namespace Resolving

/-- What may come after a language. -/
def Follows (resolves : Resolving) (here : Language) (next : Option Language) : Prop :=
  match here.fallback with
  | none => next = none
  | some identifier => resolves identifier next

/-- All answers are those of one registry. -/
def IsFixed (resolves : Resolving) (registry : LanguageRegistry) : Prop :=
  ∀ {identifier next}, resolves identifier next → next = registry.language? identifier

end Resolving

namespace Lookup

variable {ε : Type} {resolves : Resolving} {key : String} {language : Language}
  {published : Store ε}

/-- **What a lookup can do next**, for a key in a language and while a store is published. -/
inductive Step (resolves : Resolving) (key : String) (language : Language) (published : Store ε) :
    Lookup ε → Lookup ε → Prop
  | read : Step resolves key language published waiting (walking published [] (some language))
  | found {snapshot : Store ε} {visited : List String} {here : Language} {entry : ε}
      (new : here.identifier ∉ visited)
      (holds : snapshot.lookup key here.identifier = some entry) :
      Step resolves key language published (walking snapshot visited (some here))
        (answered snapshot (visited ++ [here.identifier]) (some entry))
  | onward {snapshot : Store ε} {visited : List String} {here : Language} {next : Option Language}
      (new : here.identifier ∉ visited) (misses : snapshot.lookup key here.identifier = none)
      (follows : resolves.Follows here next) :
      Step resolves key language published (walking snapshot visited (some here))
        (walking snapshot (visited ++ [here.identifier]) next)
  | ended {snapshot : Store ε} {visited : List String} :
      Step resolves key language published (walking snapshot visited none)
        (answered snapshot visited none)
  | repeated {snapshot : Store ε} {visited : List String} {here : Language}
      (again : here.identifier ∈ visited) :
      Step resolves key language published (walking snapshot visited (some here))
        (answered snapshot visited none)

/-- The store that a lookup has read. -/
def snapshot? : Lookup ε → Option (Store ε)
  | waiting => none
  | walking snapshot _ _ => some snapshot
  | answered snapshot _ _ => some snapshot

/-- A lookup reads the store that is published, and reads it once. -/
theorem Step.snapshot?_eq {before after : Lookup ε}
    (step : Step resolves key language published before after) :
    after.snapshot? = some (before.snapshot?.getD published) := by
  cases step <;> rfl

/-! ## Where a lookup is on the chain -/

variable {registry : LanguageRegistry} {here : Language} {next : Option Language}
  {visited rest : List String}

/-- What is left of the chain when these identifiers have been passed and this language is next.
The first language of a chain need not be registered. -/
inductive Ahead (registry : LanguageRegistry) (language : Language) :
    List String → Option Language → List String → Prop
  | all : Ahead registry language [] (some language) (registry.chain language)
  | ended (visited : List String) : Ahead registry language visited none []
  | known (visited : List String) (here : { l : Language // l ∈ registry.known.values }) :
      Ahead registry language visited (some here.val) (registry.chainFrom visited.reverse here)

/-- Under a fixed registry the fallback of a language comes next. -/
theorem eq_map_fallback? (fixed : resolves.IsFixed registry)
    (follows : resolves.Follows here next) :
    next = (registry.fallback? here).map Subtype.val := by
  unfold Resolving.Follows at follows
  cases found : registry.fallback? here with
  | none =>
    rcases LanguageRegistry.fallback?_eq_none_iff.1 found with unnamed | ⟨other, named, unknown⟩
    · rwa [unnamed] at follows
    · rw [named] at follows
      exact (fixed follows).trans unknown
  | some fallback =>
    obtain ⟨identifier, named, known⟩ := LanguageRegistry.fallsBackTo_of_fallback?_eq_some found
    rw [named] at follows
    exact (fixed follows).trans known

/-- What is ahead after a language, if its fallback comes next. -/
theorem ahead_fallback? (registry : LanguageRegistry) (language here : Language)
    (visited : List String) :
    Ahead registry language visited ((registry.fallback? here).map Subtype.val)
      (match registry.fallback? here with
        | none => []
        | some next => registry.chainFrom visited.reverse next) := by
  cases registry.fallback? here with
  | none => exact .ended visited
  | some next => exact .known visited next

/-- The chain passes a language that has not come before, and goes on with its fallback. -/
theorem Ahead.onward (isAhead : Ahead registry language visited (some here) rest)
    (new : here.identifier ∉ visited) :
    ∃ later, rest = here.identifier :: later ∧
      Ahead registry language (visited ++ [here.identifier])
        ((registry.fallback? here).map Subtype.val) later := by
  have further := ahead_fallback? registry language here (visited ++ [here.identifier])
  rw [List.reverse_append] at further
  cases isAhead with
  | all => exact ⟨_, rfl, further⟩
  | known _ registered =>
    refine ⟨_, ?_, further⟩
    rw [LanguageRegistry.chainFrom, dif_neg (by simpa using new)]
    rfl

/-- A language that has come before is not passed again. -/
theorem Ahead.eq_nil (isAhead : Ahead registry language visited (some here) rest)
    (again : here.identifier ∈ visited) : rest = [] := by
  cases isAhead with
  | all => cases again
  | known _ registered => rw [LanguageRegistry.chainFrom, dif_pos (by simpa using again)]

/-! ## What a lookup finds -/

/-- **What holds of a lookup at any time.**  It has found nothing at the identifiers it has passed,
but for the last if that is where it ends; and those are the beginning of the chain, if the answers
are those of one registry. -/
def Sound (resolves : Resolving) (key : String) (language : Language) : Lookup ε → Prop
  | waiting => True
  | walking snapshot visited next =>
    visited.findSome? (snapshot.lookup key) = none ∧
      ∀ registry, resolves.IsFixed registry → ∃ rest,
        registry.chain language = visited ++ rest ∧ Ahead registry language visited next rest
  | answered snapshot visited result =>
    visited.findSome? (snapshot.lookup key) = result ∧
      ∀ registry, resolves.IsFixed registry →
        (registry.chain language).findSome? (snapshot.lookup key) = result

/-- Every step keeps a lookup sound. -/
theorem Step.sound {before after : Lookup ε}
    (step : Step resolves key language published before after)
    (sound : before.Sound resolves key language) : after.Sound resolves key language := by
  cases step with
  | read => exact ⟨rfl, fun registry _ => ⟨registry.chain language, rfl, .all⟩⟩
  | found new holds =>
    obtain ⟨missed, fixed⟩ := sound
    refine ⟨by simp [missed, holds], fun registry isFixed => ?_⟩
    obtain ⟨rest, chain, isAhead⟩ := fixed registry isFixed
    obtain ⟨later, rfl, -⟩ := isAhead.onward new
    simp [chain, missed, holds]
  | onward new misses follows =>
    obtain ⟨missed, fixed⟩ := sound
    refine ⟨by simp [missed, misses], fun registry isFixed => ?_⟩
    obtain ⟨rest, chain, isAhead⟩ := fixed registry isFixed
    obtain ⟨later, rfl, further⟩ := isAhead.onward new
    rw [← eq_map_fallback? isFixed follows] at further
    exact ⟨later, by simp [chain], further⟩
  | ended =>
    obtain ⟨missed, fixed⟩ := sound
    refine ⟨missed, fun registry isFixed => ?_⟩
    obtain ⟨rest, chain, isAhead⟩ := fixed registry isFixed
    cases isAhead
    simp [chain, missed]
  | repeated again =>
    obtain ⟨missed, fixed⟩ := sound
    refine ⟨missed, fun registry isFixed => ?_⟩
    obtain ⟨rest, chain, isAhead⟩ := fixed registry isFixed
    simp [chain, missed, isAhead.eq_nil again]

/-- A lookup finds what `Engine.entry` finds in the store that it has read. -/
theorem Sound.eq_entry {snapshot : Store ε} {result : Option ε}
    (sound : (answered snapshot visited result).Sound resolves key language) (engine : Engine ε)
    (fixed : resolves.IsFixed engine.registry) :
    result = { engine with store := snapshot }.entry key language :=
  (sound.2 engine.registry fixed).symm

end Lookup

end Phrasebook
