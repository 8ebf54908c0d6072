import Phrasebook.Proofs.Cache.Alone
import Phrasebook.Proofs.Cache.Keys
import Phrasebook.Proofs.Source.Directory

/-!
# Sources that serve bundles in turn

A source may change whenever it is asked for something.  `Serves` says what it answers if it is
asked for some bundles one after the other.  Files do not change, so a directory serves every
bundle by what is in its files.  A cache in front of a source makes no difference as long as no
bundle is asked for twice: the cache keeps each bundle under a key of its own, so it never finds
anything, and its locks are free whenever it asks for one.

## Main statements

- `DirectorySource.serves` and `CachedSource.serves`; `FrontedSource.serves_direct` and
  `FrontedSource.serves_cached` say the same of a source of which it is left open whether there is a
  cache in front of it.
-/

namespace Phrasebook

/-- **A source serves bundles in turn** with given answers, whatever becomes of it on the way. -/
def Serves {σ : Type} [MessageSource σ] (languages : List Language)
    (answer : String → Except LoadError Messages) : List String → σ → Prop
  | [], _ => True
  | bundle :: rest, source => ∃ changed,
    (MessageSource.load bundle languages : Loading σ _) source = (some (answer bundle), changed) ∧
      Serves languages answer rest changed

variable {σ : Type} [MessageSource σ] {languages : List Language}
  {answer : String → Except LoadError Messages} {bundles : List String}

theorem DirectorySource.serves (source : DirectorySource) (languages : List Language)
    (bundles : List String) :
    Serves languages (fun bundle => source.messages bundle languages) bundles source := by
  induction bundles with
  | nil => exact trivial
  | cons bundle rest ih => exact ⟨source, rfl, ih⟩

namespace CachedSource

/-- **A cache that holds none of the bundles serves them as its source does**, with or without
locking. -/
theorem serves {cached : CachedSource σ MemoryCache} {fresh : Mutex}
    (place : CacheOptions.bundlePlace.toList <:+: cached.options.keyFormat.toList)
    (distinct : bundles.Nodup) (idle : cached.backend.locks = LockTable.idle fresh)
    (missing : ∀ bundle ∈ bundles,
      cached.backend.lookup (cached.options.key bundle .messages) = none)
    (inner : Serves languages answer bundles cached.source) :
    Serves languages answer bundles cached := by
  induction bundles generalizing cached fresh with
  | nil => exact trivial
  | cons bundle rest ih =>
    obtain ⟨notMem, distinctRest⟩ := List.nodup_cons.1 distinct
    obtain ⟨source, loaded, onward⟩ := inner
    obtain ⟨locks, performed, released⟩ :=
      CacheOperation.perform_of_idle idle (.load bundle languages)
    rw [CacheOperation.direct_load_of_missing (missing bundle List.mem_cons_self) loaded]
      at performed released
    obtain ⟨later, rfl⟩ := released nofun
    refine ⟨_, performed, ih place distinctRest rfl (fun other mem => ?_) onward⟩
    -- What is kept of this bundle now is not in the way of the others, which have other keys.
    have different : cached.options.key other .messages ≠ cached.options.key bundle .messages := by
      intro same
      rw [CacheOptions.eq_of_key_eq place same] at mem
      exact notMem mem
    show (cached.keeping _ (some (answer bundle))).lookup _ = none
    rw [← missing other (List.mem_cons_of_mem _ mem)]
    cases answer bundle with
    | error error => rfl
    | ok messages => exact cached.backend.lookup_keep_of_ne different messages _

end CachedSource

namespace FrontedSource

theorem serves_direct {source : σ} (inner : Serves languages answer bundles source) :
    Serves languages answer bundles
      (FrontedSource.direct source : FrontedSource σ MemoryCache) := by
  induction bundles generalizing source with
  | nil => exact trivial
  | cons bundle rest ih =>
    obtain ⟨changed, loaded, onward⟩ := inner
    refine ⟨.direct changed, ?_, ih onward⟩
    show FrontedSource.load bundle languages _ = _
    rw [FrontedSource.load, loaded]

theorem serves_cached {front : CachedSource σ MemoryCache}
    (inner : Serves languages answer bundles front) :
    Serves languages answer bundles (FrontedSource.cached front) := by
  induction bundles generalizing front with
  | nil => exact trivial
  | cons bundle rest ih =>
    obtain ⟨changed, loaded, onward⟩ := inner
    refine ⟨.cached changed, ?_, ih onward⟩
    show FrontedSource.load bundle languages _ = _
    rw [FrontedSource.load, show CachedSource.load bundle languages front = _ from loaded]

end FrontedSource

end Phrasebook
