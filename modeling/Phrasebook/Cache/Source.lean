import Phrasebook.Cache.Backend
import Phrasebook.Cache.Operation
import Phrasebook.Source.Basic

/-!
# Cached sources

A cached source runs the operations of `CacheProgram` against a backend and a source behind it.

## Main definitions

- `CachedSource` with `CachedSource.handle`, which replies to the steps of an operation.
- `CachedSource.load` and `CachedSource.drop`.
- `CachedSource` is itself a `MessageSource`.
-/

namespace Phrasebook

/-- A source behind a cache, with the backend of the cache, its options and its counters. -/
structure CachedSource (σ β : Type) where
  source : σ
  backend : β
  options : CacheOptions := {}
  metrics : CacheMetrics := {}

namespace CachedSource

variable {σ β α : Type}

/-- Does something with the backend. -/
def withBackend (change : StateM β α) : StateM (CachedSource σ β) α := fun cached =>
  let (answer, backend) := change cached.backend
  (answer, { cached with backend })

/-- Does something with the source. -/
def withSource (change : Loading σ α) : Loading (CachedSource σ β) α :=
  Loading.within CachedSource.source (fun cached source => { cached with source }) change

/-- Counts one more. -/
def count (counter : Counter) : StateM (CachedSource σ β) Unit :=
  modify fun cached => { cached with metrics := cached.metrics.count counter }

/-- Replies to a step of an operation. -/
def handle [MessageSource σ] [CacheBackend β] (step : CacheStep) :
    Loading (CachedSource σ β) step.Reply :=
  match step with
  | ⟨.tryLock name wait, _⟩ => OptionT.lift (withBackend (CacheBackend.tryLock name wait))
  | ⟨.unlock name, _⟩ => OptionT.lift (withBackend (CacheBackend.unlock name))
  | ⟨.get key, _⟩ => OptionT.lift (withBackend (CacheBackend.get key))
  | ⟨.set key messages lifetime, _⟩ =>
    OptionT.lift (withBackend (CacheBackend.set key messages lifetime))
  | ⟨.delete key, _⟩ => OptionT.lift (withBackend (CacheBackend.delete key))
  | ⟨.load bundle languages, _⟩ => withSource (MessageSource.load bundle languages)
  | ⟨.count counter, _⟩ => OptionT.lift (count counter)

/-- Runs an operation with nothing else going on. -/
def run [MessageSource σ] [CacheBackend β] (program : CacheOptions → CacheProgram α) :
    Loading (CachedSource σ β) α := do
  let cached ← get
  (program cached.options).run handle

/-- Loads a bundle for languages. -/
def load [MessageSource σ] [CacheBackend β] (bundle : String) (languages : List Language) :
    Loading (CachedSource σ β) (Except LoadError Messages) :=
  run fun options => CacheProgram.loadBundle options bundle languages

/-- Drops a bundle from the cache and answers whether it was there. -/
def drop [MessageSource σ] [CacheBackend β] (bundle : String) :
    Loading (CachedSource σ β) (Except LoadError Bool) :=
  run fun options => CacheProgram.dropBundle options bundle

instance [MessageSource σ] [CacheBackend β] : MessageSource (CachedSource σ β) where
  load := load
  pauses cached := MessageSource.pauses cached.source

/-- The description of a cached source. -/
def describe (cached : CachedSource σ β) : String :=
  Text.openRecord "CachedMessageSource"
    [("options", cached.options.describe), ("metrics", cached.metrics.describe)]

end CachedSource

/-- A source with or without a cache in front of it. -/
inductive FrontedSource (σ β : Type) where
  | direct (source : σ)
  | cached (source : CachedSource σ β)

namespace FrontedSource

variable {σ β : Type}

/-- The source itself, without the cache. -/
def source : FrontedSource σ β → σ
  | direct source => source
  | cached front => front.source

/-- Changes the source behind the cache. -/
def mapSource (change : σ → σ) : FrontedSource σ β → FrontedSource σ β
  | direct source => direct (change source)
  | cached front => cached { front with source := change front.source }

/-- Loads a bundle for languages. -/
def load [MessageSource σ] [CacheBackend β] (bundle : String) (languages : List Language) :
    Loading (FrontedSource σ β) (Except LoadError Messages) := fun fronted =>
  match fronted with
  | direct source =>
    let (answer, source) := (MessageSource.load bundle languages : Loading σ _) source
    (answer, direct source)
  | cached front =>
    let (answer, front) := (CachedSource.load bundle languages : Loading (CachedSource σ β) _) front
    (answer, cached front)

instance [MessageSource σ] [CacheBackend β] : MessageSource (FrontedSource σ β) where
  load := load
  pauses fronted := MessageSource.pauses fronted.source

end FrontedSource

end Phrasebook
