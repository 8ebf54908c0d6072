import Phrasebook.Cache.Source

/-!
# Operations of a cached source at the same time

Several operations run at the same time by taking turns.  In each round every operation, in the
order in which they were begun, goes on until it has to wait: for a lock that is held, or for a
source that lets others go first.  When nobody can go on, those who wait for a lock have waited
too long.

## Main definitions

- `Task` is where an operation stands, `advance` lets it go on.
- `round` gives every task a turn, and `expire` ends the waiting for locks.
- `loadAtOnce` runs several loads of one bundle to their ends.
- `abandonLoad` begins a load and drops it where it cannot go on.
-/

namespace Phrasebook

/-- Where an operation stands. -/
inductive Task (α : Type) where
  /-- It can go on. -/
  | ready (program : CacheProgram α)
  /-- It waits for a lock, and goes on with whether it has got it. -/
  | waiting (name : String) (mutex : Mutex) (resume : Bool → CacheProgram α)
  /-- It waits for a source that never answers, and holds a lock or none. -/
  | stuck (held : Option String)
  | finished (result : α)

namespace CachedSource

variable {σ β α : Type} [MessageSource σ] [CacheBackend β]

/-- Lets an operation go on until it has to wait. -/
def advance : CacheProgram α → StateM (CachedSource σ β) (Task α)
  | Interaction.done result => pure (.finished result)
  | Interaction.ask ⟨.tryLock name wait, _⟩ next => do
    match ← withBackend (CacheBackend.obtain name wait) with
    | .error error => advance (next (.error error))
    | .ok mutex => do
      if ← withBackend (CacheBackend.acquire name mutex) then advance (next (.ok true))
      else pure (.waiting name mutex fun acquired => next (.ok acquired))
  | Interaction.ask ⟨.load bundle languages, held⟩ next => do
    match ← (withSource (MessageSource.load bundle languages)).run with
    | none => pure (.stuck held)
    | some result =>
      if MessageSource.pauses (← get).source then pure (.ready (next result))
      else advance (next result)
  | Interaction.ask ⟨.unlock name, _⟩ next => do
    let answer ← withBackend (CacheBackend.unlock name)
    advance (next answer)
  | Interaction.ask ⟨.get key, _⟩ next => do
    let answer ← withBackend (CacheBackend.get key)
    advance (next answer)
  | Interaction.ask ⟨.set key messages lifetime, _⟩ next => do
    let answer ← withBackend (CacheBackend.set key messages lifetime)
    advance (next answer)
  | Interaction.ask ⟨.delete key, _⟩ next => do
    let answer ← withBackend (CacheBackend.delete key)
    advance (next answer)
  | Interaction.ask ⟨.count counter, _⟩ next => do
    count counter
    advance (next ())

/-- Gives a task a turn.  Also answers whether it could go on. -/
def turn : Task α → StateM (CachedSource σ β) (Bool × Task α)
  | .ready program => do
    let task ← advance program
    pure (true, task)
  | .waiting name mutex resume => do
    if ← withBackend (CacheBackend.acquire name mutex) then
      let task ← advance (resume true)
      pure (true, task)
    else pure (false, .waiting name mutex resume)
  | task => pure (false, task)

/-- Gives every task a turn.  Also answers whether any could go on. -/
def round : List (Task α) → StateM (CachedSource σ β) (Bool × List (Task α))
  | [] => pure (false, [])
  | task :: rest => do
    let (moved, task) ← turn task
    let (others, rest) ← round rest
    pure (moved || others, task :: rest)

/-- Ends the waiting of a task for a lock. -/
def expire : Task α → StateM (CachedSource σ β) (Task α)
  | .waiting name mutex resume => do
    withBackend (CacheBackend.giveUp name mutex)
    advance (resume false)
  | task => pure task

/-- A number of rounds.  Where nobody can go on, waiting for locks ends. -/
def rounds : Nat → List (Task α) → StateM (CachedSource σ β) (List (Task α))
  | 0, tasks => pure tasks
  | n + 1, tasks => do
    let (moved, tasks) ← round tasks
    if moved then rounds n tasks
    else
      let tasks ← tasks.mapM expire
      rounds n tasks

/-- The result of a task that has ended. -/
def resultOf : Task α → Option α
  | .finished result => some result
  | _ => none

/-- Runs loads of one bundle at the same time.  A load waits at most for its lock and for the
source, so three turns end it, and each of them takes at most one round in which nobody else can
go on. -/
def loadAtOnce (bundle : String) (languages : List Language) (count : Nat) :
    StateM (CachedSource σ β) (List (Option (Except LoadError Messages))) := do
  let program := CacheProgram.loadBundle (← get).options bundle languages
  let tasks ← rounds (6 * count + 1) (List.replicate count (.ready program))
  pure (tasks.map resultOf)

/-- Lets a task go on until it cannot, for a number of turns. -/
def proceed : Nat → Task α → StateM (CachedSource σ β) (Task α)
  | 0, task => pure task
  | n + 1, task => do
    let (moved, task) ← turn task
    if moved then proceed n task else pure task

/-- Drops a task.  A lock that it waits for is given up and a lock that it holds is released. -/
def abandon : Task α → StateM (CachedSource σ β) Unit
  | .waiting name mutex _ => withBackend (CacheBackend.giveUp name mutex)
  | .stuck (some lock) => do
    let _ ← withBackend (CacheBackend.unlock lock)
  | _ => pure ()

/-- Begins a load of a bundle and lets it go on until it cannot. -/
def beginLoad (bundle : String) (languages : List Language) :
    StateM (CachedSource σ β) (Task (Except LoadError Messages)) := do
  let program := CacheProgram.loadBundle (← get).options bundle languages
  proceed 3 (.ready program)

end CachedSource

end Phrasebook
