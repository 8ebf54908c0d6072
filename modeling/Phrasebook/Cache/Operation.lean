import Phrasebook.Cache.Metrics
import Phrasebook.Cache.Options
import Phrasebook.Error
import Phrasebook.Interaction
import Phrasebook.Language.Basic
import Phrasebook.Store.Entry

/-!
# The operations of a cached source

A load takes the lock of its bundle, answers what the cache holds, and otherwise loads from the
source behind the cache and stores what that answers.  Dropping a bundle from the cache takes the
same lock.  The lock is released however the operation ends.

Here the operations are interactions: they ask for steps of a cache backend and for loads of the
source, and whoever runs them replies.

## Main definitions

- `CacheRequest` is what an operation asks for, and `CacheRequest.Reply` what it is told.
- `CacheStep` adds the lock that the operation holds while it waits for the reply.  An operation
  that is given up there has to release it.
- `withLock` is what loading and dropping have in common; `loadBundle` and `dropBundle` are the two.
-/

namespace Phrasebook

/-- What an operation of a cached source asks for. -/
inductive CacheRequest where
  | tryLock (name : String) (wait : Duration)
  | unlock (name : String)
  | get (key : String)
  | set (key : String) (messages : Messages) (lifetime : Duration)
  | delete (key : String)
  | load (bundle : String) (languages : List Language)
  | count (counter : Counter)

/-- What an operation is told. -/
abbrev CacheRequest.Reply : CacheRequest → Type
  | tryLock _ _ => Except LoadError Bool
  | unlock _ => Except LoadError Unit
  | get _ => Except LoadError (Option Messages)
  | set _ _ _ => Except LoadError Unit
  | delete _ => Except LoadError Bool
  | load _ _ => Except LoadError Messages
  | count _ => Unit

/-- A request, and the lock that the operation holds while it waits for the reply. -/
structure CacheStep where
  request : CacheRequest
  held : Option String

/-- What the operation that takes a step is told. -/
abbrev CacheStep.Reply (step : CacheStep) : Type := step.request.Reply

/-- An operation of a cached source. -/
abbrev CacheProgram (α : Type) := Interaction CacheStep CacheStep.Reply α

namespace CacheProgram

/-- Asks for something while holding a lock or none. -/
def ask (held : Option String) (request : CacheRequest) : CacheProgram request.Reply :=
  Interaction.perform (CacheStep.mk request held)

/-- Runs a body under the lock of a bundle.  The body is told the lock that is held.  Without
locking the body runs at once.  A lock that is not free in time either ends the operation or is
done without.  What releasing the lock answers does not matter. -/
def withLock {α : Type} (options : CacheOptions) (bundle : String)
    (body : Option String → CacheProgram (Except LoadError α)) :
    CacheProgram (Except LoadError α) :=
  let lock := options.key bundle .lock
  if options.locking.lock then do
    match ← ask none (.tryLock lock options.locking.wait) with
    | .error error => pure (.error error)
    | .ok true => do
      let result ← body (some lock)
      let _ ← ask (some lock) (.unlock lock)
      pure result
    | .ok false => do
      ask none (.count .lockTimeouts)
      match options.locking.failureAction with
      | .ignoreLock => body none
      | .fail => pure (.error (.lockTimeout lock options.locking.wait))
  else body none

/-- Answers what the cache holds under a key, and otherwise loads from the source and stores what it
answers.  A failure is not stored. -/
def throughCache (options : CacheOptions) (bundle : String) (languages : List Language)
    (held : Option String) : CacheProgram (Except LoadError Messages) := do
  let key := options.key bundle .messages
  match ← ask held (.get key) with
  | .error error => pure (.error error)
  | .ok (some messages) => do
    ask held (.count .hits)
    pure (.ok messages)
  | .ok none => do
    ask held (.count .misses)
    match ← ask held (.load bundle languages) with
    | .error error => pure (.error error)
    | .ok messages => do
      match ← ask held (.set key messages options.lifetime) with
      | .error error => pure (.error error)
      | .ok () => pure (.ok messages)

/-- Loads a bundle for languages. -/
def loadBundle (options : CacheOptions) (bundle : String) (languages : List Language) :
    CacheProgram (Except LoadError Messages) :=
  withLock options bundle (throughCache options bundle languages)

/-- Drops a bundle from the cache and answers whether it was there. -/
def dropBundle (options : CacheOptions) (bundle : String) : CacheProgram (Except LoadError Bool) :=
  withLock options bundle fun held => ask held (.delete (options.key bundle .messages))

end CacheProgram

end Phrasebook
