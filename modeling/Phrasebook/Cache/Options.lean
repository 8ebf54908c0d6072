import Phrasebook.Duration
import Phrasebook.Text.Inspect
import Phrasebook.Text.Substitution

/-!
# Options of a cached source

## Main definitions

- `KeyKind` names the two keys that belong to a bundle: that of its lock and that of its messages.
- `LockFailureAction` is what happens when a lock is not free in time.
- `CacheOptions` with `CacheOptions.key`.
-/

namespace Phrasebook

/-- The two keys of a bundle. -/
inductive KeyKind where
  | lock
  | messages
  deriving DecidableEq, Repr

namespace KeyKind

/-- Both kinds. -/
def all : List KeyKind := [lock, messages]

/-- The word that stands for a kind in a key. -/
def text : KeyKind → String
  | lock => "lock"
  | messages => "messages"

end KeyKind

/-- What to do when a lock is not free in time: go on without it, or fail. -/
inductive LockFailureAction where
  | ignoreLock
  | fail
  deriving DecidableEq, Repr

namespace LockFailureAction

/-- The name of an action. -/
def name : LockFailureAction → String
  | ignoreLock => "ignore_lock"
  | fail => "fail"

/-- The action of a name. -/
def ofName? (name : String) : Option LockFailureAction :=
  [ignoreLock, fail].find? fun action => action.name = name

/-- The name of an action in descriptions. -/
def title : LockFailureAction → String
  | ignoreLock => "IgnoreLock"
  | fail => "Fail"

@[simp]
theorem ofName?_name (action : LockFailureAction) : ofName? action.name = some action := by
  cases action <;> rfl

end LockFailureAction

/-- Whether a bundle's lock is taken, how long it is waited for, and what happens if that is not
long enough. -/
structure LockingOptions where
  lock : Bool := true
  wait : Duration := Duration.ofSeconds 60
  failureAction : LockFailureAction := .fail
  deriving DecidableEq, Repr

/-- The form of keys, how long messages are kept, and the handling of locks. -/
structure CacheOptions where
  keyFormat : String := "cache:{bundle}:{kind}"
  lifetime : Duration := Duration.ofSeconds 86400
  locking : LockingOptions := {}
  deriving DecidableEq, Repr

namespace CacheOptions

/-- The part of a key form that stands for the bundle. -/
def bundlePlace : String := "{bundle}"

/-- The part of a key form that stands for the kind of the key. -/
def kindPlace : String := "{kind}"

/-- A key of a bundle: the form with the bundle and the kind in their places. -/
def key (options : CacheOptions) (bundle : String) (kind : KeyKind) : String :=
  Text.replaceAll options.keyFormat [(bundlePlace, bundle), (kindPlace, kind.text)]

/-- The description of locking options. -/
def describeLocking (locking : LockingOptions) : String :=
  Text.record "LockingOptions"
    [("lock", cond locking.lock "true" "false"), ("wait", locking.wait.text),
      ("failure_action", locking.failureAction.title)]

/-- The description of options. -/
def describe (options : CacheOptions) : String :=
  Text.record "CacheOptions"
    [("key_format", Text.quoted options.keyFormat), ("ttl", options.lifetime.text),
      ("locking", describeLocking options.locking)]

end CacheOptions

end Phrasebook
