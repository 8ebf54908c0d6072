import Phrasebook.Cache.LockTable
import Phrasebook.Duration
import Phrasebook.Error
import Phrasebook.Store.Entry

/-!
# Cache backends

A backend keeps messages under keys for some time, and has named locks.

## Main definitions

- `CacheBackend` is the interface.  Asking for a lock is split where it may have to wait.
- `CacheBackend.tryLock` asks for a lock when nobody else is about to release it.
- `MemoryCache` keeps messages in memory.  Its time only passes when it is told so.
- `RecordedCache` keeps a record of the calls of another backend and refuses some of them.

## Design notes

A backend with room for something takes in everything; what it gives up when there is too much, and
when, is left open.  A backend without room is definite: it takes in nothing.
-/

namespace Phrasebook

/-- The interface of backends. -/
class CacheBackend (β : Type) where
  /-- Begins to wait for a lock. -/
  obtain : String → Duration → StateM β (Except LoadError Mutex)
  /-- Acquires a lock that is waited for, if it is free. -/
  acquire : String → Mutex → StateM β Bool
  /-- Stops waiting for a lock. -/
  giveUp : String → Mutex → StateM β Unit
  unlock : String → StateM β (Except LoadError Unit)
  get : String → StateM β (Except LoadError (Option Messages))
  set : String → Messages → Duration → StateM β (Except LoadError Unit)
  delete : String → StateM β (Except LoadError Bool)

/-- Asks for a lock and gives up at once if it is not free. -/
def CacheBackend.tryLock {β : Type} [CacheBackend β] (name : String) (wait : Duration) :
    StateM β (Except LoadError Bool) := do
  match ← CacheBackend.obtain name wait with
  | .error error => pure (.error error)
  | .ok mutex => do
    if ← CacheBackend.acquire name mutex then pure (.ok true)
    else
      CacheBackend.giveUp name mutex
      pure (.ok false)

/-- Messages that are kept until a moment. -/
structure CachedMessages where
  messages : Messages
  expiry : Duration

/-- A backend in memory: the number of keys it has room for, its locks, what it keeps by key, and
the time that has passed. -/
structure MemoryCache where
  capacity : UInt64 := 1024
  locks : LockTable := LockTable.empty
  kept : Dict String CachedMessages := Dict.empty
  now : Duration := ⟨0⟩

namespace MemoryCache

/-- The backend that keeps nothing yet. -/
def empty : MemoryCache := {}

/-- The backend with the given room that keeps nothing yet. -/
def ofCapacity (capacity : UInt64) : MemoryCache := { capacity }

instance : Inhabited MemoryCache := ⟨empty⟩

/-- The messages under a key, unless their time is over. -/
def lookup (cache : MemoryCache) (key : String) : Option Messages :=
  (cache.kept.get? key).bind fun found =>
    if cache.now.nanoseconds < found.expiry.nanoseconds then some found.messages else none

/-- Keeps messages under a key for some time from now on.  A backend without room keeps nothing. -/
def keep (cache : MemoryCache) (key : String) (messages : Messages) (lifetime : Duration) :
    MemoryCache :=
  if cache.capacity = 0 then cache
  else
    { cache with
      kept := cache.kept.insert key
        ⟨messages, ⟨cache.now.nanoseconds + lifetime.nanoseconds⟩⟩ }

/-- Removes what is kept under a key. -/
def remove (cache : MemoryCache) (key : String) : MemoryCache :=
  { cache with kept := cache.kept.erase key }

/-- Lets time pass. -/
def sleep (cache : MemoryCache) (time : Duration) : MemoryCache :=
  { cache with now := ⟨cache.now.nanoseconds + time.nanoseconds⟩ }

/-- Changes the locks. -/
def setLocks (cache : MemoryCache) (locks : LockTable) : MemoryCache := { cache with locks }

instance : CacheBackend MemoryCache where
  obtain name _ := fun cache =>
    let (mutex, locks) := cache.locks.obtain name
    (.ok mutex, cache.setLocks locks)
  acquire name mutex := fun cache =>
    match cache.locks.acquire? name mutex with
    | some locks => (true, cache.setLocks locks)
    | none => (false, cache)
  giveUp name mutex := fun cache => ((), cache.setLocks (cache.locks.giveUp name mutex))
  unlock name := fun cache => (.ok (), cache.setLocks (cache.locks.release name))
  get key := fun cache => (.ok (cache.lookup key), cache)
  set key messages lifetime := fun cache => (.ok (), cache.keep key messages lifetime)
  delete key := fun cache => (.ok (cache.kept.contains key), cache.remove key)

end MemoryCache

/-- The calls of a backend. -/
inductive CacheCall where
  | tryLock
  | unlock
  | get
  | set
  | delete
  deriving DecidableEq, Repr

namespace CacheCall

/-- The name of a call. -/
def name : CacheCall → String
  | tryLock => "try_lock"
  | unlock => "unlock"
  | get => "get"
  | set => "set"
  | delete => "delete"

/-- The call of a name. -/
def ofName? (name : String) : Option CacheCall :=
  [tryLock, unlock, get, set, delete].find? fun call => call.name = name

end CacheCall

/-- A backend with the record of its calls and the calls that it refuses.  A refused call is
recorded and goes no further. -/
structure RecordedCache (β : Type) where
  backend : β
  record : List String := []
  refused : List CacheCall := []

namespace RecordedCache

variable {β α : Type}

/-- Does something with the recorded backend. -/
def within (change : StateM β α) : StateM (RecordedCache β) α := fun cache =>
  let (answer, backend) := change cache.backend
  (answer, { cache with backend })

/-- Records a call with its details, and hands it on unless it is refused. -/
def call (kind : CacheCall) (details : String) (change : StateM β (Except LoadError α)) :
    StateM (RecordedCache β) (Except LoadError α) := do
  modify fun cache => { cache with record := cache.record ++ [kind.name ++ " " ++ details] }
  if kind ∈ (← get).refused then pure (.error (.cache (kind.name ++ " refused")))
  else within change

instance [CacheBackend β] : CacheBackend (RecordedCache β) where
  obtain name wait :=
    call .tryLock (name ++ " " ++ Nat.repr wait.milliseconds) (CacheBackend.obtain name wait)
  acquire name mutex := within (CacheBackend.acquire name mutex)
  giveUp name mutex := within (CacheBackend.giveUp name mutex)
  unlock name := call .unlock name (CacheBackend.unlock name)
  get key := call .get key (CacheBackend.get key)
  set key messages lifetime :=
    call .set (key ++ " " ++ Nat.repr lifetime.milliseconds)
      (CacheBackend.set key messages lifetime)
  delete key := call .delete key (CacheBackend.delete key)

end RecordedCache

end Phrasebook
