import Phrasebook.Dict

/-!
# Named locks

Locks are known by name.  Behind a name stands a mutex, which is made when the name is first asked
for and forgotten once nobody holds it or waits for it.  A mutex that is made later for the same
name is another one.

Asking for a lock takes two steps: the mutex of the name is obtained, and then it is acquired, or
given up after too long a wait.

## Main definitions

- `LockTable.obtain`, `acquire?`, `drop` and `forgetIfIdle` are the steps.
- `LockTable.release` ends the holding of a name.
- `LockTable.isLocked` and `LockTable.count` are the views.
-/

namespace Phrasebook

/-- The number that tells a mutex from all others. -/
abbrev Mutex := Nat

/-- The mutexes of the tracked names, the mutexes held by name, and for everybody who has obtained
a mutex and neither acquired nor dropped it, that mutex.  The next new mutex is `fresh`. -/
structure LockTable where
  tracked : Dict String Mutex
  held : Dict String Mutex
  waiting : List Mutex
  fresh : Mutex

namespace LockTable

/-- No locks. -/
def empty : LockTable := ⟨Dict.empty, Dict.empty, [], 0⟩

instance : Inhabited LockTable := ⟨empty⟩

/-- Whether a name is held. -/
def isLocked (table : LockTable) (name : String) : Bool := table.held.contains name

/-- The number of tracked names. -/
def count (table : LockTable) : Nat := table.tracked.size

/-- Obtains the mutex of a name; one that is not tracked gets a new one. -/
def obtain (table : LockTable) (name : String) : Mutex × LockTable :=
  match table.tracked.get? name with
  | some mutex => (mutex, { table with waiting := mutex :: table.waiting })
  | none =>
    (table.fresh,
      { table with
        tracked := table.tracked.insert name table.fresh
        waiting := table.fresh :: table.waiting
        fresh := table.fresh + 1 })

/-- Acquires an obtained mutex for a name and records the name as held, unless somebody holds the
mutex. -/
def acquire? (table : LockTable) (name : String) (mutex : Mutex) : Option LockTable :=
  if mutex ∈ table.held.values then none
  else
    some
      { table with
        held := table.held.insert name mutex
        waiting := table.waiting.erase mutex }

/-- Stops waiting for an obtained mutex. -/
def drop (table : LockTable) (mutex : Mutex) : LockTable :=
  { table with waiting := table.waiting.erase mutex }

/-- Forgets the mutex of a name if nobody holds it or waits for it. -/
def forgetIfIdle (table : LockTable) (name : String) : LockTable :=
  match table.tracked.get? name with
  | none => table
  | some mutex =>
    if mutex ∈ table.held.values ∨ mutex ∈ table.waiting then table
    else { table with tracked := table.tracked.erase name }

/-- Ends the holding of a name.  A name that is not held is left alone. -/
def release (table : LockTable) (name : String) : LockTable :=
  if table.isLocked name then
    { table with held := table.held.erase name }.forgetIfIdle name
  else table

/-- Gives up waiting for the mutex of a name. -/
def giveUp (table : LockTable) (name : String) (mutex : Mutex) : LockTable :=
  (table.drop mutex).forgetIfIdle name

end LockTable

end Phrasebook
