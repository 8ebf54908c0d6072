import Mathlib.Data.List.Perm.Basic
import Phrasebook.Cache.Backend

/-!
# Named locks are sound

A table of locks is used by many at a time, and each of them remembers the mutex that it waits for.
`LockTable.Sound` ties the table to those who wait, given as a list of names and mutexes: everybody
who waits for a name, or holds it, has the one mutex that is tracked for it, no two names share a
mutex, and only names in use are tracked.  Hence a mutex that is free belongs to a name that nobody
holds, also across the moments when an idle mutex is forgotten and another one is made for its name.

`LockTable.Linked` is the part of it that also holds between letting go of a mutex and looking
whether it has become idle, when a name may be tracked in vain.  There is one lemma for each step
that a caller can take: `Linked.obtain`, `Linked.acquire`, `Linked.drop`, `Linked.letGo` and
`Linked.forget`.  Ending a hold and giving up take two of these steps at once; `Sound.obtain`,
`Sound.acquire`, `Sound.giveUp` and `Sound.release` are the steps that leave nothing tracked in
vain.
-/

namespace Phrasebook

namespace LockTable

variable {table after : LockTable} {waiters : List (String × Mutex)} {name other : String}
  {mutex : Mutex}

/-- Stops holding a name.  Whether the mutex has become idle is still to be looked at. -/
def letGo (table : LockTable) (name : String) : LockTable :=
  { table with held := table.held.erase name }

/-- Ending a hold is to stop holding and to forget the mutex if it has become idle. -/
theorem release_eq_letGo (table : LockTable) (name : String) :
    table.release name =
      if table.isLocked name then (table.letGo name).forgetIfIdle name else table := rfl

/-! ## What the steps leave alone -/

@[simp]
theorem held_letGo (table : LockTable) (name : String) :
    (table.letGo name).held = table.held.erase name := rfl

@[simp]
theorem held_forgetIfIdle (table : LockTable) (name : String) :
    (table.forgetIfIdle name).held = table.held := by
  rw [forgetIfIdle]
  split
  · rfl
  · split <;> rfl

@[simp]
theorem waiting_forgetIfIdle (table : LockTable) (name : String) :
    (table.forgetIfIdle name).waiting = table.waiting := by
  rw [forgetIfIdle]
  split
  · rfl
  · split <;> rfl

@[simp]
theorem fresh_forgetIfIdle (table : LockTable) (name : String) :
    (table.forgetIfIdle name).fresh = table.fresh := by
  rw [forgetIfIdle]
  split
  · rfl
  · split <;> rfl

@[simp]
theorem held_obtain (table : LockTable) (name : String) :
    (table.obtain name).2.held = table.held := by
  rw [obtain]
  split <;> rfl

theorem tracked_obtain_of_ne (different : other ≠ name) :
    (table.obtain name).2.tracked.get? other = table.tracked.get? other := by
  rw [obtain]
  split
  · rfl
  · rw [Dict.get?_insert, if_neg different]

theorem held_acquire (acquired : table.acquire? name mutex = some after) :
    after.held = table.held.insert name mutex := by
  rw [acquire?] at acquired
  split at acquired
  · cases acquired
  · cases acquired
    rfl

theorem tracked_acquire (acquired : table.acquire? name mutex = some after) :
    after.tracked = table.tracked := by
  rw [acquire?] at acquired
  split at acquired
  · cases acquired
  · cases acquired
    rfl

/-- Whoever asks for a tracked name obtains the mutex that is tracked for it. -/
theorem obtain_of_tracked (tracked : table.tracked.get? name = some mutex) :
    (table.obtain name).1 = mutex := by
  rw [obtain, tracked]

/-! ## Which names are held -/

@[simp]
theorem isLocked_obtain (table : LockTable) (name other : String) :
    (table.obtain name).2.isLocked other = table.isLocked other := by
  rw [isLocked, held_obtain, isLocked]

@[simp]
theorem isLocked_forgetIfIdle (table : LockTable) (name other : String) :
    (table.forgetIfIdle name).isLocked other = table.isLocked other := by
  rw [isLocked, held_forgetIfIdle, isLocked]

theorem isLocked_acquire (acquired : table.acquire? name mutex = some after) (other : String) :
    after.isLocked other = if other = name then true else table.isLocked other := by
  rw [isLocked, held_acquire acquired, Dict.contains, Dict.get?_insert]
  split <;> rfl

theorem isLocked_letGo (table : LockTable) (name other : String) :
    (table.letGo name).isLocked other = if other = name then false else table.isLocked other := by
  rw [isLocked, held_letGo, Dict.contains, Dict.get?_erase]
  split <;> rfl

/-! ## Who waits for what -/

/-- **Those who wait for a name, or hold it, have the mutex that is tracked for it.** -/
structure Linked (table : LockTable) (waiters : List (String × Mutex)) : Prop where
  waiting : table.waiting.Perm (waiters.map Prod.snd)
  tracks_waiter : ∀ {name mutex}, (name, mutex) ∈ waiters → table.tracked.get? name = some mutex
  tracks_held : ∀ {name mutex}, table.held.get? name = some mutex →
    table.tracked.get? name = some mutex
  injective : ∀ {name other mutex}, table.tracked.get? name = some mutex →
    table.tracked.get? other = some mutex → name = other
  bounded : ∀ {name mutex}, table.tracked.get? name = some mutex → mutex < table.fresh

/-- Somebody holds a name or waits for it. -/
def InUse (table : LockTable) (waiters : List (String × Mutex)) (name : String) : Prop :=
  (∃ mutex, table.held.get? name = some mutex) ∨ ∃ mutex, (name, mutex) ∈ waiters

/-- **Besides, only names in use are tracked.** -/
structure Sound (table : LockTable) (waiters : List (String × Mutex)) : Prop
    extends Linked table waiters where
  used : ∀ {name mutex}, table.tracked.get? name = some mutex → table.InUse waiters name

theorem sound_empty : Sound empty [] where
  waiting := List.Perm.refl []
  tracks_waiter := nofun
  tracks_held := nofun
  injective := nofun
  bounded := nofun
  used := nofun

/-- It does not matter in which order the waiters are listed. -/
theorem Linked.perm {others : List (String × Mutex)} (linked : Linked table waiters)
    (same : waiters.Perm others) : Linked table others :=
  { linked with
    waiting := linked.waiting.trans (same.map Prod.snd)
    tracks_waiter := fun mem => linked.tracks_waiter (same.mem_iff.2 mem) }

theorem Sound.perm {others : List (String × Mutex)} (sound : Sound table waiters)
    (same : waiters.Perm others) : Sound table others where
  toLinked := sound.toLinked.perm same
  used := fun tracked => (sound.used tracked).imp_right fun ⟨mutex, mem⟩ =>
    ⟨mutex, same.mem_iff.1 mem⟩

namespace Linked

/-- The mutex that is tracked for a name is held if the name is, and only then. -/
theorem mem_held_values_iff (linked : Linked table waiters)
    (tracked : table.tracked.get? name = some mutex) :
    mutex ∈ table.held.values ↔ table.held.get? name = some mutex := by
  constructor
  · intro mem
    obtain ⟨holder, held⟩ := Dict.exists_get?_of_mem_values mem
    rwa [linked.injective tracked (linked.tracks_held held)]
  · exact Dict.mem_values_of_get?

/-- The mutex that is tracked for a name is waited for if the name is, and only then. -/
theorem mem_waiting_iff (linked : Linked table waiters)
    (tracked : table.tracked.get? name = some mutex) :
    mutex ∈ table.waiting ↔ (name, mutex) ∈ waiters := by
  rw [linked.waiting.mem_iff, List.mem_map]
  constructor
  · rintro ⟨⟨waiter, _⟩, mem, rfl⟩
    rwa [linked.injective tracked (linked.tracks_waiter mem)]
  · exact fun mem => ⟨_, mem, rfl⟩

/-- The mutex that is tracked for a name is in use if the name is, and only then. -/
theorem inUse_iff (linked : Linked table waiters)
    (tracked : table.tracked.get? name = some mutex) :
    table.InUse waiters name ↔ mutex ∈ table.held.values ∨ mutex ∈ table.waiting := by
  rw [linked.mem_held_values_iff tracked, linked.mem_waiting_iff tracked]
  constructor
  · rintro (⟨held, holds⟩ | ⟨awaited, mem⟩)
    · rw [linked.tracks_held holds] at tracked
      exact Or.inl (tracked ▸ holds)
    · rw [linked.tracks_waiter mem] at tracked
      exact Or.inr (Option.some.inj tracked ▸ mem)
  · exact Or.imp (fun holds => ⟨mutex, holds⟩) (fun mem => ⟨mutex, mem⟩)

/-- **A name whose mutex is idle is no longer tracked**, and all others are tracked as before. -/
theorem tracked_forgetIfIdle_iff (linked : Linked table waiters) :
    (table.forgetIfIdle name).tracked.get? other = some mutex ↔
      table.tracked.get? other = some mutex ∧ (other = name → table.InUse waiters name) := by
  rw [LockTable.forgetIfIdle]
  cases tracked : table.tracked.get? name with
  | none =>
    refine (and_iff_left_of_imp fun found same => ?_).symm
    rw [same, tracked] at found
    cases found
  | some own =>
    dsimp only
    by_cases busy : own ∈ table.held.values ∨ own ∈ table.waiting
    · rw [if_pos busy, linked.inUse_iff tracked]
      exact (and_iff_left fun _ => busy).symm
    · rw [if_neg busy, linked.inUse_iff tracked]
      show (table.tracked.erase name).get? other = some mutex ↔ _
      rw [Dict.get?_erase]
      by_cases same : other = name <;> simp [same, busy]

/-- **Somebody begins to wait for a name.** -/
theorem obtain (linked : Linked table waiters) (name : String) :
    Linked (table.obtain name).2 ((name, (table.obtain name).1) :: waiters) := by
  rw [LockTable.obtain]
  cases tracked : table.tracked.get? name with
  | some mutex =>
    exact { linked with
      waiting := linked.waiting.cons mutex
      tracks_waiter := fun mem => by
        rcases List.mem_cons.1 mem with same | mem
        · cases same
          exact tracked
        · exact linked.tracks_waiter mem }
  | none =>
    dsimp only
    have untracked {other : String} {mutex : Mutex}
        (found : table.tracked.get? other = some mutex) : other ≠ name := by
      rintro rfl
      rw [tracked] at found
      cases found
    have kept {other : String} {mutex : Mutex}
        (found : table.tracked.get? other = some mutex) :
        (table.tracked.insert name table.fresh).get? other = some mutex := by
      rw [Dict.get?_insert, if_neg (untracked found), found]
    have known {other : String} {mutex : Mutex}
        (found : (table.tracked.insert name table.fresh).get? other = some mutex) :
        other = name ∧ mutex = table.fresh ∨ table.tracked.get? other = some mutex := by
      rw [Dict.get?_insert] at found
      split at found
      · exact Or.inl ⟨by assumption, (Option.some.inj found).symm⟩
      · exact Or.inr found
    exact {
      waiting := linked.waiting.cons table.fresh
      tracks_waiter := fun mem => by
        rcases List.mem_cons.1 mem with same | mem
        · cases same
          exact Dict.get?_insert_self _ _ _
        · exact kept (linked.tracks_waiter mem)
      tracks_held := fun holds => kept (linked.tracks_held holds)
      injective := by
        intro first second mutex found foundOther
        rcases known found with ⟨rfl, rfl⟩ | before
        · rcases known foundOther with ⟨rfl, -⟩ | beforeToo
          · rfl
          · exact absurd (linked.bounded beforeToo) (Nat.lt_irrefl _)
        · rcases known foundOther with ⟨rfl, rfl⟩ | beforeToo
          · exact absurd (linked.bounded before) (Nat.lt_irrefl _)
          · exact linked.injective before beforeToo
      bounded := fun found => by
        rcases known found with ⟨-, rfl⟩ | found
        · exact Nat.lt_succ_self _
        · exact Nat.lt_succ_of_lt (linked.bounded found) }

/-- A mutex that is acquired belonged to a name that nobody held. -/
theorem get?_held_eq_none (linked : Linked table ((name, mutex) :: waiters))
    (acquired : table.acquire? name mutex = some after) : table.held.get? name = none := by
  rw [acquire?] at acquired
  split at acquired
  · cases acquired
  · rename_i free
    rw [Option.eq_none_iff_forall_ne_some]
    intro held holds
    have tracked := linked.tracks_waiter List.mem_cons_self
    obtain rfl : held = mutex :=
      Option.some.inj ((linked.tracks_held holds).symm.trans tracked)
    exact free (Dict.mem_values_of_get? holds)

/-- One waiter less. -/
theorem erase_waiting (linked : Linked table ((name, mutex) :: waiters)) :
    (table.waiting.erase mutex).Perm (waiters.map Prod.snd) := by
  have one := linked.waiting.erase mutex
  rwa [List.map_cons, List.erase_cons_head] at one

/-- **Somebody acquires the mutex that they wait for.** -/
theorem acquire (linked : Linked table ((name, mutex) :: waiters))
    (acquired : table.acquire? name mutex = some after) : Linked after waiters := by
  have tracked := linked.tracks_waiter List.mem_cons_self
  rw [acquire?] at acquired
  split at acquired
  · cases acquired
  · cases acquired
    exact { linked with
      waiting := linked.erase_waiting
      tracks_waiter := fun mem => linked.tracks_waiter (List.mem_cons_of_mem _ mem)
      tracks_held := fun {holder held} holds => by
        rw [Dict.get?_insert] at holds
        split at holds
        · rename_i same
          rw [same, ← holds]
          exact tracked
        · exact linked.tracks_held holds }

/-- **Somebody stops waiting.**  The name may be tracked in vain from now on. -/
theorem drop (linked : Linked table ((name, mutex) :: waiters)) :
    Linked (table.drop mutex) waiters :=
  { linked with
    waiting := linked.erase_waiting
    tracks_waiter := fun mem => linked.tracks_waiter (List.mem_cons_of_mem _ mem) }

/-- **Somebody stops holding a name.**  The name may be tracked in vain from now on. -/
theorem letGo (linked : Linked table waiters) (name : String) :
    Linked (table.letGo name) waiters :=
  { linked with
    tracks_held := fun {other mutex} (holds : (table.held.erase name).get? other = some mutex) => by
      rw [Dict.get?_erase] at holds
      split at holds
      · cases holds
      · exact linked.tracks_held holds }

/-- **Somebody looks whether a mutex has become idle**, and forgets it then. -/
theorem forget (linked : Linked table waiters) (name : String) :
    Linked (table.forgetIfIdle name) waiters where
  waiting := by
    rw [waiting_forgetIfIdle]
    exact linked.waiting
  tracks_waiter := fun {waiter awaited} mem =>
    linked.tracked_forgetIfIdle_iff.2
      ⟨linked.tracks_waiter mem, fun same => Or.inr ⟨awaited, same ▸ mem⟩⟩
  tracks_held := fun {holder held} holds => by
    rw [held_forgetIfIdle] at holds
    exact linked.tracked_forgetIfIdle_iff.2
      ⟨linked.tracks_held holds, fun same => Or.inl ⟨held, same ▸ holds⟩⟩
  injective := fun found foundOther => linked.injective
    (linked.tracked_forgetIfIdle_iff.1 found).1 (linked.tracked_forgetIfIdle_iff.1 foundOther).1
  bounded := fun found => by
    rw [fresh_forgetIfIdle]
    exact linked.bounded (linked.tracked_forgetIfIdle_iff.1 found).1

/-- Once an idle mutex is forgotten, nothing is tracked in vain if nothing else was. -/
theorem forgetIfIdle (linked : Linked table waiters)
    (used : ∀ {other mutex}, other ≠ name → table.tracked.get? other = some mutex →
      table.InUse waiters other) : Sound (table.forgetIfIdle name) waiters :=
  { linked.forget name with
    used := fun {other mutex} found => by
      obtain ⟨before, inUse⟩ := linked.tracked_forgetIfIdle_iff.1 found
      rw [InUse, held_forgetIfIdle]
      by_cases same : other = name
      · exact same ▸ inUse same
      · exact used same before }

end Linked

namespace Sound

/-- **Somebody begins to wait for a name.** -/
theorem obtain (sound : Sound table waiters) (name : String) :
    Sound (table.obtain name).2 ((name, (table.obtain name).1) :: waiters) where
  toLinked := sound.toLinked.obtain name
  used := fun {other mutex} found => by
    by_cases same : other = name
    · exact Or.inr ⟨(table.obtain name).1, same ▸ List.mem_cons_self⟩
    · rw [tracked_obtain_of_ne same] at found
      rw [InUse, held_obtain]
      exact (sound.used found).imp_right fun ⟨awaited, mem⟩ =>
        ⟨awaited, List.mem_cons_of_mem _ mem⟩

/-- **Somebody acquires the mutex that they wait for.** -/
theorem acquire (sound : Sound table ((name, mutex) :: waiters))
    (acquired : table.acquire? name mutex = some after) : Sound after waiters where
  toLinked := sound.toLinked.acquire acquired
  used := fun {used _} found => by
    rw [tracked_acquire acquired] at found
    rw [InUse, held_acquire acquired]
    by_cases same : used = name
    · exact Or.inl ⟨mutex, by rw [Dict.get?_insert, if_pos same]⟩
    · rcases sound.used found with ⟨held, holds⟩ | ⟨awaited, mem⟩
      · exact Or.inl ⟨held, by rw [Dict.get?_insert, if_neg same, holds]⟩
      · rcases List.mem_cons.1 mem with eq | mem
        · cases eq
          exact absurd rfl same
        · exact Or.inr ⟨awaited, mem⟩

/-- **Somebody has waited too long.** -/
theorem giveUp (sound : Sound table ((name, mutex) :: waiters)) :
    Sound (table.giveUp name mutex) waiters := by
  refine sound.toLinked.drop.forgetIfIdle fun different found => ?_
  rcases sound.used found with held | ⟨awaited, mem⟩
  · exact Or.inl held
  · rcases List.mem_cons.1 mem with eq | mem
    · cases eq
      exact absurd rfl different
    · exact Or.inr ⟨awaited, mem⟩

/-- **Somebody releases a name.** -/
theorem release (sound : Sound table waiters) (name : String) :
    Sound (table.release name) waiters := by
  rw [release_eq_letGo]
  split
  · refine (sound.toLinked.letGo name).forgetIfIdle fun {other _} different found => ?_
    refine (sound.used found).imp_left (Exists.imp fun held holds => ?_)
    rw [held_letGo, Dict.get?_erase, if_neg different, holds]
  · exact sound

end Sound

/-! ## Who holds what -/

@[simp]
theorem held_giveUp (table : LockTable) (name : String) (mutex : Mutex) :
    (table.giveUp name mutex).held = table.held := by
  rw [giveUp, held_forgetIfIdle, drop]

theorem get?_held_release (table : LockTable) (name other : String) :
    (table.release name).held.get? other =
      if other = name then none else table.held.get? other := by
  rw [release]
  split
  · rw [held_forgetIfIdle, Dict.get?_erase]
  · rename_i free
    split
    · rename_i same
      simpa [same, isLocked, Dict.contains] using free
    · rfl

end LockTable

/-! ## The locks of a backend -/

namespace MemoryCache

/-- A backend in memory obtains the mutex of a lock, and acquires it or gives up. -/
theorem tryLock_eq (cache : MemoryCache) (name : String) (wait : Duration) :
    (CacheBackend.tryLock name wait : StateM MemoryCache (Except LoadError Bool)) cache =
      match (cache.locks.obtain name).2.acquire? name (cache.locks.obtain name).1 with
      | some locks => (.ok true, cache.setLocks locks)
      | none =>
        (.ok false, cache.setLocks
          ((cache.locks.obtain name).2.giveUp name (cache.locks.obtain name).1)) := by
  have obtained : (CacheBackend.obtain name wait : StateM MemoryCache _) cache =
      (.ok (cache.locks.obtain name).1, cache.setLocks (cache.locks.obtain name).2) := rfl
  cases tried : (cache.locks.obtain name).2.acquire? name (cache.locks.obtain name).1 with
  | some locks =>
    have acquired : (CacheBackend.acquire name (cache.locks.obtain name).1 :
        StateM MemoryCache Bool) (cache.setLocks (cache.locks.obtain name).2) =
          (true, cache.setLocks locks) := by
      simp only [CacheBackend.acquire, setLocks, tried]
    simp only [CacheBackend.tryLock, bind, StateT.bind, obtained, acquired]
    rfl
  | none =>
    have missed : (CacheBackend.acquire name (cache.locks.obtain name).1 :
        StateM MemoryCache Bool) (cache.setLocks (cache.locks.obtain name).2) =
          (false, cache.setLocks (cache.locks.obtain name).2) := by
      simp only [CacheBackend.acquire, setLocks, tried]
    simp only [CacheBackend.tryLock, bind, StateT.bind, obtained, missed]
    rfl

end MemoryCache

end Phrasebook
