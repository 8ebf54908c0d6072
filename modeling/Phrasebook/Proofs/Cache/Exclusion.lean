import Phrasebook.Proofs.Cache.Locks
import Phrasebook.Proofs.Cache.Traffic

/-!
# Nobody holds a lock that somebody else holds

Operations under way know the lock that they hold and the mutex that they wait for; the backend
knows the same of all of them together.  `Traffic.Locked` says that the two agree, and that no lock
is held twice.  There is one lemma for each way in which an operation can come further, each from
the lemma about the step of the table of locks that it takes: `Locked.obtain`, `Locked.acquire`,
`Locked.giveUp`, `Locked.release`, and `Locked.stay` for replies that have nothing to do with
locks.
-/

namespace Phrasebook

variable {ι : Type} [DecidableEq ι]

/-- What some of the operations wait for. -/
def Traffic.waiters (traffic : Traffic ι) (waiting : List ι) : List (String × Mutex) :=
  waiting.filterMap fun i => (traffic.flights i).wait?

/-- **The locks are as the operations under way take them to be.**  The table knows who waits; a
lock that an operation holds is held in the table, and no two operations hold the same. -/
structure Traffic.Locked (traffic : Traffic ι) : Prop where
  sound : ∃ waiting : List ι, waiting.Nodup ∧
    (∀ i, i ∈ waiting ↔ (traffic.flights i).mutex ≠ none) ∧
      traffic.cache.locks.Sound (traffic.waiters waiting)
  held : ∀ {i lock}, (traffic.flights i).holds = some lock →
    ∃ mutex, traffic.cache.locks.held.get? lock = some mutex
  exclusive : ∀ {i j lock}, (traffic.flights i).holds = some lock →
    (traffic.flights j).holds = some lock → i = j

namespace Traffic

variable {traffic : Traffic ι} {i : ι} {flight : Flight} {cache : MemoryCache}

@[simp]
theorem flights_advance_self : (traffic.advance i flight cache).flights i = flight := by
  simp [advance]

theorem flights_advance_of_ne {j : ι} (other : j ≠ i) :
    (traffic.advance i flight cache).flights j = traffic.flights j := by
  simp [advance, other]

/-- Those who are not concerned wait as before. -/
theorem waiters_advance {waiting : List ι} (notMem : i ∉ waiting) :
    (traffic.advance i flight cache).waiters waiting = traffic.waiters waiting := by
  refine List.filterMap_congr fun j mem => ?_
  rw [flights_advance_of_ne (ne_of_mem_of_not_mem mem notMem)]

omit [DecidableEq ι] in
theorem waiters_cons {wait : String × Mutex} (waits : (traffic.flights i).wait? = some wait)
    (waiting : List ι) : traffic.waiters (i :: waiting) = wait :: traffic.waiters waiting := by
  simp [waiters, waits]

namespace Locked

/-- What an operation holds after a step of another one. -/
theorem holds_of_advance {j : ι} {lock : String} (other : j ≠ i)
    (holds : ((traffic.advance i flight cache).flights j).holds = some lock) :
    (traffic.flights j).holds = some lock := by
  rwa [flights_advance_of_ne other] at holds

/-- The part of the operations in it: another one holds what it held, and nobody else does. -/
theorem exclusive_advance (locked : traffic.Locked)
    (alone : ∀ {lock}, flight.holds = some lock → ∀ {j}, j ≠ i →
      (traffic.flights j).holds ≠ some lock) :
    ∀ {j k lock}, ((traffic.advance i flight cache).flights j).holds = some lock →
      ((traffic.advance i flight cache).flights k).holds = some lock → j = k := by
  intro j k lock holds holdsToo
  by_cases first : j = i
  · subst first
    rw [flights_advance_self] at holds
    by_contra different
    exact alone holds (Ne.symm different) (holds_of_advance (Ne.symm different) holdsToo)
  · by_cases second : k = i
    · subst second
      rw [flights_advance_self] at holdsToo
      exact absurd (holds_of_advance first holds) (alone holdsToo first)
    · exact locked.exclusive (holds_of_advance first holds) (holds_of_advance second holdsToo)

/-- Where the table of locks holds what it held, what an operation holds is held. -/
theorem held_advance (locked : traffic.Locked)
    (kept : ∀ {lock mutex}, traffic.cache.locks.held.get? lock = some mutex →
      ∃ mutex, cache.locks.held.get? lock = some mutex)
    (own : ∀ {lock}, flight.holds = some lock → ∃ mutex, cache.locks.held.get? lock = some mutex) :
    ∀ {j lock}, ((traffic.advance i flight cache).flights j).holds = some lock →
      ∃ mutex, cache.locks.held.get? lock = some mutex := by
  intro j lock holds
  by_cases same : j = i
  · subst same
    rw [flights_advance_self] at holds
    exact own holds
  · obtain ⟨mutex, held⟩ := locked.held (holds_of_advance same holds)
    exact kept held

/-- **An operation begins to wait for its lock.** -/
theorem obtain (locked : traffic.Locked) (idle : (traffic.flights i).mutex = none)
    (waits : flight.mutex = some (traffic.cache.locks.obtain flight.lock).1)
    (holds : flight.holds = none)
    (locks : cache.locks = (traffic.cache.locks.obtain flight.lock).2) :
    (traffic.advance i flight cache).Locked := by
  obtain ⟨waiting, nodup, mem_iff, sound⟩ := locked.sound
  have notMem : i ∉ waiting := fun mem => (mem_iff i).1 mem idle
  have begun : ((traffic.advance i flight cache).flights i).wait? =
      some (flight.lock, (traffic.cache.locks.obtain flight.lock).1) := by
    rw [flights_advance_self, Flight.wait?, waits]
    rfl
  exact {
    sound := by
      refine ⟨i :: waiting, List.nodup_cons.2 ⟨notMem, nodup⟩, fun j => ?_, ?_⟩
      · by_cases same : j = i
        · simp [same, waits]
        · rw [flights_advance_of_ne same, ← mem_iff, List.mem_cons]
          exact or_iff_right same
      · rw [waiters_cons begun, waiters_advance notMem]
        show cache.locks.Sound _
        rw [locks]
        exact sound.obtain flight.lock
    held := locked.held_advance
      (fun {_ mutex} held => ⟨mutex, by rw [locks, LockTable.held_obtain, held]⟩) (by simp [holds])
    exclusive := locked.exclusive_advance (by simp [holds]) }

/-- Whoever waits is one of those that the table knows. -/
theorem exists_sound_erase (locked : traffic.Locked) {mutex : Mutex} (cache : MemoryCache)
    (waits : (traffic.flights i).mutex = some mutex) (done : flight.mutex = none) :
    ∃ waiting : List ι, waiting.Nodup ∧
      (∀ j, j ∈ waiting ↔ ((traffic.advance i flight cache).flights j).mutex ≠ none) ∧
        traffic.cache.locks.Sound (((traffic.flights i).lock, mutex) ::
          (traffic.advance i flight cache).waiters waiting) := by
  obtain ⟨waiting, nodup, mem_iff, sound⟩ := locked.sound
  have mem : i ∈ waiting := (mem_iff i).2 (by simp [waits])
  have wait : (traffic.flights i).wait? = some ((traffic.flights i).lock, mutex) := by
    rw [Flight.wait?, waits]
    rfl
  refine ⟨waiting.erase i, nodup.erase i, fun j => ?_, ?_⟩
  · by_cases same : j = i
    · simp [same, done, nodup.not_mem_erase]
    · rw [flights_advance_of_ne same, ← mem_iff, List.mem_erase_of_ne same]
  · rw [waiters_advance nodup.not_mem_erase]
    refine sound.perm (((List.perm_cons_erase mem).filterMap _).trans ?_)
    rw [← waiters_cons wait]
    rfl

/-- A lock that is acquired was held by nobody. -/
theorem holds_ne_of_acquire? (locked : traffic.Locked) {mutex : Mutex} {after : LockTable}
    (waits : (traffic.flights i).mutex = some mutex)
    (acquired : traffic.cache.locks.acquire? (traffic.flights i).lock mutex = some after) (j : ι) :
    (traffic.flights j).holds ≠ some (traffic.flights i).lock := by
  intro holds
  obtain ⟨waiting, -, -, sound⟩ := locked.exists_sound_erase traffic.cache waits
    (show ({ traffic.flights i with mutex := none } : Flight).mutex = none from rfl)
  obtain ⟨held, found⟩ := locked.held holds
  rw [sound.get?_held_eq_none acquired] at found
  cases found

/-- **An operation acquires its lock.** -/
theorem acquire (locked : traffic.Locked) {mutex : Mutex}
    (waits : (traffic.flights i).mutex = some mutex) (done : flight.mutex = none)
    (holds : flight.holds = some (traffic.flights i).lock)
    (acquired : traffic.cache.locks.acquire? (traffic.flights i).lock mutex = some cache.locks) :
    (traffic.advance i flight cache).Locked := by
  obtain ⟨waiting, nodup, mem_iff, sound⟩ := locked.exists_sound_erase cache waits done
  have held_eq := LockTable.held_acquire acquired
  exact {
    sound := ⟨waiting, nodup, mem_iff, sound.acquire acquired⟩
    held := by
      refine locked.held_advance (fun {lock held} found => ?_) (fun {lock} own => ?_)
      · rw [held_eq, Dict.get?_insert]
        split
        · exact ⟨_, rfl⟩
        · exact ⟨held, found⟩
      · rw [holds] at own
        cases own
        exact ⟨mutex, by rw [held_eq, Dict.get?_insert_self]⟩
    exclusive := by
      refine locked.exclusive_advance fun {lock} own {j} _ => ?_
      rw [holds] at own
      cases own
      exact locked.holds_ne_of_acquire? waits acquired j }

/-- **An operation has waited too long.** -/
theorem giveUp (locked : traffic.Locked) {mutex : Mutex}
    (waits : (traffic.flights i).mutex = some mutex) (done : flight.mutex = none)
    (holds : flight.holds = none)
    (locks : cache.locks = traffic.cache.locks.giveUp (traffic.flights i).lock mutex) :
    (traffic.advance i flight cache).Locked := by
  obtain ⟨waiting, nodup, mem_iff, sound⟩ := locked.exists_sound_erase cache waits done
  exact {
    sound := by
      refine ⟨waiting, nodup, mem_iff, ?_⟩
      show cache.locks.Sound _
      rw [locks]
      exact sound.giveUp
    held := locked.held_advance
      (fun {_ held} found => ⟨held, by rw [locks, LockTable.held_giveUp, found]⟩) (by simp [holds])
    exclusive := locked.exclusive_advance (by simp [holds]) }

/-- Those who wait, where nobody begins to wait and nobody ceases to. -/
theorem exists_sound_advance (locked : traffic.Locked)
    (waited : (traffic.flights i).mutex = none) (waits : flight.mutex = none)
    (kept : ∀ waiters, traffic.cache.locks.Sound waiters → cache.locks.Sound waiters) :
    ∃ waiting : List ι, waiting.Nodup ∧
      (∀ j, j ∈ waiting ↔ ((traffic.advance i flight cache).flights j).mutex ≠ none) ∧
        cache.locks.Sound ((traffic.advance i flight cache).waiters waiting) := by
  obtain ⟨waiting, nodup, mem_iff, sound⟩ := locked.sound
  have notMem : i ∉ waiting := fun mem => (mem_iff i).1 mem waited
  refine ⟨waiting, nodup, fun j => ?_, ?_⟩
  · by_cases same : j = i
    · simp [same, waits, notMem]
    · rw [flights_advance_of_ne same, mem_iff]
  · rw [waiters_advance notMem]
    exact kept _ sound

/-- **An operation gets a reply that has nothing to do with locks.** -/
theorem stay (locked : traffic.Locked) (waited : (traffic.flights i).mutex = none)
    (waits : flight.mutex = none) (holds : flight.holds = (traffic.flights i).holds)
    (locks : cache.locks = traffic.cache.locks) : (traffic.advance i flight cache).Locked where
  sound := locked.exists_sound_advance waited waits fun _ sound => locks ▸ sound
  held := locked.held_advance (fun {_ held} found => ⟨held, by rw [locks, found]⟩)
    (fun own => by
      rw [locks]
      exact locked.held (holds ▸ own))
  exclusive := locked.exclusive_advance fun {_} own {_} other taken =>
    other (locked.exclusive taken (holds ▸ own))

/-- **An operation releases its lock.** -/
theorem release (locked : traffic.Locked) {lock : String}
    (waited : (traffic.flights i).mutex = none) (waits : flight.mutex = none)
    (held : (traffic.flights i).holds = some lock) (holds : flight.holds = none)
    (locks : cache.locks = traffic.cache.locks.release lock) :
    (traffic.advance i flight cache).Locked where
  sound := locked.exists_sound_advance waited waits fun _ sound => locks ▸ sound.release lock
  held := by
    intro j other taken
    by_cases same : j = i
    · subst same
      rw [flights_advance_self, holds] at taken
      cases taken
    · obtain ⟨mutex, found⟩ := locked.held (holds_of_advance same taken)
      have different : other ≠ lock := by
        rintro rfl
        exact same (locked.exclusive (holds_of_advance same taken) held)
      refine ⟨mutex, ?_⟩
      show cache.locks.held.get? other = _
      rw [locks, LockTable.get?_held_release, if_neg different, found]
  exclusive := locked.exclusive_advance (by simp [holds])

end Locked

end Traffic

end Phrasebook
