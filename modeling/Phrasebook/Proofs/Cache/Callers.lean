import Mathlib.Data.List.Perm.Lattice
import Mathlib.Logic.Function.Basic
import Phrasebook.Proofs.Cache.Locks

/-!
# Callers of the named locks at the same time

Any number of callers ask for locks and release them, in any order.  A call takes several steps, and
between them others go on:

* whoever asks for a lock obtains the mutex of its name, and later acquires it and holds the name,
  or has waited too long and drops it; in the second case the mutex is forgotten if it has become
  idle;
* whoever releases a name lets go of it, and then the mutex is forgotten if it has become idle.

So there is a time at which a name is tracked and nobody holds it or waits for it.  It ends with the
calls that are under way then: a tracked name is held, or a call on it is under way
(`Callers.Kept`).

Nothing is assumed about who releases a name.  What has happened is a list of events, the first one
first: who has acquired which name, and which names have been let go of.

## Main definitions

- `LockCall` is where a caller stands, and `Callers` are all of them with the table.
- `Callers.Step` is what can happen next, and `Callers.Run` what can have happened so far.
- `unreleased` are those who have acquired a name that has not been let go of since.

## Main statement

`Callers.Run.orderly`: a name is held by one caller at most, all who use a name use one mutex, and
when no call is under way the tracked names are the held ones.
-/

namespace Phrasebook

/-! ## What can happen -/

/-- Where a caller of the locks stands. -/
inductive LockCall where
  /-- No call is under way. -/
  | idle
  /-- The mutex of a name is obtained and waited for. -/
  | waiting (name : String) (mutex : Mutex)
  /-- The mutex of a name is let go of, and whether it has become idle is still to be looked at. -/
  | leaving (name : String)

namespace LockCall

/-- The name that is waited for, with the mutex that is obtained. -/
def wait? : LockCall → Option (String × Mutex)
  | waiting name mutex => some (name, mutex)
  | _ => none

/-- The name that a call is on. -/
def name? : LockCall → Option String
  | idle => none
  | waiting name _ => some name
  | leaving name => some name

theorem name?_of_wait? {call : LockCall} {name : String} {mutex : Mutex}
    (waits : call.wait? = some (name, mutex)) : call.name? = some name := by
  cases call with
  | waiting other awaited =>
    cases waits
    rfl
  | _ => cases waits

end LockCall

/-- A name has been acquired, or let go of. -/
inductive LockEvent (ι : Type) where
  | acquired (who : ι) (name : String)
  | released (name : String)

/-- Callers, with the locks that they share. -/
structure Callers (ι : Type) where
  table : LockTable
  calls : ι → LockCall

namespace Callers

variable {ι : Type} [DecidableEq ι]

/-- Nobody has called yet. -/
def start : Callers ι := ⟨LockTable.empty, fun _ => .idle⟩

/-- One of the callers has come further, and the table has changed. -/
def advance (callers : Callers ι) (i : ι) (call : LockCall) (table : LockTable) : Callers ι :=
  ⟨table, Function.update callers.calls i call⟩

/-- **What can happen next**, with the event that is made of it, if any. -/
inductive Step (callers : Callers ι) : Option (LockEvent ι) → Callers ι → Prop
  /-- Somebody asks for a lock and obtains its mutex. -/
  | obtain (i : ι) (name : String) (idle : callers.calls i = .idle) :
      Step callers none
        (callers.advance i (.waiting name (callers.table.obtain name).1)
          (callers.table.obtain name).2)
  /-- The mutex is acquired and the name held.  The caller has got the lock. -/
  | acquire (i : ι) {name : String} {mutex : Mutex} {table : LockTable}
      (waits : callers.calls i = .waiting name mutex)
      (acquired : callers.table.acquire? name mutex = some table) :
      Step callers (some (.acquired i name)) (callers.advance i .idle table)
  /-- The mutex is waited for too long.  The caller has not got the lock. -/
  | timeOut (i : ι) {name : String} {mutex : Mutex}
      (waits : callers.calls i = .waiting name mutex) :
      Step callers none (callers.advance i (.leaving name) (callers.table.drop mutex))
  /-- Somebody releases a name that is held. -/
  | letGo (i : ι) (name : String) (idle : callers.calls i = .idle)
      (locked : callers.table.isLocked name = true) :
      Step callers (some (.released name))
        (callers.advance i (.leaving name) (callers.table.letGo name))
  /-- Somebody releases a name that is not held. -/
  | miss (i : ι) (name : String) (idle : callers.calls i = .idle)
      (free : callers.table.isLocked name = false) : Step callers none callers
  /-- The mutex that was dropped or let go of is forgotten if it is idle. -/
  | forget (i : ι) {name : String} (leaves : callers.calls i = .leaving name) :
      Step callers none (callers.advance i .idle (callers.table.forgetIfIdle name))

/-- **What can have happened so far.** -/
inductive Run : List (LockEvent ι) → Callers ι → Prop
  | start : Run [] start
  | step {events : List (LockEvent ι)} {event : Option (LockEvent ι)} {callers after : Callers ι}
      (before : Run events callers) (step : Step callers event after) :
      Run (events ++ event.toList) after

/-- A name is used with a mutex: somebody waits for it, or the name is held. -/
def Uses (callers : Callers ι) (name : String) (mutex : Mutex) : Prop :=
  (∃ i, callers.calls i = .waiting name mutex) ∨ callers.table.held.get? name = some mutex

end Callers

/-- What an event makes of those who hold a name. -/
def LockEvent.holders {ι : Type} (name : String) (before : List ι) : LockEvent ι → List ι
  | acquired who other => if other = name then before ++ [who] else before
  | released other => if other = name then before.tail else before

/-- Those who have acquired a name and from whom it has not been let go of since.  Letting go of a
name counts for the one who has held it longest. -/
def unreleased {ι : Type} (name : String) (events : List (LockEvent ι)) : List ι :=
  events.foldl (LockEvent.holders name) []

theorem unreleased_concat {ι : Type} (name : String) (events : List (LockEvent ι))
    (event : LockEvent ι) :
    unreleased name (events ++ [event]) = event.holders name (unreleased name events) := by
  rw [unreleased, List.foldl_append]
  rfl

/-! ## Waiters, one by one -/

namespace LockTable

variable {ι : Type} {table after : LockTable} {wait? : ι → Option (String × Mutex)}
  {i : ι} {name : String} {mutex : Mutex}

/-- **The table is linked to those who wait**, where each caller waits for one name at most. -/
def LinkedTo (table : LockTable) (wait? : ι → Option (String × Mutex)) : Prop :=
  ∃ waiting : List ι, waiting.Nodup ∧ (∀ i, i ∈ waiting ↔ wait? i ≠ none) ∧
    table.Linked (waiting.filterMap wait?)

namespace LinkedTo

theorem start : empty.LinkedTo (fun _ : ι => none) :=
  ⟨[], List.nodup_nil, by simp, sound_empty.toLinked⟩

/-- Whoever waits for a name has the mutex that is tracked for it. -/
theorem tracked_of_wait (linked : table.LinkedTo wait?) (waits : wait? i = some (name, mutex)) :
    table.tracked.get? name = some mutex := by
  obtain ⟨waiting, -, mem_iff, linked⟩ := linked
  have mem : i ∈ waiting := (mem_iff i).2 (by simp [waits])
  exact linked.tracks_waiter (List.mem_filterMap.2 ⟨i, mem, waits⟩)

theorem tracked_of_held (linked : table.LinkedTo wait?)
    (holds : table.held.get? name = some mutex) : table.tracked.get? name = some mutex := by
  obtain ⟨waiting, -, -, linked⟩ := linked
  exact linked.tracks_held holds

theorem eq_of_tracked (linked : table.LinkedTo wait?) {other : String}
    (tracked : table.tracked.get? name = some mutex)
    (trackedToo : table.tracked.get? other = some mutex) : name = other := by
  obtain ⟨waiting, -, -, linked⟩ := linked
  exact linked.injective tracked trackedToo

/-- The mutex of a name is free exactly if the name is. -/
theorem exists_acquire?_iff (linked : table.LinkedTo wait?)
    (tracked : table.tracked.get? name = some mutex) :
    (∃ after, table.acquire? name mutex = some after) ↔ table.isLocked name = false := by
  obtain ⟨waiting, -, -, linked⟩ := linked
  have held_iff : table.isLocked name = true ↔ mutex ∈ table.held.values := by
    rw [linked.mem_held_values_iff tracked, isLocked, Dict.contains, Option.isSome_iff_exists]
    constructor
    · rintro ⟨held, holds⟩
      rwa [Option.some.inj ((linked.tracks_held holds).symm.trans tracked)] at holds
    · exact fun holds => ⟨mutex, holds⟩
  rw [← Bool.not_eq_true, held_iff, acquire?]
  split <;> simp [*]

variable [DecidableEq ι]

/-- Those who wait besides one who does. -/
theorem exists_cons (linked : table.LinkedTo wait?) (waits : wait? i = some (name, mutex)) :
    ∃ waiting : List ι, waiting.Nodup ∧
      (∀ j, j ∈ waiting ↔ Function.update wait? i none j ≠ none) ∧
        table.Linked ((name, mutex) :: waiting.filterMap (Function.update wait? i none)) := by
  obtain ⟨waiting, nodup, mem_iff, linked⟩ := linked
  have mem : i ∈ waiting := (mem_iff i).2 (by simp [waits])
  refine ⟨waiting.erase i, nodup.erase i, fun j => ?_, ?_⟩
  · by_cases same : j = i
    · simp [same, nodup.not_mem_erase]
    · rw [Function.update_of_ne same, List.mem_erase_of_ne same, mem_iff]
  · have others : (waiting.erase i).filterMap (Function.update wait? i none) =
        (waiting.erase i).filterMap wait? :=
      List.filterMap_congr fun j memErase =>
        Function.update_of_ne (ne_of_mem_of_not_mem memErase nodup.not_mem_erase) none wait?
    rw [others, ← List.filterMap_cons_some waits]
    exact linked.perm ((List.perm_cons_erase mem).filterMap _)

/-- **Somebody begins to wait for a name.** -/
theorem obtain (linked : table.LinkedTo wait?) (name : String) (idle : wait? i = none) :
    (table.obtain name).2.LinkedTo
      (Function.update wait? i (some (name, (table.obtain name).1))) := by
  obtain ⟨waiting, nodup, mem_iff, linked⟩ := linked
  have notMem : i ∉ waiting := fun mem => (mem_iff i).1 mem idle
  refine ⟨i :: waiting, List.nodup_cons.2 ⟨notMem, nodup⟩, fun j => ?_, ?_⟩
  · by_cases same : j = i
    · simp [same]
    · rw [Function.update_of_ne same, ← mem_iff, List.mem_cons]
      exact or_iff_right same
  · have others : waiting.filterMap
        (Function.update wait? i (some (name, (table.obtain name).1))) =
          waiting.filterMap wait? :=
      List.filterMap_congr fun j mem =>
        Function.update_of_ne (ne_of_mem_of_not_mem mem notMem) _ wait?
    rw [List.filterMap_cons_some (Function.update_self i _ wait?), others]
    exact linked.obtain name

omit [DecidableEq ι] in
/-- A mutex that is acquired belonged to a name that nobody held. -/
theorem isLocked_eq_false (linked : table.LinkedTo wait?) (waits : wait? i = some (name, mutex))
    (acquired : table.acquire? name mutex = some after) : table.isLocked name = false :=
  (linked.exists_acquire?_iff (linked.tracked_of_wait waits)).1 ⟨after, acquired⟩

/-- **Somebody acquires the mutex that they wait for.** -/
theorem acquire (linked : table.LinkedTo wait?) (waits : wait? i = some (name, mutex))
    (acquired : table.acquire? name mutex = some after) :
    after.LinkedTo (Function.update wait? i none) := by
  obtain ⟨waiting, nodup, mem_iff, linked⟩ := linked.exists_cons waits
  exact ⟨waiting, nodup, mem_iff, linked.acquire acquired⟩

/-- **Somebody stops waiting.** -/
theorem drop (linked : table.LinkedTo wait?) (waits : wait? i = some (name, mutex)) :
    (table.drop mutex).LinkedTo (Function.update wait? i none) := by
  obtain ⟨waiting, nodup, mem_iff, linked⟩ := linked.exists_cons waits
  exact ⟨waiting, nodup, mem_iff, linked.drop⟩

omit [DecidableEq ι] in
/-- **Somebody stops holding a name.** -/
theorem letGo (linked : table.LinkedTo wait?) (name : String) :
    (table.letGo name).LinkedTo wait? := by
  obtain ⟨waiting, nodup, mem_iff, linked⟩ := linked
  exact ⟨waiting, nodup, mem_iff, linked.letGo name⟩

omit [DecidableEq ι] in
/-- **Somebody looks whether a mutex has become idle.** -/
theorem forget (linked : table.LinkedTo wait?) (name : String) :
    (table.forgetIfIdle name).LinkedTo wait? := by
  obtain ⟨waiting, nodup, mem_iff, linked⟩ := linked
  exact ⟨waiting, nodup, mem_iff, linked.forget name⟩

omit [DecidableEq ι] in
/-- Forgetting a mutex tracks no name that was not tracked. -/
theorem tracked_of_forgetIfIdle (linked : table.LinkedTo wait?) {other : String}
    (tracked : (table.forgetIfIdle name).tracked.get? other = some mutex) :
    table.tracked.get? other = some mutex := by
  obtain ⟨waiting, -, -, linked⟩ := linked
  exact (linked.tracked_forgetIfIdle_iff.1 tracked).1

omit [DecidableEq ι] in
/-- A name that is tracked although somebody has looked whether its mutex is idle is held or waited
for. -/
theorem inUse_of_tracked_forgetIfIdle (linked : table.LinkedTo wait?)
    (tracked : (table.forgetIfIdle name).tracked.get? name = some mutex) :
    table.isLocked name = true ∨ ∃ i awaited, wait? i = some (name, awaited) := by
  obtain ⟨waiting, -, -, linked⟩ := linked
  rcases (linked.tracked_forgetIfIdle_iff.1 tracked).2 rfl with ⟨held, holds⟩ | ⟨awaited, mem⟩
  · exact Or.inl (by rw [isLocked, Dict.contains, holds, Option.isSome_some])
  · obtain ⟨i, -, waits⟩ := List.mem_filterMap.1 mem
    exact Or.inr ⟨i, awaited, waits⟩

end LinkedTo

end LockTable

/-! ## What is kept -/

namespace Callers

variable {ι : Type} {callers after : Callers ι} {events : List (LockEvent ι)}
  {event : Option (LockEvent ι)} {name : String} {mutex : Mutex}

/-- A name is held, or a call on it is under way. -/
def IsCovered (callers : Callers ι) (name : String) : Prop :=
  callers.table.isLocked name = true ∨ ∃ i, (callers.calls i).name? = some name

/-- **What holds at any time.**  The table is linked to the callers that wait, and a tracked name is
held, or a call on it is under way that will look whether its mutex has become idle. -/
structure Kept (callers : Callers ι) : Prop where
  linked : callers.table.LinkedTo fun i => (callers.calls i).wait?
  covered : ∀ {name mutex}, callers.table.tracked.get? name = some mutex →
    callers.IsCovered name

theorem kept_start : Kept (start : Callers ι) where
  linked := LockTable.LinkedTo.start
  covered := nofun

/-- Whoever uses a name has the mutex that is tracked for it. -/
theorem Kept.tracked_of_uses (kept : callers.Kept) (uses : callers.Uses name mutex) :
    callers.table.tracked.get? name = some mutex := by
  rcases uses with ⟨i, waits⟩ | holds
  · exact kept.linked.tracked_of_wait (i := i) (by rw [waits]; rfl)
  · exact kept.linked.tracked_of_held holds

variable [DecidableEq ι] {i : ι} {call : LockCall} {table : LockTable}

/-- A caller that goes on with a call covers the name that it is on. -/
theorem isCovered_advance_self (on : call.name? = some name) :
    (callers.advance i call table).IsCovered name := by
  refine Or.inr ⟨i, ?_⟩
  show (Function.update callers.calls i call i).name? = some name
  rwa [Function.update_self]

/-- **A step concerns one name only.**  If that name is covered, so are all that are tracked. -/
theorem Kept.advance (kept : callers.Kept) (name : String)
    (linked : table.LinkedTo (Function.update (fun j => (callers.calls j).wait?) i call.wait?))
    (concern : ∀ other, (callers.calls i).name? = some other → other = name)
    (tracked : ∀ {other mutex}, other ≠ name → table.tracked.get? other = some mutex →
      callers.table.tracked.get? other = some mutex)
    (locked : ∀ {other}, other ≠ name → callers.table.isLocked other = true →
      table.isLocked other = true)
    (covered : ∀ {mutex}, table.tracked.get? name = some mutex →
      (callers.advance i call table).IsCovered name) : (callers.advance i call table).Kept where
  linked := by
    have waits : (fun j => ((callers.advance i call table).calls j).wait?) =
        Function.update (fun j => (callers.calls j).wait?) i call.wait? :=
      Function.comp_update LockCall.wait? callers.calls i call
    rwa [waits]
  covered := by
    intro other mutex found
    by_cases same : other = name
    · subst same
      exact covered found
    · refine (kept.covered (tracked same found)).imp (locked same) (Exists.imp fun j on => ?_)
      -- The call is that of somebody else, as the caller was concerned with another name.
      have different : j ≠ i := by
        rintro rfl
        exact same (concern other on)
      show (Function.update callers.calls i call j).name? = some other
      rwa [Function.update_of_ne different]

/-- A caller who did not wait and does not wait now changes nothing about who waits. -/
theorem update_wait?_of_eq (silent : call.wait? = (callers.calls i).wait?) :
    Function.update (fun j => (callers.calls j).wait?) i call.wait? =
      fun j => (callers.calls j).wait? := by
  rw [silent]
  exact Function.update_eq_self i fun j => (callers.calls j).wait?

/-! ### Each step -/

theorem Kept.obtain (kept : callers.Kept) (name : String) (idle : callers.calls i = .idle) :
    (callers.advance i (.waiting name (callers.table.obtain name).1)
      (callers.table.obtain name).2).Kept := by
  have silent : (callers.calls i).wait? = none := congrArg LockCall.wait? idle
  refine kept.advance name (kept.linked.obtain name silent) (fun other on => ?_)
    (fun different found => ?_) (fun different locked => ?_) (fun _ => isCovered_advance_self rfl)
  · rw [idle] at on
    cases on
  · rwa [LockTable.tracked_obtain_of_ne different] at found
  · rwa [LockTable.isLocked_obtain]

theorem Kept.acquire (kept : callers.Kept) (waits : callers.calls i = .waiting name mutex)
    (acquired : callers.table.acquire? name mutex = some table) :
    (callers.advance i .idle table).Kept := by
  have wait : (callers.calls i).wait? = some (name, mutex) := congrArg LockCall.wait? waits
  refine kept.advance name (kept.linked.acquire wait acquired) (fun other on => ?_)
    (fun _ found => ?_) (fun different locked => ?_) (fun _ => Or.inl ?_)
  · rw [waits] at on
    exact (Option.some.inj on).symm
  · rwa [LockTable.tracked_acquire acquired] at found
  · rwa [LockTable.isLocked_acquire acquired, if_neg different]
  · show table.isLocked name = true
    rw [LockTable.isLocked_acquire acquired, if_pos rfl]

theorem Kept.timeOut (kept : callers.Kept) (waits : callers.calls i = .waiting name mutex) :
    (callers.advance i (.leaving name) (callers.table.drop mutex)).Kept := by
  have wait : (callers.calls i).wait? = some (name, mutex) := congrArg LockCall.wait? waits
  refine kept.advance name (kept.linked.drop wait) (fun other on => ?_) (fun _ found => found)
    (fun _ locked => locked) (fun _ => isCovered_advance_self rfl)
  rw [waits] at on
  exact (Option.some.inj on).symm

theorem Kept.letGo (kept : callers.Kept) (name : String) (idle : callers.calls i = .idle) :
    (callers.advance i (.leaving name) (callers.table.letGo name)).Kept := by
  have silent : (LockCall.leaving name).wait? = (callers.calls i).wait? := by rw [idle]; rfl
  refine kept.advance name ?_ (fun other on => ?_) (fun _ found => found)
    (fun different locked => ?_) (fun _ => isCovered_advance_self rfl)
  · rw [update_wait?_of_eq silent]
    exact kept.linked.letGo name
  · rw [idle] at on
    cases on
  · rwa [LockTable.isLocked_letGo, if_neg different]

theorem Kept.forget (kept : callers.Kept) (leaves : callers.calls i = .leaving name) :
    (callers.advance i .idle (callers.table.forgetIfIdle name)).Kept := by
  have silent : LockCall.idle.wait? = (callers.calls i).wait? := by rw [leaves]; rfl
  refine kept.advance name ?_ (fun other on => ?_)
    (fun _ found => kept.linked.tracked_of_forgetIfIdle found)
    (fun _ locked => (LockTable.isLocked_forgetIfIdle _ _ _).trans locked) (fun found => ?_)
  · rw [update_wait?_of_eq silent]
    exact kept.linked.forget name
  · rw [leaves] at on
    exact (Option.some.inj on).symm
  · -- The caller is not there any more to cover the name, so somebody else does.
    rcases kept.linked.inUse_of_tracked_forgetIfIdle found with locked | ⟨j, awaited, wait⟩
    · exact Or.inl ((LockTable.isLocked_forgetIfIdle _ _ _).trans locked)
    · have different : j ≠ i := by
        rintro rfl
        rw [leaves] at wait
        cases wait
      refine Or.inr ⟨j, ?_⟩
      show (Function.update callers.calls i LockCall.idle j).name? = some name
      rw [Function.update_of_ne different]
      exact LockCall.name?_of_wait? wait

/-- **Every step keeps it.** -/
theorem Kept.step (kept : callers.Kept) (step : Step callers event after) : after.Kept := by
  cases step with
  | obtain i name idle => exact kept.obtain name idle
  | acquire i waits acquired => exact kept.acquire waits acquired
  | timeOut i waits => exact kept.timeOut waits
  | letGo i name idle locked => exact kept.letGo name idle
  | miss i name idle free => exact kept
  | forget i leaves => exact kept.forget leaves

/-- **Every run keeps it.** -/
theorem Run.kept (run : Run events callers) : callers.Kept := by
  induction run with
  | start => exact kept_start
  | step before step ih => exact ih.step step

/-! ## Calls that nobody interferes with -/

/-- **Asking for a lock of a backend is a run of steps**, from any run on. -/
theorem Run.exists_tryLock (run : Run events callers) (idle : callers.calls i = .idle)
    {cache : MemoryCache} (locks : cache.locks = callers.table) (name : String) (wait : Duration) :
    ∃ further after, Run (events ++ further) after ∧ after.calls = callers.calls ∧
      after.table = ((CacheBackend.tryLock name wait : StateM MemoryCache _) cache).2.locks := by
  have asked := run.step (.obtain i name idle)
  have waits : (callers.advance i (.waiting name (callers.table.obtain name).1)
      (callers.table.obtain name).2).calls i = .waiting name (callers.table.obtain name).1 :=
    Function.update_self i _ callers.calls
  have back (call : LockCall) :
      Function.update (Function.update callers.calls i call) i .idle = callers.calls := by
    rw [Function.update_idem, ← idle, Function.update_eq_self]
  rw [MemoryCache.tryLock_eq, locks]
  cases acquired : (callers.table.obtain name).2.acquire? name (callers.table.obtain name).1 with
  | some table =>
    have got := asked.step (.acquire i waits acquired)
    rw [List.append_assoc] at got
    exact ⟨_, _, got, back _, rfl⟩
  | none =>
    have late := asked.step (.timeOut i waits)
    have done := late.step (.forget i (Function.update_self i _ _))
    rw [List.append_assoc, List.append_assoc] at done
    refine ⟨_, _, done, ?_, rfl⟩
    show Function.update (Function.update (Function.update callers.calls i _) i _) i .idle = _
    rw [Function.update_idem, back]

/-- **Releasing a lock of a backend is a run of steps**, from any run on. -/
theorem Run.exists_unlock (run : Run events callers) (idle : callers.calls i = .idle)
    {cache : MemoryCache} (locks : cache.locks = callers.table) (name : String) :
    ∃ further after, Run (events ++ further) after ∧ after.calls = callers.calls ∧
      after.table = ((CacheBackend.unlock name : StateM MemoryCache _) cache).2.locks := by
  have answered : ((CacheBackend.unlock name : StateM MemoryCache _) cache).2.locks =
      cache.locks.release name := rfl
  rw [answered, locks, LockTable.release_eq_letGo]
  cases locked : callers.table.isLocked name with
  | false =>
    rw [if_neg Bool.false_ne_true]
    exact ⟨[], callers, run.step (.miss i name idle locked), rfl, rfl⟩
  | true =>
    have left := run.step (.letGo i name idle locked)
    have done := left.step (.forget i (Function.update_self i _ _))
    rw [List.append_assoc] at done
    refine ⟨_, _, done, ?_, rfl⟩
    show Function.update (Function.update callers.calls i _) i .idle = _
    rw [Function.update_idem, ← idle, Function.update_eq_self]

/-! ## Who holds a name -/

/-- **As many callers hold a name as the table says**: one or none. -/
theorem length_unreleased_step (kept : callers.Kept) (step : Step callers event after)
    (counted : ∀ name, (unreleased name events).length = (callers.table.isLocked name).toNat)
    (name : String) :
    (unreleased name (events ++ event.toList)).length = (after.table.isLocked name).toNat := by
  cases step with
  | obtain i other idle =>
    show (unreleased name (events ++ [])).length =
      ((callers.table.obtain other).2.isLocked name).toNat
    rw [List.append_nil, LockTable.isLocked_obtain, counted]
  | @acquire i other mutex table waits acquired =>
    show (unreleased name (events ++ [.acquired i other])).length = (table.isLocked name).toNat
    rw [unreleased_concat, LockEvent.holders, LockTable.isLocked_acquire acquired]
    by_cases same : name = other
    · have wait : (callers.calls i).wait? = some (other, mutex) := congrArg LockCall.wait? waits
      have free := kept.linked.isLocked_eq_false wait acquired
      rw [if_pos same.symm, if_pos same, List.length_append, counted, same, free]
      rfl
    · rw [if_neg (Ne.symm same), if_neg same, counted]
  | @timeOut i other mutex waits =>
    show (unreleased name (events ++ [])).length = (callers.table.isLocked name).toNat
    rw [List.append_nil, counted]
  | letGo i other idle locked =>
    show (unreleased name (events ++ [.released other])).length =
      ((callers.table.letGo other).isLocked name).toNat
    rw [unreleased_concat, LockEvent.holders, LockTable.isLocked_letGo]
    by_cases same : name = other
    · rw [if_pos same.symm, if_pos same, List.length_tail, counted, same, locked]
      rfl
    · rw [if_neg (Ne.symm same), if_neg same, counted]
  | miss i other idle free =>
    show (unreleased name (events ++ [])).length = (callers.table.isLocked name).toNat
    rw [List.append_nil, counted]
  | @forget i other leaves =>
    show (unreleased name (events ++ [])).length =
      ((callers.table.forgetIfIdle other).isLocked name).toNat
    rw [List.append_nil, LockTable.isLocked_forgetIfIdle, counted]

theorem Run.length_unreleased (run : Run events callers) :
    ∀ name, (unreleased name events).length = (callers.table.isLocked name).toNat := by
  induction run with
  | start => exact fun _ => rfl
  | step before step ih => exact length_unreleased_step before.kept step ih

/-! ## When no call is under way -/

omit [DecidableEq ι] in
/-- When no call is under way, a name is tracked exactly if it is held. -/
theorem Kept.contains_tracked (kept : callers.Kept) (quiet : ∀ i, callers.calls i = .idle)
    (name : String) : callers.table.tracked.contains name = callers.table.isLocked name := by
  rw [Bool.eq_iff_iff]
  constructor
  · intro contained
    obtain ⟨mutex, tracked⟩ := Option.isSome_iff_exists.1 contained
    refine (kept.covered tracked).resolve_right ?_
    rintro ⟨i, on⟩
    rw [quiet i] at on
    cases on
  · intro locked
    obtain ⟨mutex, holds⟩ := Option.isSome_iff_exists.1 locked
    exact Option.isSome_iff_exists.2 ⟨mutex, kept.linked.tracked_of_held holds⟩

omit [DecidableEq ι] in
/-- When no call is under way, as many names are tracked as are held. -/
theorem Kept.count_eq (kept : callers.Kept) (quiet : ∀ i, callers.calls i = .idle) :
    callers.table.count = callers.table.held.size := by
  have same : callers.table.tracked.keys.Perm callers.table.held.keys := by
    refine (List.perm_ext_iff_of_nodup (Dict.nodup_keys _) (Dict.nodup_keys _)).2 fun name => ?_
    rw [← Dict.contains_iff_mem_keys, ← Dict.contains_iff_mem_keys]
    exact Bool.eq_iff_iff.1 (kept.contains_tracked quiet name)
  rw [LockTable.count, ← Dict.length_keys, same.length_eq, Dict.length_keys]

/-! ## The locks are sound -/

/-- **Named locks are sound** at any time, however the calls have been interleaved.  A name has been
acquired by one caller at most without having been let go of since, and the table says whether it
has.  All who wait for a name or hold it use one mutex, which is what the next one who asks will
obtain, and no two names share a mutex; so whoever waits can go on as soon as nobody holds the name.
When no call is under way, the tracked names are exactly the held ones. -/
theorem Run.orderly (run : Run events callers) :
    (∀ name, (unreleased name events).length ≤ 1 ∧
      (callers.table.isLocked name = true ↔ unreleased name events ≠ [])) ∧
    (∀ name mutex, callers.Uses name mutex → (callers.table.obtain name).1 = mutex ∧
      ∀ other own, callers.Uses other own → (other = name ↔ own = mutex)) ∧
    (∀ i name mutex, callers.calls i = .waiting name mutex →
      ((∃ after, callers.table.acquire? name mutex = some after) ↔
        callers.table.isLocked name = false)) ∧
    ((∀ i, callers.calls i = .idle) →
      (∀ name, callers.table.tracked.contains name = callers.table.isLocked name) ∧
        callers.table.count = callers.table.held.size) := by
  have kept := run.kept
  refine ⟨fun name => ?_, fun name mutex uses => ?_, fun i name mutex waits => ?_, fun quiet => ?_⟩
  · have length := run.length_unreleased name
    refine ⟨length ▸ Bool.toNat_le _, ?_⟩
    rw [← List.length_pos_iff, length]
    cases callers.table.isLocked name <;> simp
  · have tracked := kept.tracked_of_uses uses
    refine ⟨LockTable.obtain_of_tracked tracked, fun other own usesToo => ?_⟩
    have trackedToo := kept.tracked_of_uses usesToo
    constructor
    · rintro rfl
      exact Option.some.inj (trackedToo.symm.trans tracked)
    · rintro rfl
      exact kept.linked.eq_of_tracked trackedToo tracked
  · exact kept.linked.exists_acquire?_iff (kept.tracked_of_uses (Or.inl ⟨i, waits⟩))
  · exact ⟨kept.contains_tracked quiet, kept.count_eq quiet⟩

/-- The second caller has waited too long while the first one held the name.  Once nobody uses the
name any more its mutex is forgotten, and another one is made for it. -/
theorem orderly_door :
    ∃ callers : Callers Bool,
      Run [.acquired false "door", .released "door", .acquired true "door"] callers ∧
        callers.table.tracked.get? "door" = some 1 ∧
          unreleased "door" [.acquired false "door", .released "door", .acquired true "door"] =
            [true] ∧ callers.table.isLocked "door" = true ∧ callers.table.count = 1 := by
  have asked := (Run.start.step (.obtain false "door" rfl)).step (.obtain true "door" rfl)
  have held := asked.step (.acquire false rfl rfl)
  have left := (held.step (.timeOut true rfl)).step (.letGo false "door" rfl rfl)
  have forgotten := (left.step (.forget true rfl)).step (.forget false rfl)
  have again := (forgotten.step (.obtain true "door" rfl)).step (.acquire true rfl rfl)
  obtain ⟨one, -, -, quiet⟩ := again.orderly
  refine ⟨_, again, rfl, rfl, (one "door").2.2 (by decide), ?_⟩
  exact (quiet fun i => by cases i <;> rfl).2

end Callers

end Phrasebook
