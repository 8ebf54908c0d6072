import Phrasebook.Proofs.Cache.Bracket
import Phrasebook.Proofs.Cache.Locks

/-!
# A cached source with nobody in the way

A cached source over a backend in memory of which nobody holds a lock does the same with and without
locking: a lock that is asked for is free, and it is given back in the end.  What is left of an
operation is its work, and `CacheOperation.direct` says it without any requests.

## Main statement

`CacheOperation.perform_of_idle`: where the locks are idle, performing an operation is doing its
work directly, and the locks are idle again if the operation comes to its end.
-/

namespace Phrasebook

/-! ## Locks that nobody holds -/

namespace LockTable

/-- Nobody holds a lock or waits for one. -/
def idle (fresh : Mutex) : LockTable := ⟨Dict.empty, Dict.empty, [], fresh⟩

/-- Somebody holds the lock of a name, and that is all. -/
def taken (name : String) (mutex : Mutex) : LockTable :=
  ⟨Dict.empty.insert name mutex, Dict.empty.insert name mutex, [], mutex + 1⟩

/-- When the only lock is released, the table is idle again. -/
theorem release_taken (name : String) (mutex : Mutex) :
    (taken name mutex).release name = idle (mutex + 1) := by
  have held : (taken name mutex).isLocked name = true := by
    simp [isLocked, taken, Dict.contains]
  have idle_held : mutex ∉ (Dict.empty : Dict String Mutex).values := by
    simp [Dict.values, Dict.empty]
  rw [release, if_pos held]
  simp [forgetIfIdle, taken, idle, idle_held]

end LockTable

namespace MemoryCache

variable (cache : MemoryCache) (locks : LockTable)

@[simp]
theorem keep_setLocks (key : String) (messages : Messages) (lifetime : Duration) :
    (cache.setLocks locks).keep key messages lifetime =
      (cache.keep key messages lifetime).setLocks locks := by
  by_cases noRoom : cache.capacity = 0 <;> simp [keep, setLocks, noRoom]

/-- What is kept under one key does not change what is found under another. -/
theorem lookup_keep_of_ne {key other : String} (different : other ≠ key) (messages : Messages)
    (lifetime : Duration) :
    (cache.keep key messages lifetime).lookup other = cache.lookup other := by
  rw [keep]
  split
  · rfl
  · rw [lookup, lookup, Dict.get?_insert, if_neg different]

theorem locks_keep (key : String) (messages : Messages) (lifetime : Duration) :
    (cache.keep key messages lifetime).locks = cache.locks := by
  rw [keep]
  split <;> rfl

theorem capacity_keep (key : String) (messages : Messages) (lifetime : Duration) :
    (cache.keep key messages lifetime).capacity = cache.capacity := by
  rw [keep]
  split <;> rfl

/-- A lock of an idle table is acquired at once. -/
theorem tryLock_of_idle {cache : MemoryCache} {fresh : Mutex}
    (idle : cache.locks = LockTable.idle fresh) (name : String) (wait : Duration) :
    (CacheBackend.tryLock name wait : StateM MemoryCache (Except LoadError Bool)) cache =
      (.ok true, cache.setLocks (LockTable.taken name fresh)) := by
  have free : (cache.locks.obtain name).2.acquire? name (cache.locks.obtain name).1 =
      some (LockTable.taken name fresh) := by
    have obtained : (LockTable.idle fresh).obtain name =
        (fresh, ⟨Dict.empty.insert name fresh, Dict.empty, [fresh], fresh + 1⟩) := rfl
    rw [idle, obtained]
    simp [LockTable.acquire?, LockTable.taken, Dict.values, Dict.empty]
  rw [tryLock_eq, free]

end MemoryCache

/-! ## The work of an operation -/

namespace CachedSource

variable {σ : Type}

/-- Changes the locks of the backend. -/
def setLocks (cached : CachedSource σ MemoryCache) (locks : LockTable) :
    CachedSource σ MemoryCache :=
  { cached with backend := cached.backend.setLocks locks }

/-- The backend once the source has answered for a key.  Only messages are kept. -/
def keeping (cached : CachedSource σ MemoryCache) (key : String) :
    Option (Except LoadError Messages) → MemoryCache
  | some (.ok messages) => cached.backend.keep key messages cached.options.lifetime
  | _ => cached.backend

theorem keeping_setLocks (cached : CachedSource σ MemoryCache) (locks : LockTable) (key : String)
    (answer : Option (Except LoadError Messages)) :
    (cached.setLocks locks).keeping key answer = (cached.keeping key answer).setLocks locks := by
  rcases answer with _ | (error | messages)
  · rfl
  · rfl
  · exact cached.backend.keep_setLocks locks key messages cached.options.lifetime

theorem capacity_keeping (cached : CachedSource σ MemoryCache) (key : String)
    (answer : Option (Except LoadError Messages)) :
    (cached.keeping key answer).capacity = cached.backend.capacity := by
  rcases answer with _ | (error | messages)
  · rfl
  · rfl
  · exact cached.backend.capacity_keep key messages cached.options.lifetime

variable {α : Type} [MessageSource σ]

/-- A lock of an idle backend is acquired at once. -/
theorem handle_tryLock_of_idle {cached : CachedSource σ MemoryCache} {fresh : Mutex}
    (idle : cached.backend.locks = LockTable.idle fresh) (lock : String) (wait : Duration) :
    (handle ⟨.tryLock lock wait, none⟩ :
        Loading (CachedSource σ MemoryCache) (Except LoadError Bool)) cached =
      (some (.ok true), cached.setLocks (LockTable.taken lock fresh)) := by
  have tried := MemoryCache.tryLock_of_idle idle lock wait
  show (some ((CacheBackend.tryLock lock wait : StateM MemoryCache _) cached.backend).1,
    { cached with
      backend := ((CacheBackend.tryLock lock wait : StateM MemoryCache _) cached.backend).2 }) = _
  rw [tried]
  rfl

/-- A step is replied to first; without a reply that is the end. -/
theorem run_ask {β : Type} [CacheBackend β] (step : CacheStep) (next : step.Reply → CacheProgram α)
    (cached : CachedSource σ β) :
    (Interaction.run handle (Interaction.ask step next) : Loading (CachedSource σ β) α) cached =
      match (handle step : Loading (CachedSource σ β) step.Reply) cached with
      | (some answer, changed) =>
        (Interaction.run handle (next answer) : Loading (CachedSource σ β) α) changed
      | (none, changed) => (none, changed) := by
  refine (Loading.bind_apply (handle step)
    (fun answer => Interaction.run handle (next answer)) cached).trans ?_
  rcases (handle step : Loading (CachedSource σ β) step.Reply) cached with
    ⟨_ | answer, changed⟩ <;> rfl

/-- One program after the other. -/
theorem run_bind {β γ : Type} [CacheBackend β] (program : CacheProgram α)
    (next : α → CacheProgram γ) (cached : CachedSource σ β) :
    (Interaction.run handle (program >>= next) : Loading (CachedSource σ β) γ) cached =
      match (Interaction.run handle program : Loading (CachedSource σ β) α) cached with
      | (some result, changed) =>
        (Interaction.run handle (next result) : Loading (CachedSource σ β) γ) changed
      | (none, changed) => (none, changed) := by
  induction program generalizing cached with
  | done result => rfl
  | ask step rest ih =>
    rw [Interaction.ask_bind, run_ask, run_ask]
    rcases (handle step : Loading (CachedSource σ β) step.Reply) cached with ⟨_ | answer, changed⟩
    · rfl
    · exact ih answer changed

end CachedSource

namespace CacheOperation

variable {σ : Type} [MessageSource σ]

/-- **The work of an operation**, with the answer and what becomes of the source and the backend. -/
def direct (cached : CachedSource σ MemoryCache) :
    (operation : CacheOperation) →
      Option (Except LoadError operation.Answer) × CachedSource σ MemoryCache
  | load bundle languages =>
    let key := cached.options.key bundle .messages
    match cached.backend.lookup key with
    | some messages => (some (.ok messages), { cached with metrics := cached.metrics.count .hits })
    | none =>
      let (answer, source) := (MessageSource.load bundle languages : Loading σ _) cached.source
      (answer, { cached with
        source
        backend := cached.keeping key answer
        metrics := cached.metrics.count .misses })
  | drop bundle =>
    let key := cached.options.key bundle .messages
    (some (.ok (cached.backend.kept.contains key)),
      { cached with backend := cached.backend.remove key })

/-- The work of a load that finds messages. -/
theorem direct_load_of_found {cached : CachedSource σ MemoryCache} {bundle : String}
    {messages : Messages}
    (found : cached.backend.lookup (cached.options.key bundle .messages) = some messages)
    (languages : List Language) :
    (load bundle languages).direct cached =
      (some (.ok messages), { cached with metrics := cached.metrics.count .hits }) := by
  simp only [direct, found]

/-- The work of a load that finds nothing. -/
theorem direct_load_of_missing {cached : CachedSource σ MemoryCache} {bundle : String}
    (missing : cached.backend.lookup (cached.options.key bundle .messages) = none)
    {languages : List Language} {answer : Option (Except LoadError Messages)} {source : σ}
    (loaded : (MessageSource.load bundle languages : Loading σ _) cached.source =
      (answer, source)) :
    (load bundle languages).direct cached =
      (answer, { cached with
        source
        backend := cached.keeping (cached.options.key bundle .messages) answer
        metrics := cached.metrics.count .misses }) := by
  simp only [direct, missing, loaded]

/-- Locks play no part in the work. -/
theorem direct_setLocks (cached : CachedSource σ MemoryCache) (locks : LockTable)
    (operation : CacheOperation) :
    operation.direct (cached.setLocks locks) =
      ((operation.direct cached).1, (operation.direct cached).2.setLocks locks) := by
  cases operation with
  | drop bundle => rfl
  | load bundle languages =>
    cases found : cached.backend.lookup (cached.options.key bundle .messages) with
    | some messages =>
      rw [direct_load_of_found found]
      exact @direct_load_of_found _ _ (cached.setLocks locks) _ _ found languages
    | none =>
      rw [direct_load_of_missing found rfl]
      refine (@direct_load_of_missing _ _ (cached.setLocks locks) _ found _ _ _ rfl).trans ?_
      show _ = (_, CachedSource.setLocks _ locks)
      rw [CachedSource.keeping_setLocks]
      rfl

theorem options_direct (cached : CachedSource σ MemoryCache) (operation : CacheOperation) :
    (operation.direct cached).2.options = cached.options := by
  cases operation with
  | drop bundle => rfl
  | load bundle languages =>
    cases found : cached.backend.lookup (cached.options.key bundle .messages) with
    | some messages => rw [direct_load_of_found found]
    | none => rw [direct_load_of_missing found rfl]

theorem capacity_direct (cached : CachedSource σ MemoryCache) (operation : CacheOperation) :
    (operation.direct cached).2.backend.capacity = cached.backend.capacity := by
  cases operation with
  | drop bundle => rfl
  | load bundle languages =>
    cases found : cached.backend.lookup (cached.options.key bundle .messages) with
    | some messages => rw [direct_load_of_found found]
    | none =>
      rw [direct_load_of_missing found rfl]
      exact cached.capacity_keeping _ _

/-- What an operation asks for under its lock is what it does. -/
theorem run_body (operation : CacheOperation) (held : Option String)
    (cached : CachedSource σ MemoryCache) :
    (Interaction.run CachedSource.handle (operation.body cached.options held) :
      Loading (CachedSource σ MemoryCache) _) cached = operation.direct cached := by
  cases operation with
  | drop bundle => rfl
  | load bundle languages =>
    have got : (CachedSource.handle ⟨.get (cached.options.key bundle .messages), held⟩ :
        Loading (CachedSource σ MemoryCache) _) cached =
          (some (.ok (cached.backend.lookup (cached.options.key bundle .messages))), cached) := rfl
    refine (CachedSource.run_ask _ _ cached).trans ?_
    rw [got, direct]
    cases found : cached.backend.lookup (cached.options.key bundle .messages) with
    | some messages => rfl
    | none =>
      have asked (counted : CachedSource σ MemoryCache) :
          (CachedSource.handle ⟨.load bundle languages, held⟩ :
            Loading (CachedSource σ MemoryCache) _) counted =
              let (answer, source) :=
                (MessageSource.load bundle languages : Loading σ _) counted.source
              (answer, { counted with source }) :=
        rfl
      refine (CachedSource.run_ask ⟨.count .misses, held⟩ _ cached).trans ?_
      refine (CachedSource.run_ask ⟨.load bundle languages, held⟩ _ _).trans ?_
      rw [asked]
      rcases (MessageSource.load bundle languages : Loading σ _) cached.source with
        ⟨_ | _ | messages, source⟩ <;> rfl

/-- **With nobody in the way, an operation is its work.** -/
theorem perform_of_idle {cached : CachedSource σ MemoryCache} {fresh : Mutex}
    (idle : cached.backend.locks = LockTable.idle fresh) (operation : CacheOperation) :
    ∃ locks, operation.perform cached =
        ((operation.direct cached).1, (operation.direct cached).2.setLocks locks) ∧
      ((operation.direct cached).1 ≠ none → ∃ later, locks = LockTable.idle later) := by
  rw [perform_apply, program_eq_withLock]
  cases on : cached.options.locking.lock with
  | false =>
    rw [CacheProgram.withLock_of_lock_eq_false on, run_body]
    exact ⟨cached.backend.locks, direct_setLocks cached cached.backend.locks operation,
      fun _ => ⟨fresh, idle⟩⟩
  | true =>
    rw [CacheProgram.withLock_of_lock_eq_true on, CachedSource.run_ask,
      CachedSource.handle_tryLock_of_idle idle]
    generalize cached.options.key operation.bundle .lock = lock
    let taken := LockTable.taken lock fresh
    have worked : (Interaction.run CachedSource.handle (operation.body cached.options (some lock)) :
        Loading (CachedSource σ MemoryCache) _) (cached.setLocks taken) =
          ((operation.direct cached).1, (operation.direct cached).2.setLocks taken) :=
      (run_body operation (some lock) (cached.setLocks taken)).trans
        (direct_setLocks cached taken operation)
    have around := CachedSource.run_bind (operation.body cached.options (some lock))
      (fun result => Interaction.ask ⟨.unlock lock, some lock⟩ fun _ => Interaction.done result)
      (cached.setLocks taken)
    rw [worked] at around
    -- The lock is given back only if the work comes to an end.
    generalize operation.direct cached = work at around ⊢
    rcases work with ⟨_ | result, after⟩
    · exact ⟨taken, around, fun ended => absurd rfl ended⟩
    · refine ⟨LockTable.idle (fresh + 1), around.trans ?_, fun _ => ⟨fresh + 1, rfl⟩⟩
      have released : (CachedSource.handle ⟨.unlock lock, some lock⟩ :
          Loading (CachedSource σ MemoryCache) _) (after.setLocks taken) =
            (some (.ok ()), after.setLocks (taken.release lock)) := rfl
      refine (CachedSource.run_ask ⟨.unlock lock, some lock⟩ _ (after.setLocks taken)).trans ?_
      rw [released, LockTable.release_taken]
      rfl

end CacheOperation

end Phrasebook
