import Mathlib.Data.List.Induction
import Mathlib.Logic.Function.Basic
import Phrasebook.Proofs.Cache.Bracket
import Phrasebook.Proofs.Cache.Memory

/-!
# Operations of cached sources at the same time

Any number of operations are under way, of any number of cached sources that share one backend in
memory.  They take their steps in any order.  A step is a request to the backend or to a source
with the reply to it; what a source replies is left open.  Asking for a lock takes two steps, as
there may be a wait: the mutex of the lock is obtained, and later it is acquired, or given up,
which may happen at any time.

What has happened is a list of moments, the first one first: who has asked for what, and what the
reply was.

## Main definitions

- `Flight` is an operation under way, and `Traffic` all of them with the backend.
- `Traffic.Step` is what can happen next, and `Traffic.Run` what can have happened so far.
- `latest` is what was fetched last of a bundle, as told from the moments since its entry was
  deleted.
-/

namespace Phrasebook

/-! ## What can happen -/

/-- An operation under way: what it still has to ask, and the mutex of its lock while it waits for
it. -/
structure Flight where
  options : CacheOptions
  operation : CacheOperation
  rest : CacheProgram (Except LoadError operation.Answer)
  mutex : Option Mutex

namespace Flight

/-- An operation that has not begun to ask. -/
def start (options : CacheOptions) (operation : CacheOperation) : Flight :=
  ⟨options, operation, operation.program options, none⟩

/-- The step that an operation is at, unless it is done. -/
def step? (flight : Flight) : Option CacheStep :=
  match flight.rest with
  | Interaction.ask step _ => some step
  | Interaction.done _ => none

/-- The lock of an operation. -/
def lock (flight : Flight) : String := flight.options.key flight.operation.bundle .lock

/-- The lock that an operation waits for, with the mutex that it has obtained. -/
def wait? (flight : Flight) : Option (String × Mutex) :=
  flight.mutex.map fun mutex => (flight.lock, mutex)

/-- The lock that an operation holds. -/
def holds (flight : Flight) : Option String := flight.step?.bind CacheStep.held

theorem holds_of_ask (flight : Flight) {step : CacheStep}
    {next : step.Reply → CacheProgram (Except LoadError flight.operation.Answer)}
    (here : flight.rest = Interaction.ask step next) : flight.holds = step.held := by
  rw [holds, step?, here]
  rfl

theorem holds_of_done (flight : Flight) {result : Except LoadError flight.operation.Answer}
    (ended : flight.rest = Interaction.done result) : flight.holds = none := by
  rw [holds, step?, ended]
  rfl

/-- The source is loading a bundle for the operation. -/
def IsLoading (bundle : String) (flight : Flight) : Prop :=
  ∃ languages held, flight.step? = some ⟨.load bundle languages, held⟩

end Flight

/-- Operations under way, with the backend that they share. -/
structure Traffic (ι : Type) where
  flights : ι → Flight
  cache : MemoryCache

/-- Somebody has asked for something and got a reply. -/
structure Moment (ι : Type) where
  flight : ι
  exchange : CacheExchange

/-- What is said of all items is said of the only one. -/
theorem forall_mem_some_iff {α : Type} {item : α} {property : α → Prop} :
    (∀ other ∈ some item, property other) ↔ property item := by
  simp

/-- The backend replies to a step.  What a source replies does not depend on it, and requests for
locks are not settled in one step. -/
def MemoryCache.Replies (cache : MemoryCache) :
    (step : CacheStep) → step.Reply → MemoryCache → Prop
  | ⟨.tryLock _ _, _⟩, _, _ => False
  | ⟨.unlock name, _⟩, answer, changed =>
    (CacheBackend.unlock name : StateM MemoryCache _) cache = (answer, changed)
  | ⟨.get key, _⟩, answer, changed =>
    (CacheBackend.get key : StateM MemoryCache _) cache = (answer, changed)
  | ⟨.set key messages lifetime, _⟩, answer, changed =>
    (CacheBackend.set key messages lifetime : StateM MemoryCache _) cache = (answer, changed)
  | ⟨.delete key, _⟩, answer, changed =>
    (CacheBackend.delete key : StateM MemoryCache _) cache = (answer, changed)
  | ⟨.load _ _, _⟩, _, changed => changed = cache
  | ⟨.count _, _⟩, _, changed => changed = cache

/-- Options with locking, where a lock that is not free in time is a failure, and with a given form
of keys. -/
structure CacheOptions.IsGuarded (form : String) (options : CacheOptions) : Prop where
  form_eq : options.keyFormat = form
  lock : options.locking.lock = true
  fails : options.locking.failureAction = .fail

namespace Traffic

variable {ι : Type} [DecidableEq ι]

/-- One of the operations has come further, and the backend has changed. -/
def advance (traffic : Traffic ι) (i : ι) (flight : Flight) (cache : MemoryCache) : Traffic ι :=
  ⟨Function.update traffic.flights i flight, cache⟩

/-- **What can happen next**, with the moment that is made of it, if any. -/
inductive Step (traffic : Traffic ι) : Option (Moment ι) → Traffic ι → Prop
  /-- The mutex of a lock is obtained. -/
  | obtain {i : ι} {name : String} {wait : Duration} {held : Option String}
      {next : Except LoadError Bool →
        CacheProgram (Except LoadError (traffic.flights i).operation.Answer)}
      {mutex : Mutex} {cache : MemoryCache}
      (here : (traffic.flights i).rest = Interaction.ask ⟨.tryLock name wait, held⟩ next)
      (idle : (traffic.flights i).mutex = none)
      (obtained : (CacheBackend.obtain name wait : StateM MemoryCache _) traffic.cache =
        (.ok mutex, cache)) :
      Step traffic none (traffic.advance i { traffic.flights i with mutex := some mutex } cache)
  /-- The mutex is acquired. -/
  | acquire {i : ι} {name : String} {wait : Duration} {held : Option String}
      {next : Except LoadError Bool →
        CacheProgram (Except LoadError (traffic.flights i).operation.Answer)}
      {mutex : Mutex} {cache : MemoryCache}
      (here : (traffic.flights i).rest = Interaction.ask ⟨.tryLock name wait, held⟩ next)
      (waits : (traffic.flights i).mutex = some mutex)
      (acquired : (CacheBackend.acquire name mutex : StateM MemoryCache Bool) traffic.cache =
        (true, cache)) :
      Step traffic (some ⟨i, ⟨⟨.tryLock name wait, held⟩, .ok true⟩⟩)
        (traffic.advance i
          { traffic.flights i with rest := next (.ok true), mutex := none } cache)
  /-- The mutex is waited for too long. -/
  | giveUp {i : ι} {name : String} {wait : Duration} {held : Option String}
      {next : Except LoadError Bool →
        CacheProgram (Except LoadError (traffic.flights i).operation.Answer)}
      {mutex : Mutex} {cache : MemoryCache}
      (here : (traffic.flights i).rest = Interaction.ask ⟨.tryLock name wait, held⟩ next)
      (waits : (traffic.flights i).mutex = some mutex)
      (gaveUp : (CacheBackend.giveUp name mutex : StateM MemoryCache Unit) traffic.cache =
        ((), cache)) :
      Step traffic (some ⟨i, ⟨⟨.tryLock name wait, held⟩, .ok false⟩⟩)
        (traffic.advance i
          { traffic.flights i with rest := next (.ok false), mutex := none } cache)
  /-- Any other request is replied to. -/
  | reply {i : ι} {step : CacheStep}
      {next : step.Reply →
        CacheProgram (Except LoadError (traffic.flights i).operation.Answer)}
      {answer : step.Reply} {cache : MemoryCache}
      (here : (traffic.flights i).rest = Interaction.ask step next)
      (replied : traffic.cache.Replies step answer cache) :
      Step traffic (some ⟨i, ⟨step, answer⟩⟩)
        (traffic.advance i { traffic.flights i with rest := next answer } cache)
  /-- Time passes. -/
  | sleep (time : Duration) : Step traffic none { traffic with cache := traffic.cache.sleep time }

/-- **What can have happened so far**, from an empty backend on.  Nothing runs out and there is room
for everything. -/
inductive Run (form : String) : List (Moment ι) → Traffic ι → Prop
  | start {begun : ι → CacheOptions × CacheOperation} {capacity : UInt64}
      (place : CacheOptions.bundlePlace.toList <:+: form.toList)
      (guarded : ∀ i, (begun i).1.IsGuarded form) (room : capacity ≠ 0) :
      Run form []
        ⟨fun i => Flight.start (begun i).1 (begun i).2, MemoryCache.ofCapacity capacity⟩
  | step {log : List (Moment ι)} {moment : Option (Moment ι)} {traffic after : Traffic ι}
      (before : Run form log traffic) (step : Step traffic moment after)
      (fresh : after.cache.AllFresh) : Run form (log ++ moment.toList) after

end Traffic

/-! ## Requests and bundles -/

/-- The key of a bundle under a form. -/
def keyOf (form bundle : String) (kind : KeyKind) : String :=
  CacheOptions.key { keyFormat := form } bundle kind

theorem CacheOptions.IsGuarded.key_eq {form : String} {options : CacheOptions}
    (guarded : options.IsGuarded form) (bundle : String) (kind : KeyKind) :
    options.key bundle kind = keyOf form bundle kind := by
  rw [← guarded.form_eq]
  rfl

theorem eq_of_keyOf_eq {form bundle other : String} {kind : KeyKind}
    (place : CacheOptions.bundlePlace.toList <:+: form.toList)
    (same : keyOf form bundle kind = keyOf form other kind) : bundle = other :=
  CacheOptions.eq_of_key_eq place same

/-- A request is about a bundle: about its lock, its entry in the cache, or its messages in the
source. -/
def CacheRequest.IsAbout (form bundle : String) : CacheRequest → Prop
  | tryLock name _ => name = keyOf form bundle .lock
  | unlock name => name = keyOf form bundle .lock
  | get key => key = keyOf form bundle .messages
  | set key _ _ => key = keyOf form bundle .messages
  | delete key => key = keyOf form bundle .messages
  | load loaded _ => loaded = bundle
  | count _ => True

theorem CacheRequest.IsWorkOn.isAbout {form bundle : String} {options : CacheOptions}
    (guarded : options.IsGuarded form) {request : CacheRequest}
    (work : request.IsWorkOn options bundle) : request.IsAbout form bundle := by
  have key_eq := guarded.key_eq bundle .messages
  cases request with
  | tryLock name wait => exact work.elim
  | unlock name => exact work.elim
  | get key => exact work.trans key_eq
  | set key messages lifetime => exact work.trans key_eq
  | delete key => exact work.trans key_eq
  | load loaded languages => exact work
  | count counter => trivial

namespace CacheExchange

/-- The lock of a bundle is acquired. -/
def Acquires (form bundle : String) : CacheExchange → Prop
  | ⟨⟨.tryLock name _, _⟩, .ok true⟩ => name = keyOf form bundle .lock
  | _ => False

/-- The lock of a bundle is released. -/
def Releases (form bundle : String) (exchange : CacheExchange) : Prop :=
  exchange.request = .unlock (keyOf form bundle .lock)

/-- The entry of a bundle is deleted. -/
def Deletes (form bundle : String) (exchange : CacheExchange) : Prop :=
  exchange.request = .delete (keyOf form bundle .messages)

/-- Messages are stored in the entry of a bundle. -/
def Stores (form bundle : String) (messages : Messages) (exchange : CacheExchange) : Prop :=
  ∃ lifetime, exchange.request = .set (keyOf form bundle .messages) messages lifetime

/-- The source answers messages for a bundle. -/
def Fetches (bundle : String) (messages : Messages) (exchange : CacheExchange) : Prop :=
  ∃ languages held, exchange = ⟨⟨.load bundle languages, held⟩, .ok messages⟩

/-- What was fetched last of a bundle, after one more exchange. -/
def latestAfter (form bundle : String) (before : Option Messages) :
    CacheExchange → Option Messages
  | ⟨⟨.load loaded _, _⟩, .ok messages⟩ => if loaded = bundle then some messages else before
  | ⟨⟨.delete key, _⟩, _⟩ => if key = keyOf form bundle .messages then none else before
  | _ => before

variable {form bundle other : String} {before : Option Messages} {messages : Messages}
  {exchange : CacheExchange}

/-- Only requests about a bundle acquire its lock. -/
theorem Acquires.bundle_eq (place : CacheOptions.bundlePlace.toList <:+: form.toList)
    (acquires : exchange.Acquires form bundle) (about : exchange.request.IsAbout form other) :
    bundle = other := by
  obtain ⟨⟨request, held⟩, answer⟩ := exchange
  cases request with
  | tryLock name wait =>
    rcases answer with error | (_ | _)
    · exact acquires.elim
    · exact acquires.elim
    · exact eq_of_keyOf_eq place (acquires.symm.trans about)
  | _ => exact acquires.elim

/-- Only a load fetches. -/
theorem not_fetches (notLoad : ∀ loaded languages, exchange.request ≠ .load loaded languages) :
    ¬ exchange.Fetches bundle messages := by
  rintro ⟨languages, held, rfl⟩
  exact notLoad bundle languages rfl

theorem latestAfter_of_fetches (fetches : exchange.Fetches bundle messages) :
    exchange.latestAfter form bundle before = some messages := by
  obtain ⟨languages, held, rfl⟩ := fetches
  exact if_pos rfl

theorem latestAfter_of_deletes (deletes : exchange.Deletes form bundle) :
    exchange.latestAfter form bundle before = none := by
  obtain ⟨⟨request, held⟩, answer⟩ := exchange
  obtain rfl : request = _ := deletes
  exact if_pos rfl

/-- Only messages from the source and deletions count. -/
theorem latestAfter_of_neither (undeleted : ¬ exchange.Deletes form bundle)
    (unfetched : ∀ messages, ¬ exchange.Fetches bundle messages) :
    exchange.latestAfter form bundle before = before := by
  obtain ⟨⟨request, held⟩, answer⟩ := exchange
  cases request with
  | load loaded languages =>
    cases answer with
    | error error => rfl
    | ok messages =>
      refine if_neg ?_
      rintro rfl
      exact unfetched messages ⟨languages, held, rfl⟩
  | delete key =>
    refine if_neg ?_
    rintro rfl
    exact undeleted rfl
  | tryLock name wait => rfl
  | unlock name => rfl
  | get key => rfl
  | set key messages lifetime => rfl
  | count counter => rfl

theorem not_deletes_of_idle (idle : ¬ exchange.request.IsWork) :
    ¬ exchange.Deletes form bundle := by
  intro deletes
  rw [deletes] at idle
  exact idle trivial

theorem not_stores_of_idle (idle : ¬ exchange.request.IsWork) :
    ¬ exchange.Stores form bundle messages := by
  rintro ⟨lifetime, stores⟩
  rw [stores] at idle
  exact idle trivial

theorem not_fetches_of_idle (idle : ¬ exchange.request.IsWork) :
    ¬ exchange.Fetches bundle messages := by
  rintro ⟨languages, held, rfl⟩
  exact idle trivial

/-- What is about one bundle does not delete the entry of another. -/
theorem not_deletes_of_isAbout (place : CacheOptions.bundlePlace.toList <:+: form.toList)
    (about : exchange.request.IsAbout form bundle) (apart : other ≠ bundle) :
    ¬ exchange.Deletes form other := by
  intro deletes
  rw [deletes] at about
  exact apart (eq_of_keyOf_eq place about)

/-- What is about one bundle fetches nothing for another. -/
theorem not_fetches_of_isAbout (about : exchange.request.IsAbout form bundle)
    (apart : other ≠ bundle) : ¬ exchange.Fetches other messages := by
  rintro ⟨languages, held, rfl⟩
  exact apart about

end CacheExchange

/-! ## What was fetched last -/

section Latest

variable {ι : Type} {form bundle : String} {log : List (Moment ι)} {messages : Messages}

/-- **What was fetched last of a bundle**, since its entry was deleted. -/
def latest (form bundle : String) (log : List (Moment ι)) : Option Messages :=
  log.foldl (fun before moment => moment.exchange.latestAfter form bundle before) none

@[simp]
theorem latest_concat (log : List (Moment ι)) (moment : Moment ι) :
    latest form bundle (log ++ [moment]) =
      moment.exchange.latestAfter form bundle (latest form bundle log) := by
  simp [latest]

/-- What was fetched last was fetched, and the entry was not deleted since. -/
theorem exists_fetches_of_latest_eq_some (found : latest form bundle log = some messages) :
    ∃ earlier moment later, log = earlier ++ moment :: later ∧
      moment.exchange.Fetches bundle messages ∧
        ∀ since ∈ later, ¬ since.exchange.Deletes form bundle := by
  induction log using List.reverseRecOn with
  | nil => cases found
  | append_singleton log last ih =>
    rw [latest_concat] at found
    by_cases deletes : last.exchange.Deletes form bundle
    · rw [CacheExchange.latestAfter_of_deletes deletes] at found
      cases found
    · by_cases fetches : ∃ messages, last.exchange.Fetches bundle messages
      · obtain ⟨fetched, fetches⟩ := fetches
        rw [CacheExchange.latestAfter_of_fetches fetches] at found
        cases found
        exact ⟨log, last, [], rfl, fetches, by simp⟩
      · rw [CacheExchange.latestAfter_of_neither deletes (not_exists.1 fetches)] at found
        obtain ⟨earlier, moment, later, rfl, fetches, undeleted⟩ := ih found
        refine ⟨earlier, moment, later ++ [last], by simp, fetches, ?_⟩
        exact List.forall_mem_append.2 ⟨undeleted, List.forall_mem_singleton.2 deletes⟩

/-- If nothing counts as fetched, then the entry was deleted since any fetch. -/
theorem exists_deletes_of_latest_eq_none {earlier later : List (Moment ι)} {moment : Moment ι}
    (nothing : latest form bundle (earlier ++ moment :: later) = none)
    (fetches : moment.exchange.Fetches bundle messages) :
    ∃ since ∈ later, since.exchange.Deletes form bundle := by
  induction later using List.reverseRecOn with
  | nil =>
    rw [latest_concat, CacheExchange.latestAfter_of_fetches fetches] at nothing
    cases nothing
  | append_singleton later last ih =>
    by_cases deletes : last.exchange.Deletes form bundle
    · exact ⟨last, by simp, deletes⟩
    · rw [← List.cons_append, ← List.append_assoc, latest_concat] at nothing
      by_cases fetchesAgain : ∃ messages, last.exchange.Fetches bundle messages
      · obtain ⟨again, fetchesAgain⟩ := fetchesAgain
        rw [CacheExchange.latestAfter_of_fetches fetchesAgain] at nothing
        cases nothing
      · rw [CacheExchange.latestAfter_of_neither deletes (not_exists.1 fetchesAgain)] at nothing
        obtain ⟨since, mem, deletes⟩ := ih nothing
        exact ⟨since, List.mem_append_left _ mem, deletes⟩

end Latest

/-! ## What a reply changes -/

namespace MemoryCache

variable {cache changed : MemoryCache} {step : CacheStep} {answer : step.Reply}

theorem eq_of_obtain {name : String} {wait : Duration} {mutex : Mutex}
    (obtained : (CacheBackend.obtain name wait : StateM MemoryCache _) cache =
      (.ok mutex, changed)) :
    mutex = (cache.locks.obtain name).1 ∧
      changed = cache.setLocks (cache.locks.obtain name).2 := by
  cases obtained
  exact ⟨rfl, rfl⟩

/-- A mutex is acquired by a change of the locks. -/
theorem exists_acquire?_of_acquire {name : String} {mutex : Mutex}
    (acquired : (CacheBackend.acquire name mutex : StateM MemoryCache Bool) cache =
      (true, changed)) :
    ∃ locks, cache.locks.acquire? name mutex = some locks ∧ changed = cache.setLocks locks := by
  cases found : cache.locks.acquire? name mutex with
  | none =>
    simp only [CacheBackend.acquire, found] at acquired
    cases acquired
  | some locks =>
    simp only [CacheBackend.acquire, found] at acquired
    cases acquired
    exact ⟨locks, rfl, rfl⟩

namespace Replies

theorem capacity_eq (replied : cache.Replies step answer changed) :
    changed.capacity = cache.capacity := by
  obtain ⟨request, held⟩ := step
  cases request with
  | tryLock name wait => cases replied
  | unlock name =>
    cases replied
    rfl
  | get key =>
    cases replied
    rfl
  | set key messages lifetime =>
    cases replied
    exact cache.capacity_keep key messages lifetime
  | delete key =>
    cases replied
    rfl
  | load bundle languages => rw [show changed = cache from replied]
  | count counter => rw [show changed = cache from replied]

/-- Only releasing a lock changes the locks. -/
theorem locks_eq (replied : cache.Replies step answer changed)
    (holds : ¬ step.request.ReleasesLock) : changed.locks = cache.locks := by
  obtain ⟨request, held⟩ := step
  cases request with
  | tryLock name wait => cases replied
  | unlock name => exact absurd trivial holds
  | get key =>
    cases replied
    rfl
  | set key messages lifetime =>
    cases replied
    exact cache.locks_keep key messages lifetime
  | delete key =>
    cases replied
    rfl
  | load bundle languages => rw [show changed = cache from replied]
  | count counter => rw [show changed = cache from replied]

/-- A request about one bundle leaves the entries of the others alone. -/
theorem lookup_eq {form bundle other : String}
    (place : CacheOptions.bundlePlace.toList <:+: form.toList) (room : cache.capacity ≠ 0)
    (fresh : changed.AllFresh) (about : step.request.IsAbout form bundle) (apart : other ≠ bundle)
    (replied : cache.Replies step answer changed) :
    changed.lookup (keyOf form other .messages) = cache.lookup (keyOf form other .messages) := by
  have keys_ne : keyOf form other .messages ≠ keyOf form bundle .messages :=
    fun same => apart (eq_of_keyOf_eq place same)
  obtain ⟨request, held⟩ := step
  cases request with
  | tryLock name wait => cases replied
  | unlock name =>
    cases replied
    rfl
  | get key =>
    cases replied
    rfl
  | set key messages lifetime =>
    cases replied
    obtain rfl : key = _ := about
    rw [MemoryCache.lookup_keep room fresh, if_neg keys_ne]
  | delete key =>
    cases replied
    obtain rfl : key = _ := about
    rw [MemoryCache.lookup_remove, if_neg keys_ne]
  | load bundle languages => rw [show changed = cache from replied]
  | count counter => rw [show changed = cache from replied]

end Replies

end MemoryCache

end Phrasebook
