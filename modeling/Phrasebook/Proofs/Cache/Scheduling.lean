import Phrasebook.Cache.Concurrent
import Phrasebook.Proofs.Cache.SingleFlight

/-!
# Loads that take turns are a run

`CachedSource.loadAtOnce` runs loads of one bundle by giving them turns.  This is one of the orders
in which operations at the same time can take their steps: a turn is some steps of a run, and each
task is where the operation in its place is (`Task.StandsFor`).  So what is known of every run is
known of these loads.  In a run nothing runs out that the backend keeps.  Since no time passes
between the turns, a lifetime that is not zero is enough for that.

## Main statements

- `Scheduled.advance`: letting a task go on comes to steps of the run.
- `CachedSource.singleFlight_loadAtOnce`: among loads at once, the source answers messages at most
  once, and these are what every load answers that answers messages.
-/

namespace Phrasebook

/-! ## What loads ask for -/

/-- A step that a load of a bundle may take: nothing is deleted, and what is stored lasts. -/
def CacheStep.IsOfLoad (bundle : String) : CacheStep → Prop
  | ⟨.set _ _ lifetime, _⟩ => 0 < lifetime.nanoseconds
  | ⟨.load loaded _, _⟩ => loaded = bundle
  | ⟨.delete _, _⟩ => False
  | _ => True

theorem asks_loadBundle {form : String} {options : CacheOptions}
    (guarded : options.IsGuarded form) (lasting : 0 < options.lifetime.nanoseconds)
    (bundle : String) (languages : List Language) :
    (CacheProgram.loadBundle options bundle languages).Asks (CacheStep.IsOfLoad bundle) := by
  have work (held : Option String) :
      (CacheProgram.throughCache options bundle languages held).Asks
        (CacheStep.IsOfLoad bundle) := by
    refine ⟨trivial, fun found => ?_⟩
    rcases found with error | (_ | messages)
    · exact trivial
    · refine ⟨trivial, fun _ => ⟨rfl, fun loaded => ?_⟩⟩
      rcases loaded with error | messages
      · exact trivial
      · refine ⟨lasting, fun stored => ?_⟩
        rcases stored with error | _ <;> exact trivial
    · exact ⟨trivial, fun _ => trivial⟩
  rw [show CacheProgram.loadBundle options bundle languages = _ from
    CacheOperation.program_eq_ask guarded (.load bundle languages)]
  refine ⟨trivial, fun answer => ?_⟩
  rcases answer with error | (_ | _)
  · exact trivial
  · exact ⟨trivial, fun _ => trivial⟩
  · exact (work _).bind fun result => ⟨trivial, fun _ => trivial⟩

namespace MemoryCache

variable {cache changed : MemoryCache}

/-- A load leaves everything fresh. -/
theorem Replies.allFresh {step : CacheStep} {answer : step.Reply} {bundle : String}
    (replied : cache.Replies step answer changed) (ofLoad : step.IsOfLoad bundle)
    (fresh : cache.AllFresh) : changed.AllFresh := by
  obtain ⟨request, held⟩ := step
  cases request with
  | tryLock name wait => exact replied.elim
  | unlock name =>
    cases replied
    exact fresh
  | get key =>
    cases replied
    exact fresh
  | set key messages lifetime =>
    cases replied
    exact fresh.keep ofLoad key messages
  | delete key => exact ofLoad.elim
  | load bundle languages =>
    cases replied
    exact fresh
  | count counter =>
    cases replied
    exact fresh

end MemoryCache

/-! ## What letting a task go on comes to -/

namespace CachedSource

variable {σ α : Type} [MessageSource σ] (cached : CachedSource σ MemoryCache)

theorem advance_tryLock (name : String) (wait : Duration) (held : Option String)
    (next : Except LoadError Bool → CacheProgram α) :
    advance (Interaction.ask ⟨.tryLock name wait, held⟩ next) cached =
      let (mutex, locks) := cached.backend.locks.obtain name
      match locks.acquire? name mutex with
      | none => (.waiting name mutex fun acquired => next (.ok acquired),
          { cached with backend := cached.backend.setLocks locks })
      | some taken =>
        advance (next (.ok true)) { cached with backend := cached.backend.setLocks taken } := by
  rw [advance]
  dsimp only [bind, StateT.bind, withBackend, CacheBackend.obtain, CacheBackend.acquire,
    MemoryCache.setLocks]
  cases (cached.backend.locks.obtain name).2.acquire? name
    (cached.backend.locks.obtain name).1 <;> rfl

theorem advance_load (bundle : String) (languages : List Language) (held : Option String)
    (next : Except LoadError Messages → CacheProgram α) :
    advance (Interaction.ask ⟨.load bundle languages, held⟩ next) cached =
      match (MessageSource.load bundle languages : Loading σ _) cached.source with
      | (none, source) => (.stuck held, { cached with source })
      | (some answer, source) =>
        if MessageSource.pauses source then (.ready (next answer), { cached with source })
        else advance (next answer) { cached with source } := by
  have asked : (withSource (MessageSource.load bundle languages) :
      Loading (CachedSource σ MemoryCache) _) cached =
        (((MessageSource.load bundle languages : Loading σ _) cached.source).1,
          { cached with
            source := ((MessageSource.load bundle languages : Loading σ _) cached.source).2 }) :=
    rfl
  rw [advance]
  dsimp only [bind, StateT.bind, OptionT.run]
  rw [asked]
  rcases (MessageSource.load bundle languages : Loading σ _) cached.source with
    ⟨_ | answer, source⟩
  · rfl
  · dsimp only
    show (if MessageSource.pauses source then pure (.ready (next answer))
      else advance (next answer) : StateM (CachedSource σ MemoryCache) (Task α)) _ = _
    cases MessageSource.pauses source <;> rfl

theorem turn_waiting (name : String) (mutex : Mutex) (resume : Bool → CacheProgram α) :
    turn (.waiting name mutex resume) cached =
      match cached.backend.locks.acquire? name mutex with
      | none => ((false, .waiting name mutex resume), cached)
      | some locks =>
        let (task, changed) := advance (resume true)
          { cached with backend := cached.backend.setLocks locks }
        ((true, task), changed) := by
  rw [turn]
  dsimp only [bind, StateT.bind, withBackend, CacheBackend.acquire]
  cases cached.backend.locks.acquire? name mutex <;> rfl

theorem rounds_succ (n : Nat) (tasks : List (Task α)) :
    rounds (n + 1) tasks cached =
      let ((moved, tasks), changed) := round tasks cached
      if moved then rounds n tasks changed
      else
        let (tasks, changed) := tasks.mapM expire changed
        rounds n tasks changed := by
  rw [rounds]
  dsimp only [bind, StateT.bind]
  rcases round tasks cached with ⟨⟨_ | _, after⟩, changed⟩ <;> rfl

end CachedSource

/-! ## What the source answers -/

/-- The messages that a call of a source answers. -/
def SourceCall.messages? (call : SourceCall) : Option Messages :=
  call.answer.bind Except.toOption

/-- The messages that a source has answered. -/
def RecordedSource.answered {σ : Type} (source : RecordedSource σ) : List Messages :=
  source.calls.filterMap SourceCall.messages?

theorem RecordedSource.answered_concat {σ : Type} (source : σ) (calls : List SourceCall)
    (call : SourceCall) :
    (⟨source, calls ++ [call]⟩ : RecordedSource σ).answered =
      (⟨source, calls⟩ : RecordedSource σ).answered ++ call.messages?.toList := by
  rw [answered, List.filterMap_append]
  cases found : call.messages? <;> simp [found, answered]

/-- The messages that the source answers in an exchange. -/
def CacheExchange.messages? : CacheExchange → Option Messages
  | ⟨⟨.load _ _, _⟩, answer⟩ => Except.toOption answer
  | _ => none

theorem CacheExchange.fetches_of_messages?_eq_some {exchange : CacheExchange} {bundle : String}
    {messages : Messages} (ofLoad : exchange.question.IsOfLoad bundle)
    (found : exchange.messages? = some messages) : exchange.Fetches bundle messages := by
  obtain ⟨⟨request, held⟩, answer⟩ := exchange
  cases request with
  | load loaded languages =>
    obtain rfl : loaded = bundle := ofLoad
    cases answer with
    | error error => cases found
    | ok answered =>
      cases found
      exact ⟨languages, held, rfl⟩
  | _ => cases found

theorem CacheExchange.Fetches.messages?_eq {exchange : CacheExchange} {bundle : String}
    {messages : Messages} (fetches : exchange.Fetches bundle messages) :
    exchange.messages? = some messages := by
  obtain ⟨languages, held, rfl⟩ := fetches
  rfl

theorem CacheExchange.not_deletes_of_isOfLoad {exchange : CacheExchange} {form bundle : String}
    (ofLoad : exchange.question.IsOfLoad bundle) : ¬ exchange.Deletes form bundle := by
  intro deletes
  obtain ⟨⟨request, held⟩, answer⟩ := exchange
  obtain rfl : request = _ := deletes
  exact ofLoad

/-! ## Tasks and operations -/

/-- **A task is where an operation is**: it has as much before it, and waits for the same. -/
def Task.StandsFor (options : CacheOptions) (bundle : String) (languages : List Language)
    (flight : Flight) : Task (Except LoadError Messages) → Prop
  | .ready program => flight = ⟨options, .load bundle languages, program, none⟩
  | .waiting name mutex resume => ∃ wait held next,
    flight = ⟨options, .load bundle languages, Interaction.ask ⟨.tryLock name wait, held⟩ next,
      some mutex⟩ ∧ resume = fun acquired => next (.ok acquired)
  | .stuck held => ∃ loaded others next,
    flight = ⟨options, .load bundle languages, Interaction.ask ⟨.load loaded others, held⟩ next,
      none⟩
  | .finished result => flight = ⟨options, .load bundle languages, Interaction.done result, none⟩

variable {σ : Type} {options : CacheOptions} {bundle : String} {languages : List Language}

/-- **Tasks have come as far as the operations of a run.** -/
structure Matches (options : CacheOptions) (bundle : String) (languages : List Language)
    (tasks : List (Task (Except LoadError Messages)))
    (cached : CachedSource (RecordedSource σ) MemoryCache) (log : List (Moment Nat))
    (traffic : Traffic Nat) : Prop where
  run : Traffic.Run options.keyFormat log traffic
  backend : traffic.cache = cached.backend
  stands : ∀ {k} {task : Task (Except LoadError Messages)}, tasks[k]? = some task →
    task.StandsFor options bundle languages (traffic.flights k)
  asks : ∀ k, (traffic.flights k).rest.Asks (CacheStep.IsOfLoad bundle)
  ofLoad : ∀ moment ∈ log, moment.exchange.question.IsOfLoad bundle
  answered : cached.source.answered = log.filterMap fun moment => moment.exchange.messages?

/-- There is a run that has come as far as the tasks. -/
def Scheduled (options : CacheOptions) (bundle : String) (languages : List Language)
    (tasks : List (Task (Except LoadError Messages)))
    (cached : CachedSource (RecordedSource σ) MemoryCache) : Prop :=
  ∃ log traffic, Matches options bundle languages tasks cached log traffic

/-- Lists that differ in one place are the same elsewhere. -/
theorem getElem?_append_cons_of_ne {α : Type} {first second : α} {rest : List α} {k : Nat}
    (before : List α) (other : k ≠ before.length) :
    (before ++ first :: rest)[k]? = (before ++ second :: rest)[k]? := by
  simp only [List.getElem?_append, List.getElem?_cons]
  split
  · rfl
  · rw [if_neg (by omega), if_neg (by omega)]

namespace Matches

variable {before rest : List (Task (Except LoadError Messages))}
  {task after : Task (Except LoadError Messages)}
  {cached changed : CachedSource (RecordedSource σ) MemoryCache} {log : List (Moment Nat)}
  {traffic : Traffic Nat}

/-- The task in the middle is where its operation is. -/
theorem standsFor (matching : Matches options bundle languages (before ++ task :: rest) cached log
    traffic) : task.StandsFor options bundle languages (traffic.flights before.length) :=
  matching.stands (by simp)

theorem asks_of_eq {tasks : List (Task (Except LoadError Messages))}
    (matching : Matches options bundle languages tasks cached log traffic) {k : Nat}
    {flight : Flight} (eq : traffic.flights k = flight) :
    flight.rest.Asks (CacheStep.IsOfLoad bundle) := by
  rw [← eq]
  exact matching.asks k

theorem fresh {tasks : List (Task (Except LoadError Messages))}
    (matching : Matches options bundle languages tasks cached log traffic) :
    cached.backend.AllFresh := by
  rw [← matching.backend]
  exact matching.run.consistent.fresh

/-- **One task comes further** with its operation. -/
theorem advance (matching : Matches options bundle languages (before ++ task :: rest) cached log
    traffic) {flight : Flight} {moment : Option (Moment Nat)}
    (step : traffic.Step moment (traffic.advance before.length flight changed.backend))
    (fresh : changed.backend.AllFresh) (stands : after.StandsFor options bundle languages flight)
    (asks : flight.rest.Asks (CacheStep.IsOfLoad bundle))
    (ofLoad : ∀ m ∈ moment, m.exchange.question.IsOfLoad bundle)
    (answered : changed.source.answered = cached.source.answered ++
      (moment.bind fun m => m.exchange.messages?).toList) :
    Scheduled options bundle languages (before ++ after :: rest) changed := by
  refine ⟨log ++ moment.toList, _, {
    run := matching.run.step step fresh
    backend := rfl
    stands := ?_
    asks := ?_
    ofLoad := List.forall_mem_append.2
      ⟨matching.ofLoad, fun m mem => ofLoad m (Option.mem_toList.1 mem)⟩
    answered := ?_ }⟩
  · intro k found at_k
    by_cases same : k = before.length
    · subst same
      obtain rfl : after = found := by simpa using at_k
      rwa [Traffic.flights_advance_self]
    · rw [Traffic.flights_advance_of_ne same]
      exact matching.stands ((getElem?_append_cons_of_ne before same).trans at_k)
  · intro k
    by_cases same : k = before.length
    · subst same
      rwa [Traffic.flights_advance_self]
    · rw [Traffic.flights_advance_of_ne same]
      exact matching.asks k
  · rw [answered, matching.answered, List.filterMap_append]
    cases moment with
    | none => rfl
    | some m => cases found : m.exchange.messages? <;> simp [found]

/-- One task stands for the same as before, though it looks different. -/
theorem replace (matching : Matches options bundle languages (before ++ task :: rest) cached log
    traffic)
    (stands : after.StandsFor options bundle languages (traffic.flights before.length))
    (backend : changed.backend = cached.backend)
    (answered : changed.source.answered = cached.source.answered) :
    Matches options bundle languages (before ++ after :: rest) changed log traffic := by
  refine { matching with
    backend := matching.backend.trans backend.symm
    stands := ?_
    answered := answered.trans matching.answered }
  intro k found at_k
  by_cases same : k = before.length
  · subst same
    obtain rfl : after = found := by simpa using at_k
    exact stands
  · exact matching.stands ((getElem?_append_cons_of_ne before same).trans at_k)

end Matches

/-! ## Steps of one operation -/

namespace Traffic.Step

variable {ι : Type} [DecidableEq ι] {traffic : Traffic ι} {i : ι} {flight : Flight}
  {name : String} {wait : Duration} {held : Option String} {mutex : Mutex} {cache : MemoryCache}

theorem obtain_of_eq (eq : traffic.flights i = flight)
    {next : Except LoadError Bool → CacheProgram (Except LoadError flight.operation.Answer)}
    (here : flight.rest = Interaction.ask ⟨.tryLock name wait, held⟩ next)
    (idle : flight.mutex = none)
    (obtained : (CacheBackend.obtain name wait : StateM MemoryCache _) traffic.cache =
      (.ok mutex, cache)) :
    traffic.Step none (traffic.advance i { flight with mutex := some mutex } cache) := by
  subst eq
  exact .obtain here idle obtained

theorem acquire_of_eq (eq : traffic.flights i = flight)
    {next : Except LoadError Bool → CacheProgram (Except LoadError flight.operation.Answer)}
    (here : flight.rest = Interaction.ask ⟨.tryLock name wait, held⟩ next)
    (waits : flight.mutex = some mutex)
    (acquired : (CacheBackend.acquire name mutex : StateM MemoryCache Bool) traffic.cache =
      (true, cache)) :
    traffic.Step (some ⟨i, ⟨⟨.tryLock name wait, held⟩, .ok true⟩⟩)
      (traffic.advance i { flight with rest := next (.ok true), mutex := none } cache) := by
  subst eq
  exact .acquire here waits acquired

theorem giveUp_of_eq (eq : traffic.flights i = flight)
    {next : Except LoadError Bool → CacheProgram (Except LoadError flight.operation.Answer)}
    (here : flight.rest = Interaction.ask ⟨.tryLock name wait, held⟩ next)
    (waits : flight.mutex = some mutex)
    (gaveUp : (CacheBackend.giveUp name mutex : StateM MemoryCache Unit) traffic.cache =
      ((), cache)) :
    traffic.Step (some ⟨i, ⟨⟨.tryLock name wait, held⟩, .ok false⟩⟩)
      (traffic.advance i { flight with rest := next (.ok false), mutex := none } cache) := by
  subst eq
  exact .giveUp here waits gaveUp

theorem reply_of_eq (eq : traffic.flights i = flight) {step : CacheStep}
    {next : step.Reply → CacheProgram (Except LoadError flight.operation.Answer)}
    {answer : step.Reply} (here : flight.rest = Interaction.ask step next)
    (replied : traffic.cache.Replies step answer cache) :
    traffic.Step (some ⟨i, ⟨step, answer⟩⟩)
      (traffic.advance i { flight with rest := next answer } cache) := by
  subst eq
  exact .reply here replied

end Traffic.Step

namespace Scheduled

variable {before rest : List (Task (Except LoadError Messages))}
  {cached changed : CachedSource (RecordedSource σ) MemoryCache}

/-- A request is replied to. -/
theorem reply {step : CacheStep} {next : step.Reply → CacheProgram (Except LoadError Messages)}
    (scheduled : Scheduled options bundle languages
      (before ++ .ready (Interaction.ask step next) :: rest) cached) {answer : step.Reply}
    (replied : cached.backend.Replies step answer changed.backend)
    (answered : changed.source.answered =
      cached.source.answered ++ (CacheExchange.messages? ⟨step, answer⟩).toList) :
    Scheduled options bundle languages (before ++ .ready (next answer) :: rest) changed := by
  obtain ⟨log, traffic, matching⟩ := scheduled
  have stands : traffic.flights before.length =
      ⟨options, .load bundle languages, Interaction.ask step next, none⟩ := matching.standsFor
  have asks := matching.asks_of_eq stands
  have fresh := replied.allFresh asks.1 matching.fresh
  rw [← matching.backend] at replied
  exact matching.advance (Traffic.Step.reply_of_eq stands rfl replied) fresh rfl (asks.2 answer)
    (forall_mem_some_iff.2 asks.1) answered

/-- A lock is asked for. -/
theorem obtain {name : String} {wait : Duration} {held : Option String}
    {next : Except LoadError Bool → CacheProgram (Except LoadError Messages)}
    (scheduled : Scheduled options bundle languages
      (before ++ .ready (Interaction.ask ⟨.tryLock name wait, held⟩ next) :: rest) cached) :
    Scheduled options bundle languages
      (before ++ .waiting name (cached.backend.locks.obtain name).1
        (fun acquired => next (.ok acquired)) :: rest)
      { cached with
        backend := cached.backend.setLocks (cached.backend.locks.obtain name).2 } := by
  obtain ⟨log, traffic, matching⟩ := scheduled
  have stands : traffic.flights before.length =
      ⟨options, .load bundle languages, Interaction.ask ⟨.tryLock name wait, held⟩ next, none⟩ :=
    matching.standsFor
  have asks := matching.asks_of_eq stands
  have obtained : (CacheBackend.obtain name wait : StateM MemoryCache _) traffic.cache =
      (.ok (cached.backend.locks.obtain name).1,
        cached.backend.setLocks (cached.backend.locks.obtain name).2) := by
    rw [matching.backend]
    rfl
  exact matching.advance (Traffic.Step.obtain_of_eq stands rfl rfl obtained) matching.fresh
    ⟨wait, held, next, rfl, rfl⟩ asks nofun (by simp)

section Waiting

variable {name : String} {mutex : Mutex} {resume : Bool → CacheProgram (Except LoadError Messages)}

/-- A lock that is waited for is acquired. -/
theorem acquire {locks : LockTable}
    (scheduled : Scheduled options bundle languages
      (before ++ .waiting name mutex resume :: rest) cached)
    (acquired : cached.backend.locks.acquire? name mutex = some locks) :
    Scheduled options bundle languages (before ++ .ready (resume true) :: rest)
      { cached with backend := cached.backend.setLocks locks } := by
  obtain ⟨log, traffic, matching⟩ := scheduled
  obtain ⟨wait, held, next, stands, rfl⟩ := matching.standsFor
  have asks := matching.asks_of_eq stands
  have took : (CacheBackend.acquire name mutex : StateM MemoryCache Bool) traffic.cache =
      (true, cached.backend.setLocks locks) := by
    simp only [CacheBackend.acquire, matching.backend, acquired]
  exact matching.advance (Traffic.Step.acquire_of_eq stands rfl rfl took) matching.fresh rfl
    (asks.2 _) (forall_mem_some_iff.2 trivial) (by simp [CacheExchange.messages?])

/-- A lock was waited for too long. -/
theorem giveUp (scheduled : Scheduled options bundle languages
      (before ++ .waiting name mutex resume :: rest) cached) :
    Scheduled options bundle languages (before ++ .ready (resume false) :: rest)
      { cached with
        backend := cached.backend.setLocks (cached.backend.locks.giveUp name mutex) } := by
  obtain ⟨log, traffic, matching⟩ := scheduled
  obtain ⟨wait, held, next, stands, rfl⟩ := matching.standsFor
  have asks := matching.asks_of_eq stands
  have gaveUp : (CacheBackend.giveUp name mutex : StateM MemoryCache Unit) traffic.cache =
      ((), cached.backend.setLocks (cached.backend.locks.giveUp name mutex)) := by
    rw [matching.backend]
    rfl
  exact matching.advance (Traffic.Step.giveUp_of_eq stands rfl rfl gaveUp) matching.fresh rfl
    (asks.2 _) (forall_mem_some_iff.2 trivial) (by simp [CacheExchange.messages?])

end Waiting

variable [MessageSource σ]

/-- **A task that is let go on takes steps of the run.**  By induction on what it still asks for. -/
theorem advance {program : CacheProgram (Except LoadError Messages)}
    (scheduled : Scheduled options bundle languages (before ++ .ready program :: rest) cached) :
    Scheduled options bundle languages (before ++ (CachedSource.advance program cached).1 :: rest)
      (CachedSource.advance program cached).2 := by
  induction program generalizing cached with
  | done result =>
    obtain ⟨log, traffic, matching⟩ := scheduled
    exact ⟨log, traffic, matching.replace matching.standsFor rfl rfl⟩
  | ask step next ih =>
    obtain ⟨request, held⟩ := step
    cases request with
    | tryLock name wait =>
      rw [CachedSource.advance_tryLock]
      dsimp only
      cases acquired : (cached.backend.locks.obtain name).2.acquire? name
          (cached.backend.locks.obtain name).1 with
      | none => exact scheduled.obtain
      | some locks => exact ih _ (scheduled.obtain.acquire acquired)
    | unlock name => exact ih _ (scheduled.reply rfl (by simp [CacheExchange.messages?]))
    | get key => exact ih _ (scheduled.reply rfl (by simp [CacheExchange.messages?]))
    | set key messages lifetime =>
      exact ih _ (scheduled.reply rfl (by simp [CacheExchange.messages?]))
    | delete key => exact ih _ (scheduled.reply rfl (by simp [CacheExchange.messages?]))
    | count counter => exact ih _ (scheduled.reply rfl (by simp [CacheExchange.messages?]))
    | load loaded others =>
      rw [CachedSource.advance_load]
      have recorded : (MessageSource.load loaded others : Loading (RecordedSource σ) _)
          cached.source = RecordedSource.load loaded others cached.source := rfl
      rw [recorded, RecordedSource.load]
      rcases (MessageSource.load loaded others : Loading σ _) cached.source.source with
        ⟨_ | answer, source⟩
      · -- A call that never comes back is no step of the run.
        obtain ⟨log, traffic, matching⟩ := scheduled
        have stands := matching.standsFor
        refine ⟨log, traffic, matching.replace ⟨loaded, others, next, stands⟩ rfl ?_⟩
        exact (RecordedSource.answered_concat _ _ _).trans (List.append_nil _)
      · dsimp only
        have replied : Scheduled options bundle languages (before ++ .ready (next answer) :: rest)
            { cached with
              source := ⟨source, cached.source.calls ++ [⟨loaded, others, some answer⟩]⟩ } :=
          scheduled.reply rfl (RecordedSource.answered_concat _ _ _)
        split
        · exact replied
        · exact ih _ replied

/-- A turn of a task. -/
theorem turn {task : Task (Except LoadError Messages)}
    (scheduled : Scheduled options bundle languages (before ++ task :: rest) cached) :
    Scheduled options bundle languages
      (before ++ (CachedSource.turn task cached).1.2 :: rest)
      (CachedSource.turn task cached).2 := by
  cases task with
  | ready program => exact scheduled.advance
  | waiting name mutex resume =>
    rw [CachedSource.turn_waiting]
    cases acquired : cached.backend.locks.acquire? name mutex with
    | none => exact scheduled
    | some locks => exact (scheduled.acquire acquired).advance
  | stuck held => exact scheduled
  | finished result => exact scheduled

/-- The waiting of a task for a lock ends. -/
theorem expire {task : Task (Except LoadError Messages)}
    (scheduled : Scheduled options bundle languages (before ++ task :: rest) cached) :
    Scheduled options bundle languages
      (before ++ (CachedSource.expire task cached).1 :: rest)
      (CachedSource.expire task cached).2 := by
  cases task with
  | waiting name mutex resume => exact scheduled.giveUp.advance
  | ready program => exact scheduled
  | stuck held => exact scheduled
  | finished result => exact scheduled

/-- A turn of every task. -/
theorem round {tasks : List (Task (Except LoadError Messages))}
    (scheduled : Scheduled options bundle languages (before ++ tasks) cached) :
    Scheduled options bundle languages (before ++ (CachedSource.round tasks cached).1.2)
      (CachedSource.round tasks cached).2 := by
  induction tasks generalizing before cached with
  | nil => exact scheduled
  | cons task rest ih =>
    have turned := scheduled.turn
    -- The task joins those before the others.
    rw [List.append_cons] at turned
    have rounded := ih turned
    rw [← List.append_cons] at rounded
    exact rounded

/-- The waiting of every task for a lock ends. -/
theorem mapM_expire {tasks : List (Task (Except LoadError Messages))}
    (scheduled : Scheduled options bundle languages (before ++ tasks) cached) :
    Scheduled options bundle languages (before ++ (tasks.mapM CachedSource.expire cached).1)
      (tasks.mapM CachedSource.expire cached).2 := by
  induction tasks generalizing before cached with
  | nil => exact scheduled
  | cons task rest ih =>
    have expired := scheduled.expire
    rw [List.append_cons] at expired
    have onward := ih expired
    rw [← List.append_cons] at onward
    rw [List.mapM_cons]
    exact onward

/-- **Rounds are steps of the run.** -/
theorem rounds {tasks : List (Task (Except LoadError Messages))}
    (scheduled : Scheduled options bundle languages tasks cached) (n : Nat) :
    Scheduled options bundle languages (CachedSource.rounds n tasks cached).1
      (CachedSource.rounds n tasks cached).2 := by
  induction n generalizing tasks cached with
  | zero => exact scheduled
  | succ n ih =>
    have rounded := (show Scheduled options bundle languages ([] ++ tasks) cached from
      scheduled).round
    rw [CachedSource.rounds_succ]
    generalize CachedSource.round tasks cached = turned at rounded ⊢
    obtain ⟨⟨moved, after⟩, changed⟩ := turned
    cases moved with
    | false => exact ih rounded.mapM_expire
    | true => exact ih rounded

end Scheduled

/-! ## Loads at once -/

namespace Matches

variable {tasks : List (Task (Except LoadError Messages))}
  {cached : CachedSource (RecordedSource σ) MemoryCache} {log : List (Moment Nat)}
  {traffic : Traffic Nat}

/-- What counts as fetched is all that the source has answered, as nothing is deleted. -/
theorem filterMap_messages?_eq_latest
    (matching : Matches options bundle languages tasks cached log traffic)
    {earlier later : List (Moment Nat)} (split : log = earlier ++ later) :
    (earlier.filterMap fun moment => moment.exchange.messages?) =
      (latest options.keyFormat bundle earlier).toList := by
  induction earlier using List.reverseRecOn generalizing later with
  | nil => rfl
  | append_singleton earlier last ih =>
    rw [List.append_assoc, List.singleton_append] at split
    have ofLoad := matching.ofLoad last (by simp [split])
    rw [List.filterMap_append, ih split, latest_concat]
    -- Messages are fetched only if nothing counts as fetched, so there are none before them.
    cases found : last.exchange.messages? with
    | none =>
      have unfetched (messages : Messages) : ¬ last.exchange.Fetches bundle messages := by
        intro fetches
        rw [fetches.messages?_eq] at found
        cases found
      rw [CacheExchange.latestAfter_of_neither (CacheExchange.not_deletes_of_isOfLoad ofLoad)
        unfetched]
      simp [found]
    | some messages =>
      have fetches := CacheExchange.fetches_of_messages?_eq_some ofLoad found
      rw [(matching.run.consistent.orderly split).fetches fetches,
        CacheExchange.latestAfter_of_fetches fetches]
      simp [found]

/-- What the source has answered is what counts as fetched. -/
theorem answered_eq (matching : Matches options bundle languages tasks cached log traffic) :
    cached.source.answered = (latest options.keyFormat bundle log).toList :=
  matching.answered.trans (matching.filterMap_messages?_eq_latest (List.append_nil log).symm)

/-- A task that has ended with messages ended with those that were fetched. -/
theorem latest_eq_of_finished
    (matching : Matches options bundle languages tasks cached log traffic) {messages : Messages}
    (finished : Task.finished (.ok messages) ∈ tasks) :
    latest options.keyFormat bundle log = some messages := by
  obtain ⟨k, at_k⟩ := List.getElem?_of_mem finished
  have ended : (traffic.flights k).HasLoaded options bundle (.ok messages) :=
    ⟨languages, none, matching.stands at_k⟩
  cases matching.run.consistent.answered ended with
  | @fetched before within after earlier later fetch _ split kept fetching fetches since =>
    have own : fetch ∈ before ++ acquired k options (.load bundle languages) :: within := by
      rw [show before ++ acquired k options (.load bundle languages) :: within = _ from fetching]
      simp
    have mem : fetch ∈ log := by
      rw [split]
      simp only [List.mem_append, List.mem_cons] at own ⊢
      tauto
    have counted : messages ∈ log.filterMap fun moment => moment.exchange.messages? :=
      List.mem_filterMap.2 ⟨fetch, mem, fetches.messages?_eq⟩
    rw [matching.filterMap_messages?_eq_latest (List.append_nil log).symm] at counted
    exact Option.mem_toList.1 counted

end Matches

section AtOnce

variable [MessageSource σ] {cached : CachedSource (RecordedSource σ) MemoryCache}
  {capacity : UInt64} (guarded : cached.options.IsGuarded cached.options.keyFormat)
  (place : CacheOptions.bundlePlace.toList <:+: cached.options.keyFormat.toList)
  (lasting : 0 < cached.options.lifetime.nanoseconds)
  (unused : cached.backend = MemoryCache.ofCapacity capacity) (room : capacity ≠ 0)
  (unasked : cached.source.calls = []) (bundle : String) (languages : List Language) (count : Nat)

include guarded place lasting unused room unasked

/-- Loads that are begun at once come as far as the operations of a run. -/
theorem scheduled_loadAtOnce :
    ∃ tasks : List (Task (Except LoadError Messages)),
      (CachedSource.loadAtOnce bundle languages count cached).1 =
        tasks.map CachedSource.resultOf ∧
      Scheduled cached.options bundle languages tasks
        (CachedSource.loadAtOnce bundle languages count cached).2 := by
  -- There are operations for all numbers; those without a task never begin.
  let tasks : List (Task (Except LoadError Messages)) :=
    List.replicate count (.ready (CacheProgram.loadBundle cached.options bundle languages))
  have run := @Traffic.Run.start Nat _ cached.options.keyFormat
    (fun _ => (cached.options, .load bundle languages)) capacity place (fun _ => guarded) room
  have begun : Scheduled cached.options bundle languages tasks cached := by
    refine ⟨[], _, {
      run
      backend := unused.symm
      stands := ?_
      asks := fun _ => asks_loadBundle guarded lasting bundle languages
      ofLoad := nofun
      answered := congrArg (List.filterMap SourceCall.messages?) unasked }⟩
    intro k task at_k
    obtain rfl := List.eq_of_mem_replicate (List.mem_of_getElem? at_k)
    rfl
  exact ⟨(CachedSource.rounds (6 * count + 1) tasks cached).1, rfl,
    begun.rounds (6 * count + 1)⟩

/-- **Loads at once are a single flight.**  Through an unused cache with locking, a source is asked
until it has answered messages once, and a load that answers messages answers these. -/
theorem CachedSource.singleFlight_loadAtOnce :
    ∃ fetched : Option Messages,
      (CachedSource.loadAtOnce bundle languages count cached).2.source.answered =
        fetched.toList ∧
      ∀ messages,
        some (.ok messages) ∈ (CachedSource.loadAtOnce bundle languages count cached).1 →
          fetched = some messages := by
  obtain ⟨tasks, results_eq, log, traffic, matching⟩ := scheduled_loadAtOnce guarded place lasting
    unused room unasked bundle languages count
  refine ⟨_, matching.answered_eq, fun messages mem => ?_⟩
  rw [results_eq] at mem
  obtain ⟨task, memTask, ended⟩ := List.mem_map.1 mem
  cases task with
  | finished result =>
    obtain rfl : result = .ok messages := Option.some.inj ended
    exact matching.latest_eq_of_finished memTask
  | _ => cases ended

end AtOnce

end Phrasebook
