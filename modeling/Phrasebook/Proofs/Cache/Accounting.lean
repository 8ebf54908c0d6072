import Mathlib.Algebra.GroupWithZero.Nat
import Phrasebook.Proofs.Cache.Bracket

/-!
# The counters of a cached source account for what happened

Any number of operations visit one cached source.  They begin at any time and take their steps in
any order; what the backend and the source reply is left open, every time, and so is how both
change.  A visit that is given up, or that waits for a source which never answers, stays where it
is.

What a visit has been told so far makes its *tally*.  The counters are the sum of what the visits
have counted, and each visit has counted what its tally says (`CacheOperation.Accounted`).  This is
proved without a look at the other visits: `CacheOperation.Accounts` says, by recursion on what an
operation still has to ask, that it counts right whatever it is told, and the work of an operation
does so under the lock and without it.

Between a reply and the next request, a visit may stop at a request to count.  It has not counted
then what it has just been told, so the balance is drawn up when no visit stands there.

## Main definitions

- `Tally` is what an operation has been told, as far as counting goes.
- `Service` is a cached source with its visits.  `Service.Step` is what can happen next, and
  `Service.Run` what can have happened so far.
- `Service.Accounted` is the balance.

## Main statements

- `CacheOperation.accounts_program`: every operation counts right, whatever it is told.
- `Service.Run.metrics_accounted`: in every run, the counters account for what happened.
- `Service.Run.perform`: operations that are performed one after the other are a run.
-/

namespace Phrasebook

open Interaction (Replay)

/-- How much a request adds to a counter. -/
def CacheRequest.counts (counter : Counter) : CacheRequest → Nat
  | count other => if counter = other then 1 else 0
  | _ => 0

/-! ## What an operation has been told -/

/-- What has become of a load, as soon as it is clear. -/
inductive LoadFate where
  /-- It ends at its lock, or because the cache fails. -/
  | stopped
  /-- The cache has found these messages. -/
  | found (messages : Messages)
  /-- The cache has found nothing. -/
  | missing

/-- What an operation has been told so far: what it has counted, how often its lock was not free in
time, how often the source has replied, and what has become of it. -/
structure Tally where
  counted : CacheMetrics := {}
  refusals : Nat := 0
  replies : Nat := 0
  fate : Option LoadFate := none

namespace Tally

/-- A tally after a lock was not free in time. -/
def refuse (options : CacheOptions) (tally : Tally) : Tally :=
  match options.locking.failureAction with
  | .ignoreLock => { tally with refusals := tally.refusals + 1 }
  | .fail => { tally with refusals := tally.refusals + 1, fate := some .stopped }

/-- A tally after one more exchange. -/
def after (options : CacheOptions) (tally : Tally) : CacheExchange → Tally
  | ⟨⟨.tryLock _ _, _⟩, .error _⟩ => { tally with fate := some .stopped }
  | ⟨⟨.tryLock _ _, _⟩, .ok false⟩ => tally.refuse options
  | ⟨⟨.get _, _⟩, .error _⟩ => { tally with fate := some .stopped }
  | ⟨⟨.get _, _⟩, .ok (some messages)⟩ => { tally with fate := some (.found messages) }
  | ⟨⟨.get _, _⟩, .ok none⟩ => { tally with fate := some .missing }
  | ⟨⟨.load _ _, _⟩, _⟩ => { tally with replies := tally.replies + 1 }
  | ⟨⟨.count counter, _⟩, _⟩ => { tally with counted := tally.counted.count counter }
  | _ => tally

/-- The tally of these exchanges. -/
def ofExchanges (options : CacheOptions) (exchanges : List CacheExchange) : Tally :=
  exchanges.foldl (after options) {}

theorem ofExchanges_concat (options : CacheOptions) (exchanges : List CacheExchange)
    (exchange : CacheExchange) :
    ofExchanges options (exchanges ++ [exchange]) =
      (ofExchanges options exchanges).after options exchange := by
  rw [ofExchanges, List.foldl_append]
  rfl

/-- Nothing is clear yet, but that a lock has not been free for a number of times, which is
counted. -/
def delayed (refusals : Nat) : Tally where
  counted := { lockTimeouts := refusals }
  refusals := refusals

theorem counted_refuse (options : CacheOptions) (tally : Tally) :
    (tally.refuse options).counted = tally.counted := by
  rw [refuse]
  cases options.locking.failureAction <;> rfl

/-- What is counted is what is asked to be counted. -/
theorem value_counted_after (options : CacheOptions) (tally : Tally) (exchange : CacheExchange)
    (counter : Counter) :
    (tally.after options exchange).counted.value counter =
      tally.counted.value counter + exchange.request.counts counter := by
  obtain ⟨⟨request, held⟩, answer⟩ := exchange
  cases request with
  | tryLock name wait =>
    rcases answer with error | (_ | _)
    · rfl
    · exact congrArg (CacheMetrics.value · counter) (counted_refuse options tally)
    · rfl
  | get key => rcases answer with error | (_ | _) <;> rfl
  | count other => exact CacheMetrics.value_count _ other counter
  | _ => rfl

end Tally

namespace CacheProgram

variable {α : Type}

/-- What an operation asks for next, unless it is done. -/
def request? : CacheProgram α → Option CacheRequest
  | Interaction.ask step _ => some step.request
  | Interaction.done _ => none

/-- An operation is about to count something. -/
def IsCounting (program : CacheProgram α) : Prop :=
  ∃ counter, program.request? = some (.count counter)

/-- An operation waits for its lock or for what the cache finds. -/
def IsInquiring (program : CacheProgram α) : Prop :=
  (∃ name wait, program.request? = some (.tryLock name wait)) ∨
    ∃ key, program.request? = some (.get key)

/-- How many calls of the source are without a reply. -/
def openCalls (program : CacheProgram α) : Nat :=
  match program.request? with
  | some (.load _ _) => 1
  | _ => 0

end CacheProgram

namespace CacheOperation

open CacheProgram (IsCounting IsInquiring openCalls)

/-- An operation loads a bundle. -/
def isLoad : CacheOperation → Bool
  | load _ _ => true
  | drop _ => false

/-- A load that is answered from the cache. -/
def isHit (operation : CacheOperation) (tally : Tally) : Bool :=
  match operation, tally.fate with
  | load _ _, some (.found _) => true
  | _, _ => false

/-- A load for which the cache has found nothing. -/
def isMiss (operation : CacheOperation) (tally : Tally) : Bool :=
  match operation, tally.fate with
  | load _ _, some .missing => true
  | _, _ => false

/-- A load that ends at its lock, or because the cache fails. -/
def isStopped (operation : CacheOperation) (tally : Tally) : Bool :=
  match operation, tally.fate with
  | load _ _, some .stopped => true
  | _, _ => false

/-- A load of which nothing is clear yet. -/
def isOpen (operation : CacheOperation) (tally : Tally) : Bool :=
  match operation, tally.fate with
  | load _ _, none => true
  | _, _ => false

/-- What an operation may end with.  A load answers the messages that the cache has found, and is
not stopped without an error. -/
def AnswersTo :
    (operation : CacheOperation) → Tally → Except LoadError operation.Answer → Prop
  | load _ _, tally, result =>
    match tally.fate with
    | none => False
    | some .stopped => ∃ error, result = .error error
    | some (.found messages) => result = .ok messages
    | some .missing => True
  | drop _, _, _ => True

/-- **An operation has counted what it was told**, where this is its tally and this is left of
it. -/
structure Accounted (operation : CacheOperation) (tally : Tally)
    (rest : CacheProgram (Except LoadError operation.Answer)) : Prop where
  /-- A load that is answered from the cache adds one to the hits, and nothing else does. -/
  hits : tally.counted.hits = (operation.isHit tally).toNat
  /-- A load for which the cache finds nothing adds one to the misses, and nothing else does. -/
  misses : tally.counted.misses = (operation.isMiss tally).toNat
  /-- Every lock that is not free in time is counted. -/
  lockTimeouts : tally.counted.lockTimeouts = tally.refusals
  /-- The source is called once, by a load for which the cache finds nothing. -/
  calls : tally.replies + openCalls rest = (operation.isMiss tally).toNat
  /-- Nothing is clear of a load only while it waits for its lock or for the cache. -/
  waiting : operation.isOpen tally = true → IsInquiring rest
  answer : ∀ {result}, rest = Interaction.done result → operation.AnswersTo tally result

/-- **An operation counts right, whatever it is told**: wherever it can come to from here, unless it
is about to count, it has counted what it was told. -/
def Accounts (options : CacheOptions) (operation : CacheOperation) :
    Tally → CacheProgram (Except LoadError operation.Answer) → Prop
  | tally, Interaction.done result => operation.Accounted tally (Interaction.done result)
  | tally, Interaction.ask step next =>
    (¬ IsCounting (Interaction.ask step next) →
      operation.Accounted tally (Interaction.ask step next)) ∧
        ∀ answer, Accounts options operation (tally.after options ⟨step, answer⟩) (next answer)

/-- A load is a hit or a miss, or is stopped, or waits. -/
theorem ite_isLoad (operation : CacheOperation) (tally : Tally) :
    ((if operation.isHit tally then 1 else 0) + (if operation.isMiss tally then 1 else 0) +
        (if operation.isStopped tally then 1 else 0) + if operation.isOpen tally then 1 else 0) =
      if operation.isLoad then 1 else 0 := by
  cases operation with
  | drop bundle => rfl
  | load bundle languages =>
    obtain ⟨counted, refusals, replies, fate⟩ := tally
    rcases fate with _ | (_ | _ | _) <;> rfl

variable {options : CacheOptions} {operation : CacheOperation} {tally : Tally}

theorem Accounts.accounted {rest : CacheProgram (Except LoadError operation.Answer)}
    (accounts : operation.Accounts options tally rest) (settled : ¬ IsCounting rest) :
    operation.Accounted tally rest := by
  cases rest with
  | done result => exact accounts
  | ask step next => exact accounts.1 settled

/-- What is about to count is not looked at before it has counted. -/
theorem accounts_count {counter : Counter} {held : Option String}
    {next : Unit → CacheProgram (Except LoadError operation.Answer)}
    (onward : operation.Accounts options { tally with counted := tally.counted.count counter }
      (next ())) :
    operation.Accounts options tally (Interaction.ask ⟨.count counter, held⟩ next) :=
  ⟨fun settled => absurd ⟨counter, rfl⟩ settled, fun _ => onward⟩

/-- Whoever has counted right may still release a lock. -/
theorem Accounted.accounts_unlock {result : Except LoadError operation.Answer} {name : String}
    {held : Option String} (accounted : operation.Accounted tally (Interaction.done result)) :
    operation.Accounts options tally
      (Interaction.ask ⟨.unlock name, held⟩ fun _ => Interaction.done result) := by
  refine ⟨fun _ => ?_, fun _ => accounted⟩
  refine { accounted with waiting := fun isOpen => ?_, answer := nofun }
  rcases accounted.waiting isOpen with ⟨name, wait, asks⟩ | ⟨key, asks⟩ <;> cases asks

/-- A stop is accounted for, where nothing else was clear before. -/
theorem accounted_stopped (operation : CacheOperation) (error : LoadError) (refusals : Nat) :
    operation.Accounted { Tally.delayed refusals with fate := some .stopped }
      (Interaction.done (.error error)) := by
  cases operation with
  | drop bundle => exact ⟨rfl, rfl, rfl, rfl, nofun, fun _ => trivial⟩
  | load bundle languages =>
    refine ⟨rfl, rfl, rfl, rfl, nofun, ?_⟩
    rintro _ ⟨⟩
    exact ⟨error, rfl⟩

/-- **The work of an operation counts right**, whatever comes after it.  The cases are the replies
of the cache and of the source. -/
theorem accounts_body (operation : CacheOperation) (held : Option String) (refusals : Nat)
    {next : Except LoadError operation.Answer → CacheProgram (Except LoadError operation.Answer)}
    (onward : ∀ {tally result}, operation.Accounted tally (Interaction.done result) →
      operation.Accounts options tally (next result)) :
    operation.Accounts options (Tally.delayed refusals) (operation.body options held >>= next) := by
  cases operation with
  | drop bundle =>
    exact ⟨fun _ => ⟨rfl, rfl, rfl, rfl, nofun, nofun⟩,
      fun _ => onward ⟨rfl, rfl, rfl, rfl, nofun, fun _ => trivial⟩⟩
  | load bundle languages =>
    refine ⟨fun _ => ⟨rfl, rfl, rfl, rfl, fun _ => Or.inr ⟨_, rfl⟩, nofun⟩, fun found => ?_⟩
    rcases found with error | (_ | messages)
    · exact onward (accounted_stopped _ error refusals)
    · -- the cache has nothing: the source is called, once
      refine accounts_count ⟨fun _ => ⟨rfl, rfl, rfl, rfl, nofun, nofun⟩, fun loaded => ?_⟩
      rcases loaded with error | messages
      · exact onward ⟨rfl, rfl, rfl, rfl, nofun, fun _ => trivial⟩
      · refine ⟨fun _ => ⟨rfl, rfl, rfl, rfl, nofun, nofun⟩, fun stored => ?_⟩
        rcases stored with error | _ <;>
          exact onward ⟨rfl, rfl, rfl, rfl, nofun, fun _ => trivial⟩
    · refine accounts_count (onward ⟨rfl, rfl, rfl, rfl, nofun, ?_⟩)
      rintro _ ⟨⟩
      rfl

/-- The work of an operation counts right without a lock. -/
theorem accounts_bare_body (operation : CacheOperation) (refusals : Nat) :
    operation.Accounts options (Tally.delayed refusals) (operation.body options none) := by
  have counts : operation.Accounts options (Tally.delayed refusals)
      (operation.body options none >>= pure) := accounts_body operation none refusals id
  rwa [bind_pure] at counts

/-- **Every operation counts right, whatever it is told.**  With locking, the cases are the answers
to the request for the lock. -/
theorem accounts_program (options : CacheOptions) (operation : CacheOperation) :
    operation.Accounts options {} (operation.program options) := by
  rw [program_eq_withLock]
  cases on : options.locking.lock with
  | false =>
    rw [CacheProgram.withLock_of_lock_eq_false on]
    exact operation.accounts_bare_body 0
  | true =>
    rw [CacheProgram.withLock_of_lock_eq_true on]
    refine ⟨fun _ => ?_, fun answer => ?_⟩
    · cases operation <;> exact ⟨rfl, rfl, rfl, rfl, fun _ => Or.inl ⟨_, _, rfl⟩, nofun⟩
    rcases answer with error | (_ | _)
    · exact operation.accounted_stopped error 0
    · refine accounts_count ?_
      simp only [Tally.after, Tally.refuse]
      cases options.locking.failureAction with
      | ignoreLock => exact operation.accounts_bare_body 1
      | fail => exact operation.accounted_stopped _ 1
    · exact accounts_body operation _ 0 fun accounted => accounted.accounts_unlock

end CacheOperation

/-! ## A cached source and its visits -/

/-- An operation that has begun, with what it has been told so far and what is left of it. -/
structure Visit where
  operation : CacheOperation
  exchanges : List CacheExchange
  rest : CacheProgram (Except LoadError operation.Answer)

namespace Visit

/-- An operation that has not begun to ask. -/
def start (options : CacheOptions) (operation : CacheOperation) : Visit :=
  ⟨operation, [], operation.program options⟩

/-- A visit that has been told something more. -/
def tell (visit : Visit) (exchange : CacheExchange)
    (rest : CacheProgram (Except LoadError visit.operation.Answer)) : Visit :=
  ⟨visit.operation, visit.exchanges ++ [exchange], rest⟩

/-- What a visit has been told, as far as counting goes. -/
def tally (options : CacheOptions) (visit : Visit) : Tally :=
  Tally.ofExchanges options visit.exchanges

/-- How many calls of the source a visit has made. -/
def calls (options : CacheOptions) (visit : Visit) : Nat :=
  (visit.tally options).replies + visit.rest.openCalls

end Visit

/-- A cached source, with the operations on it that have begun. -/
structure Service (σ β : Type) where
  cached : CachedSource σ β
  visits : List Visit

/-- What a cached source may be after a step: it has counted what it was asked to count, and how the
source and the backend have changed is left open. -/
def CachedSource.MayBecome {σ β : Type} (cached : CachedSource σ β) :
    CacheStep → CachedSource σ β → Prop
  | ⟨.count counter, _⟩, after => after = (CachedSource.count counter cached).2
  | _, after => after.options = cached.options ∧ after.metrics = cached.metrics

namespace Service

variable {σ β : Type}

/-- **What can happen next.** -/
inductive Step (service : Service σ β) : Service σ β → Prop
  /-- An operation begins. -/
  | visit (operation : CacheOperation) :
      Step service
        ⟨service.cached, service.visits ++ [Visit.start service.cached.options operation]⟩
  /-- An operation gets a reply, whatever it is. -/
  | reply {earlier later : List Visit} {visit : Visit} {step : CacheStep}
      {next : step.Reply → CacheProgram (Except LoadError visit.operation.Answer)}
      {cached : CachedSource σ β} (visits : service.visits = earlier ++ visit :: later)
      (here : visit.rest = Interaction.ask step next) (answer : step.Reply)
      (becomes : service.cached.MayBecome step cached) :
      Step service ⟨cached, earlier ++ visit.tell ⟨step, answer⟩ (next answer) :: later⟩
  /-- The source and the backend change, for other reasons. -/
  | elsewhere (source : σ) (backend : β) :
      Step service ⟨{ service.cached with source, backend }, service.visits⟩

/-- **What can have happened so far**, from the time on when nothing had been counted. -/
inductive Run : Service σ β → Prop
  | start {cached : CachedSource σ β} (fresh : cached.metrics = {}) : Run ⟨cached, []⟩
  | step {service after : Service σ β} (before : Run service) (step : Step service after) :
      Run after

/-- The tally of a visit of a service. -/
def tally (service : Service σ β) (visit : Visit) : Tally := visit.tally service.cached.options

/-- The sum over the tallies of all visits. -/
def total (service : Service σ β) (amount : Tally → Nat) : Nat :=
  (service.visits.map fun visit => amount (service.tally visit)).sum

/-- **The balance of a service.** -/
structure Accounted (service : Service σ β) : Prop where
  /-- Every operation has counted what it was told. -/
  each : ∀ visit ∈ service.visits,
    visit.operation.Accounted (service.tally visit) visit.rest
  /-- The counters are the sum of what the operations have counted. -/
  counted : ∀ counter, service.cached.metrics.value counter =
    service.total fun tally => tally.counted.value counter
  /-- The hits are the loads that are answered from the cache. -/
  hits : service.cached.metrics.hits =
    service.visits.countP fun visit => visit.operation.isHit (service.tally visit)
  /-- The misses are the loads for which the cache has found nothing. -/
  misses : service.cached.metrics.misses =
    service.visits.countP fun visit => visit.operation.isMiss (service.tally visit)
  /-- They are the calls of the source as well. -/
  calls : service.cached.metrics.misses =
    (service.visits.map (Visit.calls service.cached.options)).sum
  /-- The third counter is the number of times that a lock was not free in time. -/
  lockTimeouts : service.cached.metrics.lockTimeouts = service.total Tally.refusals
  /-- Every load is a hit or a miss, or is stopped, or waits. -/
  loads : service.cached.metrics.hits + service.cached.metrics.misses +
      service.visits.countP (fun visit => visit.operation.isStopped (service.tally visit)) +
        service.visits.countP (fun visit => visit.operation.isOpen (service.tally visit)) =
    service.visits.countP fun visit => visit.operation.isLoad

end Service

/-! ## What every run keeps up -/

namespace CachedSource

variable {σ β : Type} {cached after : CachedSource σ β} {step : CacheStep}

theorem MayBecome.options_eq (becomes : cached.MayBecome step after) :
    after.options = cached.options := by
  obtain ⟨request, held⟩ := step
  cases request with
  | count counter =>
    obtain rfl : after = _ := becomes
    rfl
  | _ => exact becomes.1

theorem MayBecome.value_metrics (becomes : cached.MayBecome step after) (counter : Counter) :
    after.metrics.value counter =
      cached.metrics.value counter + step.request.counts counter := by
  obtain ⟨request, held⟩ := step
  cases request with
  | count other =>
    obtain rfl : after = _ := becomes
    exact CacheMetrics.value_count _ other counter
  | _ => exact congrArg (CacheMetrics.value · counter) becomes.2

/-- A cached source that replies to a step with its backend and its source becomes what it may. -/
theorem mayBecome_handle [MessageSource σ] [CacheBackend β] (cached : CachedSource σ β)
    (step : CacheStep) : cached.MayBecome step (handle step cached).2 := by
  obtain ⟨request, held⟩ := step
  cases request with
  | count counter => rfl
  | _ => exact ⟨rfl, rfl⟩

end CachedSource

namespace Service

variable {σ β : Type} {service after : Service σ β}

/-- **What every run keeps up**: every visit counts right, and the counters are the sum of what the
visits have counted. -/
structure Kept (service : Service σ β) : Prop where
  accounts : ∀ visit ∈ service.visits,
    visit.operation.Accounts service.cached.options (service.tally visit) visit.rest
  counted : ∀ counter, service.cached.metrics.value counter =
    service.total fun tally => tally.counted.value counter

theorem kept_start {cached : CachedSource σ β} (fresh : cached.metrics = {}) :
    Kept ⟨cached, []⟩ where
  accounts := nofun
  counted counter := by
    rw [fresh]
    cases counter <;> rfl

/-- **One step keeps it up.**  A reply concerns one visit, which counts what the cached source
counts. -/
theorem Kept.step (kept : service.Kept) (step : Step service after) : after.Kept := by
  cases step with
  | visit operation =>
    constructor
    · exact List.forall_mem_append.2
        ⟨kept.accounts, List.forall_mem_singleton.2 (operation.accounts_program _)⟩
    · intro counter
      simp only [kept.counted counter, total, List.map_append, List.sum_append]
      cases counter <;> rfl
  | @reply earlier later visit step next cached visits here answer becomes =>
    have told : (visit.tell ⟨step, answer⟩ (next answer)).tally service.cached.options =
        (service.tally visit).after service.cached.options ⟨step, answer⟩ :=
      Tally.ofExchanges_concat _ _ _
    have accounts := kept.accounts
    rw [visits, List.forall_mem_append, List.forall_mem_cons] at accounts
    obtain ⟨before, this, behind⟩ := accounts
    constructor
    · simp only [tally, becomes.options_eq, List.forall_mem_append, List.forall_mem_cons]
      refine ⟨before, ?_, behind⟩
      rw [here] at this
      rw [told]
      exact this.2 answer
    · intro counter
      have counted := kept.counted counter
      simp only [total, tally, visits, List.map_append, List.map_cons, List.sum_append,
        List.sum_cons] at counted
      simp only [total, tally, becomes.options_eq, List.map_append, List.map_cons, List.sum_append,
        List.sum_cons, told, Tally.value_counted_after, becomes.value_metrics,
        CacheExchange.request]
      omega
  | elsewhere source backend => exact ⟨kept.accounts, kept.counted⟩

theorem Run.kept (run : Run service) : service.Kept := by
  induction run with
  | start fresh => exact kept_start fresh
  | step before step ih => exact ih.step step

/-! ## Operations one after the other -/

theorem Run.reply_last {visits : List Visit} {visit : Visit} {cached after : CachedSource σ β}
    {step : CacheStep}
    {next : step.Reply → CacheProgram (Except LoadError visit.operation.Answer)}
    (run : Run ⟨cached, visits ++ [visit]⟩) (here : visit.rest = Interaction.ask step next)
    (answer : step.Reply) (becomes : cached.MayBecome step after) :
    Run ⟨after, visits ++ [visit.tell ⟨step, answer⟩ (next answer)]⟩ :=
  .step run (.reply rfl here answer becomes)

/-- A visit to which a cached source gives all replies comes to its end.  By induction on the
replies. -/
theorem Run.handles [MessageSource σ] [CacheBackend β] {visits : List Visit}
    {operation : CacheOperation} {told exchanges : List CacheExchange}
    {rest : CacheProgram (Except LoadError operation.Answer)} {cached after : CachedSource σ β}
    {result : Except LoadError operation.Answer}
    (run : Run ⟨cached, visits ++ [⟨operation, told, rest⟩]⟩)
    (replay : Replay rest exchanges result)
    (handled : Interaction.Handles CachedSource.handle cached exchanges after) :
    Run ⟨after, visits ++ [⟨operation, told ++ exchanges, Interaction.done result⟩]⟩ := by
  induction handled generalizing told rest with
  | done state =>
    cases replay
    rwa [List.append_nil]
  | @ask step answer before between after exchanges replied handled ih =>
    cases replay with
    | ask _ replay =>
      have becomes := before.mayBecome_handle step
      rw [replied] at becomes
      have onward := ih (run.reply_last rfl answer becomes) replay
      rwa [List.append_assoc] at onward

/-- **What a cached source performs is part of a run**, after whatever has happened before. -/
theorem Run.perform [MessageSource σ] [CacheBackend β] (run : Run service)
    {operation : CacheOperation} {result : Except LoadError operation.Answer}
    {cached : CachedSource σ β}
    (performed : operation.perform service.cached = (some result, cached)) :
    ∃ exchanges, Run ⟨cached,
      service.visits ++ [⟨operation, exchanges, Interaction.done result⟩]⟩ := by
  obtain ⟨exchanges, replay, handled⟩ := CacheOperation.perform_eq_some_iff.1 performed
  exact ⟨exchanges, Run.handles (.step run (.visit operation)) replay handled⟩

/-! ## The balance -/

/-- The sum of what depends on the visits only by a test is the number of those that pass. -/
theorem sum_map_toNat {visits : List Visit} {amount : Visit → Nat} {test : Visit → Bool}
    (each : ∀ visit ∈ visits, amount visit = (test visit).toNat) :
    (visits.map amount).sum = visits.countP test := by
  induction visits with
  | nil => rfl
  | cons visit rest ih =>
    obtain ⟨first, others⟩ := List.forall_mem_cons.1 each
    rw [List.map_cons, List.sum_cons, first, ih others, List.countP_cons, Nat.add_comm]
    cases test visit <;> rfl

/-- Every load is a hit or a miss, or is stopped, or waits. -/
theorem countP_isLoad (tally : Visit → Tally) (visits : List Visit) :
    visits.countP (fun visit => visit.operation.isHit (tally visit)) +
        visits.countP (fun visit => visit.operation.isMiss (tally visit)) +
          visits.countP (fun visit => visit.operation.isStopped (tally visit)) +
            visits.countP (fun visit => visit.operation.isOpen (tally visit)) =
      visits.countP fun visit => visit.operation.isLoad := by
  induction visits with
  | nil => rfl
  | cons visit rest ih =>
    have one := visit.operation.ite_isLoad (tally visit)
    simp only [List.countP_cons]
    omega

/-- **The counters account for what happened**, whatever the backend and the source reply, and
however the operations take turns.  Every load adds one to the hits if the cache has found its
messages, one to the misses if the cache has found nothing, whatever comes of it then, and to
neither if it ends at its lock or because the cache fails.  So the hits are the loads that are
answered from the cache, the misses are the calls of the source, and together with the loads that
are stopped they are all loads that do not wait for their lock or for the cache.  The third counter
is the number of times that a lock was not free in time, for loads and for drops, be it a failure or
not. -/
theorem Run.metrics_accounted (run : Run service)
    (settled : ∀ visit ∈ service.visits, ¬ visit.rest.IsCounting) : service.Accounted := by
  have each : ∀ visit ∈ service.visits,
      visit.operation.Accounted (service.tally visit) visit.rest := fun visit mem =>
    (run.kept.accounts visit mem).accounted (settled visit mem)
  have counted := run.kept.counted
  have hits := (counted .hits).trans (sum_map_toNat fun visit mem => (each visit mem).hits)
  have misses := (counted .misses).trans (sum_map_toNat fun visit mem => (each visit mem).misses)
  exact {
    each := each
    counted := counted
    hits := hits
    misses := misses
    calls := misses.trans (sum_map_toNat fun visit mem => (each visit mem).calls).symm
    lockTimeouts := (counted .lockTimeouts).trans
      (congrArg List.sum (List.map_congr_left fun visit mem => (each visit mem).lockTimeouts))
    loads := by
      rw [show service.cached.metrics.hits = _ from hits,
        show service.cached.metrics.misses = _ from misses]
      exact countP_isLoad service.tally service.visits }

/-- A load has found nothing in the cache and waits for the source.  Meanwhile another load has
waited too long for the lock. -/
theorem metrics_accounted_two_loads :
    ∃ service : Service FixedSource MemoryCache, Run service ∧
      (∀ visit ∈ service.visits, ¬ visit.rest.IsCounting) ∧
        service.cached.metrics = { misses := 1, lockTimeouts := 1 } ∧ service.Accounted := by
  have begun : Run (σ := FixedSource) (β := MemoryCache)
      ⟨⟨⟨Dict.empty⟩, MemoryCache.empty, {}, {}⟩, [] ++ [Visit.start {} (.load "shop" [])]⟩ :=
    .step (.start rfl) (.visit (.load "shop" []))
  have locked := begun.reply_last rfl (.ok true) ⟨rfl, rfl⟩
  have missing := (locked.reply_last rfl (.ok none) ⟨rfl, rfl⟩).reply_last rfl () rfl
  have other := missing.step (.visit (.load "shop" []))
  have refused := (other.reply_last rfl (.ok false) ⟨rfl, rfl⟩).reply_last rfl () rfl
  refine ⟨_, refused, ?settled, rfl, refused.metrics_accounted ?settled⟩
  exact List.forall_mem_append.2
    ⟨List.forall_mem_singleton.2 nofun, List.forall_mem_singleton.2 nofun⟩

end Service

end Phrasebook
