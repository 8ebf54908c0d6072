import Mathlib.Data.List.Basic
import Phrasebook.Cache.Source
import Phrasebook.Proofs.Engine.Surroundings

/-!
# The lock around an operation

Loading a bundle and dropping it from the cache are bracketed by the lock of the bundle.  What is
said of the bracket here holds for any backend and any source: every reply may be anything, an error
included, and it may differ from one time to the next.  An operation that has come to its end is
known by its *exchanges*, the requests that it made with the replies that it got, and by its result
(`Interaction.Replay`).

There are five courses that an operation can take (`Course`): without a lock; with the lock, which
is released at the end; and three for the lock that is not acquired.  In none of them does the work
itself ask for a lock or release one, so all that is said of the lock can be read off the course.

## Main definitions

- `CacheOperation` names the two operations, with their `program` and how to `perform` them.
- `CacheOperation.Bracketed` says what becomes of the lock.

## Main statements

- `CacheOperation.bracketed_of_replay`: every operation that comes to its end is bracketed.
- `CacheOperation.perform_eq_some_iff`: what a cached source does when it performs an operation to
  the end is such a replay, with the replies of its backend and its source.
-/

namespace Phrasebook

open Interaction (Exchange Replay replay_ask_iff replay_done_iff replay_bind_iff)

/-- An operation of a cached source. -/
inductive CacheOperation where
  | load (bundle : String) (languages : List Language)
  | drop (bundle : String)

namespace CacheOperation

/-- What an operation answers. -/
abbrev Answer : CacheOperation → Type
  | load _ _ => Messages
  | drop _ => Bool

/-- The bundle that an operation is about. -/
def bundle : CacheOperation → String
  | load bundle _ => bundle
  | drop bundle => bundle

/-- What an operation asks for. -/
def program (options : CacheOptions) :
    (operation : CacheOperation) → CacheProgram (Except LoadError operation.Answer)
  | load bundle languages => CacheProgram.loadBundle options bundle languages
  | drop bundle => CacheProgram.dropBundle options bundle

/-- The part of an operation that the lock is for. -/
def body (options : CacheOptions) :
    (operation : CacheOperation) → Option String → CacheProgram (Except LoadError operation.Answer)
  | load bundle languages => CacheProgram.throughCache options bundle languages
  | drop bundle => fun held => CacheProgram.ask held (.delete (options.key bundle .messages))

theorem program_eq_withLock (options : CacheOptions) (operation : CacheOperation) :
    operation.program options =
      CacheProgram.withLock options operation.bundle (operation.body options) := by
  cases operation <;> rfl

end CacheOperation

/-! ## Requests and exchanges -/

namespace CacheRequest

/-- Asking for a lock. -/
def AsksForLock : CacheRequest → Prop
  | tryLock _ _ => True
  | _ => False

/-- Releasing a lock. -/
def ReleasesLock : CacheRequest → Prop
  | unlock _ => True
  | _ => False

theorem ReleasesLock.exists_eq_unlock {request : CacheRequest} (releases : request.ReleasesLock) :
    ∃ name, request = unlock name := by
  cases request with
  | unlock name => exact ⟨name, rfl⟩
  | _ => exact releases.elim

/-- Asking the cache or the source for something. -/
def IsWork : CacheRequest → Prop
  | get _ => True
  | set _ _ _ => True
  | delete _ => True
  | load _ _ => True
  | _ => False

/-- Having nothing to do with locks. -/
def IsLockFree (request : CacheRequest) : Prop :=
  ¬ request.AsksForLock ∧ ¬ request.ReleasesLock

/-- What work on a bundle may ask for: its entry in the cache, its messages, and counting. -/
def IsWorkOn (options : CacheOptions) (bundle : String) : CacheRequest → Prop
  | tryLock _ _ => False
  | unlock _ => False
  | get key => key = options.key bundle .messages
  | set key _ _ => key = options.key bundle .messages
  | delete key => key = options.key bundle .messages
  | load loaded _ => loaded = bundle
  | count _ => True

theorem IsWorkOn.isLockFree {options : CacheOptions} {bundle : String} {request : CacheRequest}
    (work : request.IsWorkOn options bundle) : request.IsLockFree := by
  constructor <;> cases request <;> first | exact id | exact fun _ => work

end CacheRequest

/-- A request of an operation and the reply to it. -/
abbrev CacheExchange := Exchange CacheStep CacheStep.Reply

namespace CacheExchange

/-- What is asked for in an exchange. -/
abbrev request (exchange : CacheExchange) : CacheRequest := exchange.question.request

/-- The lock of a bundle is asked for. -/
def tried (options : CacheOptions) (bundle : String) (answer : Except LoadError Bool) :
    CacheExchange :=
  ⟨⟨.tryLock (options.key bundle .lock) options.locking.wait, none⟩, answer⟩

/-- The lock of a bundle is released. -/
def released (options : CacheOptions) (bundle : String) (answer : Except LoadError Unit) :
    CacheExchange :=
  ⟨⟨.unlock (options.key bundle .lock), some (options.key bundle .lock)⟩, answer⟩

/-- A lock that was not free in time is counted. -/
def timedOut : CacheExchange := ⟨⟨.count .lockTimeouts, none⟩, ()⟩

end CacheExchange

namespace CacheOptions

/-- The same options without the lock. -/
def withoutLock (options : CacheOptions) : CacheOptions :=
  { options with locking := { options.locking with lock := false } }

end CacheOptions

/-! ## The courses of an operation -/

namespace CacheProgram

variable {α : Type} {options : CacheOptions} {bundle : String}
  {body : Option String → CacheProgram (Except LoadError α)} {exchanges : List CacheExchange}
  {result : Except LoadError α}

open CacheExchange

/-- The courses that a body can take under the lock of a bundle. -/
inductive Course (options : CacheOptions) (bundle : String)
    (body : Option String → CacheProgram (Except LoadError α)) :
    List CacheExchange → Except LoadError α → Prop
  | unlocked {work : List CacheExchange} {result : Except LoadError α}
      (off : options.locking.lock = false) (replay : Replay (body none) work result) :
      Course options bundle body work result
  | locked {work : List CacheExchange} {result : Except LoadError α}
      (on : options.locking.lock = true)
      (replay : Replay (body (some (options.key bundle .lock))) work result)
      (answer : Except LoadError Unit) :
      Course options bundle body
        (tried options bundle (.ok true) :: (work ++ [released options bundle answer])) result
  | failed (on : options.locking.lock = true) (error : LoadError) :
      Course options bundle body [tried options bundle (.error error)] (.error error)
  | refused (on : options.locking.lock = true) (fails : options.locking.failureAction = .fail) :
      Course options bundle body [tried options bundle (.ok false), timedOut]
        (.error (.lockTimeout (options.key bundle .lock) options.locking.wait))
  | ignored {work : List CacheExchange} {result : Except LoadError α}
      (on : options.locking.lock = true)
      (ignores : options.locking.failureAction = .ignoreLock)
      (replay : Replay (body none) work result) :
      Course options bundle body (tried options bundle (.ok false) :: timedOut :: work) result

theorem withLock_of_lock_eq_false (off : options.locking.lock = false) :
    withLock options bundle body = body none := by
  simp [withLock, off]

/-- With locking, everything hangs on the answer to the request for the lock. -/
theorem withLock_of_lock_eq_true (on : options.locking.lock = true) :
    withLock options bundle body =
      Interaction.ask ⟨.tryLock (options.key bundle .lock) options.locking.wait, none⟩ fun answer =>
        match answer with
        | .error error => Interaction.done (.error error)
        | .ok true =>
          body (some (options.key bundle .lock)) >>= fun result =>
            Interaction.ask
              ⟨.unlock (options.key bundle .lock), some (options.key bundle .lock)⟩ fun _ =>
                Interaction.done result
        | .ok false =>
          Interaction.ask ⟨.count .lockTimeouts, none⟩ fun _ =>
            match options.locking.failureAction with
            | .ignoreLock => body none
            | .fail =>
              Interaction.done
                (.error (.lockTimeout (options.key bundle .lock) options.locking.wait)) := by
  rw [withLock, if_pos on]
  refine congrArg (Interaction.ask _) (funext fun answer => ?_)
  rcases answer with error | (_ | _) <;> rfl

/-- **Under a lock, a body takes one of the courses**, and it can take each of them. -/
theorem replay_withLock_iff :
    Replay (withLock options bundle body) exchanges result ↔
      Course options bundle body exchanges result := by
  constructor
  · intro replay
    cases on : options.locking.lock with
    | false =>
      rw [withLock_of_lock_eq_false on] at replay
      exact Course.unlocked on replay
    | true =>
      rw [withLock_of_lock_eq_true on] at replay
      obtain ⟨answer, rest, rfl, onward⟩ := replay_ask_iff.1 replay
      rcases answer with error | (_ | _)
      · obtain ⟨rfl, rfl⟩ := replay_done_iff.1 onward
        exact Course.failed on error
      · obtain ⟨_, later, rfl, counted⟩ := replay_ask_iff.1 onward
        cases action : options.locking.failureAction with
        | ignoreLock =>
          rw [action] at counted
          exact Course.ignored on action counted
        | fail =>
          rw [action] at counted
          obtain ⟨rfl, rfl⟩ := replay_done_iff.1 counted
          exact Course.refused on action
      · obtain ⟨work, value, last, rfl, worked, releasing⟩ := replay_bind_iff.1 onward
        obtain ⟨answer, rest, rfl, ended⟩ := replay_ask_iff.1 releasing
        obtain ⟨rfl, rfl⟩ := replay_done_iff.1 ended
        exact Course.locked on worked answer
  · intro course
    cases course with
    | unlocked off replay => exact (withLock_of_lock_eq_false off).symm ▸ replay
    | locked on replay answer =>
      rw [withLock_of_lock_eq_true on]
      exact Replay.ask _ (replay_bind_iff.2 ⟨_, _, _, rfl, replay, Replay.ask _ (Replay.done _)⟩)
    | failed on error =>
      rw [withLock_of_lock_eq_true on]
      exact Replay.ask _ (Replay.done _)
    | refused on fails =>
      rw [withLock_of_lock_eq_true on]
      refine Replay.ask _ (Replay.ask _ ?_)
      rw [fails]
      exact Replay.done _
    | ignored on ignores replay =>
      rw [withLock_of_lock_eq_true on]
      refine Replay.ask _ (Replay.ask _ ?_)
      rw [ignores]
      exact replay

end CacheProgram

namespace CacheOperation

open CacheExchange

variable {options : CacheOptions} {operation : CacheOperation} {exchanges : List CacheExchange}
  {result : Except LoadError operation.Answer}

/-- The work of an operation keeps to its bundle, whatever it is told, and it knows all the time
which lock it holds. -/
theorem asks_body (options : CacheOptions) (operation : CacheOperation) (held : Option String) :
    (operation.body options held).Asks fun step =>
      step.held = held ∧ step.request.IsWorkOn options operation.bundle := by
  cases operation with
  | drop bundle => exact ⟨⟨rfl, rfl⟩, fun _ => trivial⟩
  | load bundle languages =>
    refine ⟨⟨rfl, rfl⟩, fun found => ?_⟩
    rcases found with error | (_ | messages)
    · exact trivial
    · refine ⟨⟨rfl, trivial⟩, fun _ => ⟨⟨rfl, rfl⟩, fun loaded => ?_⟩⟩
      rcases loaded with error | messages
      · exact trivial
      · refine ⟨⟨rfl, rfl⟩, fun stored => ?_⟩
        rcases stored with error | _ <;> exact trivial
    · exact ⟨⟨rfl, trivial⟩, fun _ => trivial⟩

/-- **What becomes of the lock** in an operation that has made these exchanges and ended with this
result. -/
structure Bracketed (options : CacheOptions) (operation : CacheOperation)
    (exchanges : List CacheExchange) (result : Except LoadError operation.Answer) : Prop where
  /-- Without locking, no lock is asked for and none is released. -/
  off : options.locking.lock = false → ∀ exchange ∈ exchanges, exchange.request.IsLockFree
  /-- With locking, the first request is for the lock of the bundle, and no other request is for a
  lock. -/
  asked : options.locking.lock = true → ∃ answer later,
    exchanges = tried options operation.bundle answer :: later ∧
      ∀ exchange ∈ later, ¬ exchange.request.AsksForLock
  /-- A lock that is acquired is released once, after everything else, and what the release answers
  changes nothing. -/
  acquired : tried options operation.bundle (.ok true) ∈ exchanges → ∃ before answer,
    exchanges = before ++ [released options operation.bundle answer] ∧
      (∀ exchange ∈ before, ¬ exchange.request.ReleasesLock) ∧
      ∀ other, Replay (operation.program options)
        (before ++ [released options operation.bundle other]) result
  /-- A lock that is not acquired is not released. -/
  unreleased : ∀ {answer}, tried options operation.bundle answer ∈ exchanges → answer ≠ .ok true →
    ∀ exchange ∈ exchanges, ¬ exchange.request.ReleasesLock
  /-- If asking for the lock fails, nothing is done, and the error is the result. -/
  failed : ∀ {error}, tried options operation.bundle (.error error) ∈ exchanges →
    (∀ exchange ∈ exchanges, ¬ exchange.request.IsWork) ∧ result = .error error
  /-- If the lock is not free in time and that is a failure, nothing is done, and the result names
  the lock and how long it was waited for. -/
  refused : tried options operation.bundle (.ok false) ∈ exchanges →
    options.locking.failureAction = .fail →
      (∀ exchange ∈ exchanges, ¬ exchange.request.IsWork) ∧
        result = .error
          (.lockTimeout (options.key operation.bundle .lock) options.locking.wait)
  /-- If the lock is not free in time and is done without, the operation goes on as without
  locking. -/
  ignored : tried options operation.bundle (.ok false) ∈ exchanges →
    options.locking.failureAction = .ignoreLock → ∃ later,
      exchanges = tried options operation.bundle (.ok false) :: timedOut :: later ∧
        Replay (operation.program options.withoutLock) later result

/-- Where no other request is for a lock, there is one answer to the request for the lock. -/
theorem eq_of_tried_mem {bundle : String} {first answer : Except LoadError Bool}
    {later : List CacheExchange} (quiet : ∀ exchange ∈ later, ¬ exchange.request.AsksForLock)
    (mem : tried options bundle answer ∈ tried options bundle first :: later) : answer = first := by
  rcases List.mem_cons.1 mem with same | mem
  · simpa [tried] using same
  · exact absurd trivial (quiet _ mem)

theorem body_withoutLock (held : Option String) :
    operation.body options.withoutLock held = operation.body options held := by
  cases operation with
  | drop bundle => rfl
  | load bundle languages =>
    refine congrArg (Interaction.ask _) (funext fun found => ?_)
    rcases found with error | (_ | messages)
    · rfl
    · refine congrArg (Interaction.ask _) (funext fun _ => congrArg (Interaction.ask _) ?_)
      funext loaded
      rcases loaded with error | messages
      · rfl
      · refine congrArg (Interaction.ask _) (funext fun stored => ?_)
        rcases stored with error | _ <;> rfl
    · rfl

/-- Without locking an operation is its body. -/
theorem program_withoutLock :
    operation.program options.withoutLock = operation.body options none := by
  rw [program_eq_withLock, CacheProgram.withLock_of_lock_eq_false rfl, body_withoutLock]

/-- **Every operation that comes to its end is bracketed**, whatever it is told.  The cases are the
courses that it can take. -/
theorem bracketed_of_replay (replay : Replay (operation.program options) exchanges result) :
    operation.Bracketed options exchanges result := by
  have course := replay
  rw [program_eq_withLock, CacheProgram.replay_withLock_iff] at course
  have lockFree {held : Option String} {work : List CacheExchange}
      (worked : Replay (operation.body options held) work result) :
      ∀ exchange ∈ work, exchange.request.IsLockFree := fun exchange mem =>
    ((asks_body options operation held).of_replay worked exchange mem).2.isLockFree
  cases course with
  | unlocked off worked =>
    have untried {answer : Except LoadError Bool} :
        tried options operation.bundle answer ∉ exchanges :=
      fun mem => (lockFree worked _ mem).1 trivial
    exact {
      off := fun _ => lockFree worked
      asked := fun on => absurd on (by simp [off])
      acquired := fun mem => absurd mem untried
      unreleased := fun mem => absurd mem untried
      failed := fun mem => absurd mem untried
      refused := fun mem => absurd mem untried
      ignored := fun mem => absurd mem untried }
  | @locked work _ on worked answer =>
    have quiet : ∀ exchange ∈ work ++ [released options operation.bundle answer],
        ¬ exchange.request.AsksForLock :=
      List.forall_mem_append.2
        ⟨fun exchange mem => (lockFree worked exchange mem).1, List.forall_mem_singleton.2 id⟩
    have unheld : ∀ exchange ∈ tried options operation.bundle (.ok true) :: work,
        ¬ exchange.request.ReleasesLock :=
      List.forall_mem_cons.2 ⟨id, fun exchange mem => (lockFree worked exchange mem).2⟩
    have again (other : Except LoadError Unit) :
        Replay (operation.program options) (tried options operation.bundle (.ok true) ::
          (work ++ [released options operation.bundle other])) result := by
      rw [program_eq_withLock, CacheProgram.replay_withLock_iff]
      exact CacheProgram.Course.locked on worked other
    exact {
      off := fun off => absurd on (by simp [off])
      asked := fun _ => ⟨.ok true, _, rfl, quiet⟩
      acquired := fun _ => ⟨_ :: work, answer, rfl, unheld, again⟩
      unreleased := fun mem different => absurd (eq_of_tried_mem quiet mem) different
      failed := fun mem => nomatch eq_of_tried_mem quiet mem
      refused := fun mem => nomatch eq_of_tried_mem quiet mem
      ignored := fun mem => nomatch eq_of_tried_mem quiet mem }
  | failed on error =>
    have quiet : ∀ exchange ∈ ([] : List CacheExchange), ¬ exchange.request.AsksForLock := by simp
    exact {
      off := fun off => absurd on (by simp [off])
      asked := fun _ => ⟨.error error, [], rfl, quiet⟩
      acquired := fun mem => nomatch eq_of_tried_mem quiet mem
      unreleased := fun _ _ => List.forall_mem_singleton.2 id
      failed := by
        intro other mem
        cases eq_of_tried_mem quiet mem
        exact ⟨List.forall_mem_singleton.2 id, rfl⟩
      refused := fun mem => nomatch eq_of_tried_mem quiet mem
      ignored := fun mem => nomatch eq_of_tried_mem quiet mem }
  | refused on fails =>
    have quiet : ∀ exchange ∈ [timedOut], ¬ exchange.request.AsksForLock :=
      List.forall_mem_singleton.2 id
    exact {
      off := fun off => absurd on (by simp [off])
      asked := fun _ => ⟨.ok false, [timedOut], rfl, quiet⟩
      acquired := fun mem => nomatch eq_of_tried_mem quiet mem
      unreleased := fun _ _ => List.forall_mem_cons.2 ⟨id, List.forall_mem_singleton.2 id⟩
      failed := fun mem => nomatch eq_of_tried_mem quiet mem
      refused := fun _ _ =>
        ⟨List.forall_mem_cons.2 ⟨id, List.forall_mem_singleton.2 id⟩, rfl⟩
      ignored := fun _ ignores => absurd (fails.symm.trans ignores) (by decide) }
  | @ignored work _ on ignores worked =>
    have quiet : ∀ exchange ∈ timedOut :: work, ¬ exchange.request.AsksForLock :=
      List.forall_mem_cons.2 ⟨id, fun exchange mem => (lockFree worked exchange mem).1⟩
    have unheld : ∀ exchange ∈ tried options operation.bundle (.ok false) :: timedOut :: work,
        ¬ exchange.request.ReleasesLock :=
      List.forall_mem_cons.2 ⟨id, List.forall_mem_cons.2
        ⟨id, fun exchange mem => (lockFree worked exchange mem).2⟩⟩
    exact {
      off := fun off => absurd on (by simp [off])
      asked := fun _ => ⟨.ok false, _, rfl, quiet⟩
      acquired := fun mem => nomatch eq_of_tried_mem quiet mem
      unreleased := fun _ _ => unheld
      failed := fun mem => nomatch eq_of_tried_mem quiet mem
      refused := fun _ fails => absurd (fails.symm.trans ignores) (by decide)
      ignored := fun _ _ => ⟨work, rfl, by rwa [program_withoutLock]⟩ }

/-- A load that finds the lock free and the cache broken: the lock is released although that fails
too, and the result is the error of the cache. -/
theorem bracketed_broken_load :
    let load : CacheOperation := .load "shop" []
    let broken : LoadError := .cache "get refused"
    let stuck : LoadError := .cache "unlock refused"
    let exchanges : List CacheExchange :=
      [tried {} "shop" (.ok true),
        ⟨⟨.get (CacheOptions.key {} "shop" .messages), some (CacheOptions.key {} "shop" .lock)⟩,
          .error broken⟩,
        released {} "shop" (.error stuck)]
    Replay (load.program {}) exchanges (.error broken) ∧
      load.Bracketed {} exchanges (.error broken) := by
  intro load broken stuck exchanges
  have replay : Replay (load.program {}) exchanges (.error broken) :=
    Replay.ask _ (Replay.ask _ (Replay.ask _ (Replay.done _)))
  exact ⟨replay, bracketed_of_replay replay⟩

end CacheOperation

/-! ## What a cached source does is a replay -/

namespace Interaction

variable {κ σ α : Type} {reply : κ → Type}

/-- A handler gives these replies to these requests, one after the other, and goes from state to
state. -/
inductive Handles (handle : (question : κ) → Loading σ (reply question)) :
    σ → List (Exchange κ reply) → σ → Prop
  | done (state : σ) : Handles handle state [] state
  | ask {question : κ} {answer : reply question} {before between after : σ}
      {exchanges : List (Exchange κ reply)}
      (replied : handle question before = (some answer, between))
      (rest : Handles handle between exchanges after) :
      Handles handle before (⟨question, answer⟩ :: exchanges) after

/-- **A run that comes to its end is a replay with the replies of the handler.**  By induction on
the interaction. -/
theorem run_eq_some_iff {handle : (question : κ) → Loading σ (reply question)}
    {program : Interaction κ reply α} {before after : σ} {result : α} :
    (program.run handle : Loading σ α) before = (some result, after) ↔
      ∃ exchanges, Replay program exchanges result ∧ Handles handle before exchanges after := by
  induction program generalizing before with
  | done value =>
    constructor
    · rintro ⟨⟩
      exact ⟨[], Replay.done _, Handles.done _⟩
    · rintro ⟨exchanges, replay, handled⟩
      obtain ⟨rfl, rfl⟩ := replay_done_iff.1 replay
      cases handled
      rfl
  | ask question next ih =>
    have step := Loading.bind_apply (handle question)
      (fun answer => Interaction.run handle (next answer)) before
    constructor
    · intro ran
      replace ran := step.symm.trans ran
      rcases replied : handle question before with ⟨_ | answer, between⟩
      · rw [replied] at ran
        cases ran
      · rw [replied] at ran
        obtain ⟨exchanges, replay, handled⟩ := (ih answer).1 ran
        exact ⟨_, Replay.ask answer replay, Handles.ask replied handled⟩
    · rintro ⟨exchanges, replay, handled⟩
      obtain ⟨answer, rest, rfl, onward⟩ := replay_ask_iff.1 replay
      refine Eq.trans step ?_
      cases handled with
      | ask replied handled =>
        rw [replied]
        exact (ih answer).2 ⟨rest, onward, handled⟩

end Interaction

namespace CacheOperation

variable {σ β : Type} [MessageSource σ] [CacheBackend β]

/-- Performs an operation on a cached source. -/
def perform : (operation : CacheOperation) →
    Loading (CachedSource σ β) (Except LoadError operation.Answer)
  | load bundle languages => CachedSource.load bundle languages
  | drop bundle => CachedSource.drop bundle

/-- An operation that is performed asks for what its program asks for, under the options of the
cached source. -/
theorem perform_apply (operation : CacheOperation) (cached : CachedSource σ β) :
    operation.perform cached =
      (Interaction.run CachedSource.handle (operation.program cached.options) :
        Loading (CachedSource σ β) _) cached := by
  have got : (get : Loading (CachedSource σ β) (CachedSource σ β)) cached =
      (some cached, cached) := rfl
  cases operation <;> exact (Loading.bind_apply get _ cached).trans (by rw [got]; rfl)

/-- **What a cached source does to perform an operation to its end** is a replay of the operation
with the replies of the backend and the source. -/
theorem perform_eq_some_iff {operation : CacheOperation} {cached after : CachedSource σ β}
    {result : Except LoadError operation.Answer} :
    operation.perform cached = (some result, after) ↔
      ∃ exchanges, Replay (operation.program cached.options) exchanges result ∧
        Interaction.Handles CachedSource.handle cached exchanges after := by
  rw [perform_apply]
  exact Interaction.run_eq_some_iff

end CacheOperation

end Phrasebook
