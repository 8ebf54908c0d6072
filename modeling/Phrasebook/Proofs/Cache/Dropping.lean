import Mathlib.Logic.Function.Basic
import Phrasebook.Proofs.Cache.Bracket

/-!
# Locks of operations that are dropped

Any number of operations of cached sources are under way at the same time, over a backend whose
named locks are exclusive: a lock is acquired only while nobody holds it.  All other replies are
left open.  An operation may be dropped wherever it waits for a reply.  If it counts as holding its
lock there, it owes a release, which is made later on its behalf.

A release takes two steps: the backend carries it out, and later it replies.  In between the
operation still counts as holding its lock.  So an operation that is dropped *late*, between its
release and the reply to it, owes a second release, and that one takes the lock from whoever has
acquired it meanwhile (`Borrowers.late_release`).  This is the only way in which a release is made
too often, and none is ever missing.

What has happened is a list of deeds, the first one first.

## Main definitions

- `Borrower` is an operation under way, and `Borrowers` all of them with the holders of the locks.
- `Borrowers.Step` is what can happen next, and `Borrowers.Run` what can have happened so far.
- `acquisitions` and `releases` are the locks that were acquired by an operation and released on its
  behalf.

## Main statements

- `Borrowers.Run.locks_released`: what is released on behalf of an operation is what it has
  acquired, once, or twice if it was dropped late.  As long as nobody who needs a lock is dropped
  late, every release of it takes it from the operation on whose behalf it is made, or from nobody.
- `Borrowers.late_release`: an operation that is dropped late takes the lock from another one.
-/

namespace Phrasebook

/-! ## What is left of an operation -/

namespace CacheProgram

variable {α β : Type} {lock : String}

/-- What is left of an operation holds no lock and asks for none. -/
def Idle (program : CacheProgram α) : Prop :=
  program.Asks fun step => step.held = none ∧ step.request.IsLockFree

/-- What is left of an operation holds a lock, has only lock-free work to do until it releases it,
and is done then. -/
inductive Holding (lock : String) : CacheProgram α → Prop
  | unlock {next : Except LoadError Unit → CacheProgram α} (result : α)
      (onward : ∀ answer, next answer = Interaction.done result) :
      Holding lock (Interaction.ask ⟨.unlock lock, some lock⟩ next)
  | work {step : CacheStep} {next : step.Reply → CacheProgram α}
      (free : step.request.IsLockFree) (held : step.held = some lock)
      (onward : ∀ answer, Holding lock (next answer)) : Holding lock (Interaction.ask step next)

/-- Work under a lock, followed by the release. -/
theorem holding_bind {program : CacheProgram α} {next : α → CacheProgram β}
    (work : program.Asks fun step => step.held = some lock ∧ step.request.IsLockFree)
    (onward : ∀ result, Holding lock (next result)) : Holding lock (program >>= next) := by
  induction program with
  | done result => exact onward result
  | ask step rest ih =>
    exact Holding.work work.1.2 work.1.1 fun answer => ih answer (work.2 answer)

end CacheProgram

open CacheProgram (Idle Holding)

/-! ## What can happen -/

/-- An operation under way that may be dropped. -/
structure Borrower where
  options : CacheOptions
  operation : CacheOperation
  rest : CacheProgram (Except LoadError operation.Answer)
  /-- The release that the operation asks for has been made. -/
  unlocked : Bool := false
  dropped : Bool := false
  /-- The lock that is still to be released on behalf of the operation, which has been dropped. -/
  owed : Option String := none

namespace Borrower

/-- An operation that has not begun to ask. -/
def start (options : CacheOptions) (operation : CacheOperation) : Borrower :=
  { options, operation, rest := operation.program options }

/-- The lock of an operation. -/
def lock (borrower : Borrower) : String := borrower.options.key borrower.operation.bundle .lock

/-- The operation was dropped between its release and the reply to it. -/
def isLate (borrower : Borrower) : Bool := borrower.dropped && borrower.unlocked

/-- The operation has come to its end or was dropped, and nothing is left to be released on its
behalf. -/
def IsOver (borrower : Borrower) : Prop :=
  ((∃ result, borrower.rest = Interaction.done result) ∨ borrower.dropped = true) ∧
    borrower.owed = none

end Borrower

/-- Something has been done to a lock, or an operation was dropped. -/
inductive Deed (ι : Type) where
  | acquired (who : ι) (name : String)
  /-- A release was made on behalf of somebody.  It has taken the lock from somebody, or from nobody
  if it was refused or the lock was free. -/
  | released (who : ι) (name : String) (loser : Option ι)
  | dropped (who : ι)

section Deeds

variable {ι : Type} [DecidableEq ι]

/-- The lock that an operation acquires by a deed. -/
def Deed.acquisition? (i : ι) : Deed ι → Option String
  | acquired who name => if who = i then some name else none
  | _ => none

/-- The lock that is released by a deed on behalf of an operation. -/
def Deed.release? (i : ι) : Deed ι → Option String
  | released who name _ => if who = i then some name else none
  | _ => none

/-- The locks that an operation has acquired. -/
def acquisitions (i : ι) (log : List (Deed ι)) : List String := log.filterMap (Deed.acquisition? i)

/-- The locks that were released on behalf of an operation. -/
def releases (i : ι) (log : List (Deed ι)) : List String := log.filterMap (Deed.release? i)

end Deeds

/-- Operations under way, with the holders of the named locks. -/
structure Borrowers (ι : Type) where
  borrower : ι → Borrower
  holder : String → Option ι

namespace Borrowers

variable {ι : Type} [DecidableEq ι]

/-- One of the operations has come further, and the locks have changed hands. -/
def advance (borrowers : Borrowers ι) (i : ι) (borrower : Borrower) (holder : String → Option ι) :
    Borrowers ι :=
  ⟨Function.update borrowers.borrower i borrower, holder⟩

/-- What a release does: it takes the lock from its holder, or it is refused. -/
inductive Release (holder : String → Option ι) (name : String) :
    Option ι → (String → Option ι) → Prop
  | carriedOut : Release holder name (holder name) (Function.update holder name none)
  | refused : Release holder name none holder

omit [DecidableEq ι] in
theorem Release.of_holder {holder : String → Option ι} {name : String} {loser : Option ι}
    (holds : holder name = loser) :
    Release holder name loser (Function.update holder name none) :=
  holds ▸ .carriedOut

/-- **What can happen next**, with the deed that is done, if any. -/
inductive Step (borrowers : Borrowers ι) : Option (Deed ι) → Borrowers ι → Prop
  /-- A lock that nobody holds is acquired. -/
  | acquire (i : ι) {name : String} {wait : Duration} {held : Option String}
      {next : Except LoadError Bool →
        CacheProgram (Except LoadError (borrowers.borrower i).operation.Answer)}
      (here : (borrowers.borrower i).rest = Interaction.ask ⟨.tryLock name wait, held⟩ next)
      (present : (borrowers.borrower i).dropped = false) (free : borrowers.holder name = none) :
      Step borrowers (some (.acquired i name))
        (borrowers.advance i { borrowers.borrower i with rest := next (.ok true) }
          (Function.update borrowers.holder name (some i)))
  /-- A lock is not acquired. -/
  | refuse (i : ι) {name : String} {wait : Duration} {held : Option String}
      {next : Except LoadError Bool →
        CacheProgram (Except LoadError (borrowers.borrower i).operation.Answer)}
      {answer : Except LoadError Bool}
      (here : (borrowers.borrower i).rest = Interaction.ask ⟨.tryLock name wait, held⟩ next)
      (present : (borrowers.borrower i).dropped = false) (refused : answer ≠ .ok true) :
      Step borrowers none
        (borrowers.advance i { borrowers.borrower i with rest := next answer } borrowers.holder)
  /-- Any other request is replied to. -/
  | work (i : ι) {step : CacheStep}
      {next : step.Reply → CacheProgram (Except LoadError (borrowers.borrower i).operation.Answer)}
      (here : (borrowers.borrower i).rest = Interaction.ask step next)
      (present : (borrowers.borrower i).dropped = false) (free : step.request.IsLockFree)
      (answer : step.Reply) :
      Step borrowers none
        (borrowers.advance i { borrowers.borrower i with rest := next answer } borrowers.holder)
  /-- A release is carried out or refused. -/
  | release (i : ι) {name : String} {held : Option String}
      {next : Except LoadError Unit →
        CacheProgram (Except LoadError (borrowers.borrower i).operation.Answer)}
      {loser : Option ι} {holder : String → Option ι}
      (here : (borrowers.borrower i).rest = Interaction.ask ⟨.unlock name, held⟩ next)
      (present : (borrowers.borrower i).dropped = false)
      (before : (borrowers.borrower i).unlocked = false)
      (release : Release borrowers.holder name loser holder) :
      Step borrowers (some (.released i name loser))
        (borrowers.advance i { borrowers.borrower i with unlocked := true } holder)
  /-- The backend replies to a release. -/
  | resume (i : ι) {name : String} {held : Option String}
      {next : Except LoadError Unit →
        CacheProgram (Except LoadError (borrowers.borrower i).operation.Answer)}
      (here : (borrowers.borrower i).rest = Interaction.ask ⟨.unlock name, held⟩ next)
      (present : (borrowers.borrower i).dropped = false)
      (behind : (borrowers.borrower i).unlocked = true) (answer : Except LoadError Unit) :
      Step borrowers none
        (borrowers.advance i { borrowers.borrower i with rest := next answer } borrowers.holder)
  /-- An operation is dropped.  If it counts as holding a lock, it owes a release. -/
  | drop (i : ι) {step : CacheStep}
      {next : step.Reply → CacheProgram (Except LoadError (borrowers.borrower i).operation.Answer)}
      (here : (borrowers.borrower i).rest = Interaction.ask step next)
      (present : (borrowers.borrower i).dropped = false) :
      Step borrowers (some (.dropped i))
        (borrowers.advance i { borrowers.borrower i with dropped := true, owed := step.held }
          borrowers.holder)
  /-- A release that is owed is carried out or refused. -/
  | settle (i : ι) {name : String} {loser : Option ι} {holder : String → Option ι}
      (owed : (borrowers.borrower i).owed = some name)
      (release : Release borrowers.holder name loser holder) :
      Step borrowers (some (.released i name loser))
        (borrowers.advance i { borrowers.borrower i with owed := none } holder)

/-- **What can have happened so far.**  At first nobody holds a lock. -/
inductive Run : List (Deed ι) → Borrowers ι → Prop
  | start (begun : ι → CacheOptions × CacheOperation) :
      Run [] ⟨fun i => Borrower.start (begun i).1 (begun i).2, fun _ => none⟩
  | step {log : List (Deed ι)} {deed : Option (Deed ι)} {borrowers after : Borrowers ι}
      (before : Run log borrowers) (step : Step borrowers deed after) :
      Run (log ++ deed.toList) after

/-- Nobody who needs a lock was dropped late. -/
def Undelayed (borrowers : Borrowers ι) (name : String) : Prop :=
  ∀ i, (borrowers.borrower i).lock = name → (borrowers.borrower i).isLate = false

/-- **How the locks have been released.** -/
structure Orderly (log : List (Deed ι)) (borrowers : Borrowers ι) : Prop where
  /-- An operation acquires its own lock, and this at most once. -/
  acquired : ∀ i, acquisitions i log = [] ∨ acquisitions i log = [(borrowers.borrower i).lock]
  /-- Nothing is released on its behalf but what it has acquired before, and not more often, unless
  it was dropped late. -/
  within : ∀ i, (borrowers.borrower i).isLate = false → releases i log <+: acquisitions i log
  /-- When it is over, what it has acquired was released once, unless it was dropped late. -/
  once : ∀ i, (borrowers.borrower i).IsOver → (borrowers.borrower i).isLate = false →
    releases i log = acquisitions i log
  /-- If it was dropped late, its lock was released twice. -/
  twice : ∀ i, (borrowers.borrower i).IsOver → (borrowers.borrower i).isLate = true →
    acquisitions i log = [(borrowers.borrower i).lock] ∧
      releases i log = [(borrowers.borrower i).lock, (borrowers.borrower i).lock]
  /-- If nobody who needs a lock was dropped late, then a release takes the lock from the operation
  on whose behalf it is made, or from nobody. -/
  own : ∀ {name}, borrowers.Undelayed name →
    ∀ {who loser}, .released who name loser ∈ log → loser = none ∨ loser = some who

end Borrowers

/-! ## Where an operation stands -/

namespace CacheOperation

/-- The work of an operation under a lock. -/
theorem asks_body_held (options : CacheOptions) (operation : CacheOperation)
    (held : Option String) :
    (operation.body options held).Asks fun step => step.held = held ∧ step.request.IsLockFree :=
  (asks_body options operation held).mono fun _ work => ⟨work.1, work.2.isLockFree⟩

end CacheOperation

namespace Borrower

variable {borrower : Borrower} {acquired released : List String} {name : String} {wait : Duration}
  {held : Option String}

/-- **Where an operation stands**, in terms of the locks that it has acquired and that were released
on its behalf. -/
inductive Standing (borrower : Borrower) : List String → List String → Prop
  /-- It asks for its lock. -/
  | asking {wait : Duration}
      {next : Except LoadError Bool → CacheProgram (Except LoadError borrower.operation.Answer)}
      (here : borrower.rest = Interaction.ask ⟨.tryLock borrower.lock wait, none⟩ next)
      (locked : Holding borrower.lock (next (.ok true)))
      (refused : ∀ {answer}, answer ≠ .ok true → Idle (next answer))
      (unlocked : borrower.unlocked = false) (owed : borrower.owed = none) : Standing borrower [] []
  /-- It does without a lock. -/
  | idle (idle : Idle borrower.rest) (unlocked : borrower.unlocked = false)
      (owed : borrower.owed = none) : Standing borrower [] []
  /-- It holds its lock. -/
  | holding (holding : Holding borrower.lock borrower.rest) (present : borrower.dropped = false)
      (unlocked : borrower.unlocked = false) (owed : borrower.owed = none) :
      Standing borrower [borrower.lock] []
  /-- Its lock is released, and it waits for the reply. -/
  | leaving
      {next : Except LoadError Unit → CacheProgram (Except LoadError borrower.operation.Answer)}
      {result : Except LoadError borrower.operation.Answer}
      (here : borrower.rest = Interaction.ask ⟨.unlock borrower.lock, some borrower.lock⟩ next)
      (onward : ∀ answer, next answer = Interaction.done result)
      (present : borrower.dropped = false) (unlocked : borrower.unlocked = true)
      (owed : borrower.owed = none) : Standing borrower [borrower.lock] [borrower.lock]
  /-- It has come to its end after its lock was released. -/
  | left {result : Except LoadError borrower.operation.Answer}
      (here : borrower.rest = Interaction.done result) (present : borrower.dropped = false)
      (unlocked : borrower.unlocked = true) (owed : borrower.owed = none) :
      Standing borrower [borrower.lock] [borrower.lock]
  /-- It was dropped and owes a release. -/
  | owing {released : List String} (dropped : borrower.dropped = true)
      (owed : borrower.owed = some borrower.lock)
      (before : released = if borrower.unlocked then [borrower.lock] else []) :
      Standing borrower [borrower.lock] released
  /-- It was dropped, and what it owed is released. -/
  | settled {released : List String} (dropped : borrower.dropped = true)
      (owed : borrower.owed = none)
      (before : released = if borrower.unlocked then [borrower.lock] else []) :
      Standing borrower [borrower.lock] (released ++ [borrower.lock])

/-- **How an operation begins.** -/
theorem standing_start (options : CacheOptions) (operation : CacheOperation) :
    (start options operation).Standing [] [] := by
  have bare : Idle (operation.body options none) := operation.asks_body_held options none
  have program := operation.program_eq_withLock options
  cases on : options.locking.lock with
  | false =>
    rw [CacheProgram.withLock_of_lock_eq_false on] at program
    refine .idle ?_ rfl rfl
    rwa [start, program]
  | true =>
    rw [CacheProgram.withLock_of_lock_eq_true on] at program
    refine .asking program ?_ ?_ rfl rfl
    · exact CacheProgram.holding_bind (operation.asks_body_held options _)
        fun result => .unlock result fun _ => rfl
    · intro answer refused
      rcases answer with error | (_ | _)
      · trivial
      · refine ⟨⟨rfl, id, id⟩, fun _ => ?_⟩
        dsimp only
        split
        · exact bare
        · trivial
      · exact absurd rfl refused

/-- Where an operation stands that asks for a lock. -/
theorem Standing.of_asking (standing : borrower.Standing acquired released)
    {next : Except LoadError Bool → CacheProgram (Except LoadError borrower.operation.Answer)}
    (here : borrower.rest = Interaction.ask ⟨.tryLock name wait, held⟩ next)
    (present : borrower.dropped = false) :
    (acquired = [] ∧ released = [] ∧ name = borrower.lock) ∧
      Holding borrower.lock (next (.ok true)) ∧
        (∀ {answer}, answer ≠ .ok true → Idle (next answer)) ∧
          borrower.unlocked = false ∧ borrower.owed = none := by
  cases standing with
  | asking asks locked refused unlocked owed =>
    cases asks.symm.trans here
    exact ⟨⟨rfl, rfl, rfl⟩, locked, refused, unlocked, owed⟩
  | idle idle =>
    rw [here] at idle
    exact absurd trivial idle.1.2.1
  | holding holding =>
    rw [here] at holding
    cases holding with
    | work free => exact absurd trivial free.1
  | leaving asks => cases asks.symm.trans here
  | left ended => cases ended.symm.trans here
  | owing dropped => cases present.symm.trans dropped
  | settled dropped => cases present.symm.trans dropped

/-- Where an operation stands that releases a lock. -/
theorem Standing.of_releasing (standing : borrower.Standing acquired released)
    {next : Except LoadError Unit → CacheProgram (Except LoadError borrower.operation.Answer)}
    (here : borrower.rest = Interaction.ask ⟨.unlock name, held⟩ next)
    (present : borrower.dropped = false) :
    (acquired = [borrower.lock] ∧ released = (if borrower.unlocked then [borrower.lock] else []) ∧
      name = borrower.lock ∧ held = some borrower.lock) ∧
        (∃ result, ∀ answer, next answer = Interaction.done result) ∧ borrower.owed = none := by
  cases standing with
  | asking asks => cases asks.symm.trans here
  | idle idle =>
    rw [here] at idle
    exact absurd trivial idle.1.2.2
  | holding holding _ unlocked owed =>
    rw [here] at holding
    cases holding with
    | unlock result onward => exact ⟨⟨rfl, by simp [unlocked], rfl, rfl⟩, ⟨result, onward⟩, owed⟩
    | work free => exact absurd trivial free.2
  | leaving asks onward _ unlocked owed =>
    cases asks.symm.trans here
    exact ⟨⟨rfl, by simp [unlocked], rfl, rfl⟩, ⟨_, onward⟩, owed⟩
  | left ended => cases ended.symm.trans here
  | owing dropped => cases present.symm.trans dropped
  | settled dropped => cases present.symm.trans dropped

/-- A lock-free reply changes nothing about locks. -/
theorem Standing.work (standing : borrower.Standing acquired released) {step : CacheStep}
    {next : step.Reply → CacheProgram (Except LoadError borrower.operation.Answer)}
    (here : borrower.rest = Interaction.ask step next) (present : borrower.dropped = false)
    (free : step.request.IsLockFree) (answer : step.Reply) :
    Standing { borrower with rest := next answer } acquired released := by
  cases standing with
  | asking asks =>
    cases asks.symm.trans here
    exact absurd trivial free.1
  | idle idle unlocked owed =>
    rw [here] at idle
    exact .idle (idle.2 answer) unlocked owed
  | holding holding _ unlocked owed =>
    rw [here] at holding
    cases holding with
    | unlock => exact absurd trivial free.2
    | work _ _ onward => exact .holding (onward answer) present unlocked owed
  | leaving asks =>
    cases asks.symm.trans here
    exact absurd trivial free.2
  | left ended => cases ended.symm.trans here
  | owing dropped => cases present.symm.trans dropped
  | settled dropped => cases present.symm.trans dropped

/-- An operation that is dropped owes the release of the lock that it counts as holding. -/
theorem Standing.drop (standing : borrower.Standing acquired released) {step : CacheStep}
    {next : step.Reply → CacheProgram (Except LoadError borrower.operation.Answer)}
    (here : borrower.rest = Interaction.ask step next) (present : borrower.dropped = false) :
    Standing { borrower with dropped := true, owed := step.held } acquired released := by
  cases standing with
  | asking asks locked refused unlocked owed =>
    cases asks.symm.trans here
    exact .asking asks locked refused unlocked rfl
  | idle idle unlocked owed =>
    have bare := idle
    rw [here] at bare
    exact .idle idle unlocked bare.1.1
  | holding holding _ unlocked owed =>
    have owes : step.held = some borrower.lock := by
      rw [here] at holding
      cases holding with
      | unlock => rfl
      | work _ held => exact held
    exact .owing rfl owes (if_neg (Bool.eq_false_iff.1 unlocked)).symm
  | leaving asks _ _ unlocked owed =>
    -- the release has been made, but it counts as holding the lock until the reply
    cases asks.symm.trans here
    exact .owing rfl rfl (if_pos unlocked).symm
  | left ended => cases ended.symm.trans here
  | owing dropped => cases present.symm.trans dropped
  | settled dropped => cases present.symm.trans dropped

/-- Where an operation stands that owes a release. -/
theorem Standing.of_owing (standing : borrower.Standing acquired released)
    (owed : borrower.owed = some name) :
    (acquired = [borrower.lock] ∧ released = (if borrower.unlocked then [borrower.lock] else []) ∧
      name = borrower.lock) ∧ borrower.dropped = true := by
  cases standing with
  | owing dropped owes before =>
    cases owes.symm.trans owed
    exact ⟨⟨rfl, before, rfl⟩, dropped⟩
  | asking _ _ _ _ nothing => cases nothing.symm.trans owed
  | idle _ _ nothing => cases nothing.symm.trans owed
  | holding _ _ _ nothing => cases nothing.symm.trans owed
  | leaving _ _ _ _ nothing => cases nothing.symm.trans owed
  | left _ _ _ nothing => cases nothing.symm.trans owed
  | settled _ nothing => cases nothing.symm.trans owed

theorem isLate_of_present (present : borrower.dropped = false) : borrower.isLate = false := by
  rw [isLate, present, Bool.false_and]

theorem Standing.acquired_eq (standing : borrower.Standing acquired released) :
    acquired = [] ∨ acquired = [borrower.lock] := by
  cases standing with
  | asking | idle => exact Or.inl rfl
  | _ => exact Or.inr rfl

/-- Where nothing was released before an operation was dropped. -/
theorem unlocked_eq_false (dropped : borrower.dropped = true) (punctual : borrower.isLate = false) :
    borrower.unlocked = false := by
  rwa [isLate, dropped, Bool.true_and] at punctual

/-- A lock that is acquired is released once at most, unless the operation was dropped late. -/
theorem Standing.released_within (standing : borrower.Standing acquired released)
    (punctual : borrower.isLate = false) : released <+: acquired := by
  cases standing with
  | asking | idle | leaving | left => exact List.prefix_rfl
  | holding => exact List.nil_prefix
  | owing dropped _ before =>
    rw [before, unlocked_eq_false dropped punctual]
    exact List.nil_prefix
  | settled dropped _ before =>
    rw [before, unlocked_eq_false dropped punctual]
    exact List.prefix_rfl

/-- An operation that holds its lock is not over. -/
theorem not_isOver_of_ask {step : CacheStep}
    {next : step.Reply → CacheProgram (Except LoadError borrower.operation.Answer)}
    (here : borrower.rest = Interaction.ask step next) (present : borrower.dropped = false) :
    ¬ borrower.IsOver := by
  rintro ⟨⟨result, ended⟩ | dropped, -⟩
  · cases here.symm.trans ended
  · cases present.symm.trans dropped

/-- What has become of the lock of an operation that is over. -/
theorem Standing.of_isOver (standing : borrower.Standing acquired released)
    (isOver : borrower.IsOver) :
    (borrower.isLate = false → released = acquired) ∧
      (borrower.isLate = true →
        acquired = [borrower.lock] ∧ released = [borrower.lock, borrower.lock]) := by
  cases standing with
  | asking _ _ _ unlocked => exact ⟨fun _ => rfl, by simp [isLate, unlocked]⟩
  | idle _ unlocked => exact ⟨fun _ => rfl, by simp [isLate, unlocked]⟩
  | holding holding present =>
    cases here : borrower.rest with
    | done result =>
      rw [here] at holding
      cases holding
    | ask step next => exact absurd isOver (not_isOver_of_ask here present)
  | leaving here _ present => exact absurd isOver (not_isOver_of_ask here present)
  | left _ present => exact ⟨fun _ => rfl, by simp [isLate_of_present present]⟩
  | owing _ owed => cases owed.symm.trans isOver.2
  | settled dropped _ before =>
    rw [isLate, dropped, Bool.true_and, before]
    cases borrower.unlocked <;> simp

end Borrower

/-! ## What every run keeps up -/

section Deeds

variable {ι : Type} [DecidableEq ι] {i j : ι} {log : List (Deed ι)} {deed : Option (Deed ι)}
  {name : String} {loser : Option ι}

/-- Who has done something, or on whose behalf it was done. -/
def Deed.who : Deed ι → ι
  | acquired who _ => who
  | released who _ _ => who
  | dropped who => who

theorem acquisitions_concat (i : ι) (log : List (Deed ι)) (deed : Deed ι) :
    acquisitions i (log ++ [deed]) = acquisitions i log ++ (deed.acquisition? i).toList := by
  rw [acquisitions, List.filterMap_append, List.filterMap_cons]
  cases deed.acquisition? i <;> rfl

theorem releases_concat (i : ι) (log : List (Deed ι)) (deed : Deed ι) :
    releases i (log ++ [deed]) = releases i log ++ (deed.release? i).toList := by
  rw [releases, List.filterMap_append, List.filterMap_cons]
  cases deed.release? i <;> rfl

@[simp]
theorem acquisitions_acquired :
    acquisitions i (log ++ [.acquired i name]) = acquisitions i log ++ [name] := by
  simp [acquisitions_concat, Deed.acquisition?]

@[simp]
theorem releases_acquired : releases i (log ++ [.acquired j name]) = releases i log := by
  simp [releases_concat, Deed.release?]

@[simp]
theorem acquisitions_released :
    acquisitions i (log ++ [.released j name loser]) = acquisitions i log := by
  simp [acquisitions_concat, Deed.acquisition?]

@[simp]
theorem releases_released :
    releases i (log ++ [.released i name loser]) = releases i log ++ [name] := by
  simp [releases_concat, Deed.release?]

@[simp]
theorem acquisitions_dropped : acquisitions i (log ++ [.dropped j]) = acquisitions i log := by
  simp [acquisitions_concat, Deed.acquisition?]

@[simp]
theorem releases_dropped : releases i (log ++ [.dropped j]) = releases i log := by
  simp [releases_concat, Deed.release?]

/-- What others do is neither acquired by an operation nor released on its behalf. -/
theorem acquisitions_of_others (others : ∀ done ∈ deed, done.who ≠ i) :
    acquisitions i (log ++ deed.toList) = acquisitions i log := by
  rcases deed with _ | (⟨who, name⟩ | _ | _)
  · simp
  · have other : who ≠ i := others _ rfl
    simp [acquisitions_concat, Deed.acquisition?, other]
  · exact acquisitions_released
  · exact acquisitions_dropped

theorem releases_of_others (others : ∀ done ∈ deed, done.who ≠ i) :
    releases i (log ++ deed.toList) = releases i log := by
  rcases deed with _ | (_ | ⟨who, name, loser⟩ | _)
  · simp
  · exact releases_acquired
  · have other : who ≠ i := others _ rfl
    simp [releases_concat, Deed.release?, other]
  · exact releases_dropped

end Deeds

namespace Borrowers

variable {ι : Type} [DecidableEq ι] {log : List (Deed ι)} {borrowers after : Borrowers ι}
  {deed : Option (Deed ι)} {i : ι} {borrower : Borrower} {name other : String}
  {holder changed : String → Option ι} {loser : Option ι}

/-- **The holder of a lock is who has acquired it** and on whose behalf it was not released since,
and every release has taken it from the operation on whose behalf it was made, or from nobody. -/
structure Custody (log : List (Deed ι)) (holder : String → Option ι) (name : String) : Prop where
  holds : ∀ {i}, acquisitions i log = [name] → releases i log = [] → holder name = some i
  own : ∀ {who loser}, .released who name loser ∈ log → loser = none ∨ loser = some who

/-- A lock that nobody holds is acquired. -/
theorem Custody.acquire (custody : Custody log holder other) (free : holder name = none)
    (first : acquisitions i log = []) :
    Custody (log ++ [.acquired i name]) (Function.update holder name (some i)) other where
  holds {j} acquired unreleased := by
    rw [releases_acquired] at unreleased
    by_cases same : i = j
    · subst same
      obtain rfl : name = other := by simpa [first] using acquired
      exact Function.update_self ..
    · have held : holder other = some j := by
        refine custody.holds ?_ unreleased
        simpa [acquisitions_concat, Deed.acquisition?, same] using acquired
      have apart : other ≠ name := by
        rintro rfl
        cases free.symm.trans held
      rwa [Function.update_of_ne apart]
  own mem := by
    rcases List.mem_append.1 mem with mem | mem
    · exact custody.own mem
    · cases List.mem_singleton.1 mem

/-- A lock is released on behalf of its holder. -/
theorem Custody.release (custody : Custody log holder other)
    (release : Release holder name loser changed)
    (first : name = other → holder name = some i) :
    Custody (log ++ [.released i name loser]) changed other where
  holds {j} acquired unreleased := by
    rw [releases_concat] at unreleased
    obtain ⟨unreleased, notNow⟩ := List.append_eq_nil_iff.1 unreleased
    -- nothing was released on behalf of `j`, not even now
    have apart : i ≠ j := by
      rintro rfl
      simp [Deed.release?] at notNow
    have held : holder other = some j :=
      custody.holds (acquisitions_released.symm.trans acquired) unreleased
    cases release with
    | refused => exact held
    | carriedOut =>
      have different : other ≠ name := by
        rintro rfl
        exact apart (Option.some.inj ((first rfl).symm.trans held))
      rwa [Function.update_of_ne different]
  own mem := by
    rcases List.mem_append.1 mem with mem | mem
    · exact custody.own mem
    · cases List.mem_singleton.1 mem
      cases release with
      | refused => exact Or.inl rfl
      | carriedOut => exact Or.inr (first rfl)

/-- Nothing is done to a lock. -/
theorem Custody.stay (custody : Custody log holder name)
    (others : ∀ done ∈ deed, ∃ i, done = .dropped i) :
    Custody (log ++ deed.toList) holder name := by
  cases deed with
  | none => rwa [Option.toList_none, List.append_nil]
  | some done =>
    obtain ⟨_, rfl⟩ := others done rfl
    constructor
    · intro j acquired unreleased
      exact custody.holds (acquisitions_dropped.symm.trans acquired)
        (releases_dropped.symm.trans unreleased)
    · intro who loser mem
      rcases List.mem_append.1 mem with mem | mem
      · exact custody.own mem
      · cases List.mem_singleton.1 mem

/-- **What every run keeps up.** -/
structure Kept (log : List (Deed ι)) (borrowers : Borrowers ι) : Prop where
  standing : ∀ i, (borrowers.borrower i).Standing (acquisitions i log) (releases i log)
  custody : ∀ {name}, borrowers.Undelayed name → Custody log borrowers.holder name

theorem kept_start (begun : ι → CacheOptions × CacheOperation) :
    Kept [] ⟨fun i => Borrower.start (begun i).1 (begun i).2, fun _ => none⟩ where
  standing _ := Borrower.standing_start _ _
  custody _ := ⟨nofun, nofun⟩

@[simp]
theorem borrower_advance_self : (borrowers.advance i borrower holder).borrower i = borrower := by
  simp [advance]

theorem borrower_advance_of_ne {j : ι} (other : j ≠ i) :
    (borrowers.advance i borrower holder).borrower j = borrowers.borrower j := by
  simp [advance, other]

/-- Whoever was dropped late remains so. -/
theorem Undelayed.of_advance (lock : borrower.lock = (borrowers.borrower i).lock)
    (late : borrower.isLate = false → (borrowers.borrower i).isLate = false)
    (undelayed : (borrowers.advance i borrower holder).Undelayed name) :
    borrowers.Undelayed name := by
  intro j needs
  have delay := undelayed j
  by_cases same : j = i
  · subst same
    rw [borrower_advance_self] at delay
    exact late (delay (lock.trans needs))
  · rw [borrower_advance_of_ne same] at delay
    exact delay needs

/-- **One operation comes further.**  The others stand where they stood. -/
theorem Kept.advance (kept : Kept log borrowers) (mine : ∀ done ∈ deed, done.who = i)
    (lock : borrower.lock = (borrowers.borrower i).lock)
    (late : borrower.isLate = false → (borrowers.borrower i).isLate = false)
    (standing : borrower.Standing (acquisitions i (log ++ deed.toList))
      (releases i (log ++ deed.toList)))
    (custody : ∀ {name}, borrowers.Undelayed name → Custody log borrowers.holder name →
      Custody (log ++ deed.toList) holder name) :
    Kept (log ++ deed.toList) (borrowers.advance i borrower holder) where
  standing j := by
    by_cases same : j = i
    · subst same
      rwa [borrower_advance_self]
    · have others : ∀ done ∈ deed, done.who ≠ j := fun done mem =>
        (mine done mem).symm ▸ Ne.symm same
      rw [borrower_advance_of_ne same, acquisitions_of_others others, releases_of_others others]
      exact kept.standing j
  custody undelayed := by
    have before := undelayed.of_advance lock late
    exact custody before (kept.custody before)

/-- **A lock is released on behalf of an operation.** -/
theorem Kept.release (kept : Kept log borrowers)
    (lock : borrower.lock = (borrowers.borrower i).lock)
    (late : borrower.isLate = false → (borrowers.borrower i).isLate = false)
    (acquired : acquisitions i log = [(borrowers.borrower i).lock])
    (before : (borrowers.borrower i).isLate = false → releases i log = [])
    (release : Release borrowers.holder (borrowers.borrower i).lock loser holder)
    (standing : borrower.Standing [borrower.lock] (releases i log ++ [borrower.lock])) :
    Kept (log ++ [.released i (borrowers.borrower i).lock loser])
      (borrowers.advance i borrower holder) := by
  show Kept (log ++ (some (Deed.released i (borrowers.borrower i).lock loser)).toList) _
  refine kept.advance (by rintro _ ⟨⟩; rfl) lock late ?_ ?_
  · rw [Option.toList_some, acquisitions_released, releases_released, acquired, ← lock]
    exact standing
  · intro name undelayed custody
    refine custody.release release ?_
    rintro rfl
    exact custody.holds acquired (before (undelayed i rfl))

/-- **Every step keeps it up.** -/
theorem Kept.step (kept : Kept log borrowers) (step : Step borrowers deed after) :
    Kept (log ++ deed.toList) after := by
  cases step with
  | @acquire i name wait held next here present free =>
    obtain ⟨⟨acquired, released, rfl⟩, locked, -, unlocked, owed⟩ :=
      (kept.standing i).of_asking here present
    refine kept.advance (by rintro _ ⟨⟩; rfl) rfl id ?_ fun _ custody =>
      custody.acquire free acquired
    rw [Option.toList_some, acquisitions_acquired, releases_acquired, acquired, released]
    exact .holding locked present unlocked owed
  | @refuse i name wait held next answer here present refused =>
    obtain ⟨⟨acquired, released, rfl⟩, -, idle, unlocked, owed⟩ :=
      (kept.standing i).of_asking here present
    refine kept.advance nofun rfl id ?_ fun _ custody => custody.stay nofun
    rw [Option.toList_none, List.append_nil, acquired, released]
    exact .idle (idle refused) unlocked owed
  | @work i step next here present free answer =>
    refine kept.advance nofun rfl id ?_ fun _ custody => custody.stay nofun
    rw [Option.toList_none, List.append_nil]
    exact (kept.standing i).work here present free answer
  | @release i name held next loser holder here present before release =>
    obtain ⟨⟨acquired, released, rfl, rfl⟩, ⟨result, onward⟩, owed⟩ :=
      (kept.standing i).of_releasing here present
    rw [if_neg (Bool.eq_false_iff.1 before)] at released
    refine kept.release rfl (fun _ => Borrower.isLate_of_present present) acquired
      (fun _ => released) release ?_
    rw [released]
    exact .leaving here onward present rfl owed
  | @resume i name held next here present behind answer =>
    obtain ⟨⟨acquired, released, rfl, rfl⟩, ⟨result, onward⟩, owed⟩ :=
      (kept.standing i).of_releasing here present
    rw [if_pos behind] at released
    refine kept.advance nofun rfl id ?_ fun _ custody => custody.stay nofun
    rw [Option.toList_none, List.append_nil, acquired, released]
    exact .left (onward answer) present behind owed
  | @drop i step next here present =>
    refine kept.advance (by rintro _ ⟨⟩; rfl) rfl (fun _ => Borrower.isLate_of_present present) ?_
      fun _ custody => custody.stay (by rintro _ ⟨⟩; exact ⟨i, rfl⟩)
    rw [Option.toList_some, acquisitions_dropped, releases_dropped]
    exact (kept.standing i).drop here present
  | @settle i name loser holder owed release =>
    obtain ⟨⟨acquired, released, rfl⟩, dropped⟩ := (kept.standing i).of_owing owed
    refine kept.release rfl id acquired ?_ release (.settled dropped rfl released)
    -- only a late drop has left a release behind it, and then nothing is claimed of the holder
    intro punctual
    rw [released, Borrower.unlocked_eq_false dropped punctual]
    rfl

theorem Run.kept (run : Run log borrowers) : Kept log borrowers := by
  induction run with
  | start begun => exact kept_start begun
  | step before step ih => exact ih.step step

/-! ## The releases -/

/-- **Locks are released once, unless somebody is dropped late.**  For each lock that an operation
acquires, one release is made on its behalf, wherever the operation is dropped, but for one place:
between its release and the reply to it.  There it owes another one, so two are made.  As long as
this happens to nobody who needs a certain lock, no release of this lock takes it from anybody but
the operation on whose behalf it is made. -/
theorem Run.locks_released (run : Run log borrowers) : Orderly log borrowers where
  acquired i := (run.kept.standing i).acquired_eq
  within i punctual := (run.kept.standing i).released_within punctual
  once i isOver punctual := ((run.kept.standing i).of_isOver isOver).1 punctual
  twice i isOver late := ((run.kept.standing i).of_isOver isOver).2 late
  own punctual _ _ mem := (run.kept.custody punctual).own mem

/-- A load is dropped while it waits for the source.  Its lock is released on its behalf, once. -/
theorem locks_released_dropped_load :
    ∃ (log : List (Deed Unit)) (borrowers : Borrowers Unit), Run log borrowers ∧
      (borrowers.borrower ()).IsOver ∧ (releases () log).length = 1 ∧ Orderly log borrowers := by
  have begun := Run.start fun _ : Unit => ({}, .load "shop" [])
  have locked := begun.step (.acquire () rfl rfl rfl)
  have missing := locked.step (.work () rfl rfl ⟨id, id⟩ (Except.ok none))
  have counted := missing.step (.work () rfl rfl ⟨id, id⟩ ())
  have dropped := counted.step (.drop () rfl rfl)
  have settled := dropped.step (.settle () rfl .carriedOut)
  exact ⟨_, _, settled, ⟨Or.inr rfl, rfl⟩, rfl, settled.locks_released⟩

/-- **An operation that is dropped late takes the lock from another one.**  A load releases its lock
because the cache fails.  Before it is told so, another load acquires the lock, and the first one is
dropped.  The release that it owes then takes the lock from the second load, which is still at
work. -/
theorem late_release :
    ∃ (log : List (Deed Bool)) (borrowers : Borrowers Bool) (name : String), Run log borrowers ∧
      (borrowers.borrower false).IsOver ∧ acquisitions false log = [name] ∧
        releases false log = [name, name] ∧ .released false name (some true) ∈ log ∧
          acquisitions true log = [name] ∧ releases true log = [] ∧
            borrowers.holder name = none := by
  have begun := Run.start fun _ : Bool => ({}, .load "shop" [])
  have locked := begun.step (.acquire false rfl rfl rfl)
  have failed := locked.step (.work false rfl rfl ⟨id, id⟩ (Except.error (.cache "get refused")))
  have released := failed.step
    (.release false rfl rfl rfl (.of_holder (Function.update_self ..)))
  have other := released.step (.acquire true rfl rfl (Function.update_self ..))
  have dropped := other.step (.drop false rfl rfl)
  have settled := dropped.step (.settle false rfl (.of_holder (Function.update_self ..)))
  exact ⟨_, _, _, settled, ⟨Or.inr rfl, rfl⟩, rfl, rfl, by simp, rfl, rfl, Function.update_self ..⟩

end Borrowers

end Phrasebook
