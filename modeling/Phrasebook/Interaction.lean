/-!
# Interactions

An `Interaction` is an operation that asks its surroundings for things one after the other and
goes on with each reply.  It says nothing about who replies: the same operation can be run against
a state, replayed against a list of replies, or interleaved with others request by request.

## Main definitions

- `Interaction κ reply α` asks requests of type `κ`; the type of a reply depends on the request.
- `Interaction.run` lets a handler reply in any monad.
- `Interaction.Replay` relates an interaction to the requests it makes and the replies it gets.
- `Interaction.Asks` says of all requests that an interaction can make.
-/

namespace Phrasebook

/-- An operation that is done, or asks a request and goes on with the reply. -/
inductive Interaction (κ : Type) (reply : κ → Type) (α : Type) : Type where
  | done (result : α)
  | ask (question : κ) (next : reply question → Interaction κ reply α)

namespace Interaction

variable {κ : Type} {reply : κ → Type} {α β : Type}

/-- Goes on with the result of an interaction. -/
def andThen : Interaction κ reply α → (α → Interaction κ reply β) →
    Interaction κ reply β
  | done result, rest => rest result
  | ask question next, rest => ask question fun answer => andThen (next answer) rest

instance : Monad (Interaction κ reply) where
  pure := done
  bind := andThen

/-- The interaction that asks one request and answers the reply. -/
def perform (question : κ) : Interaction κ reply (reply question) :=
  ask question done

/-- Runs an interaction; the handler replies to each request. -/
def run {m : Type → Type} [Monad m] (handle : (question : κ) → m (reply question)) :
    Interaction κ reply α → m α
  | done result => pure result
  | ask question next => do
    let answer ← handle question
    run handle (next answer)

/-- A request together with a reply to it. -/
structure Exchange (κ : Type) (reply : κ → Type) where
  question : κ
  answer : reply question

/-- An interaction makes these requests, in this order, when it gets these replies, and ends with
this result. -/
inductive Replay : Interaction κ reply α → List (Exchange κ reply) → α → Prop where
  | done (result : α) : Replay (done result) [] result
  | ask {question : κ} {next : reply question → Interaction κ reply α}
      (answer : reply question) {exchanges : List (Exchange κ reply)} {result : α}
      (rest : Replay (next answer) exchanges result) :
      Replay (ask question next) (⟨question, answer⟩ :: exchanges) result

/-- Whatever the replies are, all requests of an interaction have a property. -/
def Asks (property : κ → Prop) : Interaction κ reply α → Prop
  | done _ => True
  | ask question next => property question ∧ ∀ answer, Asks property (next answer)

@[simp]
theorem pure_eq_done (result : α) : (pure result : Interaction κ reply α) = done result := rfl

@[simp]
theorem done_bind (result : α) (rest : α → Interaction κ reply β) :
    (done result >>= rest) = rest result := rfl

@[simp]
theorem ask_bind (question : κ) (next : reply question → Interaction κ reply α)
    (rest : α → Interaction κ reply β) :
    (ask question next >>= rest) = ask question fun answer => next answer >>= rest := rfl

/-- Doing nothing with the result changes nothing. -/
theorem map_id (program : Interaction κ reply α) : (id <$> program) = program := by
  induction program with
  | done result => rfl
  | ask question next ih => exact congrArg (ask question) (funext ih)

/-- It does not matter how three interactions in turn are put together. -/
theorem andThen_andThen {γ : Type} (program : Interaction κ reply α)
    (next : α → Interaction κ reply β) (last : β → Interaction κ reply γ) :
    (program >>= next >>= last) = program >>= fun result => next result >>= last := by
  induction program with
  | done result => rfl
  | ask question rest ih => exact congrArg (ask question) (funext ih)

instance : LawfulMonad (Interaction κ reply) :=
  LawfulMonad.mk' (Interaction κ reply) map_id (fun _ _ => rfl) andThen_andThen

@[simp]
theorem replay_done_iff {value result : α} {exchanges : List (Exchange κ reply)} :
    Replay (done value : Interaction κ reply α) exchanges result ↔
      exchanges = [] ∧ result = value := by
  constructor
  · rintro ⟨⟩
    exact ⟨rfl, rfl⟩
  · rintro ⟨rfl, rfl⟩
    exact Replay.done result

theorem replay_ask_iff {question : κ} {next : reply question → Interaction κ reply α}
    {exchanges : List (Exchange κ reply)} {result : α} :
    Replay (ask question next) exchanges result ↔
      ∃ answer rest, exchanges = ⟨question, answer⟩ :: rest ∧
        Replay (next answer) rest result := by
  constructor
  · rintro ⟨⟩
    exact ⟨_, _, rfl, by assumption⟩
  · rintro ⟨answer, rest, rfl, replay⟩
    exact Replay.ask answer replay

/-- A sequence of two interactions makes the requests of the first and then those of the second. -/
theorem replay_bind_iff {program : Interaction κ reply α} {next : α → Interaction κ reply β}
    {exchanges : List (Exchange κ reply)} {result : β} :
    Replay (program >>= next) exchanges result ↔
      ∃ first value second, exchanges = first ++ second ∧ Replay program first value ∧
        Replay (next value) second result := by
  induction program generalizing exchanges with
  | done value =>
    constructor
    · exact fun replay => ⟨[], value, exchanges, rfl, Replay.done value, replay⟩
    · rintro ⟨first, other, second, rfl, replay, onward⟩
      obtain ⟨rfl, rfl⟩ := replay_done_iff.1 replay
      exact onward
  | ask question rest ih =>
    rw [ask_bind, replay_ask_iff]
    constructor
    · rintro ⟨answer, later, rfl, replay⟩
      obtain ⟨first, value, second, rfl, replay, onward⟩ := (ih answer).1 replay
      exact ⟨⟨question, answer⟩ :: first, value, second, rfl, Replay.ask answer replay, onward⟩
    · rintro ⟨first, value, second, rfl, replay, onward⟩
      obtain ⟨answer, later, rfl, replayRest⟩ := replay_ask_iff.1 replay
      refine ⟨answer, later ++ second, rfl, (ih answer).2 ?_⟩
      exact ⟨later, value, second, rfl, replayRest, onward⟩

theorem Asks.mono {property weaker : κ → Prop} {program : Interaction κ reply α}
    (implies : ∀ question, property question → weaker question)
    (asks : program.Asks property) : program.Asks weaker := by
  induction program with
  | done result => trivial
  | ask question next ih => exact ⟨implies question asks.1, fun answer => ih answer (asks.2 answer)⟩

theorem Asks.bind {property : κ → Prop} {program : Interaction κ reply α}
    {next : α → Interaction κ reply β} (asks : program.Asks property)
    (onward : ∀ result, (next result).Asks property) : (program >>= next).Asks property := by
  induction program with
  | done result => exact onward result
  | ask question rest ih => exact ⟨asks.1, fun answer => ih answer (asks.2 answer)⟩

/-- What holds of all requests that an interaction can make holds of those it makes. -/
theorem Asks.of_replay {property : κ → Prop} {program : Interaction κ reply α}
    {exchanges : List (Exchange κ reply)} {result : α} (asks : program.Asks property)
    (replay : Replay program exchanges result) :
    ∀ exchange ∈ exchanges, property exchange.question := by
  induction replay with
  | done result => simp
  | ask answer rest ih =>
    intro exchange mem
    rcases List.mem_cons.1 mem with rfl | mem
    · exact asks.1
    · exact ih (asks.2 answer) exchange mem

end Interaction

end Phrasebook
