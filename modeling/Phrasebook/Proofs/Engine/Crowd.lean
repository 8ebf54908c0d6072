import Mathlib.Logic.Function.Basic
import Phrasebook.Proofs.Engine.Publication
import Phrasebook.Proofs.Engine.Walk

/-!
# Operations and lookups of one engine at the same time

Any number of operations and lookups are under way on one engine, and they take their steps in any
order.  A step of an operation is a request with the reply to it.  What the registry and the source
reply is left open, and a reply may be a long time coming, during which others go on.  An operation
enters when nobody is inside; a lookup does not have to.

What has happened is a list of acts, the first one first: who has asked for what, and what the reply
was.

## Main definitions

- `Crowd` are the operations and lookups under way, with the engine that they share.
- `Crowd.Step` is what can happen next, and `Crowd.Run` what can have happened so far.
- `entered`, `callsOf` and `publications` are what is told from the acts.

An engine that runs its operations one at a time is one of the cases (`Engine.replies_of_handle`).
-/

namespace Phrasebook

/-! ## What can happen -/

/-- The store that an engine publishes, and the operation that has entered and not left. -/
structure Hall (ε ι : Type) where
  published : Store ε
  inside : Option ι

/-- An operation has asked for something and got a reply. -/
structure Act (ε ι : Type) where
  who : ι
  exchange : Interaction.Exchange (EngineRequest ε) EngineRequest.Reply

/-- What operations and lookups are for. -/
structure Errands (ι κ : Type) where
  operation : ι → EngineOperation
  key : κ → String
  language : κ → Language

/-- Operations under way, each with what it still has to ask, and lookups under way. -/
structure Crowd (ε ι κ : Type) where
  rest : ι → EngineProgram ε (Except LoadError Bool)
  hall : Hall ε ι
  lookups : κ → Lookup ε

variable {ε ι κ : Type}

/-- **The engine replies to an operation.**  The store that is read is the one that is published at
that moment. -/
def Hall.Replies (hall : Hall ε ι) (i : ι) :
    (request : EngineRequest ε) → request.Reply → Hall ε ι → Prop
  | .enter, _, changed => hall.inside = none ∧ changed = { hall with inside := some i }
  | .leave, _, changed => changed = { hall with inside := none }
  | .languages, _, changed => changed = hall
  | .reloadLanguages, _, changed => changed = hall
  | .load _ _, _, changed => changed = hall
  | .snapshot, answer, changed => answer = hall.published ∧ changed = hall
  | .publish store, _, changed => changed = { hall with published := store }

/-- An engine with nobody else around replies in this way. -/
theorem Engine.replies_of_handle {σ : Type} [MessageSource σ] {engine after : Engine ε}
    {source sourceAfter : σ} {inside : Option ι} {i : ι} {request : EngineRequest ε}
    {answer : request.Reply} (free : request = .enter → inside = none)
    (handled : (Engine.handle request : Loading (Engine ε × σ) _) (engine, source) =
      (some answer, (after, sourceAfter))) :
    ∃ insideAfter, Hall.Replies ⟨engine.store, inside⟩ i request answer
      ⟨after.store, insideAfter⟩ := by
  cases request with
  | enter =>
    cases handled
    exact ⟨some i, free rfl, rfl⟩
  | leave =>
    cases handled
    exact ⟨none, rfl⟩
  | languages =>
    cases handled
    exact ⟨inside, rfl⟩
  | snapshot =>
    cases handled
    exact ⟨inside, rfl, rfl⟩
  | publish store =>
    cases handled
    exact ⟨inside, rfl⟩
  | load bundle languages =>
    cases congrArg (fun state => state.2.1) handled
    exact ⟨inside, rfl⟩
  | reloadLanguages =>
    rw [Engine.handle_reloadLanguages] at handled
    cases reloaded : engine.registry.reload with
    | error error =>
      rw [reloaded] at handled
      cases handled
      exact ⟨inside, rfl⟩
    | ok registry =>
      rw [reloaded] at handled
      cases handled
      exact ⟨inside, rfl⟩

namespace Crowd

/-- Nobody has done anything yet. -/
def start [MessageEntry ε] (errands : Errands ι κ) (store : Store ε) : Crowd ε ι κ where
  rest i := (errands.operation i).program
  hall := ⟨store, none⟩
  lookups _ := .waiting

/-- **What can happen next**, with the act that is made of it, if any. -/
inductive Step [DecidableEq ι] [DecidableEq κ] (errands : Errands ι κ) (resolves : Resolving)
    (crowd : Crowd ε ι κ) : Option (Act ε ι) → Crowd ε ι κ → Prop
  | act {i : ι} {request : EngineRequest ε}
      {next : request.Reply → EngineProgram ε (Except LoadError Bool)} {answer : request.Reply}
      {hall : Hall ε ι} (here : crowd.rest i = Interaction.ask request next)
      (replied : crowd.hall.Replies i request answer hall) :
      Step errands resolves crowd (some ⟨i, ⟨request, answer⟩⟩)
        { crowd with rest := Function.update crowd.rest i (next answer), hall }
  | look {k : κ} {after : Lookup ε}
      (step : Lookup.Step resolves (errands.key k) (errands.language k) crowd.hall.published
        (crowd.lookups k) after) :
      Step errands resolves crowd none
        { crowd with lookups := Function.update crowd.lookups k after }

/-- **What can have happened so far**, from a published store on. -/
inductive Run [DecidableEq ι] [DecidableEq κ] [MessageEntry ε] (errands : Errands ι κ)
    (resolves : Resolving) (store : Store ε) : List (Act ε ι) → Crowd ε ι κ → Prop
  | start : Run errands resolves store [] (Crowd.start errands store)
  | step {acts : List (Act ε ι)} {act : Option (Act ε ι)} {crowd after : Crowd ε ι κ}
      (before : Run errands resolves store acts crowd)
      (step : Step errands resolves crowd act after) :
      Run errands resolves store (acts ++ act.toList) after

namespace Run

variable [DecidableEq ι] [DecidableEq κ] [MessageEntry ε] {errands : Errands ι κ}
  {resolves : Resolving} {store : Store ε} {acts : List (Act ε ι)} {crowd : Crowd ε ι κ}

/-- A run goes on with an act. -/
theorem act (run : Run errands resolves store acts crowd) (i : ι) (request : EngineRequest ε)
    (answer : request.Reply) {next : request.Reply → EngineProgram ε (Except LoadError Bool)}
    {hall : Hall ε ι} (here : crowd.rest i = Interaction.ask request next)
    (replied : crowd.hall.Replies i request answer hall) :
    Run errands resolves store (acts ++ [⟨i, ⟨request, answer⟩⟩])
      { crowd with rest := Function.update crowd.rest i (next answer), hall } :=
  run.step (.act here replied)

/-- A run goes on with a step of a lookup. -/
theorem look (run : Run errands resolves store acts crowd) (k : κ) {after : Lookup ε}
    (step : Lookup.Step resolves (errands.key k) (errands.language k) crowd.hall.published
      (crowd.lookups k) after) :
    Run errands resolves store acts
      { crowd with lookups := Function.update crowd.lookups k after } := by
  have further := run.step (.look step)
  rwa [Option.toList_none, List.append_nil] at further

end Run

end Crowd

/-! ## What is told from the acts -/

/-- The call to the registry or the source that a request is, with the reply to it. -/
def EngineRequest.call? : (request : EngineRequest ε) → request.Reply → Option Call
  | languages, known => some (.languages known)
  | reloadLanguages, answer => some (.reloadLanguages answer)
  | load bundle wanted, answer => some (.load bundle wanted (some answer))
  | _, _ => none

namespace Act

/-- The call that an act is. -/
def call? (act : Act ε ι) : Option Call := act.exchange.question.call? act.exchange.answer

/-- The store that an act publishes. -/
def published? (act : Act ε ι) : Option (Store ε) :=
  match act.exchange.question with
  | .publish store => some store
  | _ => none

/-- Who enters with an act. -/
def enters? (act : Act ε ι) : Option ι :=
  match act.exchange.question with
  | .enter => some act.who
  | _ => none

end Act

/-- Those who have entered, in order. -/
def entered (acts : List (Act ε ι)) : List ι := acts.filterMap Act.enters?

/-- The stores that have been published, in order. -/
def publications (acts : List (Act ε ι)) : List (Store ε) := acts.filterMap Act.published?

/-- What an operation has done, in order. -/
def actsOf [DecidableEq ι] (acts : List (Act ε ι)) (i : ι) : List (Act ε ι) :=
  acts.filter fun act => act.who = i

/-- The calls that an operation has made, in order. -/
def callsOf [DecidableEq ι] (acts : List (Act ε ι)) (i : ι) : List Call :=
  (actsOf acts i).filterMap Act.call?

/-- What is told from one more item comes last. -/
theorem filterMap_concat {α β : Type} (told? : α → Option β) (items : List α) (last : α) :
    (items ++ [last]).filterMap told? = items.filterMap told? ++ (told? last).toList := by
  rw [List.filterMap_append]
  cases told : told? last <;> simp [told]

theorem entered_concat (acts : List (Act ε ι)) (act : Act ε ι) :
    entered (acts ++ [act]) = entered acts ++ act.enters?.toList :=
  filterMap_concat Act.enters? acts act

theorem publications_concat (acts : List (Act ε ι)) (act : Act ε ι) :
    publications (acts ++ [act]) = publications acts ++ act.published?.toList :=
  filterMap_concat Act.published? acts act

section Calls

variable [DecidableEq ι] (acts : List (Act ε ι))

theorem actsOf_concat_self (act : Act ε ι) :
    actsOf (acts ++ [act]) act.who = actsOf acts act.who ++ [act] := by
  simp [actsOf, List.filter_append]

theorem actsOf_concat_of_ne {act : Act ε ι} {i : ι} (other : act.who ≠ i) :
    actsOf (acts ++ [act]) i = actsOf acts i := by
  simp [actsOf, List.filter_append, other]

theorem callsOf_concat_self (act : Act ε ι) :
    callsOf (acts ++ [act]) act.who = callsOf acts act.who ++ act.call?.toList := by
  rw [callsOf, actsOf_concat_self, filterMap_concat]
  rfl

theorem callsOf_concat_of_ne {act : Act ε ι} {i : ι} (other : act.who ≠ i) :
    callsOf (acts ++ [act]) i = callsOf acts i := by
  rw [callsOf, actsOf_concat_of_ne acts other]
  rfl

variable {acts}

/-- What the last of those who have entered does keeps everybody's acts together. -/
theorem eq_flatMap_actsOf_concat {act : Act ε ι} {earlier : List ι}
    (together : acts = earlier.flatMap (actsOf acts) ++ actsOf acts act.who)
    (new : act.who ∉ earlier) :
    acts ++ [act] = (earlier ++ [act.who]).flatMap (actsOf (acts ++ [act])) := by
  have others : earlier.flatMap (actsOf (acts ++ [act])) = earlier.flatMap (actsOf acts) :=
    List.flatMap_congr fun i mem =>
      actsOf_concat_of_ne acts fun eq => new (eq.symm ▸ mem)
  rw [List.flatMap_append, List.flatMap_singleton, others, actsOf_concat_self, ← List.append_assoc,
    ← together]

end Calls

end Phrasebook
