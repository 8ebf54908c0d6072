import Phrasebook.Proofs.Engine.Crowd

/-!
# An operation that is told the same answers again

Whatever the surroundings of an operation were, its calls are a record of what they have answered.
`Surroundings.scripted` are the surroundings that answer from such a record, call by call.  In them
an operation can be run again, with nothing else going on.

For this it matters what an operation is like from the moment it has entered on (`Working`): it
publishes at most once, it answers `true` if and only if it has, and between publishing and leaving
it asks for nothing.

## Main statements

- `EngineOperation.exists_program_eq`: an operation enters first, and is working from then on.
- `Surroundings.run_scripted`: a call that the record begins with is answered as it was.
-/

namespace Phrasebook

variable {ε α β : Type}

/-! ## What operations are like inside -/

/-- A request that neither lets others in nor shows them anything. -/
def EngineRequest.IsQuiet : EngineRequest ε → Prop
  | enter => False
  | leave => False
  | publish _ => False
  | _ => True

/-- Nobody sees a quiet request. -/
theorem Act.hidden_of_isQuiet {ι : Type} (act : Act ε ι)
    (quiet : act.exchange.question.IsQuiet) :
    act.published? = none ∧ act.enters? = none := by
  obtain ⟨who, request, answer⟩ := act
  cases request with
  | enter => exact quiet.elim
  | leave => exact quiet.elim
  | publish store => exact quiet.elim
  | _ => exact ⟨rfl, rfl⟩

/-- Leaves, and ends with a result. -/
def EngineProgram.leaveWith (result : Except LoadError Bool) :
    EngineProgram ε (Except LoadError Bool) :=
  Interaction.ask .leave fun _ => Interaction.done result

/-- **An operation that has entered and not published**: it asks for things, and in the end it
either publishes, leaves and answers `true`, or leaves and answers something else. -/
inductive Working : EngineProgram ε (Except LoadError Bool) → Prop
  | asks {request : EngineRequest ε}
      {next : request.Reply → EngineProgram ε (Except LoadError Bool)} (quiet : request.IsQuiet)
      (onward : ∀ answer, Working (next answer)) : Working (Interaction.ask request next)
  | publishes (store : Store ε) :
      Working (Interaction.ask (.publish store) fun _ => EngineProgram.leaveWith (.ok true))
  | leaves {result : Except LoadError Bool} (unpublished : result ≠ .ok true) :
      Working (EngineProgram.leaveWith result)

/-- A part that only asks quietly, and then what is working whatever came of the part. -/
theorem Working.bind {program : EngineProgram ε α}
    {next : α → EngineProgram ε (Except LoadError Bool)}
    (quiet : program.Asks EngineRequest.IsQuiet) (onward : ∀ result, Working (next result)) :
    Working (program >>= next) := by
  induction program with
  | done result => exact onward result
  | ask request rest ih => exact .asks quiet.1 fun answer => ih answer (quiet.2 answer)

namespace EngineProgram

/-- What is run as the only one enters, and leaves with its result. -/
theorem alone_bind (body : EngineProgram ε α) (answer : α → Except LoadError Bool) :
    (alone body >>= fun result => pure (answer result)) =
      Interaction.ask .enter fun _ => body >>= fun result => leaveWith (answer result) := by
  show (Interaction.ask .enter fun _ =>
    (body >>= fun result => Interaction.ask .leave fun _ => Interaction.done result) >>=
      fun result => pure (answer result)) = _
  simp only [bind_assoc]
  rfl

theorem working_loadOne [MessageEntry ε] (name : String) :
    Working (loadOne name >>= leaveWith : EngineProgram ε _) := by
  refine .asks trivial fun languages => .asks trivial fun answer => ?_
  cases answer with
  | error error => exact .leaves (by simp)
  | ok messages => exact .asks trivial fun store => .publishes _

theorem asks_knownLanguages :
    (knownLanguages : EngineProgram ε _).Asks EngineRequest.IsQuiet := by
  refine ⟨trivial, fun languages => ?_⟩
  cases languages with
  | cons language others => trivial
  | nil =>
    refine ⟨trivial, fun answer => ?_⟩
    cases answer with
    | error error => trivial
    | ok => exact ⟨trivial, fun _ => trivial⟩

theorem asks_loadAll [MessageEntry ε] (languages : List Language) (names : List String)
    (store : Store ε) : (loadAll languages names store).Asks EngineRequest.IsQuiet := by
  induction names generalizing store with
  | nil => trivial
  | cons name rest ih =>
    refine ⟨trivial, fun answer => ?_⟩
    cases answer with
    | error error => trivial
    | ok messages => exact ih _

end EngineProgram

/-- **An operation enters first**, and is working from then on. -/
theorem EngineOperation.exists_program_eq [MessageEntry ε] (operation : EngineOperation) :
    ∃ rest : EngineProgram ε (Except LoadError Bool),
      operation.program = (Interaction.ask .enter fun _ => rest) ∧ Working rest := by
  cases operation with
  | add name =>
    refine ⟨_, rfl, .asks trivial fun store => ?_⟩
    show Working ((if store.containsBundle name then pure (.ok false)
      else EngineProgram.loadOne name) >>= EngineProgram.leaveWith)
    split
    · exact .leaves (by simp)
    · exact EngineProgram.working_loadOne name
  | reload name =>
    refine ⟨_, rfl, .asks trivial fun store => ?_⟩
    show Working ((if store.containsBundle name then EngineProgram.loadOne name
      else pure (.ok false)) >>= EngineProgram.leaveWith)
    split
    · exact EngineProgram.working_loadOne name
    · exact .leaves (by simp)
  | remove name =>
    rw [EngineOperation.program, EngineProgram.removeBundle, EngineProgram.alone_bind]
    refine ⟨_, rfl, .asks trivial fun store => ?_⟩
    show Working ((if store.containsBundle name then do
        EngineProgram.ask (.publish (store.removeBundle name).2)
        pure true
      else pure false) >>= fun removed => EngineProgram.leaveWith (.ok removed))
    split
    · exact .publishes _
    · exact .leaves (by simp)
  | reloadAll =>
    rw [EngineOperation.program, EngineProgram.reloadAll, EngineProgram.alone_bind]
    refine ⟨_, rfl, ?_⟩
    rw [bind_assoc]
    refine .bind EngineProgram.asks_knownLanguages fun found => ?_
    cases found with
    | error error => exact .leaves (by simp [Except.map])
    | ok languages =>
      refine .asks trivial fun store => ?_
      show Working ((EngineProgram.loadAll languages store.bundleNames store.cleared >>= _) >>= _)
      rw [bind_assoc]
      refine .bind (EngineProgram.asks_loadAll languages _ _) fun loaded => ?_
      cases loaded with
      | error error => exact .leaves (by simp [Except.map])
      | ok store => exact .publishes store

/-! ## Answers from a record -/

namespace Surroundings

/-- **The surroundings that answer from a record of calls**, one after the other.  Without the right
call to answer from, a load never comes back. -/
def scripted : Surroundings (List Call) where
  languages
    | .languages known :: rest => (known, rest)
    | script => ([], script)
  reloadLanguages
    | .reloadLanguages answer :: rest => (answer, rest)
    | script => (.ok (), script)
  load _ _
    | .load _ _ answer :: rest => (answer, rest)
    | script => (none, script)

/-- A quiet request shows in the hall at no time, and is answered as it was. -/
theorem run_scripted {ι : Type} {hall changed : Hall ε ι} {i : ι} {request : EngineRequest ε}
    {answer : request.Reply} (quiet : request.IsQuiet)
    (replied : hall.Replies i request answer changed) (next : request.Reply → EngineProgram ε α)
    (more made : List Call) :
    changed = hall ∧
      scripted.run (Interaction.ask request next)
          ⟨hall.published, (request.call? answer).toList ++ more, made⟩ =
        scripted.run (next answer)
          ⟨hall.published, more, made ++ (request.call? answer).toList⟩ := by
  cases request with
  | enter => exact quiet.elim
  | leave => exact quiet.elim
  | publish store => exact quiet.elim
  | languages => exact ⟨replied, run_ask scripted _ .languages next⟩
  | reloadLanguages => exact ⟨replied, run_ask scripted _ .reloadLanguages next⟩
  | load bundle wanted => exact ⟨replied, run_ask scripted _ (.load bundle wanted) next⟩
  | snapshot =>
    obtain ⟨rfl, rfl⟩ := replied
    refine ⟨rfl, (run_ask scripted _ .snapshot next).trans ?_⟩
    simp [EngineRequest.call?, reply]

end Surroundings

end Phrasebook
