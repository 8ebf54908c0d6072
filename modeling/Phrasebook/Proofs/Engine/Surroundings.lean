import Mathlib.Data.List.Basic
import Phrasebook.Engine.Basic

/-!
# An operation in any surroundings

An operation of an engine asks for three things outside of the engine: which languages are known,
that they be loaded anew, and the messages of a bundle.  `Surroundings` are whatever replies: every
call may answer differently from the one before, may fail, and a load may never come back.  Nothing
ties the surroundings to a registry of languages or to a source.

`Surroundings.run` runs an operation there.  It keeps the published store and records the calls with
their answers, so that what was asked, and in which order, can be spoken about.

## Main definitions

- `Surroundings`, `Call` and `World`.
- `Surroundings.run`, with one equation for each request (`run_load`, `run_snapshot`, …).

## Main statement

`Engine.run_eq_run_ofEngine`: running an operation on an engine, with its registry and the source
beside it, is running it in the surroundings that the two make up.
-/

namespace Phrasebook

/-- **Whatever replies to an engine.**  A call may change the state `τ`; it may answer anything each
time, and a load may never come back. -/
structure Surroundings (τ : Type) where
  languages : τ → List Language × τ
  reloadLanguages : τ → Except LoadError Unit × τ
  load : String → List Language → τ → Option (Except LoadError Messages) × τ

/-- A call to the surroundings and its answer; a load without an answer never came back. -/
inductive Call where
  | languages (known : List Language)
  | reloadLanguages (answer : Except LoadError Unit)
  | load (bundle : String) (languages : List Language)
      (answer : Option (Except LoadError Messages))

/-- The published store, the state of the surroundings, and the calls made so far. -/
structure World (ε τ : Type) where
  store : Store ε
  outside : τ
  calls : List Call

namespace World

variable {ε τ : Type}

/-- More calls, which leave the surroundings in a new state. -/
def after (world : World ε τ) (calls : List Call) (outside : τ) : World ε τ :=
  { world with outside, calls := world.calls ++ calls }

@[simp]
theorem store_after (world : World ε τ) (calls : List Call) (outside : τ) :
    (world.after calls outside).store = world.store := rfl

theorem after_after (world : World ε τ) (first second : List Call) (middle last : τ) :
    (world.after first middle).after second last = world.after (first ++ second) last := by
  simp [after, List.append_assoc]

theorem after_nil (world : World ε τ) : world.after [] world.outside = world := by
  simp [after]

end World

namespace Surroundings

variable {ε τ α β : Type}

/-- Replies to a step of an operation and records the call, if it is one. -/
def reply (surroundings : Surroundings τ) (request : EngineRequest ε) :
    Loading (World ε τ) request.Reply :=
  match request with
  | .enter => fun world => (some (), world)
  | .leave => fun world => (some (), world)
  | .languages => fun world =>
    let (known, outside) := surroundings.languages world.outside
    (some known, world.after [.languages known] outside)
  | .reloadLanguages => fun world =>
    let (answer, outside) := surroundings.reloadLanguages world.outside
    (some answer, world.after [.reloadLanguages answer] outside)
  | .load bundle languages => fun world =>
    let (answer, outside) := surroundings.load bundle languages world.outside
    (answer, world.after [.load bundle languages answer] outside)
  | .snapshot => fun world => (some world.store, world)
  | .publish store => fun world => (some (), { world with store })

/-- Runs an operation in its surroundings: the result, unless it never comes to one, and the world
it leaves behind. -/
def run (surroundings : Surroundings τ) (program : EngineProgram ε α) (world : World ε τ) :
    Option α × World ε τ :=
  (Interaction.run surroundings.reply program : Loading (World ε τ) α) world

variable (surroundings : Surroundings τ) (world : World ε τ)

@[simp]
theorem run_done (result : α) :
    surroundings.run (Interaction.done result) world = (some result, world) := rfl

/-- A request is replied to first; without a reply that is the end. -/
theorem run_ask (request : EngineRequest ε) (next : request.Reply → EngineProgram ε α) :
    surroundings.run (Interaction.ask request next) world =
      match surroundings.reply request world with
      | (some answer, changed) => surroundings.run (next answer) changed
      | (none, changed) => (none, changed) := by
  have step : (Interaction.run surroundings.reply (Interaction.ask request next) :
      Loading (World ε τ) α) = surroundings.reply request >>= fun answer =>
        Interaction.run surroundings.reply (next answer) := rfl
  rw [run, step, Loading.bind_apply]
  cases surroundings.reply request world with
  | mk answer changed => cases answer <;> rfl

/-- One program after the other. -/
theorem run_bind (program : EngineProgram ε α) (next : α → EngineProgram ε β) :
    surroundings.run (program >>= next) world =
      match surroundings.run program world with
      | (some result, changed) => surroundings.run (next result) changed
      | (none, changed) => (none, changed) := by
  induction program generalizing world with
  | done result => rfl
  | ask request rest ih =>
    rw [Interaction.ask_bind, run_ask, run_ask]
    cases surroundings.reply request world with
    | mk answer changed =>
      cases answer with
      | none => rfl
      | some answer => exact ih answer changed

/-! ## One equation for each request -/

theorem run_languages (next : List Language → EngineProgram ε α) :
    surroundings.run (EngineProgram.ask .languages >>= next) world =
      surroundings.run (next (surroundings.languages world.outside).1)
        (world.after [.languages (surroundings.languages world.outside).1]
          (surroundings.languages world.outside).2) :=
  run_ask surroundings world .languages next

theorem run_reloadLanguages (next : Except LoadError Unit → EngineProgram ε α) :
    surroundings.run (EngineProgram.ask .reloadLanguages >>= next) world =
      surroundings.run (next (surroundings.reloadLanguages world.outside).1)
        (world.after [.reloadLanguages (surroundings.reloadLanguages world.outside).1]
          (surroundings.reloadLanguages world.outside).2) :=
  run_ask surroundings world .reloadLanguages next

theorem run_load (bundle : String) (languages : List Language)
    (next : Except LoadError Messages → EngineProgram ε α) :
    surroundings.run (EngineProgram.ask (.load bundle languages) >>= next) world =
      match surroundings.load bundle languages world.outside with
      | (some answer, outside) =>
        surroundings.run (next answer) (world.after [.load bundle languages (some answer)] outside)
      | (none, outside) => (none, world.after [.load bundle languages none] outside) := by
  have replied : surroundings.reply (.load bundle languages) world =
      match surroundings.load bundle languages world.outside with
      | (answer, outside) => (answer, world.after [.load bundle languages answer] outside) := rfl
  refine (run_ask surroundings world (.load bundle languages) next).trans ?_
  rw [replied]
  cases surroundings.load bundle languages world.outside with
  | mk answer outside => cases answer <;> rfl

theorem run_snapshot (next : Store ε → EngineProgram ε α) :
    surroundings.run (EngineProgram.ask .snapshot >>= next) world =
      surroundings.run (next world.store) world :=
  run_ask surroundings world .snapshot next

theorem run_publish (store : Store ε) (next : Unit → EngineProgram ε α) :
    surroundings.run (EngineProgram.ask (.publish store) >>= next) world =
      surroundings.run (next ()) { world with store } :=
  run_ask surroundings world (.publish store) next

/-- Taking turns costs nothing when there is nobody to wait for. -/
theorem run_alone (body : EngineProgram ε α) :
    surroundings.run (EngineProgram.alone body) world = surroundings.run body world := by
  have leave : ∀ result : α, ∀ changed : World ε τ,
      surroundings.run (EngineProgram.ask .leave >>= fun _ => pure result) changed =
        (some result, changed) := fun result changed => run_ask surroundings changed .leave _
  refine (run_ask surroundings world .enter _).trans ?_
  show surroundings.run (body >>= _) world = _
  rw [run_bind]
  cases surroundings.run body world with
  | mk result changed =>
    cases result with
    | none => rfl
    | some result => exact leave result changed

/-! ## An engine is one of them -/

/-- The surroundings that a registry of languages and a source make up. -/
def ofEngine (σ : Type) [MessageSource σ] : Surroundings (LanguageRegistry × σ) where
  languages outside := (outside.1.languages, outside)
  reloadLanguages outside :=
    match outside.1.reload with
    | .error error => (.error error, outside)
    | .ok registry => (.ok (), (registry, outside.2))
  load bundle languages outside :=
    let (answer, source) := (MessageSource.load bundle languages : Loading σ _) outside.2
    (answer, (outside.1, source))

end Surroundings

/-- Loading the languages anew changes the registry of an engine, unless it fails. -/
theorem Engine.handle_reloadLanguages {ε σ : Type} [MessageSource σ] (engine : Engine ε)
    (source : σ) :
    Engine.handle (.reloadLanguages : EngineRequest ε) (engine, source) =
      match engine.registry.reload with
      | .error error => (some (.error error), (engine, source))
      | .ok registry => (some (.ok ()), ({ engine with registry }, source)) := by
  have got : (get : Loading (Engine ε × σ) (Engine ε × σ)) (engine, source) =
      (some (engine, source), (engine, source)) := rfl
  refine (Loading.bind_apply get _ (engine, source)).trans ?_
  rw [got]
  simp only [Engine.reloadLanguages]
  cases engine.registry.reload <;> rfl

/-- **An engine runs its operations in the surroundings of its registry and its source.**  What is
recorded besides does not matter. -/
theorem Engine.run_eq_run_ofEngine {ε σ α : Type} [MessageSource σ] (program : EngineProgram ε α)
    (engine : Engine ε) (source : σ) (calls : List Call) :
    Engine.run program (engine, source) =
      match (Surroundings.ofEngine σ).run program
        ⟨engine.store, (engine.registry, source), calls⟩ with
      | (result, world) =>
        (result, ({ engine with store := world.store, registry := world.outside.1 },
          world.outside.2)) := by
  induction program generalizing engine source calls with
  | done result => rfl
  | ask request next ih =>
    refine (Loading.bind_apply (Engine.handle request)
      (fun answer => Interaction.run Engine.handle (next answer)) (engine, source)).trans ?_
    rw [Surroundings.run_ask]
    cases request with
    | enter => exact ih () engine source calls
    | leave => exact ih () engine source calls
    | snapshot => exact ih engine.store engine source calls
    | publish store => exact ih () { engine with store } source calls
    | languages =>
      exact ih engine.registry.languages engine source
        (calls ++ [.languages engine.registry.languages])
    | reloadLanguages =>
      have handled := engine.handle_reloadLanguages source
      -- Both sides look at the same reloaded registry, so its outcome is settled first.
      cases reloaded : engine.registry.reload with
      | error error =>
        have replied : (Surroundings.ofEngine σ).reply (ε := ε) .reloadLanguages
            ⟨engine.store, (engine.registry, source), calls⟩ =
              (some (.error error), ⟨engine.store, (engine.registry, source),
                calls ++ [.reloadLanguages (.error error)]⟩) := by
          simp only [Surroundings.reply, Surroundings.ofEngine, reloaded]
          rfl
        rw [reloaded] at handled
        rw [replied, handled]
        exact ih (.error error) engine source _
      | ok registry =>
        have replied : (Surroundings.ofEngine σ).reply (ε := ε) .reloadLanguages
            ⟨engine.store, (engine.registry, source), calls⟩ =
              (some (.ok ()), ⟨engine.store, (registry, source),
                calls ++ [.reloadLanguages (.ok ())]⟩) := by
          simp only [Surroundings.reply, Surroundings.ofEngine, reloaded]
          rfl
        rw [reloaded] at handled
        rw [replied, handled]
        exact ih (.ok ()) { engine with registry } source _
    | load bundle languages =>
      have replied : (Surroundings.ofEngine σ).reply (ε := ε) (.load bundle languages)
          ⟨engine.store, (engine.registry, source), calls⟩ =
            match (MessageSource.load bundle languages : Loading σ _) source with
            | (answer, changed) =>
              (answer, ⟨engine.store, (engine.registry, changed),
                calls ++ [.load bundle languages answer]⟩) := rfl
      have handled : Engine.handle (.load bundle languages : EngineRequest ε) (engine, source) =
          match (MessageSource.load bundle languages : Loading σ _) source with
          | (answer, changed) => (answer, (engine, changed)) := rfl
      rw [replied, handled]
      cases (MessageSource.load bundle languages : Loading σ _) source with
      | mk answer changed =>
        cases answer with
        | none => rfl
        | some answer => exact ih answer engine changed _

end Phrasebook
