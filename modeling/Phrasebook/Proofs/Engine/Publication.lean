import Phrasebook.Proofs.Engine.Outcomes

/-!
# What an operation publishes

The operations of an engine are several steps long, and every call on the way may fail.  This module
shows that none of this can be seen in the published store: an operation changes it by whole
operations of the store, or not at all.

A `Turn` is what one operation did: the store before and after, the calls it made, and its answer.
`Turn.Lawful` is what is shown of it, for any surroundings:

* *refused* operations answer `false` without any call and change nothing;
* any other makes its calls up to the first that fails, and that call decides the answer; so there
  is no way for a failure to be passed over, whichever call it is;
* unless all calls succeed the store is what it was, even if bundles have been loaded already;
* if they do, the store has gone through the operation, with one replacement for each bundle that
  had to be loaded;
* the source is asked for these bundles in order, always for the same languages, and the languages
  are loaded anew only if none was known.

A run is a list of turns, each from the store that the one before has left (`Continuous`).  A turn
is lawful from *any* store, so the induction over a run needs no invariant.

## Main statements

- `performAll_lawful`: in every run of operations in any surroundings, every turn is lawful.
- `publishedAfter_performAll`: what a run publishes in the end is read off its calls.
- `Engine.run_program_eq_perform`: an engine takes such turns.
-/

namespace Phrasebook

open StoreOperation

/-! ## Operations -/

/-- An operation of an engine. -/
inductive EngineOperation where
  | add (name : String)
  | remove (name : String)
  | reload (name : String)
  | reloadAll

namespace EngineOperation

variable {ε : Type}

/-- What runs.  The answer is whether anything was done; loading all bundles anew has no other
answer than that. -/
def program [MessageEntry ε] : EngineOperation → EngineProgram ε (Except LoadError Bool)
  | add name => EngineProgram.addBundle name
  | remove name => EngineProgram.removeBundle name >>= fun removed => pure (.ok removed)
  | reload name => EngineProgram.reloadBundle name
  | reloadAll => EngineProgram.reloadAll >>= fun result => pure (result.map fun () => true)

/-- An operation is **refused** when it would add a registered bundle, or remove or reload one that
is not registered. -/
def Refused (store : Store ε) : EngineOperation → Prop
  | add name => store.containsBundle name = true
  | remove name => store.containsBundle name = false
  | reload name => store.containsBundle name = false
  | reloadAll => False

/-- The bundles that an operation has to load, in order. -/
def plan (store : Store ε) : EngineOperation → List String
  | add name => [name]
  | remove _ => []
  | reload name => [name]
  | reloadAll => store.bundleNames

/-- What an operation does to the store before it puts in what it has loaded. -/
def opening : EngineOperation → List StoreOperation
  | remove name => [.remove name]
  | reloadAll => [.clear]
  | _ => []

end EngineOperation

/-! ## Turns -/

/-- **What one operation did**: the calls it made, its answer unless it never came to one, and the
published store before and after. -/
structure Turn (ε : Type) where
  operation : EngineOperation
  before : Store ε
  calls : List Call
  answer : Option (Except LoadError Bool)
  after : Store ε

namespace Turn

variable {ε : Type}

/-- The changes of the store that a turn stands for.  Without success there are none. -/
def changes (turn : Turn ε) : List StoreOperation :=
  match turn.answer with
  | some (.ok true) => turn.operation.opening ++ turn.calls.filterMap Call.loaded?
  | _ => []

/-- **What holds of every turn.** -/
structure Lawful [MessageEntry ε] (turn : Turn ε) : Prop where
  /-- A refused operation answers `false` and calls nobody. -/
  refused : turn.operation.Refused turn.before → turn.answer = some (.ok false) ∧ turn.calls = []
  /-- Nothing else answers `false`. -/
  accepted : ¬ turn.operation.Refused turn.before → turn.answer ≠ some (.ok false)
  /-- The calls stop at the first that fails, and the last one decides the answer. -/
  ending : Ending turn.calls turn.answer
  /-- The source is asked in order and for the same languages. -/
  inOrder : ¬ turn.operation.Refused turn.before →
    ∃ languages, InOrder languages (turn.operation.plan turn.before) turn.calls turn.answer
  /-- The languages asked for are languages that were known during the turn. -/
  told : ∀ bundle languages answer, .load bundle languages answer ∈ turn.calls →
    .languages languages ∈ turn.calls
  /-- The languages are loaded anew when all bundles are and none was known at first. -/
  reloads : (∃ answer, .reloadLanguages answer ∈ turn.calls) ↔
    turn.operation = .reloadAll ∧ turn.calls.head? = some (.languages [])
  /-- Without success the published store is as it was. -/
  unchanged : turn.answer ≠ some (.ok true) → turn.after = turn.before
  /-- With success it went through the operation: one replacement for each planned bundle, by what
  the source has answered. -/
  changed : turn.answer = some (.ok true) → ∃ loaded : List Messages,
    loaded.length = (turn.operation.plan turn.before).length ∧
    turn.calls.filterMap Call.loaded? =
      List.zipWith replace (turn.operation.plan turn.before) loaded ∧
    turn.after = (turn.operation.opening ++
      List.zipWith replace (turn.operation.plan turn.before) loaded).foldl
        StoreOperation.apply turn.before

variable [MessageEntry ε]

/-- What a lawful turn leaves is what its changes make of the store it began with. -/
theorem Lawful.after_eq {turn : Turn ε} (lawful : turn.Lawful) :
    turn.after = turn.changes.foldl StoreOperation.apply turn.before := by
  by_cases success : turn.answer = some (.ok true)
  · obtain ⟨loaded, -, eq, after⟩ := lawful.changed success
    simp only [changes, success]
    rw [after, eq]
  · have none : turn.changes = [] := by
      rw [changes]
      split
      · contradiction
      · rfl
    rw [none, lawful.unchanged success]
    rfl

/-- Being refused is lawful. -/
theorem lawful_of_refused {operation : EngineOperation} {store : Store ε}
    (refused : operation.Refused store) :
    Lawful ⟨operation, store, [], some (.ok false), store⟩ where
  refused _ := ⟨rfl, rfl⟩
  accepted accepted := absurd refused accepted
  ending := .finished (by simp) false
  inOrder accepted := absurd refused accepted
  told := by simp
  reloads := by simp
  unchanged _ := rfl
  changed success := by cases success

/-- Loading one bundle is lawful, whatever comes of the load. -/
theorem lawful_of_loadOne {operation : EngineOperation} {store : Store ε} {name : String}
    (accepted : ¬ operation.Refused store) (plan : operation.plan store = [name])
    (opening : operation.opening = []) (single : operation ≠ .reloadAll)
    (languages : List Language) (answer : Option (Except LoadError Messages)) :
    Lawful ⟨operation, store, [.languages languages, .load name languages answer],
      answer.map (Except.map fun _ => true),
      match answer with
      | some (.ok messages) => store.replaceBundle name messages
      | _ => store⟩ where
  refused refused := absurd refused accepted
  accepted _ := by rcases answer with _ | error | messages <;> simp [Except.map]
  ending := by
    have known : ∀ call ∈ [Call.languages languages], call.Succeeded := by simp [Call.Succeeded]
    rcases answer with _ | error | messages
    · exact Ending.abandoned known rfl
    · exact Ending.failed known rfl
    · exact Ending.finished (by simp [Call.Succeeded]) true
  inOrder _ := by
    refine ⟨languages, ⟨[name], ⟨[], plan.symm⟩, rfl⟩, fun value success => ?_⟩
    rw [plan]
    rfl
  told := by
    rintro bundle wanted answer mem
    obtain ⟨-, rfl, -⟩ : bundle = name ∧ wanted = languages ∧ answer = _ := by simpa using mem
    exact List.mem_cons_self
  reloads := by simp [single]
  unchanged failure := by
    rcases answer with _ | error | messages
    · rfl
    · rfl
    · exact absurd rfl failure
  changed success := by
    rcases answer with _ | error | messages
    · cases success
    · cases success
    · refine ⟨[messages], ?_, ?_, ?_⟩
      · rw [plan]
        rfl
      · rw [plan]
        rfl
      · rw [plan, opening]
        rfl

end Turn

namespace Surroundings

variable {ε τ : Type} [MessageEntry ε] (surroundings : Surroundings τ)

/-- The turn of an operation, and the surroundings after it. -/
def perform (operation : EngineOperation) (store : Store ε) (outside : τ) : Turn ε × τ :=
  let (answer, world) := surroundings.run operation.program ⟨store, outside, []⟩
  (⟨operation, store, world.calls, answer, world.store⟩, world.outside)

/-- A run of operations, each on what the one before has left, whatever came of it. -/
def performAll : List EngineOperation → Store ε → τ → List (Turn ε)
  | [], _, _ => []
  | operation :: rest, store, outside =>
    let (turn, outside) := surroundings.perform operation store outside
    turn :: performAll rest turn.after outside

/-! ### Each operation -/

/-- An operation that comes to an end without a call and without a change is lawful when it is
refused. -/
theorem lawful_perform_of_refused {operation : EngineOperation} {store : Store ε} {outside : τ}
    (refused : operation.Refused store)
    (ran : surroundings.run operation.program ⟨store, outside, []⟩ =
      (some (.ok false), ⟨store, outside, []⟩)) :
    (surroundings.perform operation store outside).1.Lawful := by
  rw [perform, ran]
  exact Turn.lawful_of_refused refused

/-- An operation that loads one bundle is lawful. -/
theorem lawful_perform_of_loadOne {operation : EngineOperation} {store : Store ε} {outside : τ}
    {name : String} (accepted : ¬ operation.Refused store) (plan : operation.plan store = [name])
    (opening : operation.opening = []) (single : operation ≠ .reloadAll)
    (ran : surroundings.run operation.program ⟨store, outside, []⟩ =
      surroundings.run (EngineProgram.loadOne name) ⟨store, outside, []⟩) :
    (surroundings.perform operation store outside).1.Lawful := by
  obtain ⟨languages, answer, last, loaded⟩ :=
    surroundings.exists_run_loadOne name ⟨store, outside, []⟩
  rw [perform, ran, loaded]
  exact Turn.lawful_of_loadOne accepted plan opening single languages answer

theorem lawful_perform_add (name : String) (store : Store ε) (outside : τ) :
    (surroundings.perform (.add name) store outside).1.Lawful := by
  have start : surroundings.run (EngineOperation.add name).program ⟨store, outside, []⟩ =
      surroundings.run (if store.containsBundle name then pure (.ok false)
        else EngineProgram.loadOne name) ⟨store, outside, []⟩ := by
    rw [EngineOperation.program, EngineProgram.addBundle, run_alone, run_snapshot]
  cases registered : store.containsBundle name with
  | true =>
    rw [registered, if_pos rfl] at start
    exact surroundings.lawful_perform_of_refused registered start
  | false =>
    rw [registered, if_neg Bool.false_ne_true] at start
    -- A bundle that is not registered cannot be refused for being so.
    refine surroundings.lawful_perform_of_loadOne (fun refused => ?_) rfl rfl (by simp) start
    exact Bool.false_ne_true (registered.symm.trans refused)

theorem lawful_perform_reload (name : String) (store : Store ε) (outside : τ) :
    (surroundings.perform (.reload name) store outside).1.Lawful := by
  have start : surroundings.run (EngineOperation.reload name).program ⟨store, outside, []⟩ =
      surroundings.run (if store.containsBundle name then EngineProgram.loadOne name
        else pure (.ok false)) ⟨store, outside, []⟩ := by
    rw [EngineOperation.program, EngineProgram.reloadBundle, run_alone, run_snapshot]
  cases registered : store.containsBundle name with
  | false =>
    rw [registered, if_neg Bool.false_ne_true] at start
    exact surroundings.lawful_perform_of_refused registered start
  | true =>
    rw [registered, if_pos rfl] at start
    refine surroundings.lawful_perform_of_loadOne (fun refused => ?_) rfl rfl (by simp) start
    exact Bool.false_ne_true (refused.symm.trans registered)

theorem lawful_perform_remove (name : String) (store : Store ε) (outside : τ) :
    (surroundings.perform (.remove name) store outside).1.Lawful := by
  have start : surroundings.run (EngineProgram.removeBundle name) ⟨store, outside, []⟩ =
      surroundings.run (if store.containsBundle name then do
          EngineProgram.ask (.publish (store.removeBundle name).2)
          pure true
        else pure false) ⟨store, outside, []⟩ := by
    rw [EngineProgram.removeBundle, run_alone, run_snapshot]
    rfl
  cases registered : store.containsBundle name with
  | false =>
    rw [registered, if_neg Bool.false_ne_true] at start
    refine surroundings.lawful_perform_of_refused registered ?_
    rw [EngineOperation.program, run_bind, start]
    rfl
  | true =>
    rw [registered, if_pos rfl, run_publish] at start
    have accepted : ¬ (EngineOperation.remove name).Refused store := fun refused =>
      Bool.false_ne_true (refused.symm.trans registered)
    rw [perform, EngineOperation.program, run_bind, start]
    exact
      { refused := fun refused => absurd refused accepted
        accepted := by simp
        ending := .finished (by simp) true
        inOrder := fun _ => ⟨[], ⟨[], List.nil_prefix, rfl⟩, fun _ _ => rfl⟩
        told := by simp
        reloads := by simp
        unchanged := fun failure => absurd rfl failure
        changed := fun _ => ⟨[], rfl, rfl, rfl⟩ }

theorem lawful_perform_reloadAll (store : Store ε) (outside : τ) :
    (surroundings.perform .reloadAll store outside).1.Lawful := by
  obtain ⟨calls, last, result, published, ran, ending, ⟨languages, inOrder⟩, told, reloads,
    unchanged, changed⟩ := surroundings.exists_run_reloadAll ⟨store, outside, []⟩
  have performed : (surroundings.perform .reloadAll store outside).1 =
      ⟨.reloadAll, store, calls, result.map (Except.map fun _ => true), published⟩ := by
    rw [perform, EngineOperation.program, run_bind, ran]
    rcases result with _ | error | value <;> rfl
  have success_iff : result.map (Except.map fun _ => true) = some (.ok true) ↔
      result = some (.ok ()) := by
    rcases result with _ | error | value <;> simp [Except.map]
  rw [performed]
  exact
    { refused := fun refused => refused.elim
      accepted := fun _ => by rcases result with _ | error | value <;> simp [Except.map]
      ending := ending.map _
      inOrder := fun _ => ⟨languages, inOrder.map _⟩
      told
      reloads := reloads.trans (iff_and_self.2 fun _ => rfl)
      unchanged := fun failure => unchanged (mt success_iff.2 failure)
      changed := by
        intro success
        obtain rfl := success_iff.1 success
        obtain ⟨loaded, length, eq⟩ := Call.exists_filterMap_loaded? calls ending.succeeded
        have asked : (calls.filterMap Call.asked?).map Prod.fst = store.bundleNames := by
          rw [inOrder.complete () rfl, List.map_map]
          exact List.map_id _
        rw [← List.length_map Prod.fst, asked] at length
        rw [asked] at eq
        refine ⟨loaded, length, eq, ?_⟩
        rw [changed rfl, eq]
        rfl }

/-- **Every operation is lawful**, from any store and in any surroundings. -/
theorem lawful_perform (operation : EngineOperation) (store : Store ε) (outside : τ) :
    (surroundings.perform operation store outside).1.Lawful := by
  cases operation with
  | add name => exact surroundings.lawful_perform_add name store outside
  | remove name => exact surroundings.lawful_perform_remove name store outside
  | reload name => exact surroundings.lawful_perform_reload name store outside
  | reloadAll => exact surroundings.lawful_perform_reloadAll store outside

end Surroundings

/-! ## Runs -/

/-- Every turn begins with the store that the one before has left. -/
def Continuous {ε : Type} (store : Store ε) : List (Turn ε) → Prop
  | [] => True
  | turn :: rest => turn.before = store ∧ Continuous turn.after rest

/-- The store that is published after some turns. -/
def publishedAfter {ε : Type} (store : Store ε) (turns : List (Turn ε)) : Store ε :=
  turns.foldl (fun _ turn => turn.after) store

section Runs

variable {ε τ : Type} [MessageEntry ε]

/-- **The published store after lawful turns** has gone through the changes of all turns.  By
induction on the turns: the next ones begin with what the first has made of the store. -/
theorem publishedAfter_eq {store : Store ε} {turns : List (Turn ε)}
    (continuous : Continuous store turns) (lawful : ∀ turn ∈ turns, turn.Lawful) :
    publishedAfter store turns = (turns.flatMap Turn.changes).foldl StoreOperation.apply store := by
  induction turns generalizing store with
  | nil => rfl
  | cons turn rest ih =>
    obtain ⟨rfl, continuous⟩ := continuous
    have head := (lawful turn List.mem_cons_self).after_eq
    have tail := ih continuous fun later mem => lawful later (List.mem_cons_of_mem _ mem)
    rw [List.flatMap_cons, List.foldl_append, ← head, ← tail]
    rfl

variable (surroundings : Surroundings τ)

/-- The turns of a run are those of its operations. -/
theorem map_operation_performAll (operations : List EngineOperation) (store : Store ε)
    (outside : τ) :
    (surroundings.performAll operations store outside).map Turn.operation = operations := by
  induction operations generalizing store outside with
  | nil => rfl
  | cons operation rest ih => exact congrArg (operation :: ·) (ih _ _)

/-- A run is continuous. -/
theorem continuous_performAll (operations : List EngineOperation) (store : Store ε) (outside : τ) :
    Continuous store (surroundings.performAll operations store outside) := by
  induction operations generalizing store outside with
  | nil => trivial
  | cons operation rest ih => exact ⟨rfl, ih _ _⟩

/-- The turns of a run are lawful.  No invariant of the store has to be carried along, as a turn is
lawful from any store. -/
theorem lawful_of_mem_performAll {operations : List EngineOperation} {store : Store ε}
    {outside : τ} {turn : Turn ε} (mem : turn ∈ surroundings.performAll operations store outside) :
    turn.Lawful := by
  induction operations generalizing store outside with
  | nil => cases mem
  | cons operation rest ih =>
    rcases List.mem_cons.1 mem with rfl | mem
    · exact surroundings.lawful_perform operation store outside
    · exact ih mem

/-- What a run publishes in the end. -/
theorem publishedAfter_performAll (operations : List EngineOperation) (store : Store ε)
    (outside : τ) :
    publishedAfter store (surroundings.performAll operations store outside) =
      ((surroundings.performAll operations store outside).flatMap Turn.changes).foldl
        StoreOperation.apply store :=
  publishedAfter_eq (continuous_performAll surroundings operations store outside) fun _ mem =>
    lawful_of_mem_performAll surroundings mem

/-- **No operation is published in part.**  In any surroundings, whatever they reply, and from any
store: a run of operations is one turn for each, every turn begins with the store that the one
before has left, and every turn is lawful. -/
theorem performAll_lawful (operations : List EngineOperation) (store : Store ε) (outside : τ) :
    (surroundings.performAll operations store outside).map Turn.operation = operations ∧
      Continuous store (surroundings.performAll operations store outside) ∧
        ∀ turn ∈ surroundings.performAll operations store outside, turn.Lawful :=
  ⟨map_operation_performAll surroundings operations store outside,
    continuous_performAll surroundings operations store outside, fun _ mem =>
      lawful_of_mem_performAll surroundings mem⟩

end Runs

/-- An engine takes such turns with its own registry and source, and keeps everything but the store
and the registry. -/
theorem Engine.run_program_eq_perform {ε σ : Type} [MessageEntry ε] [MessageSource σ]
    (operation : EngineOperation) (engine : Engine ε) (source : σ) :
    Engine.run operation.program (engine, source) =
      match (Surroundings.ofEngine σ).perform operation engine.store (engine.registry, source) with
      | (turn, registry, source) =>
        (turn.answer, ({ engine with store := turn.after, registry }, source)) :=
  Engine.run_eq_run_ofEngine operation.program engine source []

end Phrasebook
