import Phrasebook.Proofs.Engine.Surroundings
import Phrasebook.Proofs.Source.Serving
import Phrasebook.Proofs.Store.Distinct

/-!
# Loading bundles one after the other

What one load does to an engine is told by the answer of the source (`Engine.taking`), whether the
bundle is new (`addBundle_of_new`) or not (`reloadBundle_of_registered`).

Adding bundles to an engine goes on until a load fails.  Where the source is known to answer one
load after the other (`Serves`), whatever becomes of it on the way, this is told by the answers
alone: if all of them are messages, then the store is the one that these make, and otherwise the
first error is the result.
-/

namespace Phrasebook

namespace Engine

variable {ε σ : Type} [MessageEntry ε] [MessageSource σ]

/-- The engine after a load of a bundle has been answered.  An error changes nothing. -/
def taking (engine : Engine ε) (name : String) : Except LoadError Messages → Engine ε
  | .error _ => engine
  | .ok messages => { engine with store := engine.store.replaceBundle name messages }

/-- With nobody else around, all that loading one bundle asks for is answered by the engine
itself. -/
theorem run_loadOne {engine : Engine ε} {source changed : σ} {name : String}
    {answer : Except LoadError Messages}
    (loaded : (MessageSource.load name engine.registry.languages : Loading σ _) source =
      (some answer, changed)) :
    (run (EngineProgram.loadOne name) : Loading (Engine ε × σ) _) (engine, source) =
      (some (answer.map fun _ => true), (engine.taking name answer, changed)) := by
  rw [run_eq_run_ofEngine (EngineProgram.loadOne name) engine source [], EngineProgram.loadOne,
    Surroundings.run_languages, Surroundings.run_load]
  simp only [Surroundings.ofEngine, World.after, loaded]
  cases answer <;> rfl

omit [MessageEntry ε] in
/-- Whoever works alone begins with the published store. -/
theorem run_alone_snapshot {α : Type} (engine : Engine ε) (source : σ)
    (next : Store ε → EngineProgram ε α) :
    (run (EngineProgram.alone (EngineProgram.ask .snapshot >>= next)) : Loading (Engine ε × σ) α)
        (engine, source) =
      (run (next engine.store) : Loading (Engine ε × σ) α) (engine, source) := by
  rw [run_eq_run_ofEngine _ engine source [], run_eq_run_ofEngine _ engine source [],
    Surroundings.run_alone, Surroundings.run_snapshot]

/-- A new bundle is loaded, and registered unless that fails. -/
theorem addBundle_of_new {engine : Engine ε} {source changed : σ} {name : String}
    {answer : Except LoadError Messages} (new : engine.store.containsBundle name = false)
    (loaded : (MessageSource.load name engine.registry.languages : Loading σ _) source =
      (some answer, changed)) :
    (addBundle name : Loading (Engine ε × σ) _) (engine, source) =
      (some (answer.map fun _ => true), (engine.taking name answer, changed)) := by
  rw [addBundle, EngineProgram.addBundle, run_alone_snapshot, new, if_neg Bool.false_ne_true]
  exact run_loadOne loaded

/-- A registered bundle is loaded anew. -/
theorem reloadBundle_of_registered {engine : Engine ε} {source changed : σ} {name : String}
    {answer : Except LoadError Messages} (registered : engine.store.containsBundle name = true)
    (loaded : (MessageSource.load name engine.registry.languages : Loading σ _) source =
      (some answer, changed)) :
    (reloadBundle name : Loading (Engine ε × σ) _) (engine, source) =
      (some (answer.map fun _ => true), (engine.taking name answer, changed)) := by
  rw [reloadBundle, EngineProgram.reloadBundle, run_alone_snapshot, registered, if_pos rfl]
  exact run_loadOne loaded

theorem addBundles_cons (engine : Engine ε) (source : σ) (name : String) (rest : List String) :
    (addBundles (name :: rest) : Loading (Engine ε × σ) _) (engine, source) =
      match (addBundle name : Loading (Engine ε × σ) _) (engine, source) with
      | (some (.error error), state) => (some (.error error), state)
      | (some (.ok _), state) => (addBundles rest : Loading (Engine ε × σ) _) state
      | (none, state) => (none, state) := by
  refine (Loading.bind_apply (addBundle name) _ (engine, source)).trans ?_
  rcases (addBundle name : Loading (Engine ε × σ) _) (engine, source) with
    ⟨_ | error | added, state⟩ <;> rfl

variable {answer : String → Except LoadError Messages} {messages : String → Messages}
  {bundles : List String}

/-- The first of new bundles is new, and so are the others once it is registered. -/
theorem new_of_distinct {engine : Engine ε} {name : String} {rest : List String}
    (distinct : (engine.store.bundleNames ++ name :: rest).Nodup) :
    engine.store.containsBundle name = false ∧ ∀ answer,
      ((engine.taking name answer).store.bundleNames ++ rest).Nodup := by
  have new := Store.new_of_nodup distinct
  refine ⟨Store.containsBundle_eq_false_iff.2 new, fun answer => ?_⟩
  cases answer with
  | error error => exact distinct.sublist ((List.sublist_cons_self name rest).append_left _)
  | ok messages =>
    show ((engine.store.replaceBundle name messages).bundleNames ++ rest).Nodup
    rwa [Store.bundleNames_replaceBundle_of_new new, List.append_assoc]

/-- **The first load that fails is the end.** -/
theorem addBundles_of_failure (engine : Engine ε) {source : σ} {error : LoadError}
    (distinct : (engine.store.bundleNames ++ bundles).Nodup)
    (serves : Serves engine.registry.languages answer bundles source)
    (first : (bundles.findSome? fun name => failure? (answer name)) = some error) :
    ∃ state, (addBundles bundles : Loading (Engine ε × σ) _) (engine, source) =
      (some (.error error), state) := by
  induction bundles generalizing engine source with
  | nil => cases first
  | cons name rest ih =>
    obtain ⟨new, distinctRest⟩ := new_of_distinct distinct
    obtain ⟨changed, loaded, onward⟩ := serves
    rw [addBundles_cons, addBundle_of_new new loaded]
    rw [List.findSome?_cons] at first
    cases answered : answer name with
    | error fault =>
      rw [answered] at first
      cases first
      exact ⟨_, rfl⟩
    | ok loaded =>
      rw [answered] at first
      exact ih _ (distinctRest (.ok loaded)) onward first

/-- **Loads that all succeed make the store.** -/
theorem addBundles_of_messages (engine : Engine ε) {source : σ}
    (distinct : (engine.store.bundleNames ++ bundles).Nodup)
    (serves : Serves engine.registry.languages answer bundles source)
    (good : ∀ name ∈ bundles, answer name = .ok (messages name)) :
    ∃ changed, (addBundles bundles : Loading (Engine ε × σ) _) (engine, source) =
      (some (.ok ()),
        ({ engine with store := engine.store.loadInTurn messages bundles }, changed)) := by
  induction bundles generalizing engine source with
  | nil => exact ⟨source, rfl⟩
  | cons name rest ih =>
    obtain ⟨new, distinctRest⟩ := new_of_distinct distinct
    obtain ⟨changed, loaded, onward⟩ := serves
    rw [addBundles_cons, addBundle_of_new new loaded, good name List.mem_cons_self]
    exact ih _ (distinctRest (.ok (messages name))) onward fun other mem =>
      good other (List.mem_cons_of_mem name mem)

end Engine

end Phrasebook
