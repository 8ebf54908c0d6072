import Phrasebook.Proofs.Engine.Calls

/-!
# What the parts of an operation come to

The operations of an engine are put together from three parts: loading one bundle, finding out the
languages, and the load loop.  For each of them, in any surroundings, there are calls that it makes
and a result that the calls decide; the published store is changed by the last step of an operation
only.

The load loop is the only part that needs an induction (`exists_run_loadAll`).  It goes over the
bundles still to be loaded, for every store loaded so far, so that the failure may be at any of
them.

## Main statements

- `Surroundings.exists_run_loadOne`: adding and reloading one bundle.
- `Surroundings.exists_run_reloadAll`: everything anew, where no failing call shows in the store.
-/

namespace Phrasebook

open StoreOperation

namespace Surroundings

variable {ε τ : Type} [MessageEntry ε] (surroundings : Surroundings τ)

/-- **The load loop.**  It publishes nothing; its calls end with the first that fails, they are in
order, and what it makes of the store is what the successful ones stand for.  By induction on the
bundles still to be loaded, for every store loaded so far. -/
theorem exists_run_loadAll (languages : List Language) :
    (names : List String) → (store : Store ε) → (world : World ε τ) →
      ∃ calls outside result,
        surroundings.run (EngineProgram.loadAll languages names store) world =
          (result, world.after calls outside) ∧
        Ending calls result ∧ InOrder languages names calls result ∧
        (∀ answer, Call.reloadLanguages answer ∉ calls) ∧
        ∀ loaded, result = some (.ok loaded) →
          loaded = (calls.filterMap Call.loaded?).foldl StoreOperation.apply store
  | [], store, world => by
    refine ⟨[], world.outside, some (.ok store), ?_, .finished (by simp) store, ?_, by simp, ?_⟩
    · rw [World.after_nil]
      rfl
    · exact ⟨⟨[], List.nil_prefix, rfl⟩, fun _ _ => rfl⟩
    · rintro loaded ⟨⟩
      rfl
  | name :: rest, store, world => by
    rw [EngineProgram.loadAll, run_load]
    cases surroundings.load name languages world.outside with
    | mk answer outside =>
      cases answer with
      | none =>
        exact ⟨[.load name languages none], outside, none, rfl, .abandoned_at_once rfl,
          .of_load (by simp), by simp, by simp⟩
      | some answer =>
        cases answer with
        | error error =>
          exact ⟨[.load name languages (some (.error error))], outside, some (.error error), rfl,
            .failed_at_once rfl, .of_load (by simp), by simp, by simp⟩
        | ok messages =>
          -- What the rest of the loop does is known from any store, also from the changed one.
          obtain ⟨calls, last, result, ran, ending, inOrder, noReload, loads⟩ :=
            exists_run_loadAll languages rest (store.replaceBundle name messages)
              (world.after [.load name languages (some (.ok messages))] outside)
          refine ⟨.load name languages (some (.ok messages)) :: calls, last, result, ?_, ?_,
            inOrder.cons, ?_, loads⟩
          · rw [World.after_after] at ran
            exact ran
          · have succeeded : ∀ call ∈ [Call.load name languages (some (.ok messages))],
                call.Succeeded := by
              intro call mem
              obtain rfl := List.mem_singleton.1 mem
              exact ⟨messages, rfl⟩
            exact ending.append_left succeeded
          · simpa using noReload

/-- Loading one bundle: the languages are asked for, then the bundle, and the store is changed only
by messages. -/
theorem exists_run_loadOne (name : String) (world : World ε τ) :
    ∃ languages answer outside,
      surroundings.run (EngineProgram.loadOne name) world =
        (answer.map (Except.map fun _ => true),
          { world.after [.languages languages, .load name languages answer] outside with
            store :=
              match answer with
              | some (.ok messages) => world.store.replaceBundle name messages
              | _ => world.store }) := by
  rw [EngineProgram.loadOne, run_languages]
  rcases surroundings.languages world.outside with ⟨languages, told⟩
  rw [run_load]
  rcases surroundings.load name languages (world.after [.languages languages] told).outside with
    ⟨answer, outside⟩
  refine ⟨languages, answer, outside, ?_⟩
  cases answer with
  | none => simp [World.after]
  | some answer =>
    cases answer with
    | error error => simp [World.after, Except.map]
    | ok messages =>
      simp only [World.after_after]
      rw [run_snapshot, run_publish]
      simp [World.after, Except.map]

omit [MessageEntry ε] in
/-- Finding out the languages: they are loaded anew only if none is known, no bundle is asked for,
and the languages that come out of it have been answered. -/
theorem exists_run_knownLanguages (world : World ε τ) :
    ∃ calls outside result,
      surroundings.run EngineProgram.knownLanguages world = (result, world.after calls outside) ∧
      Ending calls result ∧ (∀ call ∈ calls, call.asked? = none) ∧
      (∀ languages, result = some (.ok languages) → .languages languages ∈ calls) ∧ calls ≠ [] ∧
      ((∃ answer, .reloadLanguages answer ∈ calls) ↔ calls.head? = some (.languages [])) := by
  rw [EngineProgram.knownLanguages, run_languages]
  rcases surroundings.languages world.outside with ⟨known, outside⟩
  cases known with
  | cons language others =>
    refine ⟨[.languages (language :: others)], outside, some (.ok (language :: others)), rfl, ?_,
      ?_, ?_, by simp, by simp⟩
    · exact .finished (by simp [Call.Succeeded]) _
    · simp [Call.asked?]
    · rintro languages ⟨⟩
      exact List.mem_singleton_self _
  | nil =>
    simp only [List.isEmpty_nil, if_true]
    rw [run_reloadLanguages]
    rcases surroundings.reloadLanguages (world.after [.languages []] outside).outside with
      ⟨answer, reloaded⟩
    cases answer with
    | error error =>
      refine ⟨[.languages [], .reloadLanguages (.error error)], reloaded, some (.error error), ?_,
        ?_, ?_, ?_, by simp, by simp⟩
      · rw [World.after_after]
        rfl
      · show Ending ([Call.languages []] ++ [.reloadLanguages (.error error)]) (some (.error error))
        exact .failed (by simp [Call.Succeeded]) rfl
      · simp [Call.asked?]
      · rintro languages ⟨⟩
    | ok =>
      rcases knownNow : surroundings.languages reloaded with ⟨languages, last⟩
      refine ⟨[.languages [], .reloadLanguages (.ok ()), .languages languages], last,
        some (.ok languages), ?_, ?_, ?_, ?_, by simp, by simp⟩
      · refine (run_languages surroundings _ _).trans ?_
        show (some (Except.ok (surroundings.languages reloaded).1),
          ((world.after _ outside).after _ reloaded).after
            [.languages (surroundings.languages reloaded).1]
            (surroundings.languages reloaded).2) = _
        rw [knownNow, World.after_after, World.after_after]
        rfl
      · exact .finished (by simp [Call.Succeeded]) languages
      · simp [Call.asked?]
      · rintro languages ⟨⟩
        simp

/-- Loading everything anew.  If a call fails, whichever it is, the loaded part is thrown away with
the copy it was put into. -/
theorem exists_run_reloadAll (world : World ε τ) :
    ∃ calls outside result published,
      surroundings.run EngineProgram.reloadAll world =
        (result, { world.after calls outside with store := published }) ∧
      Ending calls result ∧
      (∃ languages, InOrder languages world.store.bundleNames calls result) ∧
      (∀ bundle languages answer, .load bundle languages answer ∈ calls →
        .languages languages ∈ calls) ∧
      ((∃ answer, .reloadLanguages answer ∈ calls) ↔ calls.head? = some (.languages [])) ∧
      (result ≠ some (.ok ()) → published = world.store) ∧
      (result = some (.ok ()) →
        published =
          (clear :: calls.filterMap Call.loaded?).foldl StoreOperation.apply world.store) := by
  obtain ⟨first, outside, found, ran, ending, elsewhere, told, nonempty, reloads⟩ :=
    surroundings.exists_run_knownLanguages world
  have noLoad : ∀ bundle languages answer, .load bundle languages answer ∈ first →
      .languages languages ∈ first := by
    intro bundle languages answer mem
    cases elsewhere _ mem
  rw [EngineProgram.reloadAll, run_alone, run_bind, ran]
  rcases found with _ | error | languages
  · exact ⟨first, outside, none, world.store, rfl, ending.map fun _ => (),
      ⟨[], .of_elsewhere elsewhere (by simp)⟩, noLoad, reloads, fun _ => rfl, by simp⟩
  · exact ⟨first, outside, some (.error error), world.store, rfl, ending.map fun _ => (),
      ⟨[], .of_elsewhere elsewhere (by simp)⟩, noLoad, reloads, fun _ => rfl, by simp⟩
  · obtain ⟨second, last, result, ran, endingLoads, inOrder, noReload, loads⟩ :=
      surroundings.exists_run_loadAll languages world.store.bundleNames world.store.cleared
        (world.after first outside)
    have toldBoth := inOrder.told_append elsewhere (told languages rfl)
    have reloadsBoth := Call.reloads_append nonempty noReload reloads
    have endingBoth := endingLoads.append_left ending.succeeded
    have inOrderBoth := inOrder.append_left elsewhere
    -- The loop works on a copy: in the first two cases it is dropped, in the last it is published.
    dsimp only
    rw [run_snapshot, run_bind, World.store_after, ran, World.after_after]
    rcases result with _ | error | loaded
    · exact ⟨first ++ second, last, none, world.store, rfl, endingBoth.map fun _ => (),
        ⟨languages, inOrderBoth.map fun _ => ()⟩, toldBoth, reloadsBoth, fun _ => rfl, by simp⟩
    · exact ⟨first ++ second, last, some (.error error), world.store, rfl,
        endingBoth.map fun _ => (), ⟨languages, inOrderBoth.map fun _ => ()⟩, toldBoth, reloadsBoth,
        fun _ => rfl, by simp⟩
    · refine ⟨first ++ second, last, some (.ok ()), loaded, ?_, endingBoth.map fun _ => (),
        ⟨languages, inOrderBoth.map fun _ => ()⟩, toldBoth, reloadsBoth,
        fun failure => absurd rfl failure, fun _ => ?_⟩
      · exact run_publish surroundings _ loaded _
      · have nothing : first.filterMap Call.loaded? = [] :=
          List.filterMap_eq_nil_iff.2 fun call mem => Call.loaded?_eq_none (elsewhere call mem)
        rw [loads loaded rfl, List.filterMap_append, nothing, List.nil_append, List.foldl_cons]
        rfl

end Surroundings

end Phrasebook
