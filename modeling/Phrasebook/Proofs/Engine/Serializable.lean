import Phrasebook.Proofs.Engine.Serial

/-!
# Operations at the same time are operations in turn

`Serialized` collects what is true of operations and lookups that are under way on one engine at the
same time, whatever the order of their steps and whatever the source answers.  Only lookups come
between the acts of an operation.  So the operations have been run one after the other, in the order
in which they have entered: they have published what they would have published then, and answered
what they would have answered.  A lookup does not enter, and yet it never sees an operation half
done.

It follows that of several operations that add a bundle at most one is told that the bundle was new.
A turn that registers a bundle leaves it registered (`Turn.Lawful.mem_of_adds`), and only a turn
that removes it can take it away (`Turn.Lawful.mem_bundleNames_after`).

## Main statement

`Crowd.Run.serialized`: every interleaving is serialized.
-/

namespace Phrasebook

open Surroundings (scripted)

section Adding

variable {ε : Type} [MessageEntry ε] {name : String} {store : Store ε} {turn : Turn ε}
  {turns : List (Turn ε)}

/-! ## A bundle that is added in one of many turns -/

/-- The turn in which a bundle is registered. -/
def Turn.Adds (name : String) (turn : Turn ε) : Prop :=
  turn.operation = .add name ∧ turn.answer = some (.ok true)

/-- Only removing a bundle takes it away. -/
theorem StoreOperation.mem_bundleNames_apply {change : StoreOperation}
    (kept : change ≠ .remove name) (mem : name ∈ store.bundleNames) :
    name ∈ (StoreOperation.apply store change).bundleNames := by
  cases change with
  | replace other loaded =>
    show name ∈ (store.replaceBundle other loaded).bundleNames
    rw [Store.bundleNames_replaceBundle]
    split
    · exact mem
    · exact List.mem_append_left [other] mem
  | remove other =>
    have distinct : name ≠ other := by
      rintro rfl
      exact kept rfl
    show name ∈ (store.removeBundle other).2.bundleNames
    rw [Store.bundleNames_removeBundle]
    exact List.mem_filter.2 ⟨mem, by simpa using distinct⟩
  | clear => exact (Store.bundleNames_cleared store).symm ▸ mem

theorem StoreOperation.mem_bundleNames_foldl {changes : List StoreOperation}
    (kept : ∀ change ∈ changes, change ≠ .remove name) (mem : name ∈ store.bundleNames) :
    name ∈ (changes.foldl StoreOperation.apply store).bundleNames := by
  induction changes generalizing store with
  | nil => exact mem
  | cons change rest ih =>
    exact ih (fun later mem => kept later (List.mem_cons_of_mem change mem))
      (mem_bundleNames_apply (kept change List.mem_cons_self) mem)

omit [MessageEntry ε] in
/-- Only a turn of the operation that removes a bundle removes it. -/
theorem Turn.ne_remove_of_mem_changes (kept : turn.operation ≠ .remove name) :
    ∀ change ∈ turn.changes, change ≠ .remove name := by
  intro change mem
  unfold changes at mem
  split at mem
  · rcases List.mem_append.1 mem with mem | mem
    · cases operation : turn.operation with
      | add other => simp [operation, EngineOperation.opening] at mem
      | reload other => simp [operation, EngineOperation.opening] at mem
      | reloadAll =>
        obtain rfl : change = .clear := by simpa [operation, EngineOperation.opening] using mem
        simp
      | remove other =>
        obtain rfl : change = .remove other := by
          simpa [operation, EngineOperation.opening] using mem
        rintro ⟨⟩
        exact kept operation
    · obtain ⟨call, -, loaded⟩ := List.mem_filterMap.1 mem
      unfold Call.loaded? at loaded
      split at loaded
      · cases loaded
        simp
      · cases loaded
  · cases mem

namespace Turn.Lawful

theorem mem_bundleNames_after (lawful : turn.Lawful) (kept : turn.operation ≠ .remove name)
    (mem : name ∈ turn.before.bundleNames) : name ∈ turn.after.bundleNames := by
  rw [lawful.after_eq]
  exact StoreOperation.mem_bundleNames_foldl (Turn.ne_remove_of_mem_changes kept) mem

/-- The turn that registers a bundle leaves it registered. -/
theorem mem_of_adds (lawful : turn.Lawful) (adds : turn.Adds name) :
    name ∈ turn.after.bundleNames := by
  obtain ⟨operation, answer⟩ := adds
  obtain ⟨loaded, length, -, after⟩ := lawful.changed answer
  rw [operation] at length after
  obtain ⟨messages, rfl⟩ := List.length_eq_one_iff.1 length
  have replaced : turn.after = turn.before.replaceBundle name messages := after
  rw [replaced, Store.bundleNames_replaceBundle]
  split
  · assumption
  · exact List.mem_append_right _ List.mem_cons_self

/-- A registered bundle is not registered again. -/
theorem not_adds (lawful : turn.Lawful) (mem : name ∈ turn.before.bundleNames) :
    ¬ turn.Adds name := by
  rintro ⟨operation, answer⟩
  have refused : turn.operation.Refused turn.before := by
    rw [operation]
    exact Store.containsBundle_iff_mem.2 mem
  cases answer.symm.trans (lawful.refused refused).1

end Turn.Lawful

/-- A registered bundle that is not removed stays registered, and no turn registers it again. -/
theorem mem_bundleNames_publishedAfter (continuous : Continuous store turns)
    (lawful : ∀ turn ∈ turns, turn.Lawful) (kept : ∀ turn ∈ turns, turn.operation ≠ .remove name)
    (mem : name ∈ store.bundleNames) :
    name ∈ (publishedAfter store turns).bundleNames ∧ ∀ turn ∈ turns, ¬ turn.Adds name := by
  induction turns generalizing store with
  | nil => exact ⟨mem, by simp⟩
  | cons turn rest ih =>
    obtain ⟨rfl, onward⟩ := continuous
    obtain ⟨lawfulHere, lawfulRest⟩ := List.forall_mem_cons.1 lawful
    obtain ⟨keptHere, keptRest⟩ := List.forall_mem_cons.1 kept
    obtain ⟨after, others⟩ :=
      ih onward lawfulRest keptRest (lawfulHere.mem_bundleNames_after keptHere mem)
    exact ⟨after, List.forall_mem_cons.2 ⟨lawfulHere.not_adds mem, others⟩⟩

/-- A bundle that is not removed is registered at most once, and is registered in the end if it has
been once. -/
theorem adds_once (continuous : Continuous store turns) (lawful : ∀ turn ∈ turns, turn.Lawful)
    (kept : ∀ turn ∈ turns, turn.operation ≠ .remove name) :
    turns.Pairwise (fun first later => ¬ (first.Adds name ∧ later.Adds name)) ∧
      ((∃ turn ∈ turns, turn.Adds name) → name ∈ (publishedAfter store turns).bundleNames) := by
  induction turns generalizing store with
  | nil => simp
  | cons turn rest ih =>
    obtain ⟨rfl, onward⟩ := continuous
    obtain ⟨lawfulHere, lawfulRest⟩ := List.forall_mem_cons.1 lawful
    have keptRest := (List.forall_mem_cons.1 kept).2
    obtain ⟨pairwise, final⟩ := ih onward lawfulRest keptRest
    have since := fun adds =>
      mem_bundleNames_publishedAfter onward lawfulRest keptRest (lawfulHere.mem_of_adds adds)
    refine ⟨List.pairwise_cons.2 ⟨?_, pairwise⟩, ?_⟩
    · rintro later mem ⟨adds, again⟩
      exact (since adds).2 later mem again
    · rintro ⟨other, mem, adds⟩
      rcases List.mem_cons.1 mem with rfl | mem
      · exact (since adds).1
      · exact final ⟨other, mem, adds⟩

end Adding

/-! ## What is true of every interleaving -/

variable {ε ι κ : Type} [MessageEntry ε] [DecidableEq ι]

/-- **The operations of a crowd are put in turn**: who has been served, in order, and with which
turn. -/
structure Serialized (errands : Errands ι κ) (resolves : Resolving) (store : Store ε)
    (acts : List (Act ε ι)) (crowd : Crowd ε ι κ) (served : List (ι × Turn ε)) : Prop where
  /-- Nobody is served twice. -/
  distinct : (served.map Prod.fst).Nodup
  /-- They are served in the order in which they have entered.  Whoever has entered last may be
  inside still, and not be served yet. -/
  ordered : entered acts = served.map Prod.fst ++ (pending crowd.hall served).toList
  /-- Each does all that it does before the next one enters. -/
  together : acts = (entered acts).flatMap (actsOf acts)
  /-- The turns are those of running the operations one after the other, with the answers that their
  calls have got. -/
  turns : served.map Prod.snd = scripted.performAll (served.map fun s => errands.operation s.1)
    store (served.flatMap fun s => callsOf acts s.1)
  /-- In its turn an operation makes the calls that it has made. -/
  calls : ∀ s ∈ served, s.2.calls = callsOf acts s.1
  /-- The stores that have been published are those that the turns publish. -/
  publications : publications acts = (served.map Prod.snd).flatMap Turn.published
  /-- The last of them is what is published now. -/
  published : crowd.hall.published = publishedAfter store (served.map Prod.snd)
  /-- Whoever is done has been served, and has answered as in its turn. -/
  returned : ∀ i result, crowd.rest i = Interaction.done result →
    ∃ turn, (i, turn) ∈ served ∧ turn.answer = some result
  /-- Nothing is published in part. -/
  lawful : ∀ s ∈ served, s.2.Lawful
  /-- Nothing that has succeeded is lost. -/
  changes : crowd.hall.published =
    ((served.map Prod.snd).flatMap Turn.changes).foldl StoreOperation.apply store
  /-- A bundle that is added and that nobody removes stays registered. -/
  kept : ∀ {name i}, (∀ j, errands.operation j ≠ .remove name) → errands.operation i = .add name →
    crowd.rest i = Interaction.done (.ok true) → name ∈ crowd.hall.published.bundleNames
  /-- Of those who add it only one answers `true`. -/
  once : ∀ {name i j}, (∀ k, errands.operation k ≠ .remove name) → errands.operation i = .add name →
    errands.operation j = .add name → crowd.rest i = Interaction.done (.ok true) →
      crowd.rest j = Interaction.done (.ok true) → i = j
  /-- A lookup answers from one store that some of the turns have left.  Under a registry that does
  not change, it answers what the engine would with that store. -/
  answered : ∀ {k snapshot visited result}, crowd.lookups k = .answered snapshot visited result →
    (∃ earlier later, served = earlier ++ later ∧
      snapshot = publishedAfter store (earlier.map Prod.snd)) ∧
    result = visited.findSome? (snapshot.lookup (errands.key k)) ∧
    ∀ engine : Engine ε, resolves.IsFixed engine.registry →
      result = { engine with store := snapshot }.entry (errands.key k) (errands.language k)

variable {errands : Errands ι κ} {resolves : Resolving} {store : Store ε} {acts : List (Act ε ι)}
  {crowd : Crowd ε ι κ} {served : List (ι × Turn ε)}

namespace InTurn

theorem performAll_eq (inTurn : InTurn errands store acts crowd served) :
    served.map Prod.snd = scripted.performAll (served.map fun s => errands.operation s.1) store
      (served.flatMap fun s => callsOf acts s.1) := by
  rw [← inTurn.turns.performAll_eq]
  exact congrArg _ (List.flatMap_congr inTurn.calls)

/-- Whoever is done has been served. -/
theorem returned (inTurn : InTurn errands store acts crowd served) {i : ι}
    {result : Except LoadError Bool} (done : crowd.rest i = Interaction.done result) :
    ∃ turn, (i, turn) ∈ served ∧ turn.answer = some result := by
  have standing := inTurn.standing i
  generalize stands : crowd.rest i = rest at standing
  cases standing with
  | waiting =>
    obtain ⟨body, program, -⟩ := (errands.operation i).exists_program_eq (ε := ε)
    cases done.symm.trans (stands.trans program)
  | working _ _ works =>
    cases works <;> cases done.symm.trans stands
  | leaving => cases done.symm.trans stands
  | @left turn _ _ mem answer =>
    cases done.symm.trans stands
    exact ⟨turn, mem, answer⟩

/-- Whoever has added a bundle has a turn in which it is registered. -/
theorem adds (inTurn : InTurn errands store acts crowd served) {name : String} {i : ι}
    (operation : errands.operation i = .add name)
    (done : crowd.rest i = Interaction.done (.ok true)) :
    ∃ turn, (i, turn) ∈ served ∧ turn.Adds name := by
  obtain ⟨turn, mem, answer⟩ := inTurn.returned done
  exact ⟨turn, mem, (inTurn.turns.operation_eq mem).trans operation, answer⟩

end InTurn

/-- **Operations at the same time are operations in turn.**  Any number of them may be under way,
and any number of lookups; they take their steps in any order, and the source may answer
anything. -/
theorem Crowd.Run.serialized [DecidableEq κ]
    (run : Crowd.Run errands resolves store acts crowd) :
    ∃ served, Serialized errands resolves store acts crowd served := by
  obtain ⟨served, inTurn, lookups⟩ := run.exists_inTurn
  have turns := inTurn.performAll_eq
  have continuous : Continuous store (served.map Prod.snd) := by
    rw [turns]
    exact continuous_performAll scripted _ _ _
  have lawful : ∀ turn ∈ served.map Prod.snd, turn.Lawful := by
    rw [turns]
    exact fun turn mem => lawful_of_mem_performAll scripted mem
  have unremoved {name : String} (kept : ∀ j, errands.operation j ≠ .remove name) :
      ∀ turn ∈ served.map Prod.snd, turn.operation ≠ .remove name := by
    intro turn mem
    obtain ⟨⟨i, turn⟩, memServed, rfl⟩ := List.mem_map.1 mem
    rw [inTurn.turns.operation_eq memServed]
    exact kept i
  refine ⟨served, {
    distinct := inTurn.distinct
    ordered := inTurn.ordered
    together := inTurn.together
    turns
    calls := inTurn.calls
    publications := inTurn.publications
    published := inTurn.published
    returned := fun _ _ => inTurn.returned
    lawful := fun s mem => lawful s.2 (List.mem_map_of_mem mem)
    changes := inTurn.published.trans (publishedAfter_eq continuous lawful)
    kept := ?_
    once := ?_
    answered := ?_ }⟩
  · intro name i kept operation done
    obtain ⟨turn, mem, adds⟩ := inTurn.adds operation done
    rw [inTurn.published]
    exact (adds_once continuous lawful (unremoved kept)).2 ⟨turn, List.mem_map_of_mem mem, adds⟩
  · intro name i j kept operation operationToo done doneToo
    obtain ⟨turn, mem, adds⟩ := inTurn.adds operation done
    obtain ⟨other, memToo, addsToo⟩ := inTurn.adds operationToo doneToo
    have pairwise := List.pairwise_map.1 (adds_once continuous lawful (unremoved kept)).1
    have symmetric : Std.Symm fun s t : ι × Turn ε => ¬ (s.2.Adds name ∧ t.2.Adds name) :=
      ⟨fun _ _ once both => once both.symm⟩
    by_contra different
    exact pairwise.forall mem memToo (by simp [different]) ⟨adds, addsToo⟩
  · intro k snapshot visited result answered
    obtain ⟨sound, reads⟩ := lookups k
    rw [answered] at sound reads
    exact ⟨reads snapshot rfl, sound.1.symm, sound.eq_entry⟩

/-- The language of the message that is looked up in `greetings`. -/
def swedish : Language := { identifier := "sv", name := "Svenska" }

/-- Two operations that add the same bundle, and a lookup of a message of it. -/
def greetings : Errands Bool Unit where
  operation _ := .add "common"
  key _ := "hello"
  language _ := swedish

/-- The messages of the bundle. -/
def greeting : Messages := Dict.ofList [("sv", Dict.ofList [("hello", "Hej")])]

/-- The store with the bundle. -/
def greeted : Store RawEntry := Store.empty.replaceBundle "common" greeting

/-- A registry that knows no language. -/
def unknowing : Resolving := fun _ next => next = none

/-- The lookup reads while the first operation is still inside, and ends after the second one. -/
theorem serialized_greetings :
    ∃ (acts : List (Act RawEntry Bool)) (crowd : Crowd RawEntry Bool Unit),
      Crowd.Run greetings unknowing Store.empty acts crowd ∧
        crowd.rest false = Interaction.done (.ok true) ∧
        crowd.rest true = Interaction.done (.ok false) ∧
        crowd.lookups () = .answered greeted ["sv"] (some ⟨"Hej"⟩) ∧
        ∃ served, Serialized greetings unknowing Store.empty acts crowd served := by
  have begun : Crowd.Run greetings unknowing (Store.empty : Store RawEntry) [] _ := .start
  have entered := begun.act false .enter () rfl ⟨rfl, rfl⟩
  have looked := entered.act false .snapshot Store.empty rfl ⟨rfl, rfl⟩
  have told := looked.act false .languages [swedish] rfl rfl
  have loaded := told.act false (.load "common" [swedish]) (.ok greeting) rfl rfl
  have lookedAgain := loaded.act false .snapshot Store.empty rfl ⟨rfl, rfl⟩
  have published := lookedAgain.act false (.publish greeted) () rfl rfl
  have read := published.look () .read
  have left := read.act false .leave () rfl rfl
  have enteredToo := left.act true .enter () rfl ⟨rfl, rfl⟩
  have lookedToo := enteredToo.act true .snapshot greeted rfl ⟨rfl, rfl⟩
  have leftToo := lookedToo.act true .leave () rfl rfl
  have holds : greeted.lookup "hello" swedish.identifier = some ⟨"Hej"⟩ := by decide +kernel
  have answered := leftToo.look () (.found List.not_mem_nil holds)
  exact ⟨_, _, answered, rfl, rfl, rfl, answered.serialized⟩

end Phrasebook
