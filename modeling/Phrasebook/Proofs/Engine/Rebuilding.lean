import Mathlib.Logic.Function.Basic
import Phrasebook.Proofs.Engine.Publication
import Phrasebook.Proofs.Store.Distinct
import Phrasebook.Proofs.Store.Recorded

/-!
# Loading everything anew forgets the past

The records of a store go stale when bundles take keys over from each other, and unloading by a
stale record deletes messages of other bundles.  So what a single replacement leaves behind depends
on the whole past of the store.  Loading all bundles anew does not: the store is cleared first,
which empties every record, and no bundle stands in it twice, so from then on nothing is unloaded.
The answers of the source are laid over each other in the order of the bundles.

`Store.Holds` says what such a store is like, in terms of the bundles and the answers alone.

## Main statement

- `reloadAll_rebuilds`: whenever all bundles have been loaded anew with success, the store holds
  what the source has answered, and it is the same as if the bundles had been loaded for the first
  time.
-/

namespace Phrasebook

/-! ## Stores made of answers -/

namespace Store

variable {ε : Type} [MessageEntry ε]

/-- **A store holds what bundles say**: these bundles stand in it, in this order; each records the
keys of its messages in all languages; and a key leads to the message of the last bundle that has it
in the language. -/
structure Holds (names : List String) (messages : String → Messages) (store : Store ε) :
    Prop where
  bundles : store.bundleNames = names
  keys : ∀ name ∈ names, ∃ keys, store.bundleKeys name = some keys ∧
    ∀ key, key ∈ keys ↔ ∃ language raw, heldIn (messages name) key language = some raw
  entries : ∀ key language, store.lookup key language =
    (names.reverse.findSome? fun name => heldIn (messages name) key language).map
      MessageEntry.compile

omit [MessageEntry ε] in
/-- The store in which bundles are registered and nothing is loaded. -/
def registered (names : List String) : Store ε :=
  ⟨Dict.empty, names.map fun name => ⟨name, KeySet.empty⟩⟩

omit [MessageEntry ε] in
/-- Clearing leaves of a store which bundles are registered. -/
theorem cleared_eq_registered (store : Store ε) :
    store.cleared = registered store.bundleNames := by
  rw [cleared, registered, bundleNames, List.map_map]
  rfl

omit [MessageEntry ε] in
@[simp]
theorem bundleNames_registered (names : List String) :
    (registered names : Store ε).bundleNames = names := by
  simp [registered, bundleNames, Function.comp_def]

omit [MessageEntry ε] in
theorem not_records_registered (names : List String) (name key : String) :
    ¬ (registered names : Store ε).Records name key := by
  have cleared := cleared_eq_registered (registered names : Store ε)
  rw [bundleNames_registered] at cleared
  exact cleared ▸ not_records_cleared (registered names) name key

/-- **Registered bundles that are loaded in turn are what the store holds.** -/
theorem holds_loadInTurn {names : List String} (distinct : names.Nodup)
    (messages : String → Messages) :
    ((registered names : Store ε).loadInTurn messages names).Holds names messages where
  bundles := by
    have all : names ⊆ (registered names : Store ε).bundleNames := by simp
    rw [bundleNames_loadInTurn_of_subset all, bundleNames_registered]
  keys name mem :=
    ⟨keysOf (messages name), bundleKeys_loadInTurn distinct mem, fun _ => mem_keysOf⟩
  entries key language := by
    have unrecorded : ∀ name ∈ names, ¬ (registered names : Store ε).Records name key :=
      fun name _ => not_records_registered names name key
    rw [lookup_loadInTurn_of_unrecorded distinct unrecorded]
    exact Option.or_none

end Store

/-! ## Reached stores -/

section

variable {ε τ : Type} [MessageEntry ε] {surroundings : Surroundings τ}
  {operations : List EngineOperation} {outside : τ} {turn : Turn ε}

/-- A turn that begins with what a history has left leaves what a longer one does. -/
theorem after_eq_ofHistory {history : List StoreOperation} (lawful : turn.Lawful)
    (before : turn.before = Store.ofHistory history) :
    turn.after = Store.ofHistory (history ++ turn.changes) := by
  rw [lawful.after_eq, before, Store.ofHistory, Store.ofHistory, List.foldl_append]

/-- What a run begins a turn with has a history, if the store that it began with has one. -/
theorem exists_before_eq_ofHistory {history : List StoreOperation}
    (mem : turn ∈ surroundings.performAll operations (Store.ofHistory history) outside) :
    ∃ longer, turn.before = (Store.ofHistory longer : Store ε) := by
  induction operations generalizing history outside with
  | nil => cases mem
  | cons operation rest ih =>
    rcases List.mem_cons.1 mem with rfl | mem
    · exact ⟨history, rfl⟩
    · have lawful := surroundings.lawful_perform operation (Store.ofHistory history : Store ε)
        outside
      exact ih (after_eq_ofHistory lawful rfl ▸ mem)

/-- No bundle is registered twice when a turn begins. -/
theorem nodup_bundleNames_before
    (mem : turn ∈ surroundings.performAll operations Store.empty outside) :
    turn.before.bundleNames.Nodup := by
  have mem : turn ∈ surroundings.performAll operations (Store.ofHistory [] : Store ε) outside := mem
  obtain ⟨history, before⟩ := exists_before_eq_ofHistory mem
  rw [before]
  exact (Store.IsRecorded.ofHistory history).distinct

/-! ## All bundles anew -/

/-- Values for different keys are the values of a function. -/
theorem exists_eq_map_of_nodup {α β : Type} [DecidableEq α] [Inhabited β] :
    {keys : List α} → {values : List β} → keys.Nodup → values.length = keys.length →
      ∃ f : α → β, values = keys.map f
  | [], [], _, _ => ⟨fun _ => default, rfl⟩
  | key :: keys, value :: values, distinct, length => by
    obtain ⟨notMem, distinctRest⟩ := List.nodup_cons.1 distinct
    obtain ⟨f, rfl⟩ := exists_eq_map_of_nodup distinctRest (Nat.succ.inj length)
    refine ⟨Function.update f key value, ?_⟩
    rw [List.map_cons, Function.update_self]
    refine congrArg (value :: ·) (List.map_congr_left fun other mem => ?_)
    rw [Function.update_of_ne (ne_of_mem_of_not_mem mem notMem)]

/-- **Loading everything anew forgets the past.**  In any surroundings, after any run of operations
and whatever came of them: when all bundles have been loaded anew with success, the source has
answered messages for every registered bundle, in order, and the store holds these and nothing else.
It is the store that the answers make when the bundles are loaded for the first time, whatever the
store was before. -/
theorem reloadAll_rebuilds
    (mem : turn ∈ surroundings.performAll operations Store.empty outside)
    (everything : turn.operation = .reloadAll) (success : turn.answer = some (.ok true)) :
    ∃ messages : String → Messages,
      turn.calls.filterMap Call.loaded? =
        turn.before.bundleNames.map (fun name => .replace name (messages name)) ∧
      turn.after.Holds turn.before.bundleNames messages ∧
      turn.after =
        (Store.registered turn.before.bundleNames).loadInTurn messages turn.before.bundleNames := by
  have distinct := nodup_bundleNames_before mem
  obtain ⟨loaded, length, calls, after⟩ :=
    (lawful_of_mem_performAll surroundings mem).changed success
  rw [everything] at length calls after
  obtain ⟨messages, rfl⟩ := exists_eq_map_of_nodup distinct length
  have replaced : List.zipWith StoreOperation.replace turn.before.bundleNames
      (turn.before.bundleNames.map messages) =
        turn.before.bundleNames.map fun name => .replace name (messages name) := by
    rw [List.zipWith_map_right, List.zipWith_self]
  have rebuilt : turn.after =
      (Store.registered turn.before.bundleNames).loadInTurn messages turn.before.bundleNames := by
    rw [after, ← Store.cleared_eq_registered]
    show (List.zipWith _ turn.before.bundleNames _).foldl _ turn.before.cleared = _
    rw [replaced, List.foldl_map]
    rfl
  refine ⟨messages, calls.trans replaced, ?_, rebuilt⟩
  rw [rebuilt]
  exact Store.holds_loadInTurn distinct messages

end

/-- A source of two bundles that have a key in common. -/
def sharing : Surroundings Unit where
  languages _ := ([{ identifier := "en", name := "English" }], ())
  reloadLanguages _ := (.ok (), ())
  load bundle _ _ :=
    (some (.ok (Dict.ofList [("en", Dict.ofList [("shared", bundle), (bundle, "own")])])), ())

/-- The first bundle takes the common key back from the second, until all are loaded anew. -/
theorem reloadAll_rebuilds_sharing :
    ∃ turn ∈ (sharing.performAll [.add "first", .add "second", .reload "first", .reloadAll]
        Store.empty () : List (Turn RawEntry)),
      turn.operation = .reloadAll ∧ turn.answer = some (.ok true) ∧
        turn.before.lookup "shared" "en" = some ⟨"first"⟩ ∧
        turn.after.lookup "shared" "en" = some ⟨"second"⟩ ∧
        ∃ messages, turn.after.Holds ["first", "second"] messages := by
  have mem := List.getElem_mem (l := (sharing.performAll
    [.add "first", .add "second", .reload "first", .reloadAll] Store.empty () :
      List (Turn RawEntry))) (n := 3) (by decide)
  obtain ⟨messages, -, holds, -⟩ := reloadAll_rebuilds mem rfl rfl
  exact ⟨_, mem, rfl, rfl, by decide +kernel, by decide +kernel, messages, holds⟩

end Phrasebook
