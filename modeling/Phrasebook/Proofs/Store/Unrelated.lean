import Phrasebook.Proofs.Store.History

/-!
# Operations on unrelated bundles

An operation on a bundle sweeps every language for the keys of one record and then writes the keys
of its own messages.  These are the keys that it **touches**.  What becomes of a key depends on
whether the bundle recorded it, on what the operation writes and on what was found before, so two
operations on different bundles that touch no key in common pass each other by.

Nothing is asked of the store.  Other bundles may have taken keys over from these two or from each
other, and a record may be stale: the operations then delete messages of third bundles, and it is
still the same messages in either order.  Only the place of a bundle that becomes registered may
depend on the order.

## Main statement

- `apply_comm_of_unrelated`: the operations lead to the same lookups, counts and records, whichever
  comes first.
-/

namespace Phrasebook

namespace StoreOperation

/-- An operation is **on** a bundle when it replaces or removes it. -/
def IsOn (name : String) : StoreOperation → Prop
  | replace other _ => other = name
  | remove other => other = name
  | clear => False

/-- The messages that an operation puts in. -/
def loaded : StoreOperation → Messages
  | replace _ loaded => loaded
  | remove _ => Dict.empty
  | clear => Dict.empty

/-- What an operation on a bundle leaves as the record of the bundle. -/
def record? : StoreOperation → Option KeySet
  | replace _ loaded => some (Store.keysOf loaded)
  | remove _ => none
  | clear => none

variable {ε : Type}

/-- **An operation on a bundle touches** the keys that the bundle has recorded and those of the new
messages. -/
def Touches (operation : StoreOperation) (store : Store ε) (name key : String) : Prop :=
  store.Records name key ∨ key ∈ Store.keysOf operation.loaded

instance (operation : StoreOperation) (store : Store ε) (name key : String) :
    Decidable (operation.Touches store name key) :=
  inferInstanceAs (Decidable (_ ∨ _))

variable [MessageEntry ε] {operation : StoreOperation} {store : Store ε}
  {name other key language : String}

/-! ## One operation -/

theorem lookup_apply (on : operation.IsOn name) (store : Store ε) (key language : String) :
    (operation.apply store).lookup key language =
      ((heldIn operation.loaded key language).map MessageEntry.compile).or
        (if store.Records name key then none else store.lookup key language) := by
  cases operation with
  | replace bundle loaded =>
    obtain rfl : bundle = name := on
    exact store.lookup_replaceBundle bundle loaded key language
  | remove bundle =>
    obtain rfl : bundle = name := on
    exact store.lookup_removeBundle bundle key language
  | clear => exact on.elim

theorem bundleKeys_apply (on : operation.IsOn name) (store : Store ε) (other : String) :
    (operation.apply store).bundleKeys other =
      if other = name then operation.record? else store.bundleKeys other := by
  cases operation with
  | replace bundle loaded =>
    obtain rfl : bundle = name := on
    exact store.bundleKeys_replaceBundle bundle loaded other
  | remove bundle =>
    obtain rfl : bundle = name := on
    exact store.bundleKeys_removeBundle bundle other
  | clear => exact on.elim

/-- What is recorded is the keys of what was put in. -/
theorem eq_keysOf_of_record? {keys : KeySet} (recorded : operation.record? = some keys) :
    keys = Store.keysOf operation.loaded := by
  cases operation with
  | replace bundle loaded => exact (Option.some_inj.1 recorded).symm
  | remove bundle => cases recorded
  | clear => cases recorded

/-- An operation on one bundle leaves the record of another alone. -/
theorem records_apply_of_ne (on : operation.IsOn name) (different : other ≠ name) :
    (operation.apply store).Records other key ↔ store.Records other key := by
  rw [Store.Records, bundleKeys_apply on, if_neg different, Store.Records]

/-- A key that is not touched leads where it led before. -/
theorem lookup_apply_of_not_touches (on : operation.IsOn name)
    (untouched : ¬ operation.Touches store name key) :
    (operation.apply store).lookup key language = store.lookup key language := by
  obtain ⟨unrecorded, unwritten⟩ := not_or.1 untouched
  rw [lookup_apply on, Store.heldIn_eq_none_of_not_mem unwritten, if_neg unrecorded]
  rfl

/-! ## Two operations -/

/-- A key that the second operation does not touch: the first one finds it as it was, and makes of
it the same with or without the second. -/
theorem lookup_apply_comm_of_not_touches {first second : StoreOperation}
    (onFirst : first.IsOn name) (onSecond : second.IsOn other) (different : name ≠ other)
    (untouched : ¬ second.Touches store other key) :
    (second.apply (first.apply store)).lookup key language =
      (first.apply (second.apply store)).lookup key language := by
  have untouchedThen : ¬ second.Touches (first.apply store) other key := by
    rwa [Touches, records_apply_of_ne onFirst different.symm]
  have here : (second.apply store).lookup key language = store.lookup key language :=
    lookup_apply_of_not_touches onSecond untouched
  calc (second.apply (first.apply store)).lookup key language
      = (first.apply store).lookup key language :=
        lookup_apply_of_not_touches onSecond untouchedThen
    _ = (first.apply (second.apply store)).lookup key language := by
        simp only [lookup_apply onFirst, records_apply_of_ne onSecond different, here]

/-- **Operations on unrelated bundles commute.**  Two operations on different bundles that touch no
key in common lead to the same lookups, the same counts and the same records in either order. -/
theorem apply_comm_of_unrelated {first second : StoreOperation} (store : Store ε)
    (onFirst : first.IsOn name) (onSecond : second.IsOn other) (different : name ≠ other)
    (unrelated : ∀ key, first.Touches store name key → ¬ second.Touches store other key) :
    (∀ key language, (second.apply (first.apply store)).lookup key language =
        (first.apply (second.apply store)).lookup key language) ∧
      (∀ language, (second.apply (first.apply store)).messageCount language =
        (first.apply (second.apply store)).messageCount language) ∧
      ∀ bundle, (second.apply (first.apply store)).bundleKeys bundle =
        (first.apply (second.apply store)).bundleKeys bundle := by
  have lookups : ∀ key language, (second.apply (first.apply store)).lookup key language =
      (first.apply (second.apply store)).lookup key language := by
    intro key language
    by_cases touched : first.Touches store name key
    · exact lookup_apply_comm_of_not_touches onFirst onSecond different (unrelated key touched)
    · exact (lookup_apply_comm_of_not_touches onSecond onFirst different.symm touched).symm
  refine ⟨lookups, fun language => Store.messageCount_congr fun key => lookups key language, ?_⟩
  intro bundle
  rw [bundleKeys_apply onSecond, bundleKeys_apply onFirst, bundleKeys_apply onFirst,
    bundleKeys_apply onSecond]
  by_cases isFirst : bundle = name
  · have notSecond : bundle ≠ other := fun isSecond => different (isFirst.symm.trans isSecond)
    rw [if_neg notSecond, if_pos isFirst, if_pos isFirst]
  · rw [if_neg isFirst, if_neg isFirst]

/-- Three bundles: `"new"` has taken a key over from `"old"`, and `"third"` stands beside them. -/
def neighbours : List StoreOperation :=
  [.replace "old" (Dict.ofList [("en", Dict.ofList [("shared", "1"), ("own", "2")])]),
    .replace "new" (Dict.ofList [("en", Dict.ofList [("shared", "3")])]),
    .replace "third" (Dict.ofList [("en", Dict.ofList [("gone", "4")])])]

/-- The third bundle takes another key over from `"old"`, in a new language, while `"new"` goes and
deletes the key that `"old"` has still recorded. -/
theorem apply_comm_of_unrelated_neighbours :
    let store : Store RawEntry := Store.ofHistory neighbours
    let loads : StoreOperation :=
      .replace "third" (Dict.ofList [("de", Dict.ofList [("own", "5")])])
    let removes : StoreOperation := .remove "new"
    store.Records "old" "shared" ∧ store.Records "old" "own" ∧
      (∀ key, loads.Touches store "third" key → ¬ removes.Touches store "new" key) ∧
      (removes.apply (loads.apply store)).lookup "own" "de" = some ⟨"5"⟩ ∧
      ∀ key language, (removes.apply (loads.apply store)).lookup key language =
        (loads.apply (removes.apply store)).lookup key language := by
  intro store loads removes
  have onThird : loads.IsOn "third" := rfl
  have onNew : removes.IsOn "new" := rfl
  have unrelated : ∀ key, loads.Touches store "third" key →
      ¬ removes.Touches store "new" key := by
    have recordedApart : ∀ key ∈ ((store.bundleKeys "third").getD KeySet.empty).toList,
        ¬ removes.Touches store "new" key := by decide +kernel
    have loadedApart : ∀ key ∈ (Store.keysOf loads.loaded).toList,
        ¬ removes.Touches store "new" key := by decide +kernel
    rintro key (recorded | loaded)
    · exact recordedApart key recorded
    · exact loadedApart key loaded
  exact ⟨by decide +kernel, by decide +kernel, unrelated, by decide +kernel,
    (apply_comm_of_unrelated store onThird onNew (by decide) unrelated).1⟩

end StoreOperation

end Phrasebook
