import Mathlib.Data.List.Nodup
import Phrasebook.Proofs.Store.History

/-!
# Every message is recorded

Unloading a bundle deletes the keys of its record from every language, whoever wrote the messages,
and a bundle that takes a key over leaves it in the record of the other.  So a key may be recorded
by several bundles, and a message may go before the bundle that wrote it does.  What cannot happen
is the opposite: a message that no registered bundle records would stay for ever.

`IsRecorded` says that there is none, and that no bundle is registered twice.  Each operation keeps
it, for a reason of its own:

* a replacement writes only keys that it records, and deletes all others that the bundle recorded,
  so what is left is recorded by another bundle;
* a removal deletes all that the bundle recorded, so what is left is recorded by another bundle;
* clearing leaves no messages.

A store without bundles then has no messages, and removing every bundle, in whatever order, leads
there.

## Main statement

- `isRecorded_ofHistory`: after any history every message is recorded by a registered bundle, and
  removing all bundles leaves nothing.  A store is a value: a copy is the store that was copied,
  with the history that it had.
-/

namespace Phrasebook

namespace Store

variable {ε : Type} {store : Store ε}

/-- **No bundle is registered twice, and every message is recorded** by a registered bundle. -/
structure IsRecorded (store : Store ε) : Prop where
  distinct : store.bundleNames.Nodup
  recorded : ∀ {key language entry}, store.lookup key language = some entry →
    ∃ name ∈ store.bundleNames, store.Records name key

/-! ## Each operation -/

theorem isRecorded_empty : (empty : Store ε).IsRecorded where
  distinct := List.nodup_nil
  recorded := by simp [lookup, empty]

namespace IsRecorded

/-- What another bundle records keeps a message recorded when a bundle has been unloaded. -/
theorem exists_records_of_not_records (isRecorded : store.IsRecorded) {name key language : String}
    {entry : ε} (found : store.lookup key language = some entry)
    (unrecorded : ¬ store.Records name key) :
    ∃ other ∈ store.bundleNames, other ≠ name ∧ store.Records other key := by
  obtain ⟨other, mem, recorded⟩ := isRecorded.recorded found
  refine ⟨other, mem, ?_, recorded⟩
  rintro rfl
  exact unrecorded recorded

theorem replaceBundle [MessageEntry ε] (isRecorded : store.IsRecorded) (name : String)
    (loaded : Messages) : (store.replaceBundle name loaded).IsRecorded where
  distinct := by
    rw [bundleNames_replaceBundle]
    split
    · exact isRecorded.distinct
    · rename_i new
      exact List.nodup_append_comm.1 (List.nodup_cons.2 ⟨new, isRecorded.distinct⟩)
  recorded := by
    intro key language entry found
    rw [lookup_replaceBundle] at found
    by_cases loads : key ∈ keysOf loaded
    · have recorded : (store.replaceBundle name loaded).Records name key :=
        records_replaceBundle.2 (by rwa [if_pos rfl])
      exact ⟨name, mem_bundleNames_of_records recorded, recorded⟩
    · -- The message was there before, and not as one of this bundle.
      rw [heldIn_eq_none_of_not_mem loads, Option.map_none, Option.none_or] at found
      split at found
      · cases found
      · rename_i unrecorded
        obtain ⟨other, -, apart, recorded⟩ :=
          isRecorded.exists_records_of_not_records found unrecorded
        have recordedStill : (store.replaceBundle name loaded).Records other key :=
          records_replaceBundle.2 (by rwa [if_neg apart])
        exact ⟨other, mem_bundleNames_of_records recordedStill, recordedStill⟩

theorem removeBundle (isRecorded : store.IsRecorded) (name : String) :
    (store.removeBundle name).2.IsRecorded where
  distinct := by
    rw [bundleNames_removeBundle]
    exact isRecorded.distinct.filter _
  recorded := by
    intro key language entry found
    rw [lookup_removeBundle] at found
    split at found
    · cases found
    · rename_i unrecorded
      obtain ⟨other, -, apart, recorded⟩ :=
        isRecorded.exists_records_of_not_records found unrecorded
      have recordedStill : (store.removeBundle name).2.Records other key :=
        records_removeBundle.2 ⟨apart, recorded⟩
      exact ⟨other, mem_bundleNames_of_records recordedStill, recordedStill⟩

theorem cleared (isRecorded : store.IsRecorded) : store.cleared.IsRecorded where
  distinct := by
    rw [bundleNames_cleared]
    exact isRecorded.distinct
  recorded := by simp [lookup_cleared]

theorem apply [MessageEntry ε] (isRecorded : store.IsRecorded) (operation : StoreOperation) :
    (operation.apply store).IsRecorded := by
  cases operation with
  | replace name loaded => exact isRecorded.replaceBundle name loaded
  | remove name => exact isRecorded.removeBundle name
  | clear => exact isRecorded.cleared

/-- Without bundles there are no messages. -/
theorem lookup_eq_none (isRecorded : store.IsRecorded) (noBundles : store.bundleNames = [])
    (key language : String) : store.lookup key language = none := by
  by_contra found
  obtain ⟨entry, found⟩ := Option.ne_none_iff_exists'.1 found
  obtain ⟨name, mem, -⟩ := isRecorded.recorded found
  rw [noBundles] at mem
  cases mem

end IsRecorded

/-! ## Removing bundles in turn -/

/-- Removes bundles in turn. -/
def removeInTurn (order : List String) (store : Store ε) : Store ε :=
  order.foldl (fun store name => (store.removeBundle name).2) store

theorem bundleNames_removeInTurn (order : List String) (store : Store ε) :
    (removeInTurn order store).bundleNames =
      store.bundleNames.filter fun name => decide (name ∉ order) := by
  induction order generalizing store with
  | nil => simp [removeInTurn]
  | cons name rest ih =>
    show (removeInTurn rest (store.removeBundle name).2).bundleNames = _
    rw [ih, bundleNames_removeBundle, List.filter_filter]
    refine List.filter_congr fun other _ => ?_
    simp [Bool.and_comm]

theorem IsRecorded.removeInTurn (isRecorded : store.IsRecorded) (order : List String) :
    (removeInTurn order store).IsRecorded := by
  induction order generalizing store with
  | nil => exact isRecorded
  | cons name rest ih => exact ih (isRecorded.removeBundle name)

/-! ## Any history -/

section

variable [MessageEntry ε]

theorem IsRecorded.ofHistory (history : List StoreOperation) :
    (Store.ofHistory history : Store ε).IsRecorded := by
  induction history using List.reverseRecOn with
  | nil => exact isRecorded_empty
  | append_singleton history last ih =>
    rw [ofHistory_concat]
    exact ih.apply last

/-- **After any history every message is recorded by a registered bundle, and no bundle is
registered twice.**  So removing all bundles, in any order, leaves no message in any language. -/
theorem isRecorded_ofHistory (history : List StoreOperation) :
    (Store.ofHistory history : Store ε).bundleNames.Nodup ∧
      (∀ key language entry,
        (Store.ofHistory history : Store ε).lookup key language = some entry →
          ∃ name ∈ (Store.ofHistory history : Store ε).bundleNames,
            (Store.ofHistory history : Store ε).Records name key) ∧
      ∀ order, (Store.ofHistory history : Store ε).bundleNames ⊆ order → ∀ language,
        (removeInTurn order (Store.ofHistory history : Store ε)).messageCount language = 0 ∧
          ∀ key, (removeInTurn order (Store.ofHistory history : Store ε)).lookup key language =
            none := by
  have isRecorded : (Store.ofHistory history : Store ε).IsRecorded := .ofHistory history
  refine ⟨isRecorded.distinct, fun _ _ _ => isRecorded.recorded, fun order all language => ?_⟩
  have noBundles : (removeInTurn order (Store.ofHistory history : Store ε)).bundleNames = [] := by
    rw [bundleNames_removeInTurn, List.filter_eq_nil_iff]
    intro name mem
    simpa using all mem
  have noMessages := (isRecorded.removeInTurn order).lookup_eq_none noBundles
  exact ⟨messageCount_eq_zero_iff.2 fun key => noMessages key language,
    fun key => noMessages key language⟩

end

/-- A bundle that takes a key over from another one, and is then loaded without it. -/
def takeover : List StoreOperation :=
  [.replace "old" (Dict.ofList [("en", Dict.ofList [("shared", "1"), ("own", "2")])]),
    .replace "new" (Dict.ofList [("en", Dict.ofList [("shared", "3")])]),
    .replace "new" (Dict.ofList [("es", Dict.ofList [("shared", "4")])])]

theorem isRecorded_takeover :
    (Store.ofHistory takeover : Store RawEntry).bundleNames ⊆ ["new", "old"] ∧
      (Store.ofHistory takeover : Store RawEntry).lookup "shared" "es" = some ⟨"4"⟩ ∧
      (Store.ofHistory takeover : Store RawEntry).messageCount "en" = 1 ∧
      ∀ language, (removeInTurn ["new", "old"]
        (Store.ofHistory takeover : Store RawEntry)).messageCount language = 0 := by
  have all : (Store.ofHistory takeover : Store RawEntry).bundleNames ⊆ ["new", "old"] := by
    decide +kernel
  exact ⟨all, by decide +kernel, by decide +kernel, fun language =>
    ((isRecorded_ofHistory takeover).2.2 ["new", "old"] all language).1⟩

end Store

end Phrasebook
