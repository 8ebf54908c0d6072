import Mathlib.Data.List.Nodup
import Phrasebook.Proofs.Store.Views

/-!
# Stores in which each bundle is loaded once

Where different bundles are loaded in turn, each of them once and none of them with keys in its
record, nothing is ever unloaded.  A key leads to the message of the last of them that holds it, and
their records hold what was loaded.  This is so for new bundles, which then stand in the order in
which they were loaded, and also for registered ones once the store has been cleared.

## Main statements

- `Store.lookup_loadInTurn_of_unrecorded` and `Store.bundleKeys_loadInTurn`, and for new bundles
  `Store.bundleNames_loadInTurn` and `Store.lookup_loadInTurn`.
-/

namespace Phrasebook

namespace Store

variable {ε : Type} [MessageEntry ε] {store : Store ε} {name : String}

/-- Loads the messages of bundles in turn. -/
def loadInTurn (messages : String → Messages) (bundles : List String) (store : Store ε) : Store ε :=
  bundles.foldl (fun store name => store.replaceBundle name (messages name)) store

omit [MessageEntry ε] in
theorem containsBundle_eq_false_iff :
    store.containsBundle name = false ↔ name ∉ store.bundleNames := by
  simp [containsBundle, bundleNames]

/-! ## A new bundle -/

omit [MessageEntry ε] in
/-- The next of distinct bundles is new. -/
theorem new_of_nodup {rest : List String}
    (distinct : (store.bundleNames ++ name :: rest).Nodup) : name ∉ store.bundleNames := by
  intro mem
  exact (List.nodup_cons.1 (List.nodup_middle.1 distinct)).1 (List.mem_append_left rest mem)

/-- A new bundle becomes the last one. -/
theorem bundleNames_replaceBundle_of_new (new : name ∉ store.bundleNames) (loaded : Messages) :
    (store.replaceBundle name loaded).bundleNames = store.bundleNames ++ [name] := by
  rw [bundleNames_replaceBundle, if_neg new]

/-! ## Bundles without keys in their records -/

variable {messages : String → Messages} {bundles : List String}

/-- A bundle that has nothing recorded deletes nothing. -/
theorem lookup_replaceBundle_of_unrecorded {key : String} (unrecorded : ¬ store.Records name key)
    (loaded : Messages) (language : String) :
    (store.replaceBundle name loaded).lookup key language =
      ((heldIn loaded key language).map MessageEntry.compile).or (store.lookup key language) := by
  rw [lookup_replaceBundle, if_neg unrecorded]

/-- **A key leads to the message of the last bundle that holds it.** -/
theorem lookup_loadInTurn_of_unrecorded {key : String} (distinct : bundles.Nodup)
    (unrecorded : ∀ name ∈ bundles, ¬ store.Records name key) (language : String) :
    (store.loadInTurn messages bundles).lookup key language =
      ((bundles.reverse.findSome? fun name => heldIn (messages name) key language).map
        MessageEntry.compile).or (store.lookup key language) := by
  induction bundles generalizing store with
  | nil => rfl
  | cons name rest ih =>
    obtain ⟨notMem, distinctRest⟩ := List.nodup_cons.1 distinct
    have here := lookup_replaceBundle_of_unrecorded (unrecorded name List.mem_cons_self)
      (messages name) language
    have unrecordedRest : ∀ other ∈ rest,
        ¬ (store.replaceBundle name (messages name)).Records other key := by
      intro other mem
      rw [records_replaceBundle, if_neg (ne_of_mem_of_not_mem mem notMem)]
      exact unrecorded other (List.mem_cons_of_mem name mem)
    -- The later bundles come first in the search, and what they miss is found as before.
    show ((store.replaceBundle name (messages name)).loadInTurn messages rest).lookup _ _ = _
    rw [ih distinctRest unrecordedRest, here, List.reverse_cons, List.findSome?_append,
      List.findSome?_singleton]
    cases rest.reverse.findSome? fun name => heldIn (messages name) key language <;> rfl

/-- The record of a bundle that is not loaded stays as it is. -/
theorem bundleKeys_loadInTurn_of_not_mem (notMem : name ∉ bundles) :
    (store.loadInTurn messages bundles).bundleKeys name = store.bundleKeys name := by
  induction bundles generalizing store with
  | nil => rfl
  | cons other rest ih =>
    rw [List.mem_cons, not_or] at notMem
    show ((store.replaceBundle other (messages other)).loadInTurn messages rest).bundleKeys _ = _
    rw [ih notMem.2, bundleKeys_replaceBundle, if_neg notMem.1]

/-- **The record of a bundle holds the keys of its messages.** -/
theorem bundleKeys_loadInTurn (distinct : bundles.Nodup) (mem : name ∈ bundles) :
    (store.loadInTurn messages bundles).bundleKeys name = some (keysOf (messages name)) := by
  induction bundles generalizing store with
  | nil => cases mem
  | cons other rest ih =>
    obtain ⟨notMem, distinctRest⟩ := List.nodup_cons.1 distinct
    show ((store.replaceBundle other (messages other)).loadInTurn messages rest).bundleKeys _ = _
    rcases List.mem_cons.1 mem with rfl | mem
    · rw [bundleKeys_loadInTurn_of_not_mem notMem, bundleKeys_replaceBundle, if_pos rfl]
    · exact ih distinctRest mem

/-- Loading registered bundles registers no other. -/
theorem bundleNames_loadInTurn_of_subset (registered : bundles ⊆ store.bundleNames) :
    (store.loadInTurn messages bundles).bundleNames = store.bundleNames := by
  induction bundles generalizing store with
  | nil => rfl
  | cons name rest ih =>
    obtain ⟨mem, registeredRest⟩ := List.cons_subset.1 registered
    have names := bundleNames_replaceBundle store name (messages name)
    rw [if_pos mem] at names
    show ((store.replaceBundle name (messages name)).loadInTurn messages rest).bundleNames = _
    rw [ih (names.symm ▸ registeredRest), names]

/-! ## New bundles in turn -/

/-- **The bundles stand in the order in which they were loaded.** -/
theorem bundleNames_loadInTurn (distinct : (store.bundleNames ++ bundles).Nodup) :
    (store.loadInTurn messages bundles).bundleNames = store.bundleNames ++ bundles := by
  induction bundles generalizing store with
  | nil => rw [List.append_nil]; rfl
  | cons name rest ih =>
    have new := new_of_nodup distinct
    have names := bundleNames_replaceBundle_of_new new (messages name)
    rw [List.append_cons, ← names] at distinct ⊢
    exact ih distinct

/-- New bundles have nothing recorded. -/
theorem lookup_loadInTurn (distinct : (store.bundleNames ++ bundles).Nodup)
    (key language : String) :
    (store.loadInTurn messages bundles).lookup key language =
      ((bundles.reverse.findSome? fun name => heldIn (messages name) key language).map
        MessageEntry.compile).or (store.lookup key language) := by
  obtain ⟨-, distinctNew, apart⟩ := List.nodup_append.1 distinct
  refine lookup_loadInTurn_of_unrecorded distinctNew (fun name mem recorded => ?_) language
  exact apart name (mem_bundleNames_of_records recorded) name mem rfl

end Store

end Phrasebook
