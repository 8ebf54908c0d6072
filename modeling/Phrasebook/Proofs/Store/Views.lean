import Mathlib.Data.List.Nodup
import Phrasebook.Store.Basic

/-!
# What the operations of a store do to its views

A store is read through `lookup`, `bundleKeys` and the order of its bundles.  For each operation
this module has one equation for each of these views, so that no later proof unfolds an operation.

The two views meet in one place.  Unloading deletes by *key*, from every language, while messages
are stored by language *and* key; which keys it deletes is in the record of the bundle, whoever
wrote the messages.  `Records` is that condition and appears in the equations for `lookup`.

`messageCount` needs no equations of its own: it counts the keys that `lookup` finds in a language,
so stores with the same lookups have the same counts (`messageCount_congr`).

## Main statements

- `lookup_replaceBundle`, `lookup_removeBundle`, `lookup_cleared`.
- `bundleKeys_replaceBundle`, `bundleKeys_removeBundle`, `bundleKeys_cleared`, and the same for
  `Records`.
- `bundleNames_replaceBundle`, `bundleNames_removeBundle`, `bundleNames_cleared`.
-/

namespace Phrasebook

/-- What a dictionary by language and key holds for a key in a language. -/
def heldIn {α : Type} (messages : Dict String (Dict String α)) (key language : String) :
    Option α := do
  let held ← messages.get? language
  held.get? key

/-- The keys that a dictionary by language and key holds in a language. -/
def keysHeldIn {α : Type} (messages : Dict String (Dict String α)) (language : String) :
    List String :=
  ((messages.get? language).map Dict.keys).getD []

/-- How many keys a dictionary by language and key holds in a language. -/
def sizeIn {α : Type} (messages : Dict String (Dict String α)) (language : String) : Nat :=
  ((messages.get? language).map Dict.size).getD 0

section

variable {α : Type} (messages : Dict String (Dict String α)) (language : String)

theorem nodup_keysHeldIn : (keysHeldIn messages language).Nodup := by
  rw [keysHeldIn]
  cases messages.get? language with
  | none => exact List.nodup_nil
  | some held => exact held.nodup_keys

theorem length_keysHeldIn :
    (keysHeldIn messages language).length = sizeIn messages language := by
  rw [keysHeldIn, sizeIn]
  cases messages.get? language with
  | none => rfl
  | some held => exact held.length_keys

variable {messages language}

theorem mem_keysHeldIn {key : String} :
    key ∈ keysHeldIn messages language ↔ (heldIn messages key language).isSome = true := by
  rw [keysHeldIn, heldIn]
  cases messages.get? language with
  | none => simp
  | some held => exact (held.contains_iff_mem_keys key).symm

end

namespace Store

variable {ε : Type}

theorem lookup_eq_heldIn (store : Store ε) (key language : String) :
    store.lookup key language = heldIn store.messages key language := rfl

/-- The keys that are loaded for a language. -/
def keysIn (store : Store ε) (language : String) : List String :=
  ((store.messages.get? language).map Dict.keys).getD []

theorem nodup_keysIn (store : Store ε) (language : String) : (store.keysIn language).Nodup :=
  nodup_keysHeldIn store.messages language

theorem length_keysIn (store : Store ε) (language : String) :
    (store.keysIn language).length = store.messageCount language :=
  length_keysHeldIn store.messages language

theorem mem_keysIn {store : Store ε} {key language : String} :
    key ∈ store.keysIn language ↔ (store.lookup key language).isSome = true :=
  mem_keysHeldIn

/-- Where the same keys are found in a language, there are as many of them. -/
theorem messageCount_congr {first second : Store ε} {language : String}
    (same : ∀ key, first.lookup key language = second.lookup key language) :
    first.messageCount language = second.messageCount language := by
  have perm : (first.keysIn language).Perm (second.keysIn language) := by
    rw [List.perm_ext_iff_of_nodup (nodup_keysIn first language) (nodup_keysIn second language)]
    intro key
    rw [mem_keysIn, mem_keysIn, same]
  rw [← length_keysIn, ← length_keysIn, perm.length_eq]

/-- A language has no messages exactly if no lookup in it succeeds. -/
theorem messageCount_eq_zero_iff {store : Store ε} {language : String} :
    store.messageCount language = 0 ↔ ∀ key, store.lookup key language = none := by
  simp only [messageCount, lookup]
  cases store.messages.get? language with
  | none => simp
  | some held => exact held.size_eq_zero_iff

/-- **The record of a bundle holds a key.**  A bundle that is not registered records nothing. -/
def Records (store : Store ε) (name key : String) : Prop :=
  key ∈ (store.bundleKeys name).getD KeySet.empty

instance (store : Store ε) (name key : String) : Decidable (store.Records name key) :=
  inferInstanceAs (Decidable (key ∈ (store.bundleKeys name).getD KeySet.empty))

theorem records_of_bundleKeys {store : Store ε} {name key : String} {keys : KeySet}
    (recorded : store.bundleKeys name = some keys) : store.Records name key ↔ key ∈ keys := by
  rw [Records, recorded, Option.getD_some]

theorem not_records_of_bundleKeys {store : Store ε} {name key : String}
    (unknown : store.bundleKeys name = none) : ¬ store.Records name key := by
  rw [Records, unknown]
  exact KeySet.not_mem_empty key

/-! ## The keys of messages -/

/-- The keys of messages are those that have a message in some language. -/
theorem mem_keysOf {loaded : Messages} {key : String} :
    key ∈ keysOf loaded ↔ ∃ language raw, heldIn loaded key language = some raw := by
  rw [keysOf, KeySet.mem_ofList, List.mem_flatMap]
  constructor
  · rintro ⟨messages, mem, bound⟩
    obtain ⟨⟨language, strings⟩, entry, rfl⟩ := List.mem_map.1 mem
    have found : loaded.get? language = some strings := Dict.get?_of_mem_entries entry
    obtain ⟨raw, held⟩ := Option.isSome_iff_exists.1 ((strings.contains_iff_mem_keys key).2 bound)
    exact ⟨language, raw, by simp [heldIn, found, held]⟩
  · rintro ⟨language, raw, held⟩
    obtain ⟨messages, found, bound⟩ := Option.bind_eq_some_iff.1 held
    refine ⟨messages, Dict.mem_values_of_get? found, (messages.contains_iff_mem_keys key).1 ?_⟩
    exact Option.isSome_iff_exists.2 ⟨raw, bound⟩

theorem heldIn_eq_none_of_not_mem {loaded : Messages} {key : String} (notMem : key ∉ keysOf loaded)
    (language : String) : heldIn loaded key language = none := by
  by_contra held
  exact notMem (mem_keysOf.2 ⟨language, Option.ne_none_iff_exists'.1 held⟩)

/-! ## Records -/

theorem containsBundle_iff {store : Store ε} {name : String} :
    store.containsBundle name = true ↔ (store.bundleKeys name).isSome = true := by
  rw [containsBundle, bundleKeys, record?, Option.isSome_map, List.find?_isSome, List.any_eq_true]

theorem bundleKeys_eq_none_iff {store : Store ε} {name : String} :
    store.bundleKeys name = none ↔ store.containsBundle name = false := by
  rw [← Option.isNone_iff_eq_none, ← Option.not_isSome, Bool.not_eq_true', ← Bool.not_eq_true,
    ← Bool.not_eq_true, containsBundle_iff]

/-- Other keys for a bundle change the first record of that name and no record of another. -/
theorem find?_setKeys (name other : String) (keys : KeySet) :
    (bundles : List BundleRecord) →
      ((setKeys name keys bundles).find? fun record => decide (record.name = other)) =
        if other = name then
          (bundles.find? fun record => decide (record.name = name)).map
            fun record => { record with keys }
        else bundles.find? fun record => decide (record.name = other)
  | [] => by simp [setKeys]
  | record :: rest => by
    have ih := find?_setKeys name other keys rest
    by_cases named : record.name = name
    · by_cases same : other = name
      · simp [setKeys, named, same]
      · have notOther : record.name ≠ other := fun eq => same (eq.symm.trans named)
        rw [setKeys, if_pos named, if_neg same, List.find?_cons_of_neg (by simpa using notOther),
          List.find?_cons_of_neg (by simpa using notOther)]
    · rw [setKeys, if_neg named]
      by_cases here : record.name = other
      · have notSame : other ≠ name := fun eq => named (here.trans eq)
        simp [here, notSame]
      · rw [List.find?_cons_of_neg (by simpa using here), ih,
          List.find?_cons_of_neg (by simpa using named),
          List.find?_cons_of_neg (by simpa using here)]

/-! ## Unloading -/

/-- Unloading empties the record of the bundle and leaves the other records alone. -/
theorem bundleKeys_unload (store : Store ε) (name other : String) :
    (store.unload name).bundleKeys other =
      if other = name then (store.bundleKeys name).map fun _ => KeySet.empty
      else store.bundleKeys other := by
  unfold unload
  split
  · rename_i unknown
    by_cases same : other = name
    · rw [if_pos same, same, unknown]
      rfl
    · rw [if_neg same]
  · -- The messages are changed as well, but a record is read from the bundles alone.
    rw [bundleKeys, record?, find?_setKeys]
    by_cases same : other = name
    · rw [if_pos same, if_pos same, bundleKeys, record?, Option.map_map, Option.map_map]
      rfl
    · rw [if_neg same, if_neg same]
      rfl

/-- **Unloading deletes the recorded keys from every language**, and nothing else. -/
theorem lookup_unload (store : Store ε) (name key language : String) :
    (store.unload name).lookup key language =
      if store.Records name key then none else store.lookup key language := by
  unfold unload
  split
  · rename_i unknown
    rw [if_neg (not_records_of_bundleKeys unknown)]
  · rename_i keys recorded
    simp only [lookup, Dict.get?_mapValues, records_of_bundleKeys recorded]
    cases store.messages.get? language with
    | none => simp
    | some held => exact held.get?_eraseAll keys.toList key

/-! ## Putting messages in -/

section

variable [MessageEntry ε]

theorem heldIn_putLanguage (messages : Dict String (Dict String ε)) (language : String)
    (raw : Dict String String) (key other : String) :
    heldIn (putLanguage messages language raw) key other =
      if other = language then
        ((raw.get? key).map MessageEntry.compile).or (heldIn messages key other)
      else heldIn messages key other := by
  simp only [heldIn, putLanguage, Dict.get?_insert]
  by_cases same : other = language
  · subst same
    rw [if_pos rfl, if_pos rfl]
    show Dict.get? _ key = _
    rw [Dict.get?_insertAll_entries, Dict.get?_mapValues]
    cases messages.get? other <;> rfl
  · rw [if_neg same, if_neg same]

/-- Languages put in one after the other.  Every language is bound once, so of the entries for the
language in question all but one leave alone what is held. -/
theorem heldIn_foldl_putLanguage (key language : String) :
    (entries : List (String × Dict String String)) → (entries.map Prod.fst).Nodup →
      (messages : Dict String (Dict String ε)) →
        heldIn (entries.foldl (fun messages entry => putLanguage messages entry.1 entry.2) messages)
          key language =
          (((Dict.lookup language entries).bind fun raw => raw.get? key).map
            MessageEntry.compile).or (heldIn messages key language)
  | [], _, _ => rfl
  | (bound, raw) :: rest, nodup, messages => by
    rw [List.map_cons, List.nodup_cons] at nodup
    rw [List.foldl_cons, heldIn_foldl_putLanguage key language rest nodup.2, heldIn_putLanguage,
      Dict.lookup]
    by_cases same : bound = language
    · subst same
      have once : Dict.lookup bound rest = none := (Dict.lookup_eq_none_iff bound rest).2 nodup.1
      rw [once, if_pos rfl, if_pos rfl]
      rfl
    · rw [if_neg (Ne.symm same), if_neg same]

/-- What is put in wins over what was held. -/
theorem heldIn_putMessages (messages : Dict String (Dict String ε)) (loaded : Messages)
    (key language : String) :
    heldIn (putMessages messages loaded) key language =
      ((heldIn loaded key language).map MessageEntry.compile).or (heldIn messages key language) :=
  heldIn_foldl_putLanguage key language loaded.entries loaded.nodup messages

/-! ## The operations -/

/-- **Replacing a bundle**: its messages win; of the rest, the keys it recorded are gone. -/
theorem lookup_replaceBundle (store : Store ε) (name : String) (loaded : Messages)
    (key language : String) :
    (store.replaceBundle name loaded).lookup key language =
      ((heldIn loaded key language).map MessageEntry.compile).or
        (if store.Records name key then none else store.lookup key language) := by
  rw [← lookup_unload, lookup_eq_heldIn, lookup_eq_heldIn]
  exact heldIn_putMessages _ loaded key language

theorem bundleKeys_replaceBundle (store : Store ε) (name : String) (loaded : Messages)
    (other : String) :
    (store.replaceBundle name loaded).bundleKeys other =
      if other = name then some (keysOf loaded) else store.bundleKeys other := by
  have rest : other ≠ name → (store.unload name).bundleKeys other = store.bundleKeys other :=
    fun different => by rw [bundleKeys_unload, if_neg different]
  show Option.map BundleRecord.keys (List.find? _ ((store.unload name).recordKeys name _)) = _
  unfold recordKeys
  split
  · rename_i registered
    rw [find?_setKeys]
    by_cases same : other = name
    · rw [if_pos same, if_pos same]
      obtain ⟨keys, recorded⟩ := Option.isSome_iff_exists.1 (containsBundle_iff.1 registered)
      obtain ⟨record, found, -⟩ := Option.map_eq_some_iff.1 recorded
      rw [show List.find? _ (store.unload name).bundles = some record from found]
      rfl
    · rw [if_neg same, if_neg same]
      exact rest same
  · rename_i notRegistered
    -- A new record goes to the end, where it is found only if there is none of that name before.
    rw [List.find?_append]
    by_cases same : other = name
    · have unknown : (store.unload name).record? name = none := by
        have none := bundleKeys_eq_none_iff.2 (Bool.eq_false_iff.2 notRegistered)
        exact Option.map_eq_none_iff.1 none
      rw [if_pos same, same, show List.find? _ (store.unload name).bundles = none from unknown]
      simp
    · rw [if_neg same, List.find?_cons_of_neg (by simpa using Ne.symm same), List.find?_nil,
        Option.or_none]
      exact rest same

end

/-- **Removing a bundle**: the keys it recorded are gone. -/
theorem lookup_removeBundle (store : Store ε) (name key language : String) :
    (store.removeBundle name).2.lookup key language =
      if store.Records name key then none else store.lookup key language :=
  lookup_unload store name key language

theorem bundleKeys_removeBundle (store : Store ε) (name other : String) :
    (store.removeBundle name).2.bundleKeys other =
      if other = name then none else store.bundleKeys other := by
  by_cases same : other = name
  · rw [if_pos same, bundleKeys_eq_none_iff, Bool.eq_false_iff]
    intro contains
    obtain ⟨record, mem, named⟩ := List.any_eq_true.1 contains
    have notNamed := (List.mem_filter.1 mem).2
    simp_all
  · rw [if_neg same]
    have rest := bundleKeys_unload store name other
    rw [if_neg same] at rest
    rw [← rest, bundleKeys, bundleKeys, record?, record?]
    congr 1
    show List.find? _ ((store.unload name).bundles.filter _) = _
    rw [List.find?_filter]
    congr 1
    funext record
    by_cases here : record.name = other
    · simp [here, same]
    · simp [here]

/-- **Clearing**: no messages, and no keys in any record. -/
theorem lookup_cleared (store : Store ε) (key language : String) :
    store.cleared.lookup key language = none := rfl

theorem bundleKeys_cleared (store : Store ε) (name : String) :
    store.cleared.bundleKeys name = (store.bundleKeys name).map fun _ => KeySet.empty := by
  rw [bundleKeys, bundleKeys, record?, record?, cleared, List.find?_map, Option.map_map,
    Option.map_map]
  rfl

/-! ## What the operations leave recorded -/

theorem records_replaceBundle [MessageEntry ε] {store : Store ε} {name other key : String}
    {loaded : Messages} :
    (store.replaceBundle name loaded).Records other key ↔
      if other = name then key ∈ keysOf loaded else store.Records other key := by
  rw [Records, bundleKeys_replaceBundle]
  by_cases same : other = name
  · rw [if_pos same, if_pos same, Option.getD_some]
  · rw [if_neg same, if_neg same, Records]

theorem records_removeBundle {store : Store ε} {name other key : String} :
    (store.removeBundle name).2.Records other key ↔ other ≠ name ∧ store.Records other key := by
  rw [Records, bundleKeys_removeBundle]
  by_cases same : other = name
  · simp [same]
  · simp [same, Records]

theorem not_records_cleared (store : Store ε) (name key : String) :
    ¬ store.cleared.Records name key := by
  rw [Records, bundleKeys_cleared]
  cases store.bundleKeys name <;> exact KeySet.not_mem_empty key

/-! ## The order of the bundles -/

theorem containsBundle_iff_mem {store : Store ε} {name : String} :
    store.containsBundle name = true ↔ name ∈ store.bundleNames := by
  simp [containsBundle, bundleNames]

/-- A registered bundle has a record. -/
theorem mem_bundleNames_iff {store : Store ε} {name : String} :
    name ∈ store.bundleNames ↔ ∃ keys, store.bundleKeys name = some keys := by
  rw [← containsBundle_iff_mem, containsBundle_iff, Option.isSome_iff_exists]

theorem exists_bundleKeys_of_records {store : Store ε} {name key : String}
    (recorded : store.Records name key) :
    ∃ keys, store.bundleKeys name = some keys ∧ key ∈ keys := by
  cases found : store.bundleKeys name with
  | none => exact absurd recorded (not_records_of_bundleKeys found)
  | some keys => exact ⟨keys, rfl, (records_of_bundleKeys found).1 recorded⟩

/-- Only a registered bundle records anything. -/
theorem mem_bundleNames_of_records {store : Store ε} {name key : String}
    (recorded : store.Records name key) : name ∈ store.bundleNames := by
  obtain ⟨keys, found, -⟩ := exists_bundleKeys_of_records recorded
  exact mem_bundleNames_iff.2 ⟨keys, found⟩

/-- Other keys for a bundle do not change its name. -/
theorem map_name_setKeys (name : String) (keys : KeySet) :
    (bundles : List BundleRecord) →
      (setKeys name keys bundles).map BundleRecord.name = bundles.map BundleRecord.name
  | [] => rfl
  | record :: rest => by
    rw [setKeys]
    split
    · rfl
    · rw [List.map_cons, List.map_cons, map_name_setKeys name keys rest]

theorem bundleNames_unload (store : Store ε) (name : String) :
    (store.unload name).bundleNames = store.bundleNames := by
  unfold unload
  split
  · rfl
  · exact map_name_setKeys name KeySet.empty store.bundles

/-- A bundle that is registered keeps its place, and a new one becomes the last. -/
theorem bundleNames_replaceBundle [MessageEntry ε] (store : Store ε) (name : String)
    (loaded : Messages) :
    (store.replaceBundle name loaded).bundleNames =
      if name ∈ store.bundleNames then store.bundleNames else store.bundleNames ++ [name] := by
  have kept := bundleNames_unload store name
  show ((store.unload name).recordKeys name (keysOf loaded)).map BundleRecord.name = _
  rw [recordKeys]
  by_cases registered : name ∈ store.bundleNames
  · rw [if_pos registered, if_pos (containsBundle_iff_mem.2 (kept ▸ registered)),
      map_name_setKeys]
    exact kept
  · rw [if_neg registered, if_neg (mt containsBundle_iff_mem.1 (kept ▸ registered)),
      List.map_append]
    exact congrArg (· ++ [name]) kept

theorem bundleNames_removeBundle (store : Store ε) (name : String) :
    (store.removeBundle name).2.bundleNames =
      store.bundleNames.filter fun other => decide (other ≠ name) := by
  rw [← bundleNames_unload store name, bundleNames, bundleNames, List.filter_map]
  rfl

@[simp]
theorem bundleNames_cleared (store : Store ε) : store.cleared.bundleNames = store.bundleNames := by
  simp [cleared, bundleNames, Function.comp_def]

end Store

end Phrasebook
