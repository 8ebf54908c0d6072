import Mathlib.Algebra.GroupWithZero.Nat
import Phrasebook.Proofs.Store.Recorded
import Phrasebook.Proofs.Store.Unrelated

/-!
# Bundles that keep apart

Records go stale when a bundle loads a key that another one has recorded.  As long as no bundle ever
does, every key belongs to one bundle: its message is that of the last load of this bundle, in every
language, and unloading the bundle deletes nothing else.

`Store.KeepsApart` says so of a store and of the last loads of its bundles.  An operation on a
bundle keeps it, as long as no other bundle has recorded a key that it loads: what the others have
recorded it does not touch.  So it holds after any history in which all replacements meet this
condition (`LoadsApart`).  That a load has other keys than the load before, that a bundle goes and
comes again, or that the store is cleared in between makes no difference.

The messages of a language can then be counted bundle by bundle, and a bundle that is removed and
loaded again is back as it was, only at the end of the order.

## Main statement

- `keepsApart_ofHistory`: counts, removal and restoration after any history of loads that keep
  apart.
-/

namespace Phrasebook

/-! ## Loads that keep apart -/

namespace StoreOperation

/-- What is the last load of a bundle after an operation, if it was `before` until then. -/
def loadAfter (name : String) (before : Messages) : StoreOperation → Messages
  | replace other loaded => if other = name then loaded else before
  | remove other => if other = name then Dict.empty else before
  | clear => Dict.empty

/-- Which bundles are registered after an operation, if `before` were until then. -/
def namesAfter (before : List String) : StoreOperation → List String
  | replace name _ => if name ∈ before then before else before ++ [name]
  | remove name => before.filter fun other => other ≠ name
  | clear => before

/-- **An operation keeps apart** after a history: no other bundle has recorded a key that it
loads. -/
def KeepsApart (history : List StoreOperation) : StoreOperation → Prop
  | replace name loaded =>
    ∀ other ≠ name, ∀ key ∈ Store.keysOf loaded, ¬ RecordedIn history other key
  | remove _ => True
  | clear => True

/-- Only a registered bundle has recorded anything, so there are finitely many to ask. -/
instance (history : List StoreOperation) :
    (operation : StoreOperation) → Decidable (operation.KeepsApart history)
  | replace name loaded =>
    decidable_of_iff
      (∀ other ∈ (Store.ofHistory history : Store RawEntry).bundleNames, other ≠ name →
        ∀ key ∈ (Store.keysOf loaded).toList,
          ¬ (Store.ofHistory history : Store RawEntry).Records other key) <| by
      refine ⟨fun all other different key loads recorded => ?_, ?_⟩
      · rw [← records_ofHistory_iff (ε := RawEntry)] at recorded
        exact all other (Store.mem_bundleNames_of_records recorded) different key loads recorded
      · intro keepsApart other _ different key loads recorded
        exact keepsApart other different key loads ((records_ofHistory_iff _ _ _).1 recorded)
  | remove _ => isTrue trivial
  | clear => isTrue trivial

end StoreOperation

open StoreOperation

/-- **The last load of a bundle in a history**: the messages of its last replacement, and none if it
was removed or cleared since. -/
def lastLoad (history : List StoreOperation) (name : String) : Messages :=
  history.foldl (fun last operation => operation.loadAfter name last) Dict.empty

theorem lastLoad_concat (history : List StoreOperation) (last : StoreOperation) (name : String) :
    lastLoad (history ++ [last]) name = last.loadAfter name (lastLoad history name) := by
  rw [lastLoad, List.foldl_append]
  rfl

/-- **The bundles that a history leaves registered**, in the order of their registration. -/
def registeredNames (history : List StoreOperation) : List String :=
  history.foldl namesAfter []

/-- **The loads of a history keep apart**: no replacement brings a key that another bundle has
recorded at that moment. -/
def LoadsApart (history : List StoreOperation) : Prop :=
  ∀ before operation after, history = before ++ operation :: after → operation.KeepsApart before

theorem loadsApart_concat_iff {history : List StoreOperation} {last : StoreOperation} :
    LoadsApart (history ++ [last]) ↔ LoadsApart history ∧ last.KeepsApart history := by
  constructor
  · intro apart
    refine ⟨?_, apart history last [] rfl⟩
    rintro before operation after rfl
    exact apart before operation (after ++ [last]) (by simp)
  · rintro ⟨apart, lastApart⟩ before operation after split
    rcases concat_eq_append_cons_iff.1 split with ⟨-, rfl, rfl⟩ | ⟨shorter, -, rfl⟩
    · exact lastApart
    · exact apart before operation shorter rfl

theorem loadsApart_iff_forall_lt {history : List StoreOperation} :
    LoadsApart history ↔
      ∀ i, (inside : i < history.length) → (history[i]).KeepsApart (history.take i) := by
  constructor
  · intro apart i inside
    refine apart (history.take i) history[i] (history.drop (i + 1)) ?_
    rw [List.getElem_cons_drop, List.take_append_drop]
  · rintro apart before operation after rfl
    simpa using apart before.length (by simp)

instance (history : List StoreOperation) : Decidable (LoadsApart history) :=
  decidable_of_iff _ loadsApart_iff_forall_lt.symm

namespace Store

variable {ε : Type} [MessageEntry ε] {store : Store ε} {loads : String → Messages}

theorem bundleNames_apply (store : Store ε) (operation : StoreOperation) :
    (operation.apply store).bundleNames = operation.namesAfter store.bundleNames := by
  cases operation with
  | replace name loaded => exact bundleNames_replaceBundle store name loaded
  | remove name =>
    rw [StoreOperation.apply, bundleNames_removeBundle, namesAfter]
  | clear => exact bundleNames_cleared store

/-- A store has registered what its history says. -/
theorem bundleNames_ofHistory (history : List StoreOperation) :
    (Store.ofHistory history : Store ε).bundleNames = registeredNames history :=
  (List.foldl_hom bundleNames fun store operation =>
    (bundleNames_apply store operation).symm).symm

/-! ## A store of loads that keep apart -/

/-- **A store keeps loads apart**: all messages are recorded, what a bundle has recorded is the keys
of its load, no key is recorded twice, and under a key is found what the bundle that recorded it has
loaded. -/
structure KeepsApart (store : Store ε) (loads : String → Messages) : Prop where
  isRecorded : store.IsRecorded
  keys : ∀ {name keys}, store.bundleKeys name = some keys → keys = keysOf (loads name)
  apart : ∀ {name other key}, store.Records name key → store.Records other key → name = other
  entries : ∀ {name key}, store.Records name key → ∀ language,
    store.lookup key language = (heldIn (loads name) key language).map MessageEntry.compile

variable {name : String}

/-- Under a key that no other bundle has recorded, an operation leaves what it puts in.  An old
message would be recorded by the bundle itself, and is gone. -/
theorem IsRecorded.lookup_apply_of_unclaimed {operation : StoreOperation} {key : String}
    (isRecorded : store.IsRecorded) (on : operation.IsOn name)
    (unclaimed : ∀ other ≠ name, ¬ store.Records other key) (language : String) :
    (operation.apply store).lookup key language =
      (heldIn operation.loaded key language).map MessageEntry.compile := by
  have gone : (if store.Records name key then none else store.lookup key language) = none := by
    by_cases recorded : store.Records name key
    · rw [if_pos recorded]
    · rw [if_neg recorded]
      by_contra found
      obtain ⟨entry, found⟩ := Option.ne_none_iff_exists'.1 found
      obtain ⟨other, -, different, claims⟩ :=
        isRecorded.exists_records_of_not_records found recorded
      exact unclaimed other different claims
  rw [lookup_apply on, gone, Option.or_none]

namespace KeepsApart

theorem bundleKeys_eq (keepsApart : store.KeepsApart loads) (mem : name ∈ store.bundleNames) :
    store.bundleKeys name = some (keysOf (loads name)) := by
  obtain ⟨keys, recorded⟩ := mem_bundleNames_iff.1 mem
  rw [recorded, keepsApart.keys recorded]

theorem records_iff (keepsApart : store.KeepsApart loads) (mem : name ∈ store.bundleNames)
    {key : String} : store.Records name key ↔ key ∈ keysOf (loads name) :=
  records_of_bundleKeys (keepsApart.bundleKeys_eq mem)

/-! ### Each operation -/

theorem empty : (Store.empty : Store ε).KeepsApart loads where
  isRecorded := isRecorded_empty
  keys recorded := nomatch recorded
  apart recorded _ := absurd (mem_bundleNames_of_records recorded) List.not_mem_nil
  entries recorded := absurd (mem_bundleNames_of_records recorded) List.not_mem_nil

/-- **An operation on a bundle**, if no other bundle has recorded a key that it loads. -/
theorem apply (keepsApart : store.KeepsApart loads) {operation : StoreOperation}
    {after : String → Messages} (on : operation.IsOn name)
    (unclaimed : ∀ key ∈ keysOf operation.loaded, ∀ other ≠ name, ¬ store.Records other key)
    (here : after name = operation.loaded) (elsewhere : ∀ other ≠ name, after other = loads other) :
    (operation.apply store).KeepsApart after := by
  have keys : ∀ {other keys}, (operation.apply store).bundleKeys other = some keys →
      keys = keysOf (after other) := by
    intro other keys recorded
    rw [bundleKeys_apply on] at recorded
    split at recorded <;> rename_i same
    · rw [same, here]
      exact eq_keysOf_of_record? recorded
    · rw [elsewhere other same]
      exact keepsApart.keys recorded
  have loadedHere : ∀ {key}, (operation.apply store).Records name key →
      key ∈ keysOf operation.loaded := by
    intro key recorded
    obtain ⟨held, found, mem⟩ := exists_bundleKeys_of_records recorded
    rwa [← here, ← keys found]
  refine ⟨keepsApart.isRecorded.apply operation, keys, ?_, ?_⟩
  · intro one other key recorded recordedToo
    by_cases isOne : one = name
    · by_cases isOther : other = name
      · rw [isOne, isOther]
      · rw [isOne] at recorded
        rw [records_apply_of_ne on isOther] at recordedToo
        exact absurd recordedToo (unclaimed key (loadedHere recorded) other isOther)
    · rw [records_apply_of_ne on isOne] at recorded
      by_cases isOther : other = name
      · rw [isOther] at recordedToo
        exact absurd recorded (unclaimed key (loadedHere recordedToo) one isOne)
      · rw [records_apply_of_ne on isOther] at recordedToo
        exact keepsApart.apart recorded recordedToo
  · intro other key recorded language
    by_cases same : other = name
    · rw [same] at recorded
      rw [same, here]
      exact keepsApart.isRecorded.lookup_apply_of_unclaimed on (unclaimed key (loadedHere recorded))
        language
    · -- What another bundle has recorded is not touched.
      rw [records_apply_of_ne on same] at recorded
      have untouched : ¬ operation.Touches store name key := by
        rintro (recordedHere | loads)
        · exact same (keepsApart.apart recorded recordedHere)
        · exact unclaimed key loads other same recorded
      rw [lookup_apply_of_not_touches on untouched, elsewhere other same]
      exact keepsApart.entries recorded language

theorem cleared (keepsApart : store.KeepsApart loads) :
    store.cleared.KeepsApart fun _ => Dict.empty where
  isRecorded := keepsApart.isRecorded.cleared
  keys := by
    intro name keys recorded
    rw [bundleKeys_cleared] at recorded
    obtain ⟨_, -, rfl⟩ := Option.map_eq_some_iff.1 recorded
    rfl
  apart recorded _ := absurd recorded (not_records_cleared store _ _)
  entries recorded := absurd recorded (not_records_cleared store _ _)

/-! ### Any history -/

theorem ofHistory {history : List StoreOperation} (apart : LoadsApart history) :
    (Store.ofHistory history : Store ε).KeepsApart (lastLoad history) := by
  induction history using List.reverseRecOn with
  | nil => exact KeepsApart.empty
  | append_singleton history last ih =>
    obtain ⟨apart, lastApart⟩ := loadsApart_concat_iff.1 apart
    have before := ih apart
    have after (name : String) := lastLoad_concat history last name
    rw [ofHistory_concat]
    cases last with
    | replace name loaded =>
      have on : (StoreOperation.replace name loaded).IsOn name := rfl
      refine before.apply on ?_ ?_ ?_
      · intro key loads other different
        rw [records_ofHistory_iff]
        exact lastApart other different key loads
      · rw [after, loadAfter, if_pos rfl]
        rfl
      · intro other different
        rw [after, loadAfter, if_neg different.symm]
    | remove name =>
      have on : (StoreOperation.remove name).IsOn name := rfl
      refine before.apply on ?_ ?_ ?_
      · exact fun key loads => absurd loads (KeySet.not_mem_empty key)
      · rw [after, loadAfter, if_pos rfl]
        rfl
      · intro other different
        rw [after, loadAfter, if_neg different.symm]
    | clear =>
      rw [show lastLoad (history ++ [.clear]) = fun _ => Dict.empty from funext after]
      exact before.cleared

/-! ### Counting, removing, restoring -/

/-- The keys of a language are those of the loads, one after the other. -/
theorem keysIn_perm (keepsApart : store.KeepsApart loads) (language : String) :
    (store.keysIn language).Perm
      (store.bundleNames.flatMap fun name => keysHeldIn (loads name) language) := by
  have recorded : ∀ {name key}, name ∈ store.bundleNames → key ∈ keysHeldIn (loads name) language →
      store.Records name key := by
    intro name key mem held
    obtain ⟨raw, held⟩ := Option.isSome_iff_exists.1 (mem_keysHeldIn.1 held)
    exact (keepsApart.records_iff mem).2 (mem_keysOf.2 ⟨language, raw, held⟩)
  have nodup : (store.bundleNames.flatMap fun name => keysHeldIn (loads name) language).Nodup := by
    rw [List.nodup_flatMap]
    refine ⟨fun name _ => nodup_keysHeldIn (loads name) language, ?_⟩
    refine keepsApart.isRecorded.distinct.imp_of_mem ?_
    intro name other mem memOther different key held heldToo
    exact different (keepsApart.apart (recorded mem held) (recorded memOther heldToo))
  rw [List.perm_ext_iff_of_nodup (nodup_keysIn store language) nodup]
  intro key
  rw [mem_keysIn, List.mem_flatMap]
  constructor
  · intro found
    obtain ⟨entry, found⟩ := Option.isSome_iff_exists.1 found
    obtain ⟨name, mem, claims⟩ := keepsApart.isRecorded.recorded found
    refine ⟨name, mem, mem_keysHeldIn.2 ?_⟩
    rw [← Option.isSome_map, ← keepsApart.entries claims language, found]
    rfl
  · rintro ⟨name, mem, held⟩
    rw [keepsApart.entries (recorded mem held) language, Option.isSome_map]
    exact mem_keysHeldIn.1 held

/-- **The messages of a language are counted bundle by bundle.** -/
theorem messageCount_eq_sum (keepsApart : store.KeepsApart loads) (language : String) :
    store.messageCount language =
      (store.bundleNames.map fun name => sizeIn (loads name) language).sum := by
  rw [← length_keysIn, (keepsApart.keysIn_perm language).length_eq, List.length_flatMap]
  simp only [length_keysHeldIn]

/-- Removing a bundle takes away the keys of its load and nothing else. -/
theorem lookup_removeBundle (keepsApart : store.KeepsApart loads)
    (mem : name ∈ store.bundleNames) (key language : String) :
    (store.removeBundle name).2.lookup key language =
      if key ∈ keysOf (loads name) then none else store.lookup key language := by
  simp only [Store.lookup_removeBundle, keepsApart.records_iff mem]

end KeepsApart

omit [MessageEntry ε] in
/-- **A store is another one with a bundle moved to the end**: the other bundles stand in their
order, and all messages, counts and records are the same. -/
structure MovesToEnd (name : String) (before after : Store ε) : Prop where
  bundles : after.bundleNames = before.bundleNames.erase name ++ [name]
  keys : ∀ other, after.bundleKeys other = before.bundleKeys other
  entries : ∀ key language, after.lookup key language = before.lookup key language
  counts : ∀ language, after.messageCount language = before.messageCount language

/-- **Removing a bundle and loading it again restores the store.**  What the removal deletes is
under the keys of the load, where the bundle itself had put it. -/
theorem KeepsApart.movesToEnd (keepsApart : store.KeepsApart loads) {name : String}
    (mem : name ∈ store.bundleNames) :
    store.MovesToEnd name ((store.removeBundle name).2.replaceBundle name (loads name)) := by
  have forgotten : ∀ key, ¬ (store.removeBundle name).2.Records name key := fun key recorded =>
    (records_removeBundle.1 recorded).1 rfl
  have entries : ∀ key language,
      ((store.removeBundle name).2.replaceBundle name (loads name)).lookup key language =
        store.lookup key language := by
    intro key language
    rw [lookup_replaceBundle, if_neg (forgotten key), keepsApart.lookup_removeBundle mem]
    by_cases loaded : key ∈ keysOf (loads name)
    · have recorded := (keepsApart.records_iff mem).2 loaded
      rw [if_pos loaded, Option.or_none, keepsApart.entries recorded language]
    · rw [if_neg loaded, heldIn_eq_none_of_not_mem loaded]
      rfl
  refine ⟨?_, fun other => ?_, entries, fun language => messageCount_congr (entries · language)⟩
  · have gone : name ∉ (store.removeBundle name).2.bundleNames := by
      simp [bundleNames_removeBundle]
    rw [bundleNames_replaceBundle, if_neg gone, bundleNames_removeBundle,
      keepsApart.isRecorded.distinct.erase_eq_filter]
    congr 1
    exact List.filter_congr fun other _ => Bool.eq_iff_iff.2 (by simp)
  · rw [bundleKeys_replaceBundle, bundleKeys_removeBundle]
    by_cases same : other = name
    · rw [if_pos same, same, keepsApart.bundleKeys_eq mem]
    · rw [if_neg same, if_neg same]

/-- **After any history of loads that keep apart** the messages of a language are those of the last
loads of the registered bundles, counted together; the removal of a bundle makes the keys of its
last load fail and leaves all others; and when the bundle is loaded again, everything is restored,
with the bundle at the end of the order. -/
theorem keepsApart_ofHistory (history : List StoreOperation) (apart : LoadsApart history) :
    (∀ language, (Store.ofHistory history : Store ε).messageCount language =
        ((registeredNames history).map fun name =>
          sizeIn (lastLoad history name) language).sum) ∧
      ∀ name ∈ registeredNames history,
        (∀ key language,
          ((Store.ofHistory history : Store ε).removeBundle name).2.lookup key language =
            if key ∈ keysOf (lastLoad history name) then none
            else (Store.ofHistory history : Store ε).lookup key language) ∧
        (Store.ofHistory history : Store ε).MovesToEnd name
          (((Store.ofHistory history).removeBundle name).2.replaceBundle name
            (lastLoad history name)) := by
  have keepsApart : (Store.ofHistory history : Store ε).KeepsApart (lastLoad history) :=
    .ofHistory apart
  rw [← bundleNames_ofHistory (ε := ε)]
  exact ⟨keepsApart.messageCount_eq_sum, fun name mem =>
    ⟨keepsApart.lookup_removeBundle mem, keepsApart.movesToEnd mem⟩⟩

/-- A bundle gives a key up, another one takes it, and the first goes and comes again. -/
def handover : List StoreOperation :=
  [.replace "menu" (Dict.ofList [("en", Dict.ofList [("open", "Open"), ("close", "Close")]),
      ("de", Dict.ofList [("open", "Auf")])]),
    .replace "dialog" (Dict.ofList [("en", Dict.ofList [("ok", "OK")])]),
    .replace "menu" (Dict.ofList [("en", Dict.ofList [("open", "Open up")])]),
    .replace "dialog" (Dict.ofList [("en", Dict.ofList [("ok", "OK"), ("close", "Done")]),
      ("de", Dict.ofList [("close", "Zu")])]),
    .remove "menu",
    .replace "menu" (Dict.ofList [("de", Dict.ofList [("open", "Auf")])])]

theorem keepsApart_handover :
    LoadsApart handover ∧ registeredNames handover = ["dialog", "menu"] ∧
      (Store.ofHistory handover : Store RawEntry).messageCount "de" = 2 ∧
      (Store.ofHistory handover : Store RawEntry).MovesToEnd "dialog"
        (((Store.ofHistory handover).removeBundle "dialog").2.replaceBundle "dialog"
          (lastLoad handover "dialog")) := by
  have apart : LoadsApart handover := by decide +kernel
  have registered : registeredNames handover = ["dialog", "menu"] := by decide +kernel
  have mem : "dialog" ∈ registeredNames handover := by
    rw [registered]
    exact List.mem_cons_self
  exact ⟨apart, registered, by decide +kernel,
    ((keepsApart_ofHistory handover apart).2 "dialog" mem).2⟩

end Store

end Phrasebook
