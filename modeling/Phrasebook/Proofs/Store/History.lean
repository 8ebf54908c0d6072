import Mathlib.Data.List.Induction
import Phrasebook.Proofs.History
import Phrasebook.Proofs.Store.Views

/-!
# What a store holds after any history

A history is a list of operations that a store has gone through.  The store remembers only records
and messages; this module says what they are in terms of the history alone:

* `RecordedIn`: a bundle records a key when its last replacement had the key in some language and
  the bundle was not replaced, removed or cleared since;
* `LastWrite`: a raw message was written by the last replacement that has the key in the language,
  and nothing since has unloaded the key.

Both are statements about where an operation stands among the others, and say nothing about
dictionaries.  Ownership is by key and messages are by language and key, so `LastWrite` depends on
`RecordedIn` at every later moment: a replacement or removal of *any* bundle that recorded the key
back then deletes it.

The induction is on the end of the history.  `recordedIn_concat_iff` and `lastWrite_concat_iff` say
what one more operation changes, and the equations of `Phrasebook.Proofs.Store.Views` say the same
of the store.

## Main statements

- `records_ofHistory_iff`: the records of a store are those of its history.
- `lookup_ofHistory_eq_some_iff`: a lookup finds the entry compiled from the last write, if it was
  not unloaded since, and nothing otherwise.
-/

namespace Phrasebook

/-- A change of a store. -/
inductive StoreOperation where
  | replace (name : String) (loaded : Messages)
  | remove (name : String)
  | clear

namespace StoreOperation

variable {ε : Type} [MessageEntry ε]

/-- What an operation does to a store. -/
def apply (store : Store ε) : StoreOperation → Store ε
  | replace name loaded => store.replaceBundle name loaded
  | remove name => (store.removeBundle name).2
  | clear => store.cleared

/-- An operation **resets** the record of a bundle: it replaces or removes the bundle, or clears. -/
def Resets (name : String) : StoreOperation → Prop
  | replace other _ => other = name
  | remove other => other = name
  | clear => True

/-- An operation **writes** a raw message for a key in a language. -/
def Writes (key language raw : String) : StoreOperation → Prop
  | replace _ loaded => heldIn loaded key language = some raw
  | _ => False

end StoreOperation

open StoreOperation

/-- The store after a history, from the empty one. -/
def Store.ofHistory {ε : Type} [MessageEntry ε] (history : List StoreOperation) : Store ε :=
  history.foldl StoreOperation.apply Store.empty

/-- **The record of a bundle after a history holds a key**: the last replacement of the bundle had
the key in some language, and nothing since has reset the record. -/
def RecordedIn (history : List StoreOperation) (name key : String) : Prop :=
  ∃ before loaded after, history = before ++ .replace name loaded :: after ∧
    (∃ language raw, heldIn loaded key language = some raw) ∧
      ∀ operation ∈ after, ¬ operation.Resets name

/-- An operation that follows a history **unloads** a key: it clears, or it replaces or removes a
bundle whose record holds the key at that moment. -/
def Unloads (history : List StoreOperation) (key : String) : StoreOperation → Prop
  | .replace name _ => RecordedIn history name key
  | .remove name => RecordedIn history name key
  | .clear => True

/-- **The last write that is still there.**  An operation of the history writes a raw message for a
key in a language, none after it writes one, and none after it unloads the key. -/
def LastWrite (history : List StoreOperation) (key language raw : String) : Prop :=
  ∃ before operation after, history = before ++ operation :: after ∧
    operation.Writes key language raw ∧
      (∀ later ∈ after, ∀ other, ¬ later.Writes key language other) ∧
        ∀ early later late, after = early ++ later :: late →
          ¬ Unloads (before ++ operation :: early) key later

/-! ## One more operation -/

theorem recordedIn_concat_iff {history : List StoreOperation} {last : StoreOperation}
    {name key : String} :
    RecordedIn (history ++ [last]) name key ↔
      (∃ loaded, last = .replace name loaded ∧
        ∃ language raw, heldIn loaded key language = some raw) ∨
          ¬ last.Resets name ∧ RecordedIn history name key := by
  constructor
  · rintro ⟨before, loaded, after, split, held, kept⟩
    rcases concat_eq_append_cons_iff.1 split with ⟨rfl, rfl, rfl⟩ | ⟨shorter, rfl, rfl⟩
    · exact Or.inl ⟨loaded, rfl, held⟩
    · refine Or.inr ⟨kept last (by simp), before, loaded, shorter, rfl, held, ?_⟩
      exact fun operation mem => kept operation (List.mem_append_left _ mem)
  · rintro (⟨loaded, rfl, held⟩ | ⟨notReset, before, loaded, after, rfl, held, kept⟩)
    · exact ⟨history, loaded, [], rfl, held, by simp⟩
    · refine ⟨before, loaded, after ++ [last], by simp, held, fun operation mem => ?_⟩
      rcases List.mem_append.1 mem with mem | mem
      · exact kept operation mem
      · obtain rfl := List.mem_singleton.1 mem
        exact notReset

theorem lastWrite_concat_iff {history : List StoreOperation} {last : StoreOperation}
    {key language raw : String} :
    LastWrite (history ++ [last]) key language raw ↔
      last.Writes key language raw ∨
        (∀ other, ¬ last.Writes key language other) ∧ ¬ Unloads history key last ∧
          LastWrite history key language raw := by
  constructor
  · rintro ⟨before, operation, after, split, writes, quiet, kept⟩
    rcases concat_eq_append_cons_iff.1 split with ⟨rfl, rfl, rfl⟩ | ⟨shorter, rfl, rfl⟩
    · exact Or.inl writes
    · refine Or.inr ⟨quiet last (by simp), kept shorter last [] rfl,
        before, operation, shorter, rfl, writes, ?_, ?_⟩
      · exact fun later mem => quiet later (List.mem_append_left _ mem)
      · rintro early later late rfl
        exact kept early later (late ++ [last]) (by simp)
  · rintro (writes | ⟨silent, notUnloaded, before, operation, after, rfl, writes, quiet, kept⟩)
    · exact ⟨history, last, [], rfl, writes, by simp, by simp⟩
    · refine ⟨before, operation, after ++ [last], by simp, writes, ?_, ?_⟩
      · intro later mem
        rcases List.mem_append.1 mem with mem | mem
        · exact quiet later mem
        · obtain rfl := List.mem_singleton.1 mem
          exact silent
      · intro early later late split
        rcases concat_eq_append_cons_iff.1 split with ⟨rfl, rfl, rfl⟩ | ⟨shorter, rfl, rfl⟩
        · exact notUnloaded
        · exact kept early later shorter rfl

/-! ## What the store remembers of its history -/

section

variable {ε : Type} [MessageEntry ε]

theorem ofHistory_concat (history : List StoreOperation) (last : StoreOperation) :
    (Store.ofHistory (history ++ [last]) : Store ε) = last.apply (Store.ofHistory history) := by
  rw [Store.ofHistory, List.foldl_append]
  rfl

/-- **The records of a store are those of its history.** -/
theorem records_ofHistory_iff (history : List StoreOperation) (name key : String) :
    (Store.ofHistory history : Store ε).Records name key ↔ RecordedIn history name key := by
  induction history using List.reverseRecOn generalizing name with
  | nil =>
    refine iff_of_false (KeySet.not_mem_empty key) ?_
    rintro ⟨before, loaded, after, split, -⟩
    simp at split
  | append_singleton history last ih =>
    rw [ofHistory_concat, recordedIn_concat_iff, ← ih]
    cases last with
    | replace other loaded =>
      -- Only a replacement of the bundle itself touches its record, and makes it anew.
      by_cases same : other = name
      · subst same
        have recorded : ((Store.ofHistory history : Store ε).replaceBundle other loaded).bundleKeys
            other = some (Store.keysOf loaded) := by
          rw [Store.bundleKeys_replaceBundle, if_pos rfl]
        rw [apply, Store.records_of_bundleKeys recorded, Store.mem_keysOf]
        simp [Resets]
      · rw [apply, Store.Records, Store.bundleKeys_replaceBundle, if_neg (Ne.symm same),
          ← Store.Records]
        simp [Resets, same]
    | remove other =>
      rw [apply, Store.Records, Store.bundleKeys_removeBundle]
      by_cases same : name = other
      · rw [if_pos same]
        simp [Resets, same]
      · rw [if_neg same, ← Store.Records]
        simp [Resets, Ne.symm same]
    | clear =>
      rw [apply, Store.Records, Store.bundleKeys_cleared]
      cases (Store.ofHistory history : Store ε).bundleKeys name <;> simp [Resets]

/-- **A lookup after any history.**  It finds the entry compiled from the raw message that the last
replacement with this key in this language has written, if no later operation has unloaded the key;
otherwise it finds nothing. -/
theorem lookup_ofHistory_eq_some_iff (history : List StoreOperation) (key language : String)
    (entry : ε) :
    (Store.ofHistory history : Store ε).lookup key language = some entry ↔
      ∃ raw, LastWrite history key language raw ∧ MessageEntry.compile raw = entry := by
  induction history using List.reverseRecOn with
  | nil =>
    refine iff_of_false (by simp [Store.ofHistory, Store.empty, Store.lookup]) ?_
    rintro ⟨raw, ⟨before, operation, after, split, -⟩, -⟩
    simp at split
  | append_singleton history last ih =>
    simp only [ofHistory_concat, lastWrite_concat_iff]
    cases last with
    | replace name loaded =>
      rw [apply, Store.lookup_replaceBundle]
      cases held : heldIn loaded key language with
      | some raw => simp [Writes, held]
      | none =>
        -- The bundle may have recorded the key before, whoever has written the message since.
        by_cases recorded : (Store.ofHistory history : Store ε).Records name key
        · have unloads := (records_ofHistory_iff history name key).1 recorded
          simp [Writes, held, recorded, Unloads, unloads]
        · have keeps := mt (records_ofHistory_iff history name key).2 recorded
          simp [Writes, held, recorded, Unloads, keeps, ih]
    | remove name =>
      rw [apply, Store.lookup_removeBundle]
      by_cases recorded : (Store.ofHistory history : Store ε).Records name key
      · have unloads := (records_ofHistory_iff history name key).1 recorded
        simp [Writes, recorded, Unloads, unloads]
      · have keeps := mt (records_ofHistory_iff history name key).2 recorded
        simp [Writes, recorded, Unloads, keeps, ih]
    | clear =>
      rw [apply, Store.lookup_cleared]
      simp [Writes, Unloads]

end

end Phrasebook
