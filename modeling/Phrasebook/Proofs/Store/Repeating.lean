import Phrasebook.Proofs.Store.Views

/-!
# Replacing a bundle twice by the same messages

A replacement unloads the keys that the bundle has recorded and then puts in its messages.  Messages
are put in by language and key, but what is recorded and unloaded is keys.  So the second of two
equal replacements need not leave things as they are: of a message of another bundle, with a key
that the new messages have in other languages only, the first replacement records the key, and the
second deletes the message.

`Store.Exposes` is that condition.  Nothing else can happen: all that an equal replacement deletes
are the exposed messages.

## Main statements

- `lookup_replaceBundle_again`, `messageCount_replaceBundle_again`: what the second replacement does
  to the messages, key by key and in numbers.
- `replaceBundle_again_agrees_iff`: it does nothing exactly if no message is exposed.
- `replaceBundle_third_agrees`: a third replacement does nothing.
-/

namespace Phrasebook

namespace Store

variable {ε : Type}

/-! ## Exposed messages -/

/-- **A replacement exposes a message** of another bundle: the new messages have its key, but not in
its language, and the bundle has not recorded the key before.  So the message stays, and the bundle
records its key. -/
def Exposes (store : Store ε) (name : String) (loaded : Messages) (key language : String) : Prop :=
  key ∈ keysOf loaded ∧ heldIn loaded key language = none ∧ ¬ store.Records name key ∧
    (store.lookup key language).isSome = true

instance (store : Store ε) (name : String) (loaded : Messages) (key language : String) :
    Decidable (store.Exposes name loaded key language) :=
  inferInstanceAs (Decidable (_ ∧ _ ∧ _ ∧ _))

/-- The keys of the messages of a language that a replacement exposes. -/
def exposed (store : Store ε) (name : String) (loaded : Messages) (language : String) :
    List String :=
  (keysOf loaded).toList.filter fun key => decide (store.Exposes name loaded key language)

theorem mem_exposed {store : Store ε} {name key language : String} {loaded : Messages} :
    key ∈ store.exposed name loaded language ↔ store.Exposes name loaded key language := by
  rw [exposed, List.mem_filter, decide_eq_true_iff]
  exact and_iff_right_of_imp fun exposes => exposes.1

theorem nodup_exposed (store : Store ε) (name : String) (loaded : Messages) (language : String) :
    (store.exposed name loaded language).Nodup :=
  ((keysOf loaded).sorted.imp fun less => String.ne_of_lt less).filter _

variable [MessageEntry ε] {store : Store ε} {name : String} {loaded : Messages}

/-- An exposed message stays at first. -/
theorem Exposes.lookup_replaceBundle {key language : String}
    (exposes : store.Exposes name loaded key language) :
    (store.replaceBundle name loaded).lookup key language = store.lookup key language := by
  obtain ⟨-, unwritten, unrecorded, -⟩ := exposes
  rw [Store.lookup_replaceBundle, unwritten, if_neg unrecorded]
  rfl

/-- What has been replaced exposes nothing any more: all keys are recorded. -/
theorem not_exposes_replaceBundle (key language : String) :
    ¬ (store.replaceBundle name loaded).Exposes name loaded key language := by
  rintro ⟨loads, -, unrecorded, -⟩
  exact unrecorded (records_replaceBundle.2 (by rwa [if_pos rfl]))

/-! ## The second replacement -/

variable (store name loaded)

theorem bundleNames_replaceBundle_again :
    ((store.replaceBundle name loaded).replaceBundle name loaded).bundleNames =
      (store.replaceBundle name loaded).bundleNames := by
  have registered : name ∈ (store.replaceBundle name loaded).bundleNames :=
    mem_bundleNames_iff.2 ⟨keysOf loaded, by rw [bundleKeys_replaceBundle, if_pos rfl]⟩
  rw [bundleNames_replaceBundle _ name, if_pos registered]

theorem bundleKeys_replaceBundle_again (other : String) :
    ((store.replaceBundle name loaded).replaceBundle name loaded).bundleKeys other =
      (store.replaceBundle name loaded).bundleKeys other := by
  rw [bundleKeys_replaceBundle _ name, bundleKeys_replaceBundle]
  split <;> rfl

/-- **The second replacement deletes the exposed messages** and nothing else. -/
theorem lookup_replaceBundle_again (key language : String) :
    ((store.replaceBundle name loaded).replaceBundle name loaded).lookup key language =
      if store.Exposes name loaded key language then none
      else (store.replaceBundle name loaded).lookup key language := by
  have recorded : (store.replaceBundle name loaded).Records name key ↔ key ∈ keysOf loaded := by
    rw [records_replaceBundle, if_pos rfl]
  rw [lookup_replaceBundle _ name]
  by_cases exposes : store.Exposes name loaded key language
  · rw [if_pos exposes, exposes.2.1, if_pos (recorded.2 exposes.1)]
    rfl
  · rw [if_neg exposes, lookup_replaceBundle]
    cases held : heldIn loaded key language with
    | some raw => rfl
    | none =>
      by_cases loads : key ∈ keysOf loaded
      · -- A message with a recorded key is gone already, and without one there was no message.
        have gone : (if store.Records name key then none else store.lookup key language) =
            none := by
          by_cases before : store.Records name key
          · rw [if_pos before]
          · rw [if_neg before, ← Option.not_isSome_iff_eq_none]
            exact fun found => exposes ⟨loads, held, before, found⟩
        rw [if_pos (recorded.2 loads), gone]
      · rw [if_neg (mt recorded.1 loads)]
        rfl

/-- The keys of a language are those that the second replacement leaves, and the exposed ones. -/
theorem keysIn_replaceBundle_perm (language : String) :
    ((store.replaceBundle name loaded).keysIn language).Perm
      (((store.replaceBundle name loaded).replaceBundle name loaded).keysIn language ++
        store.exposed name loaded language) := by
  have left : ∀ key,
      key ∈ ((store.replaceBundle name loaded).replaceBundle name loaded).keysIn language ↔
        ¬ store.Exposes name loaded key language ∧
          key ∈ (store.replaceBundle name loaded).keysIn language := by
    intro key
    rw [mem_keysIn, mem_keysIn, lookup_replaceBundle_again]
    by_cases exposes : store.Exposes name loaded key language <;> simp [exposes]
  have apart : List.Disjoint
      (((store.replaceBundle name loaded).replaceBundle name loaded).keysIn language)
        (store.exposed name loaded language) := fun key mem memExposed =>
    ((left key).1 mem).1 (mem_exposed.1 memExposed)
  rw [List.perm_ext_iff_of_nodup (nodup_keysIn _ language)
    ((nodup_keysIn _ language).append (nodup_exposed _ _ _ language) apart)]
  intro key
  rw [List.mem_append, left, mem_exposed]
  by_cases exposes : store.Exposes name loaded key language
  · have stays : key ∈ (store.replaceBundle name loaded).keysIn language := by
      rw [mem_keysIn, exposes.lookup_replaceBundle]
      exact exposes.2.2.2
    simp [exposes, stays]
  · simp [exposes]

theorem messageCount_replaceBundle_again (language : String) :
    ((store.replaceBundle name loaded).replaceBundle name loaded).messageCount language +
        (store.exposed name loaded language).length =
      (store.replaceBundle name loaded).messageCount language := by
  rw [← length_keysIn, ← length_keysIn, ← List.length_append]
  exact (keysIn_replaceBundle_perm store name loaded language).length_eq.symm

/-! ## Stores that agree -/

omit [MessageEntry ε] in
/-- **Two stores agree**: the same bundles stand in them, with the same keys in their records, and
the same messages are found. -/
structure Agrees (first second : Store ε) : Prop where
  bundles : first.bundleNames = second.bundleNames
  keys : ∀ other, first.bundleKeys other = second.bundleKeys other
  entries : ∀ key language, first.lookup key language = second.lookup key language

/-- **Two equal replacements are as good as one exactly if no message is exposed.** -/
theorem replaceBundle_again_agrees_iff :
    ((store.replaceBundle name loaded).replaceBundle name loaded).Agrees
        (store.replaceBundle name loaded) ↔
      ∀ key language, ¬ store.Exposes name loaded key language := by
  constructor
  · intro agrees key language exposes
    have kept := agrees.entries key language
    rw [lookup_replaceBundle_again, if_pos exposes, exposes.lookup_replaceBundle] at kept
    have found := exposes.2.2.2
    rw [← kept] at found
    cases found
  · intro none
    refine ⟨bundleNames_replaceBundle_again store name loaded,
      bundleKeys_replaceBundle_again store name loaded, fun key language => ?_⟩
    rw [lookup_replaceBundle_again, if_neg (none key language)]

/-- **Three are as good as two**, as the first one leaves nothing to be exposed. -/
theorem replaceBundle_third_agrees :
    (((store.replaceBundle name loaded).replaceBundle name loaded).replaceBundle name
      loaded).Agrees ((store.replaceBundle name loaded).replaceBundle name loaded) :=
  (replaceBundle_again_agrees_iff (store.replaceBundle name loaded) name loaded).2
    not_exposes_replaceBundle

end Store

end Phrasebook
