import Phrasebook.Proofs.Store.Views

/-!
# Stores of different kinds of entries

A store makes its entries from raw messages, keeps them, and hands them out.  It never looks into
them, so it does not matter of which kind they are.  `Store.recompiled` is the same store with
entries of another kind, each made anew from the raw message of the old one, and the operations of
stores commute with it.

## Main statements

- `Store.lookup_recompiled`: what is found has the same raw message.
- `Store.recompiled_replaceBundle` and `recompiled_removeBundle`: first an operation and then other
  entries, or the other way round.
-/

namespace Phrasebook

/-- The entry of another kind for the same raw message. -/
def recompile {ε : Type} (δ : Type) [MessageEntry ε] [MessageEntry δ] (entry : ε) : δ :=
  MessageEntry.compile (MessageEntry.raw entry)

section Entries

variable {ε δ : Type} [MessageEntry ε] [MessageEntry δ]

@[simp]
theorem raw_recompile (entry : ε) : MessageEntry.raw (recompile δ entry) = MessageEntry.raw entry :=
  MessageEntry.raw_compile _

/-- An entry that has just been made is made anew from the message that it was made from. -/
theorem recompile_compile (message : String) :
    recompile δ (MessageEntry.compile message : ε) = MessageEntry.compile message :=
  congrArg MessageEntry.compile (MessageEntry.raw_compile message)

end Entries

namespace Store

variable {ε : Type} (δ : Type) [MessageEntry ε] [MessageEntry δ]

/-- Messages by language and key, with entries of another kind. -/
def recompileAll (messages : Dict String (Dict String ε)) : Dict String (Dict String δ) :=
  messages.mapValues fun entries => entries.mapValues (recompile δ)

/-- **The same store with entries of another kind.** -/
def recompiled (store : Store ε) : Store δ := ⟨recompileAll δ store.messages, store.bundles⟩

variable (store : Store ε) (name : String)

/-! ## What is read from it -/

@[simp]
theorem bundleNames_recompiled : (store.recompiled δ).bundleNames = store.bundleNames := rfl

@[simp]
theorem containsBundle_recompiled :
    (store.recompiled δ).containsBundle name = store.containsBundle name := rfl

@[simp]
theorem bundleKeys_recompiled : (store.recompiled δ).bundleKeys name = store.bundleKeys name := rfl

@[simp]
theorem lookup_recompiled (key language : String) :
    (store.recompiled δ).lookup key language = (store.lookup key language).map (recompile δ) := by
  simp only [lookup, recompiled, recompileAll, Dict.get?_mapValues]
  cases store.messages.get? language with
  | none => rfl
  | some entries => exact Dict.get?_mapValues (recompile δ) entries key

/-! ## What is done to it -/

theorem recompiled_unload :
    (store.unload name).recompiled δ = (store.recompiled δ).unload name := by
  rw [unload, unload, bundleKeys_recompiled]
  cases store.bundleKeys name with
  | none => rfl
  | some keys =>
    have commutes : recompileAll δ
        (store.messages.mapValues fun entries => entries.eraseAll keys.toList) =
          (recompileAll δ store.messages).mapValues fun entries => entries.eraseAll keys.toList :=
      Dict.eq_of_entries (by
        simp only [recompileAll, Dict.mapValues, List.map_map]
        exact List.map_congr_left fun entry _ =>
          congrArg (entry.1, ·) (Dict.mapValues_eraseAll (recompile δ) entry.2 keys.toList))
    exact congrArg (Store.mk · _) commutes

/-- The entries of one language are made from the same raw messages. -/
theorem recompileAll_putLanguage (messages : Dict String (Dict String ε)) (language : String)
    (raw : Dict String String) :
    recompileAll δ (putLanguage messages language raw) =
      putLanguage (recompileAll δ messages) language raw := by
  have held : ((recompileAll δ messages).get? language).getD Dict.empty =
      (((messages.get? language).getD Dict.empty).mapValues (recompile δ) : Dict String δ) := by
    rw [recompileAll, Dict.get?_mapValues]
    cases messages.get? language <;> rfl
  have made : ((raw.mapValues MessageEntry.compile).entries.map fun entry =>
      (entry.1, recompile δ (entry.2 : ε))) = (raw.mapValues MessageEntry.compile).entries := by
    simp only [Dict.mapValues, List.map_map]
    exact List.map_congr_left fun entry _ => congrArg (entry.1, ·) (recompile_compile entry.2)
  rw [putLanguage, putLanguage, recompileAll, Dict.mapValues_insert, Dict.mapValues_insertAll, made,
    held]
  rfl

theorem recompileAll_putMessages (messages : Dict String (Dict String ε)) (loaded : Messages) :
    recompileAll δ (putMessages messages loaded) =
      putMessages (recompileAll δ messages) loaded := by
  rw [putMessages, putMessages]
  induction loaded.entries generalizing messages with
  | nil => rfl
  | cons entry rest ih =>
    rw [List.foldl_cons, List.foldl_cons, ih, recompileAll_putLanguage]

theorem recompiled_replaceBundle (loaded : Messages) :
    (store.replaceBundle name loaded).recompiled δ =
      (store.recompiled δ).replaceBundle name loaded := by
  rw [replaceBundle, replaceBundle, ← recompiled_unload]
  exact congrArg (Store.mk · _) (recompileAll_putMessages δ (store.unload name).messages loaded)

theorem recompiled_removeBundle :
    (store.removeBundle name).2.recompiled δ = ((store.recompiled δ).removeBundle name).2 := by
  rw [removeBundle, removeBundle, ← recompiled_unload]
  rfl

end Store

end Phrasebook
