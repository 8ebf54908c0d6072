import Phrasebook.Engine.Render
import Phrasebook.Proofs.Engine.Additions
import Phrasebook.Proofs.Store.History
import Phrasebook.Proofs.Store.Repeating

/-!
# Reloading a bundle that has not changed

A bundle is loaded and then reloaded, and its source answers the same messages both times.  The
store goes through two equal replacements, so its records stay as they are and of its messages the
exposed ones are lost (`Store.Exposes`).  An engine shows messages by looking for entries along the
fallback chain of a language, and by nothing else of its store; so what it shows in a language stays
the same if nothing is exposed along the chain of the language.

## Main statements

- `Engine.plain_congr`, `Engine.rich_congr`: engines that find the same entries show the same.
- `reload_unchanged`: what the second of two equal loads does to the store, and that it does not
  change what is shown where no message is exposed.
-/

namespace Phrasebook

namespace Engine

/-! ## Engines that find the same entries -/

section

variable {ε : Type} {first second : Engine ε} {language : Language}

/-- What is looked up along the chain decides the entry. -/
theorem entry_congr {key : String} (registry : first.registry = second.registry)
    (same : ∀ identifier ∈ first.registry.chain language,
      first.store.lookup key identifier = second.store.lookup key identifier) :
    first.entry key language = second.entry key language := by
  rw [entry, entry, ← registry, ← List.head?_filterMap, ← List.head?_filterMap]
  exact congrArg List.head? (List.filterMap_congr same)

variable [MessageEntry ε]

/-- A message without arguments is its raw message or the text that it is missing. -/
theorem barePlain_congr {key : String}
    (same : first.entry key language = second.entry key language) :
    first.barePlain key language = second.barePlain key language := by
  rw [barePlain, barePlain, same]

/-- **Plain text is made of entries and formatters.** -/
theorem plain_congr (formatters : first.formatters = second.formatters)
    (same : ∀ key, first.entry key language = second.entry key language) (key : String)
    (arguments : Arguments) :
    first.plain key language arguments = second.plain key language arguments := by
  have written : first.argumentPlain language = second.argumentPlain language := by
    funext argument
    cases argument with
    | value value =>
      simp only [argumentPlain, formatters]
      cases second.formatters.redirect? value none with
      | none => rfl
      | some target => exact barePlain_congr (same target)
    | null => rfl
    | rich text => rfl
  rw [plain, plain, same, written]

end

section

variable {first second : Engine CompiledEntry} {language : Language}

theorem richWith_congr {key : String} {fill other : Template.Placeholder → RichText}
    (joiner : first.joiner = second.joiner)
    (same : first.entry key language = second.entry key language) (filled : fill = other) :
    first.richWith fill key language = second.richWith other key language := by
  rw [richWith, richWith, same, joiner, filled]

/-- **Rich text is made of entries and formatters**, and of how parts are joined. -/
theorem rich_congr (formatters : first.formatters = second.formatters)
    (joiner : first.joiner = second.joiner)
    (same : ∀ key, first.entry key language = second.entry key language) (key : String)
    (arguments : Arguments) :
    first.rich key language arguments = second.rich key language arguments := by
  refine richWith_congr joiner (same key) (funext fun placeholder => ?_)
  rw [fill, fill]
  split
  · rfl
  · rfl
  · rfl
  · rename_i value bound
    rw [formatters]
    cases second.formatters.redirect? value placeholder.parameter with
    | none => rfl
    | some target => exact richWith_congr joiner (same target) rfl

end

/-! ## Two equal loads -/

section

variable {ε : Type} {engine : Engine ε} {name : String} {loaded : Messages}

/-- Nothing is **exposed along the chain** of a language when a bundle is loaded. -/
def Unexposed (engine : Engine ε) (name : String) (loaded : Messages) (language : Language) :
    Prop :=
  ∀ identifier ∈ engine.registry.chain language,
    engine.store.exposed name loaded identifier = []

instance (engine : Engine ε) (name : String) (loaded : Messages) (language : Language) :
    Decidable (engine.Unexposed name loaded language) :=
  inferInstanceAs (Decidable (∀ identifier ∈ engine.registry.chain language, _ = _))

variable [MessageEntry ε]

/-- The entries of a language stay where nothing is exposed. -/
theorem Unexposed.entry_taking {language : Language}
    (unexposed : engine.Unexposed name loaded language) (key : String) :
    ((engine.taking name (.ok loaded)).taking name (.ok loaded)).entry key language =
      (engine.taking name (.ok loaded)).entry key language := by
  refine entry_congr rfl fun identifier onChain => ?_
  have none : ¬ engine.store.Exposes name loaded key identifier := by
    rw [← Store.mem_exposed, unexposed identifier onChain]
    exact List.not_mem_nil
  exact (Store.lookup_replaceBundle_again engine.store name loaded key identifier).trans
    (if_neg none)

/-- A bundle that has been loaded is registered. -/
theorem containsBundle_taking :
    (engine.taking name (.ok loaded)).store.containsBundle name = true := by
  show (engine.store.replaceBundle name loaded).containsBundle name = true
  rw [Store.containsBundle_iff, Store.bundleKeys_replaceBundle, if_pos rfl]
  rfl

variable {σ : Type} [MessageSource σ]

/-- A bundle is loaded, whether it is new or not. -/
theorem load_of_answer {source changed : σ}
    (answer : (MessageSource.load name engine.registry.languages : Loading σ _) source =
      (some (.ok loaded), changed)) :
    (if engine.store.containsBundle name then reloadBundle name else addBundle name :
        Loading (Engine ε × σ) _) (engine, source) =
      (some (.ok true), (engine.taking name (.ok loaded), changed)) := by
  cases registered : engine.store.containsBundle name with
  | true =>
    rw [if_pos rfl]
    exact reloadBundle_of_registered registered answer
  | false =>
    rw [if_neg Bool.false_ne_true]
    exact addBundle_of_new registered answer

end

end Engine

open Engine

/-- **Reloading a bundle that has not changed.**  Two equal replacements leave the same bundles with
the same records as one; of the messages the second one deletes those that the first has exposed,
and it keeps all others.  An engine goes through such replacements when it loads a bundle and then
reloads it and the source answers the same, and what it shows in a language stays the same if
nothing is exposed along the chain of the language. -/
theorem reload_unchanged {ε : Type} [MessageEntry ε] (name : String) (loaded : Messages) :
    (∀ store : Store ε,
      ((store.replaceBundle name loaded).replaceBundle name loaded).bundleNames =
          (store.replaceBundle name loaded).bundleNames ∧
        (∀ other,
          ((store.replaceBundle name loaded).replaceBundle name loaded).bundleKeys other =
            (store.replaceBundle name loaded).bundleKeys other) ∧
        (∀ key language,
          ((store.replaceBundle name loaded).replaceBundle name loaded).lookup key language =
            if store.Exposes name loaded key language then none
            else (store.replaceBundle name loaded).lookup key language) ∧
        ∀ language,
          ((store.replaceBundle name loaded).replaceBundle name loaded).messageCount language +
              (store.exposed name loaded language).length =
            (store.replaceBundle name loaded).messageCount language) ∧
      (∀ {σ : Type} [MessageSource σ] (engine : Engine ε) (source between last : σ),
        (MessageSource.load name engine.registry.languages : Loading σ _) source =
            (some (.ok loaded), between) →
          (MessageSource.load name engine.registry.languages : Loading σ _) between =
              (some (.ok loaded), last) →
            (if engine.store.containsBundle name then reloadBundle name else addBundle name :
                Loading (Engine ε × σ) _) (engine, source) =
              (some (.ok true), (engine.taking name (.ok loaded), between)) ∧
            (reloadBundle name : Loading (Engine ε × σ) _)
                (engine.taking name (.ok loaded), between) =
              (some (.ok true),
                ((engine.taking name (.ok loaded)).taking name (.ok loaded), last))) ∧
      (∀ (engine : Engine ε) language, engine.Unexposed name loaded language → ∀ key,
        ((engine.taking name (.ok loaded)).taking name (.ok loaded)).entry key language =
            (engine.taking name (.ok loaded)).entry key language ∧
          ∀ arguments,
            ((engine.taking name (.ok loaded)).taking name (.ok loaded)).plain key language
                arguments =
              (engine.taking name (.ok loaded)).plain key language arguments) ∧
      ∀ (engine : Engine CompiledEntry) language, engine.Unexposed name loaded language →
        ∀ key arguments,
          ((engine.taking name (.ok loaded)).taking name (.ok loaded)).rich key language
              arguments =
            (engine.taking name (.ok loaded)).rich key language arguments := by
  refine ⟨fun store => ⟨store.bundleNames_replaceBundle_again name loaded,
    store.bundleKeys_replaceBundle_again name loaded, store.lookup_replaceBundle_again name loaded,
    store.messageCount_replaceBundle_again name loaded⟩, ?_, ?_, ?_⟩
  · intro σ _ engine source between last first second
    exact ⟨load_of_answer first, reloadBundle_of_registered containsBundle_taking second⟩
  · intro engine language unexposed key
    exact ⟨unexposed.entry_taking key, plain_congr (by rfl) unexposed.entry_taking key⟩
  · intro engine language unexposed key arguments
    exact rich_congr (by rfl) (by rfl) unexposed.entry_taking key arguments

/-- An English greeting. -/
def englishWelcome : Messages := Dict.ofList [("en", Dict.ofList [("greeting", "Hello")])]

/-- An engine with one bundle, which holds the English greeting. -/
def welcoming : Engine CompiledEntry where
  registry := LanguageRegistry.ofLanguages LocaleTable.empty
    [{ identifier := "en", name := "English" }]
  store := Store.ofHistory [.replace "old" englishWelcome]

/-- A source of another greeting. -/
def welcomer : FixedSource :=
  ⟨Dict.ofList [("new", Dict.ofList [("greeting", "&lHi, {who}")])]⟩

/-- A bundle that takes over the greeting in its language may be reloaded as often as one likes. -/
theorem reload_unchanged_welcome :
    ∃ loaded, welcomer.messages "new" welcoming.registry.languages = loaded ∧
      welcoming.Unexposed "new" loaded { identifier := "en", name := "English" } ∧
      (reloadBundle "new" : Loading (Engine CompiledEntry × FixedSource) _)
          (welcoming.taking "new" (.ok loaded), welcomer) =
        (some (.ok true),
          ((welcoming.taking "new" (.ok loaded)).taking "new" (.ok loaded), welcomer)) ∧
      ∀ key arguments,
        ((welcoming.taking "new" (.ok loaded)).taking "new" (.ok loaded)).rich key
            { identifier := "en", name := "English" } arguments =
          (welcoming.taking "new" (.ok loaded)).rich key
            { identifier := "en", name := "English" } arguments := by
  have unexposed : welcoming.Unexposed "new" (welcomer.messages "new" welcoming.registry.languages)
      { identifier := "en", name := "English" } := by
    decide +kernel
  obtain ⟨-, loads, -, shows⟩ := @reload_unchanged CompiledEntry _ "new"
    (welcomer.messages "new" welcoming.registry.languages)
  exact ⟨_, rfl, unexposed, (loads welcoming welcomer welcomer welcomer rfl rfl).2,
    shows welcoming _ unexposed⟩

/-- A German greeting under the same key. -/
def germanWelcome : Messages := Dict.ofList [("de", Dict.ofList [("greeting", "Hallo")])]

/-- A bundle with a German greeting leaves the English one of another bundle alone when it is
loaded, and deletes it when it is reloaded. -/
theorem reload_loses_welcome :
    ∃ once twice : Engine CompiledEntry,
      once = welcoming.taking "new" (.ok germanWelcome) ∧
      twice = once.taking "new" (.ok germanWelcome) ∧
      (once.store.lookup "greeting" "en").map MessageEntry.raw = some "Hello" ∧
      twice.store.lookup "greeting" "en" = none ∧
      once.store.messageCount "en" = 1 ∧
      twice.store.messageCount "en" = 0 ∧
      once.plain "greeting" { identifier := "en", name := "English" } Dict.empty = "Hello" ∧
      twice.plain "greeting" { identifier := "en", name := "English" } Dict.empty =
        "Missing message with key \"greeting\" for language en" := by
  refine ⟨_, _, rfl, rfl, ?_, ?_, ?_, ?_, ?_, ?_⟩ <;> decide +kernel

end Phrasebook
