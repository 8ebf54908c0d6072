import Phrasebook.Proofs.Language.Listing
import Phrasebook.Proofs.Store.History

/-!
# What a registry holds after any history

A history is a list of operations that a registry has gone through: languages were added and
removed, and the languages were loaded anew.  What a loader answers may be different each time, so
an operation that loads comes with the answer that it gets.  A registry without a loader gets none.

What a registry holds is told from its history alone: under an identifier it is the last language
that was stored there (`LastStored`), be it added or loaded, if nothing has removed it since.
Loading anew stores all languages of the answer and does away with all others.  A failure does
neither.

Everything else follows from that.  The three operations make their entries differently, but all
of them enter a language under its own identifier, so the registry is keyed at all times.

## Main statements

- `language?_ofHistory_eq_some_iff`: what is held is what was stored last.
- `keepsHistory_ofHistory`: how it is listed, which one is the default, and what loading does next.
-/

namespace Phrasebook

/-! ## Operations -/

/-- A change to single languages of a registry. -/
inductive RegistryEdit where
  | insert (language : Language)
  | remove (identifier : String)

/-- What a change does to a registry. -/
def RegistryEdit.apply (registry : LanguageRegistry) : RegistryEdit → LanguageRegistry
  | insert language => registry.insert language
  | remove identifier => (registry.remove identifier).2

namespace LanguageRegistry

/-- Loads the languages anew while the loader, if there is one, answers as given. -/
def reloadFrom (registry : LanguageRegistry) (answer : Except LoadError (List Language)) :
    Except LoadError LanguageRegistry :=
  match { registry with loader := registry.loader.map fun _ => answer }.reload with
  | .ok reloaded => .ok { registry with known := reloaded.known }
  | .error error => .error error

end LanguageRegistry

/-- An operation on a registry: a single change, or loading all languages anew from an answer. -/
inductive RegistryOperation where
  | edit (change : RegistryEdit)
  | reload (answer : Except LoadError (List Language))

/-- What an operation does to a registry.  A failure to load leaves it as it is. -/
def RegistryOperation.apply (registry : LanguageRegistry) : RegistryOperation → LanguageRegistry
  | edit change => change.apply registry
  | reload answer =>
    match registry.reloadFrom answer with
    | .ok reloaded => reloaded
    | .error _ => registry

namespace LanguageRegistry

/-- The registry after a history, from one without languages. -/
def ofHistory (locales : LocaleTable) (loader : Option (Except LoadError (List Language)))
    (history : List RegistryOperation) : LanguageRegistry :=
  history.foldl RegistryOperation.apply { empty locales with loader }

end LanguageRegistry

/-! ## What was stored last -/

/-- A language is the **last of its identifier** in a list. -/
def IsLastOf (languages : List Language) (identifier : String) (language : Language) : Prop :=
  language.identifier = identifier ∧
    ∃ before after, languages = before ++ language :: after ∧
      identifier ∉ after.map Language.identifier

namespace RegistryOperation

/-- An operation **stores** a language under an identifier: it adds the language, or it loads
languages of which this is the last one with the identifier.  Loading takes a loader. -/
def Stores (loads : Bool) (identifier : String) (language : Language) : RegistryOperation → Prop
  | edit (.insert added) => added = language ∧ language.identifier = identifier
  | edit (.remove _) => False
  | reload (.ok loaded) => loads = true ∧ IsLastOf loaded identifier language
  | reload (.error _) => False

theorem Stores.identifier_eq {loads : Bool} {identifier : String} {language : Language}
    {operation : RegistryOperation} (stores : operation.Stores loads identifier language) :
    language.identifier = identifier := by
  cases operation with
  | edit change =>
    cases change with
    | insert added => exact stores.2
    | remove removed => exact absurd stores not_false
  | reload answer =>
    cases answer with
    | ok loaded => exact stores.2.1
    | error error => exact absurd stores not_false

/-- An operation **touches** an identifier: it adds or removes a language with it, or it loads
languages, whichever they are. -/
def Touches (loads : Bool) (identifier : String) : RegistryOperation → Prop
  | edit (.insert added) => added.identifier = identifier
  | edit (.remove removed) => removed = identifier
  | reload (.ok _) => loads = true
  | reload (.error _) => False

end RegistryOperation

/-- **The last language stored under an identifier.**  An operation of the history stores it, and
none after it touches the identifier. -/
def LastStored (loads : Bool) (history : List RegistryOperation) (identifier : String)
    (language : Language) : Prop :=
  ∃ before operation after, history = before ++ operation :: after ∧
    operation.Stores loads identifier language ∧
      ∀ later ∈ after, ¬ later.Touches loads identifier

theorem lastStored_concat_iff {loads : Bool} {history : List RegistryOperation}
    {last : RegistryOperation} {identifier : String} {language : Language} :
    LastStored loads (history ++ [last]) identifier language ↔
      last.Stores loads identifier language ∨
        ¬ last.Touches loads identifier ∧ LastStored loads history identifier language :=
  exists_last_concat_iff

/-! ## One operation -/

namespace LanguageRegistry

variable {registry : LanguageRegistry} {identifier : String} {language : Language}

theorem language?_remove (registry : LanguageRegistry) (removed identifier : String) :
    (registry.remove removed).2.language? identifier =
      if identifier = removed then none else registry.language? identifier :=
  Dict.get?_erase registry.known removed identifier

/-- Of the loaded languages, the last one of an identifier is held. -/
theorem get?_ofList_identifier_eq_some_iff {loaded : List Language} :
    (Dict.ofList (loaded.map fun language => (language.identifier, language))).get? identifier =
        some language ↔ IsLastOf loaded identifier language := by
  rw [Dict.get?_ofList_eq_some_iff]
  constructor
  · rintro ⟨before, after, split, last⟩
    obtain ⟨front, rest, rfl, rfl, restEq⟩ := List.map_eq_append_iff.1 split
    obtain ⟨held, back, rfl, heldEq, rfl⟩ := List.map_eq_cons_iff.1 restEq
    obtain ⟨rfl, rfl⟩ := Prod.mk.inj heldEq
    exact ⟨rfl, front, back, rfl, by simpa using last⟩
  · rintro ⟨rfl, before, after, rfl, last⟩
    exact ⟨_, _, by rw [List.map_append, List.map_cons], by simpa using last⟩

/-- Without a loader there is nothing to load from. -/
theorem reloadFrom_of_none (without : registry.loader = none)
    (answer : Except LoadError (List Language)) : registry.reloadFrom answer = .ok registry := by
  obtain ⟨known, locales, loader⟩ := registry
  subst without
  rfl

/-- An answer with a fault is passed on. -/
theorem reloadFrom_error (isLoader : registry.loader.isSome = true) (error : LoadError) :
    registry.reloadFrom (.error error) = .error error := by
  obtain ⟨usual, loaderEq⟩ := Option.isSome_iff_exists.1 isLoader
  simp [reloadFrom, reload, loaderEq]

/-- Loaded languages take the place of those that were held. -/
theorem reloadFrom_ok (isLoader : registry.loader.isSome = true) (loaded : List Language) :
    registry.reloadFrom (.ok loaded) =
      .ok { registry with
        known := Dict.ofList (loaded.map fun language => (language.identifier, language)) } := by
  obtain ⟨usual, loaderEq⟩ := Option.isSome_iff_exists.1 isLoader
  simp [reloadFrom, reload, loaderEq]

/-- While the loader answers what it is expected to answer, loading is plain loading. -/
theorem reloadFrom_eq_reload {answer : Except LoadError (List Language)}
    (answers : registry.loader = some answer) : registry.reloadFrom answer = registry.reload := by
  have isLoader : registry.loader.isSome = true := by rw [answers]; rfl
  cases answer with
  | error error => rw [reloadFrom_error isLoader, reload, answers]
  | ok loaded => rw [reloadFrom_ok isLoader, reload, answers]

/-- No operation changes whether there is a loader, and what it answers. -/
theorem loader_apply (registry : LanguageRegistry) (operation : RegistryOperation) :
    (operation.apply registry).loader = registry.loader := by
  cases operation with
  | edit change => cases change <;> rfl
  | reload answer =>
    cases isLoader : registry.loader.isSome with
    | false =>
      have without := Option.not_isSome_iff_eq_none.1 (ne_true_of_eq_false isLoader)
      rw [RegistryOperation.apply, reloadFrom_of_none without]
    | true =>
      cases answer with
      | error error => rw [RegistryOperation.apply, reloadFrom_error isLoader]
      | ok loaded => rw [RegistryOperation.apply, reloadFrom_ok isLoader]

/-- **What one operation does.**  A language is held under an identifier afterwards exactly if the
operation stores it there, or it was held before and the operation does not touch the identifier. -/
theorem language?_apply_eq_some_iff (registry : LanguageRegistry) (operation : RegistryOperation) :
    (operation.apply registry).language? identifier = some language ↔
      operation.Stores registry.loader.isSome identifier language ∨
        ¬ operation.Touches registry.loader.isSome identifier ∧
          registry.language? identifier = some language := by
  cases operation with
  | edit change =>
    cases change with
    | insert added =>
      show (registry.insert added).language? identifier = some language ↔ _
      rw [language?_insert]
      by_cases same : identifier = added.identifier
      · simp only [same, if_true, RegistryOperation.Stores, RegistryOperation.Touches]
        grind
      · simp only [same, if_false, RegistryOperation.Stores, RegistryOperation.Touches]
        grind
    | remove removed =>
      show (registry.remove removed).2.language? identifier = some language ↔ _
      rw [language?_remove]
      by_cases same : identifier = removed
      · simp [same, RegistryOperation.Stores, RegistryOperation.Touches]
      · simp [same, Ne.symm same, RegistryOperation.Stores, RegistryOperation.Touches]
  | reload answer =>
    cases isLoader : registry.loader.isSome with
    | false =>
      have without := Option.not_isSome_iff_eq_none.1 (ne_true_of_eq_false isLoader)
      rw [RegistryOperation.apply, reloadFrom_of_none without]
      cases answer <;> simp [RegistryOperation.Stores, RegistryOperation.Touches]
    | true =>
      cases answer with
      | error error =>
        rw [RegistryOperation.apply, reloadFrom_error isLoader]
        simp [RegistryOperation.Stores, RegistryOperation.Touches]
      | ok loaded =>
        rw [RegistryOperation.apply, reloadFrom_ok isLoader]
        show (Dict.ofList _).get? identifier = some language ↔ _
        rw [get?_ofList_identifier_eq_some_iff]
        simp [RegistryOperation.Stores, RegistryOperation.Touches]

/-! ## Any history -/

variable {locales : LocaleTable} {loader : Option (Except LoadError (List Language))}

theorem ofHistory_concat (history : List RegistryOperation) (last : RegistryOperation) :
    ofHistory locales loader (history ++ [last]) =
      last.apply (ofHistory locales loader history) := by
  rw [ofHistory, List.foldl_append]
  rfl

theorem loader_ofHistory (history : List RegistryOperation) :
    (ofHistory locales loader history).loader = loader := by
  induction history using List.reverseRecOn with
  | nil => rfl
  | append_singleton history last ih => rw [ofHistory_concat, loader_apply, ih]

/-- **What a registry holds after any history**: under each identifier, the last language that was
stored there. -/
theorem language?_ofHistory_eq_some_iff (history : List RegistryOperation) :
    (ofHistory locales loader history).language? identifier = some language ↔
      LastStored loader.isSome history identifier language := by
  induction history using List.reverseRecOn with
  | nil =>
    refine iff_of_false (by simp [ofHistory, empty, language?]) ?_
    rintro ⟨before, operation, after, split, -⟩
    simp at split
  | append_singleton history last ih =>
    rw [ofHistory_concat, language?_apply_eq_some_iff, loader_ofHistory, lastStored_concat_iff, ih]

/-- A registry is keyed at all times. -/
theorem isKeyed_ofHistory (history : List RegistryOperation) :
    (ofHistory locales loader history).IsKeyed := by
  intro identifier language held
  obtain ⟨_, operation, _, -, stores, -⟩ := (language?_ofHistory_eq_some_iff history).1 held
  exact stores.identifier_eq

/-- **What a registry shows of its history.** -/
structure KeepsHistory (loads : Bool) (history : List RegistryOperation)
    (registry : LanguageRegistry) : Prop where
  /-- Under an identifier there is the last language that was stored there. -/
  holds : ∀ identifier language, registry.language? identifier = some language ↔
    LastStored loads history identifier language
  /-- It is a language with that identifier. -/
  keyed : ∀ identifier language, registry.language? identifier = some language →
    language.identifier = identifier
  /-- The languages that are listed are those that are held. -/
  lists : ∀ language, language ∈ registry.languages ↔
    registry.language? language.identifier = some language
  /-- Their identifiers get strictly greater, byte by byte. -/
  ordered : registry.languages.Pairwise fun language next =>
    Text.Precedes language.identifier next.identifier
  counted : registry.languages.length = registry.size
  /-- The default language is the marked one with the least identifier. -/
  marked : ∀ language, registry.defaultLanguage? = some language ↔
    language ∈ registry.languages ∧ language.isDefault = true ∧
      ∀ other ∈ registry.languages, other.isDefault = true →
        other = language ∨ Text.Precedes language.identifier other.identifier
  /-- There is none only if no language is marked. -/
  unmarked : registry.defaultLanguage? = none ↔
    ∀ language ∈ registry.languages, language.isDefault = false

/-- **What loading the languages anew does to a registry.** -/
structure ReloadsWhole (registry : LanguageRegistry) : Prop where
  /-- Without a loader nothing changes, and that is no failure. -/
  without : registry.loader = none → ∀ answer, registry.reloadFrom answer = .ok registry
  /-- If the loader fails, the failure is passed on and nothing changes. -/
  failed : registry.loader.isSome = true → ∀ error,
    registry.reloadFrom (.error error) = .error error ∧
      RegistryOperation.apply registry (.reload (.error error)) = registry
  /-- If the loader answers languages, these are held and no others, of each identifier the last. -/
  loaded : registry.loader.isSome = true → ∀ loaded, ∃ reloaded,
    registry.reloadFrom (.ok loaded) = .ok reloaded ∧
      RegistryOperation.apply registry (.reload (.ok loaded)) = reloaded ∧
        ∀ identifier language, reloaded.language? identifier = some language ↔
          IsLastOf loaded identifier language
  /-- Loading is that with the answer that the loader has. -/
  plain : ∀ answer, registry.loader = some answer → registry.reload = registry.reloadFrom answer

theorem reloadsWhole (registry : LanguageRegistry) : registry.ReloadsWhole where
  without := reloadFrom_of_none
  failed isLoader error := by
    have failure := reloadFrom_error isLoader error
    exact ⟨failure, by rw [RegistryOperation.apply, failure]⟩
  loaded isLoader loaded := by
    have success := reloadFrom_ok isLoader loaded
    refine ⟨_, success, by rw [RegistryOperation.apply, success], fun identifier language => ?_⟩
    exact get?_ofList_identifier_eq_some_iff
  plain _ answers := (reloadFrom_eq_reload answers).symm

/-- **A registry keeps its history.**  After any operations, whatever the loader has answered each
time, it holds under every identifier the last language stored there, lists its languages in the
order of their identifiers, and has the first marked one as its default language.  Loading next
changes nothing without a loader or if the loader fails, and otherwise leaves what was loaded. -/
theorem keepsHistory_ofHistory (locales : LocaleTable)
    (loader : Option (Except LoadError (List Language))) (history : List RegistryOperation) :
    (ofHistory locales loader history).loader = loader ∧
      (ofHistory locales loader history).KeepsHistory loader.isSome history ∧
        (ofHistory locales loader history).ReloadsWhole := by
  have keyed : (ofHistory locales loader history).IsKeyed := isKeyed_ofHistory history
  refine ⟨loader_ofHistory history, ?_, reloadsWhole _⟩
  exact {
    holds := fun _ _ => language?_ofHistory_eq_some_iff history
    keyed
    lists := fun _ => mem_languages_iff.trans keyed.mem_values_iff
    ordered := keyed.pairwise_languages
    counted := length_languages _
    marked := fun _ => keyed.defaultLanguage?_eq_some_iff
    unmarked := defaultLanguage?_eq_none_iff }

end LanguageRegistry

end Phrasebook
