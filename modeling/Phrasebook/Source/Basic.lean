import Phrasebook.Error
import Phrasebook.Language.Basic
import Phrasebook.Store.Entry

/-!
# Message sources

A source loads the raw messages of a bundle for a list of languages.  Loading may change the source,
may fail, and may never complete.

## Main definitions

- `Loading σ` is what goes on while something is loaded from a source that is a `σ`.
- `MessageSource` is the interface of sources.
- `FixedSource` answers messages that are given in advance, the same for every language.
-/

namespace Phrasebook

/-- A change of a `σ` that may never complete. -/
abbrev Loading (σ : Type) := OptionT (StateM σ)

namespace Loading

variable {σ τ α : Type}

/-- A change of a part of a whole. -/
def within (part : τ → σ) (put : τ → σ → τ) (change : Loading σ α) : Loading τ α :=
  fun whole =>
    let (answer, changed) := change (part whole)
    (answer, put whole changed)

/-- One change after the other: without an answer to the first that is the end. -/
theorem bind_apply {β : Type} (first : Loading σ α) (next : α → Loading σ β)
    (state : σ) :
    (first >>= next) state =
      match first state with
      | (some answer, changed) => next answer changed
      | (none, changed) => (none, changed) := by
  simp only [bind, OptionT.bind, OptionT.mk, StateT.bind]
  cases first state with
  | mk answer changed => cases answer <;> rfl

end Loading

/-- The interface of sources: how a bundle is loaded for languages, and whether others get a turn
before a load answers. -/
class MessageSource (σ : Type) where
  load : String → List Language → Loading σ (Except LoadError Messages)
  pauses : σ → Bool

/-- A source of messages that are given in advance, by bundle. -/
structure FixedSource where
  bundles : Dict String (Dict String String)

namespace FixedSource

/-- The messages of a bundle in each of the languages; an unknown bundle has none. -/
def messages (source : FixedSource) (bundle : String) (languages : List Language) : Messages :=
  match source.bundles.get? bundle with
  | none => Dict.empty
  | some strings => Dict.ofList (languages.map fun language => (language.identifier, strings))

instance : MessageSource FixedSource where
  load bundle languages := do
    let source ← get
    pure (.ok (source.messages bundle languages))
  pauses _ := false

end FixedSource

end Phrasebook
