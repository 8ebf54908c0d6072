import Phrasebook.Engine.Operation
import Phrasebook.Formatter
import Phrasebook.Language.Fallback
import Phrasebook.Source.Basic

/-!
# Engines

An engine holds the published store, the registry of languages, the formatters, and how the parts of
a rich message are joined.  It is loaded from a source that is kept beside it.

## Main definitions

- `Engine` with `Engine.handle`, which replies to the steps of an operation.
- `Engine.addBundle`, `removeBundle`, `reloadBundle` and `reloadAll` run the operations.
- `Engine.entry` looks a message up in a language and the languages it falls back to.
-/

namespace Phrasebook

/-- How the parts of a rich message are joined. -/
abbrev Joiner := List RichText → RichText

/-- A message engine over entries of a kind. -/
structure Engine (ε : Type) where
  registry : LanguageRegistry
  store : Store ε := Store.empty
  formatters : Formatters := Formatters.empty
  joiner : Joiner := RichText.join

namespace Engine

variable {ε σ α : Type}

/-- Changes an engine. -/
def change (f : Engine ε → Engine ε) : Loading (Engine ε × σ) Unit :=
  modify fun state => (f state.1, state.2)

/-- Loads the languages anew. -/
def reloadLanguages (engine : Engine ε) : Except LoadError (Engine ε) :=
  match engine.registry.reload with
  | .error error => .error error
  | .ok registry => .ok { engine with registry }

/-- Replies to a step of an operation.  With nothing else going on there is nobody to wait for. -/
def handle [MessageSource σ] (request : EngineRequest ε) :
    Loading (Engine ε × σ) request.Reply :=
  match request with
  | .enter => pure ()
  | .leave => pure ()
  | .languages => do
    let (engine, _) ← get
    pure engine.registry.languages
  | .reloadLanguages => do
    let (engine, source) ← get
    match engine.reloadLanguages with
    | .error error => pure (.error error)
    | .ok engine => do
      set (engine, source)
      pure (.ok ())
  | .load bundle languages =>
    Loading.within Prod.snd (fun state source => (state.1, source))
      (MessageSource.load bundle languages)
  | .snapshot => do
    let (engine, _) ← get
    pure engine.store
  | .publish store => change fun engine => { engine with store }

/-- Runs an operation with nothing else going on. -/
def run [MessageSource σ] (program : EngineProgram ε α) : Loading (Engine ε × σ) α :=
  program.run handle

/-- Registers and loads a bundle.  Answers whether it was new. -/
def addBundle [MessageEntry ε] [MessageSource σ] (name : String) :
    Loading (Engine ε × σ) (Except LoadError Bool) := run (EngineProgram.addBundle name)

/-- Loads a registered bundle anew.  Answers whether it was registered. -/
def reloadBundle [MessageEntry ε] [MessageSource σ] (name : String) :
    Loading (Engine ε × σ) (Except LoadError Bool) := run (EngineProgram.reloadBundle name)

/-- Unloads and forgets a bundle.  Answers whether it was registered. -/
def removeBundle [MessageSource σ] (name : String) : Loading (Engine ε × σ) Bool :=
  run (EngineProgram.removeBundle name)

/-- Loads all registered bundles anew, or none after a failure. -/
def reloadAll [MessageEntry ε] [MessageSource σ] : Loading (Engine ε × σ) (Except LoadError Unit) :=
  run EngineProgram.reloadAll

/-- Adds bundles in turn, up to the first failure. -/
def addBundles [MessageEntry ε] [MessageSource σ] :
    List String → Loading (Engine ε × σ) (Except LoadError Unit)
  | [] => pure (.ok ())
  | name :: rest => do
    match ← addBundle name with
    | .error error => pure (.error error)
    | .ok _ => addBundles rest

/-- The entry of a key in the first language of the fallback chain that has one. -/
def entry (engine : Engine ε) (key : String) (language : Language) : Option ε :=
  (engine.registry.chain language).findSome? (engine.store.lookup key)

/-- Whether a key has an entry. -/
def hasMessage (engine : Engine ε) (key : String) (language : Language) : Bool :=
  (engine.entry key language).isSome

/-- The description of an engine. -/
def describe (engine : Engine ε) (label : Kind → String) : String :=
  Text.openRecord "I18n"
    [("bundles", Text.list (engine.store.bundleNames.map Text.quoted)),
      ("formatters", engine.formatters.describe label)]

end Engine

end Phrasebook
