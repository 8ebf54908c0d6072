import Phrasebook.Interaction
import Phrasebook.Error
import Phrasebook.Language.Basic
import Phrasebook.Store.Basic

/-!
# The operations of an engine

An engine publishes a store of loaded messages.  Its operations take turns: each one enters, works
on a copy of the published store, and publishes the copy only when everything has been loaded.  So
a load that fails leaves the published store as it was.

Here the operations are interactions: they ask for the languages, for loads and for the published
store, and whoever runs them replies.

## Main definitions

- `EngineRequest` is what an operation asks for, and `EngineRequest.Reply` what it is told.
- `addBundle`, `removeBundle`, `reloadBundle` and `reloadAll` are the operations.
-/

namespace Phrasebook

/-- What an operation of an engine asks for. -/
inductive EngineRequest (ε : Type) where
  /-- To be the only operation from now on. -/
  | enter
  | leave
  | languages
  | reloadLanguages
  | load (bundle : String) (languages : List Language)
  /-- The published store. -/
  | snapshot
  | publish (store : Store ε)

/-- What an operation is told. -/
abbrev EngineRequest.Reply {ε : Type} : EngineRequest ε → Type
  | enter => Unit
  | leave => Unit
  | languages => List Language
  | reloadLanguages => Except LoadError Unit
  | load _ _ => Except LoadError Messages
  | snapshot => Store ε
  | publish _ => Unit

/-- An operation of an engine. -/
abbrev EngineProgram (ε α : Type) := Interaction (EngineRequest ε) EngineRequest.Reply α

namespace EngineProgram

variable {ε α : Type}

/-- Asks for something. -/
def ask (request : EngineRequest ε) : EngineProgram ε request.Reply :=
  Interaction.perform request

/-- Runs an operation as the only one. -/
def alone (body : EngineProgram ε α) : EngineProgram ε α := do
  ask .enter
  let result ← body
  ask .leave
  pure result

/-- Loads a bundle and publishes the store in which it replaces what the bundle held. -/
def loadOne [MessageEntry ε] (name : String) : EngineProgram ε (Except LoadError Bool) := do
  let languages ← ask .languages
  match ← ask (.load name languages) with
  | .error error => pure (.error error)
  | .ok messages => do
    let store ← ask .snapshot
    ask (.publish (store.replaceBundle name messages))
    pure (.ok true)

/-- Registers and loads a bundle.  Answers whether it was new; one that is registered is left
alone. -/
def addBundle [MessageEntry ε] (name : String) : EngineProgram ε (Except LoadError Bool) :=
  alone do
    let store ← ask .snapshot
    if store.containsBundle name then pure (.ok false) else loadOne name

/-- Loads a registered bundle anew.  Answers whether it was registered. -/
def reloadBundle [MessageEntry ε] (name : String) : EngineProgram ε (Except LoadError Bool) :=
  alone do
    let store ← ask .snapshot
    if store.containsBundle name then loadOne name else pure (.ok false)

/-- Unloads and forgets a bundle.  Answers whether it was registered. -/
def removeBundle (name : String) : EngineProgram ε Bool :=
  alone do
    let store ← ask .snapshot
    let (removed, rest) := store.removeBundle name
    if removed then do
      ask (.publish rest)
      pure true
    else pure false

/-- The known languages; if there are none they are loaded anew first. -/
def knownLanguages : EngineProgram ε (Except LoadError (List Language)) := do
  let languages ← ask .languages
  if languages.isEmpty then do
    match ← ask .reloadLanguages with
    | .error error => pure (.error error)
    | .ok () => do
      let languages ← ask .languages
      pure (.ok languages)
  else pure (.ok languages)

/-- Loads bundles in turn into a store, up to the first failure. -/
def loadAll [MessageEntry ε] (languages : List Language) :
    List String → Store ε → EngineProgram ε (Except LoadError (Store ε))
  | [], store => pure (.ok store)
  | name :: rest, store => do
    match ← ask (.load name languages) with
    | .error error => pure (.error error)
    | .ok messages => loadAll languages rest (store.replaceBundle name messages)

/-- Loads all registered bundles anew, in the order of their registration: either all of them or,
after a failure, none. -/
def reloadAll [MessageEntry ε] : EngineProgram ε (Except LoadError Unit) :=
  alone do
    match ← knownLanguages with
    | .error error => pure (.error error)
    | .ok languages => do
      let store ← ask .snapshot
      match ← loadAll languages store.bundleNames store.cleared with
      | .error error => pure (.error error)
      | .ok loaded => do
        ask (.publish loaded)
        pure (.ok ())

end EngineProgram

end Phrasebook
