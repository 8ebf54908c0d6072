import Phrasebook.KeySet
import Phrasebook.Store.Entry
import Phrasebook.Text.Inspect

/-!
# The store of loaded messages

A store holds the messages of all registered bundles by language and key, and for every bundle the
keys of its last load.  Two bundles may hold the same key: the message is that of the bundle loaded
last, and both records keep the key.  Unloading a bundle deletes the keys of its record from every
language, whoever wrote them.

## Main definitions

- `Store.replaceBundle` loads a bundle anew, `Store.removeBundle` forgets one, and `Store.cleared`
  keeps the bundles without any messages.
- `Store.lookup`, `Store.bundleKeys` and `Store.messageCount` are the views of a store.
-/

namespace Phrasebook

/-- A registered bundle and the keys of its last load. -/
structure BundleRecord where
  name : String
  keys : KeySet

/-- The loaded messages by language and key, and the registered bundles in order. -/
structure Store (ε : Type) where
  messages : Dict String (Dict String ε)
  bundles : List BundleRecord

namespace Store

variable {ε : Type}

/-- The store without bundles. -/
def empty : Store ε := ⟨Dict.empty, []⟩

instance : Inhabited (Store ε) := ⟨empty⟩

/-- The names of the registered bundles, in the order of their registration. -/
def bundleNames (store : Store ε) : List String := store.bundles.map BundleRecord.name

/-- The record of a bundle. -/
def record? (store : Store ε) (name : String) : Option BundleRecord :=
  store.bundles.find? fun record => record.name = name

/-- Whether a bundle is registered. -/
def containsBundle (store : Store ε) (name : String) : Bool :=
  store.bundles.any fun record => record.name = name

/-- The keys of the last load of a bundle, if it is registered. -/
def bundleKeys (store : Store ε) (name : String) : Option KeySet :=
  (store.record? name).map BundleRecord.keys

/-- The entry of a key in exactly one language. -/
def lookup (store : Store ε) (key language : String) : Option ε := do
  let messages ← store.messages.get? language
  messages.get? key

/-- The number of keys loaded for a language. -/
def messageCount (store : Store ε) (language : String) : Nat :=
  ((store.messages.get? language).map Dict.size).getD 0

/-- The same bundles in the same order, without keys and messages. -/
def cleared (store : Store ε) : Store ε :=
  ⟨Dict.empty, store.bundles.map fun record => { record with keys := KeySet.empty }⟩

/-- Gives the first record of a bundle other keys. -/
def setKeys (name : String) (keys : KeySet) : List BundleRecord → List BundleRecord
  | [] => []
  | record :: rest =>
    if record.name = name then { record with keys } :: rest else record :: setKeys name keys rest

/-- Deletes the keys of a bundle's record from every language and from the record. -/
def unload (store : Store ε) (name : String) : Store ε :=
  match store.bundleKeys name with
  | none => store
  | some keys =>
    { messages := store.messages.mapValues fun messages => messages.eraseAll keys.toList
      bundles := setKeys name KeySet.empty store.bundles }

/-- Puts the entries of one language's messages into the messages of that language. -/
def putLanguage [MessageEntry ε] (messages : Dict String (Dict String ε)) (language : String)
    (raw : Dict String String) : Dict String (Dict String ε) :=
  let held := (messages.get? language).getD Dict.empty
  messages.insert language (held.insertAll (raw.mapValues MessageEntry.compile).entries)

/-- Puts the entries of a bundle's messages in, language by language. -/
def putMessages [MessageEntry ε] (messages : Dict String (Dict String ε)) (loaded : Messages) :
    Dict String (Dict String ε) :=
  loaded.entries.foldl (fun messages entry => putLanguage messages entry.1 entry.2) messages

/-- All keys of a bundle's messages, over all languages. -/
def keysOf (loaded : Messages) : KeySet := KeySet.ofList (loaded.values.flatMap Dict.keys)

/-- Records the keys of a bundle; one that is not registered becomes the last bundle. -/
def recordKeys (store : Store ε) (name : String) (keys : KeySet) : List BundleRecord :=
  if store.containsBundle name then setKeys name keys store.bundles
  else store.bundles ++ [⟨name, keys⟩]

/-- Replaces everything that a bundle holds by the given messages, and registers the bundle if it is
not registered.  Keys that another bundle holds are taken over; its record keeps them. -/
def replaceBundle [MessageEntry ε] (store : Store ε) (name : String) (loaded : Messages) :
    Store ε :=
  let unloaded := store.unload name
  { messages := putMessages unloaded.messages loaded
    bundles := unloaded.recordKeys name (keysOf loaded) }

/-- Deletes the keys of a bundle's record from every language and forgets the bundle.  Answers
whether it was registered; one that is not registered is left alone. -/
def removeBundle (store : Store ε) (name : String) : Bool × Store ε :=
  let unloaded := store.unload name
  (store.containsBundle name,
    { unloaded with bundles := unloaded.bundles.filter fun record => record.name ≠ name })

end Store

/-- The description of a bundle record. -/
def BundleRecord.describe (record : BundleRecord) : String :=
  Text.record "BundleRecord"
    [("name", Text.quoted record.name), ("keys", Text.set (record.keys.toList.map Text.quoted))]

/-- The description of a store. -/
def Store.describe {ε : Type} (store : Store ε) : String :=
  Text.record "BundleStore"
    [("languages", Nat.repr store.messages.size),
      ("bundles", Text.list (store.bundles.map BundleRecord.describe))]

end Phrasebook
