import Phrasebook.Dict
import Phrasebook.Template.Token

/-!
# Messages and their stored form

A source answers raw messages: for each language, a raw message per key.  What is stored is an entry
made from the raw message: the message alone, or the message with its compiled template.

## Main definitions

- `Messages` is what a source answers for one bundle.
- `MessageEntry` is the interface of entries; `RawEntry` and `CompiledEntry` are the two kinds.
-/

namespace Phrasebook

/-- The raw messages of a bundle: by language identifier, then by key. -/
abbrev Messages := Dict String (Dict String String)

/-- The stored form of a message: it is made from a raw message and gives it back. -/
class MessageEntry (ε : Type) where
  compile : String → ε
  raw : ε → String
  raw_compile : ∀ message, raw (compile message) = message

/-- An entry that is the raw message. -/
structure RawEntry where
  raw : String
  deriving DecidableEq, Repr

instance : MessageEntry RawEntry where
  compile := RawEntry.mk
  raw := RawEntry.raw
  raw_compile _ := rfl

/-- An entry with the compiled template of its raw message, and of no other. -/
structure CompiledEntry where
  raw : String
  tokens : List Template.Token
  tokens_eq : tokens = Template.compile raw

instance : MessageEntry CompiledEntry where
  compile message := ⟨message, Template.compile message, rfl⟩
  raw := CompiledEntry.raw
  raw_compile _ := rfl

end Phrasebook
