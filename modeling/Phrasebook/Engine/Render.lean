import Phrasebook.Engine.Basic
import Phrasebook.Text.Substitution

/-!
# Showing messages

A message is shown as plain text, by replacing `{name}` with the argument of that name, or as rich
text, by binding the placeholders of its template.  A value whose kind has a formatter is shown as
the message that the formatter names.  That message is shown without arguments, so showing goes
one message deep and no further.

Showing never fails: a missing message is shown as a text that says so.

## Main definitions

- `Engine.plain` shows a message as plain text.
- `Engine.rich` shows a message as rich text.
-/

namespace Phrasebook.Engine

variable {ε : Type}

/-- The plain text that stands for a missing message. -/
def missingPlain (key : String) (language : Language) : String :=
  "Missing message with key \"" ++ key ++ "\" for language " ++ language.identifier

/-- A message without arguments as plain text: the raw message as it is. -/
def barePlain [MessageEntry ε] (engine : Engine ε) (key : String) (language : Language) : String :=
  match engine.entry key language with
  | none => missingPlain key language
  | some entry => MessageEntry.raw entry

/-- The plain text of an argument. -/
def argumentPlain [MessageEntry ε] (engine : Engine ε) (language : Language) (argument : Argument) :
    String :=
  match argument with
  | .value value =>
    match engine.formatters.redirect? value none with
    | some key => engine.barePlain key language
    | none => value.text
  | other => other.plainText

/-- What stands for an argument in a raw message. -/
def needle (name : String) : String := Text.braced name

/-- A message as plain text. -/
def plain [MessageEntry ε] (engine : Engine ε) (key : String) (language : Language)
    (arguments : Arguments) : String :=
  match engine.entry key language with
  | none => missingPlain key language
  | some entry =>
    Text.replaceAll (MessageEntry.raw entry)
      (arguments.entries.map fun binding =>
        (needle binding.1, engine.argumentPlain language binding.2))

/-- The rich text that stands for a missing message. -/
def missingRich (key : String) (language : Language) : RichText :=
  RichText.colored ("Missing translation \"" ++ key ++ "\"@" ++ language.identifier) .darkRed

/-- The rich text of a placeholder that nothing is bound to. -/
def unbound : RichText := RichText.text "null"

/-- A message as rich text, in terms of the texts of its placeholders. -/
def richWith (engine : Engine CompiledEntry) (fill : Template.Placeholder → RichText) (key : String)
    (language : Language) : RichText :=
  match engine.entry key language with
  | none => missingRich key language
  | some entry =>
    engine.joiner (entry.tokens.map fun
      | .literal text => text
      | .placeholder placeholder => fill placeholder)

/-- A message without arguments as rich text. -/
def bareRich (engine : Engine CompiledEntry) (key : String) (language : Language) : RichText :=
  engine.richWith (fun _ => unbound) key language

/-- The rich text of a placeholder.  A rich argument takes the style of the placeholder but reacts
to hovering and clicking as it did. -/
def fill (engine : Engine CompiledEntry) (language : Language) (arguments : Arguments)
    (placeholder : Template.Placeholder) : RichText :=
  match arguments.get? placeholder.key with
  | none => unbound
  | some .null => unbound
  | some (.rich text) =>
    text.withStyle
      { placeholder.style with hover := text.style.hover, click := text.style.click }
  | some (.value value) =>
    match engine.formatters.redirect? value placeholder.parameter with
    | some key => engine.bareRich key language
    | none => RichText.styled value.text placeholder.style

/-- A message as rich text. -/
def rich (engine : Engine CompiledEntry) (key : String) (language : Language)
    (arguments : Arguments) : RichText :=
  engine.richWith (engine.fill language arguments) key language

end Phrasebook.Engine
