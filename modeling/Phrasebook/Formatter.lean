import Phrasebook.Argument.Basic
import Phrasebook.Text.Inspect

/-!
# Formatters

A formatter sends a value of one exact kind to another message: given the value and the
placeholder's parameter, it answers the key of the message that is shown in the value's place.

A registry has to hold formatters for different kinds side by side.  It keeps each of them twice:
as it was given, for whoever asks for the formatter of a kind, and as a redirect, which takes values
of all kinds and has no answer for those that are not of its own.

## Main definitions

- `Formatter kind`, and `Formatter.redirect`, which is the formatter for values of any kind.
- `Registration` keeps a formatter in both forms.
- The registry `Formatters`, which holds at most one registration for every kind, with
  `Formatters.register`, `unregister`, `get?` and `redirect?`.
- `Formatter.fixed` and `Formatter.composed` are two ready-made formatters.
-/

namespace Phrasebook

/-- A formatter for values of a kind: from a value and a parameter to the key of a message. -/
abbrev Formatter (kind : Kind) := kind.Carrier → Option String → String

/-- From a value of any kind and a parameter to the key of a message, if there is one for it. -/
abbrev Redirect := Value → Option String → Option String

namespace Formatter

/-- The formatter that always answers the same key. -/
def fixed (kind : Kind) (key : String) : Formatter kind := fun _ _ => key

/-- The formatter whose key is a first part, the parameter and the text of the value, with dots in
between.  Without a parameter, `standard` stands in its place. -/
def composed (kind : Kind) (first standard : String) : Formatter kind := fun value parameter =>
  first ++ "." ++ parameter.getD standard ++ "." ++ kind.textOf value

/-- A formatter for values of any kind: those that are not of its own kind have no key. -/
def redirect {kind : Kind} (formatter : Formatter kind) : Redirect := fun value parameter =>
  (value.as? kind).map fun datum => formatter datum parameter

end Formatter

/-- A formatter as a registry keeps it, in two forms. -/
structure Registration where
  kind : Kind
  formatter : Formatter kind
  redirect : Redirect

namespace Registration

/-- The registration of a formatter. -/
def ofFormatter {kind : Kind} (formatter : Formatter kind) : Registration where
  kind
  formatter
  redirect := formatter.redirect

/-- The formatter that is kept, if it is one for the given kind. -/
def formatter? (registration : Registration) (kind : Kind) : Option (Formatter kind) :=
  if h : registration.kind = kind then some (h ▸ registration.formatter) else none

@[simp]
theorem formatter?_ofFormatter {kind : Kind} (formatter : Formatter kind) :
    (ofFormatter formatter).formatter? kind = some formatter := dif_pos rfl

@[simp]
theorem redirect_ofFormatter {kind : Kind} (formatter : Formatter kind) :
    (ofFormatter formatter).redirect = formatter.redirect := rfl

end Registration

/-- At most one registration for every kind. -/
structure Formatters where
  registrations : Dict Kind Registration

namespace Formatters

/-- No formatter at all. -/
def empty : Formatters := ⟨Dict.empty⟩

/-- Makes a formatter the one for its kind. -/
def register (formatters : Formatters) (kind : Kind) (formatter : Formatter kind) : Formatters :=
  ⟨formatters.registrations.insert kind (Registration.ofFormatter formatter)⟩

/-- Whether a kind has a formatter. -/
def has (formatters : Formatters) (kind : Kind) : Bool := formatters.registrations.contains kind

/-- Removes the formatter of a kind and answers whether it had one. -/
def unregister (formatters : Formatters) (kind : Kind) : Bool × Formatters :=
  (formatters.has kind, ⟨formatters.registrations.erase kind⟩)

/-- The formatter of a kind. -/
def get? (formatters : Formatters) (kind : Kind) : Option (Formatter kind) :=
  (formatters.registrations.get? kind).bind fun registration => registration.formatter? kind

/-- The number of formatters. -/
def size (formatters : Formatters) : Nat := formatters.registrations.size

/-- Whether there is no formatter. -/
def isEmpty (formatters : Formatters) : Bool := formatters.registrations.isEmpty

/-- The key of the message shown in the place of a value, if its kind has a formatter. -/
def redirect? (formatters : Formatters) (value : Value) (parameter : Option String) :
    Option String :=
  (formatters.registrations.get? value.kind).bind fun registration =>
    registration.redirect value parameter

/-- The description of a registry: the labels of the kinds with a formatter, in order. -/
def describe (formatters : Formatters) (label : Kind → String) : String :=
  let labels := formatters.registrations.values.map fun registration => label registration.kind
  Text.record "FormatterRegistry"
    [("types", Text.list ((labels.mergeSort fun a b => decide (a ≤ b)).map Text.quoted))]

end Formatters

end Phrasebook
