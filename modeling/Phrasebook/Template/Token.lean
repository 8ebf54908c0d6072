import Phrasebook.Template.Segment

/-!
# Compiled templates

Compiling a template gives its literal texts and placeholders in order, each with the style that the
formatting codes before it have set.  Formatting codes leave nothing else behind.

## Main definitions

- `Placeholder` and `Token`.
- `tokensOf` goes through segments with a pen; `compile` is that from the start of a template.
-/

namespace Phrasebook.Template

/-- A place for an argument: the key it is bound by, the parameter for the argument's formatter, and
the style in effect where it stands. -/
structure Placeholder where
  key : String
  parameter : Option String
  style : Style

/-- A part of a compiled template. -/
inductive Token where
  | literal (text : RichText)
  | placeholder (placeholder : Placeholder)

/-- The tokens of segments that are read with a given pen. -/
def tokensOf : Pen → List Segment → List Token
  | _, [] => []
  | pen, .literal text :: rest =>
    .literal (RichText.styled (String.ofList text) pen.style) :: tokensOf pen rest
  | pen, .placeholder slot :: rest =>
    .placeholder
      { key := String.ofList slot.key
        parameter := slot.parameter?.map String.ofList
        style := pen.style } :: tokensOf pen rest
  | pen, .style _ code :: rest => tokensOf (pen.apply code) rest

/-- The tokens of a template. -/
def compile (raw : String) : List Token := tokensOf {} (segments raw.toList)

end Phrasebook.Template
