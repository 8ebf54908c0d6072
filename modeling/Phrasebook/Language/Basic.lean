/-!
# Languages

A language that messages can be shown in.  A language does not own its fallback: it only names one,
which is looked up when it is needed and may be missing by then.
-/

namespace Phrasebook

/-- A language: its identifier, a name to show, whether it is the default one, and optionally a
country, the identifier of the language to fall back to, and a locale tag. -/
structure Language where
  identifier : String
  name : String
  isDefault : Bool := false
  country : Option String := none
  fallback : Option String := none
  locale : Option String := none
  deriving DecidableEq, Repr

end Phrasebook
