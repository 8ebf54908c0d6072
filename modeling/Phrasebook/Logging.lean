import Phrasebook.Document.Record
import Phrasebook.Files.Tree

/-!
# Settings of the log

## Main definitions

- `LogFormat` is how a line of the log is written.
- `LogSettings` with the presets `standard`, `development` and `production`.
- `LogSettings.openFile` says whether the file of the log can be opened.
-/

namespace Phrasebook

/-- How the log is written: in several lines for people, in one line, or as one JSON object a
line. -/
inductive LogFormat where
  | pretty
  | compact
  | json
  deriving DecidableEq, Repr

namespace LogFormat

/-- The name of a format. -/
def name : LogFormat → String
  | pretty => "pretty"
  | compact => "compact"
  | json => "json"

/-- The format of a name. -/
def ofName? (name : String) : Option LogFormat :=
  [pretty, compact, json].find? fun format => format.name = name

/-- Reads a format. -/
def ofDocument? (dialect : Dialect) (document : Document) : Option LogFormat :=
  (document.choice? dialect).bind ofName?

@[simp]
theorem ofName?_name (format : LogFormat) : ofName? format.name = some format := by
  cases format <;> rfl

end LogFormat

/-- The settings of the log: which lines are kept, how they are written and where to. -/
structure LogSettings where
  level : String := "info"
  format : LogFormat := .pretty
  file : Option String := none
  includeSpans : Bool := false
  includeTargets : Bool := true
  deriving DecidableEq, Repr

namespace LogSettings

/-- The settings used where nothing else is said. -/
def standard : LogSettings := {}

/-- The settings for development: more lines, with spans. -/
def development : LogSettings := { level := "debug", includeSpans := true }

/-- The settings for production: JSON objects at the end of a file. -/
def production (file : String) : LogSettings := { format := .json, file := some file }

/-- Opens the file of the log, if there is one. -/
def openFile (settings : LogSettings) (tree : FileTree) (working : List String) :
    Except FileFault Unit :=
  match settings.file with
  | none => .ok ()
  | some file => tree.openForAppend working file

end LogSettings

end Phrasebook
