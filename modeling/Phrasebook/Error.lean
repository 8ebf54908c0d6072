import Phrasebook.Duration
import Phrasebook.Files.Tree

/-!
# Failures to load

What can go wrong while bundles and languages are loaded.  Showing a message never fails: a missing
message shows a diagnostic in its place.
-/

namespace Phrasebook

/-- Why bundles or languages could not be loaded. -/
inductive LoadError where
  /-- A source could not produce a bundle. -/
  | source (bundle : String) (cause : String)
  /-- A text is no language identifier. -/
  | invalidLanguage (tag : String)
  /-- The languages could not be loaded again. -/
  | languageReload (cause : String)
  /-- A lock was not free in time. -/
  | lockTimeout (lock : String) (waited : Duration)
  /-- The store behind a cache failed. -/
  | cache (cause : String)
  /-- A bundle file is no JSON text. -/
  | json (path : String)
  /-- A bundle file could not be read. -/
  | file (fault : FileFault)
  deriving DecidableEq, Repr

/-- The wording of a failure. -/
def LoadError.message : LoadError → String
  | source bundle cause => "Failed to load bundle '" ++ bundle ++ "': " ++ cause
  | invalidLanguage tag => "Invalid language identifier: " ++ tag
  | languageReload cause => "Failed to reload languages: " ++ cause
  | lockTimeout lock waited => "Couldn't acquire lock '" ++ lock ++ "' within " ++ waited.text
  | cache cause => "Cache backend error: " ++ cause
  | json path => "Failed to parse bundle file " ++ path
  | file fault => "IO error: " ++ fault.message

/-- The failure, if something has failed. -/
def failure? {α : Type} : Except LoadError α → Option LoadError
  | .error error => some error
  | .ok _ => none

end Phrasebook
