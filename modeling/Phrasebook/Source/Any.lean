import Phrasebook.Source.Directory
import Phrasebook.Source.Scripted

/-!
# One of the sources

An `AnySource` is a fixed, a directory or a scripted source, to be chosen while running.
-/

namespace Phrasebook

/-- A source of one of the kinds. -/
inductive AnySource where
  | fixed (source : FixedSource)
  | directory (source : DirectorySource)
  | scripted (source : ScriptedSource)

namespace AnySource

/-- Changes the scripted source, if it is one. -/
def mapScripted (change : ScriptedSource → ScriptedSource) : AnySource → AnySource
  | scripted source => scripted (change source)
  | other => other

/-- Changes the files of a directory source, if it is one. -/
def mapTree (change : FileTree → FileTree) : AnySource → AnySource
  | directory source => directory { source with tree := change source.tree }
  | other => other

/-- The loads that a scripted source was asked for. -/
def calls : AnySource → List (String × List String)
  | scripted source => source.calls
  | _ => []

/-- Loads a bundle for languages. -/
def load (bundle : String) (languages : List Language) :
    Loading AnySource (Except LoadError Messages) := fun source =>
  match source with
  | fixed source =>
    let (answer, source) := (MessageSource.load bundle languages : Loading FixedSource _) source
    (answer, fixed source)
  | directory source =>
    let (answer, source) := (MessageSource.load bundle languages : Loading DirectorySource _) source
    (answer, directory source)
  | scripted source =>
    let (answer, source) := (MessageSource.load bundle languages : Loading ScriptedSource _) source
    (answer, scripted source)

instance : MessageSource AnySource where
  load := load
  pauses
    | fixed source => MessageSource.pauses source
    | directory source => MessageSource.pauses source
    | scripted source => MessageSource.pauses source

end AnySource

end Phrasebook
