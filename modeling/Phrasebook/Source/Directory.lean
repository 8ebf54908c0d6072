import Phrasebook.Document.Json
import Phrasebook.Files.Tree
import Phrasebook.Source.Basic

/-!
# Bundles in a directory of JSON files

A bundle has one file for each language, in the directory of that language.  A language whose file
does not exist has no messages; any other fault ends the load.

## Main definitions

- `MessageDirectory` with `bundlePath`, the file of a bundle in a language.
- `MessageDirectory.load` reads a bundle for languages in turn.
- `DirectorySource` is a directory as a source, with the files around it.
-/

namespace Phrasebook

/-- A directory with a directory of bundle files for every language. -/
structure MessageDirectory where
  base : String := "locales"
  deriving DecidableEq, Repr

namespace MessageDirectory

/-- The path of a bundle's file in a language. -/
def bundlePath (directory : MessageDirectory) (bundle language : String) : String :=
  Path.join (Path.join directory.base language) (bundle ++ ".json")

/-- The messages of the file of a bundle in a language, if it exists. -/
def loadFile (directory : MessageDirectory) (tree : FileTree) (working : List String)
    (bundle language : String) : Except LoadError (Option (Dict String String)) :=
  let path := directory.bundlePath bundle language
  match tree.readText working path with
  | .error .notFound => .ok none
  | .error fault => .error (.file fault)
  | .ok text =>
    match Document.ofJsonFully? text with
    | some document => .ok (some document.messages)
    | none => .error (.json path)

/-- Loads a bundle for languages in turn, after the messages loaded before. -/
def loadAfter (directory : MessageDirectory) (tree : FileTree) (working : List String)
    (bundle : String) (loaded : Messages) : List Language → Except LoadError Messages
  | [] => .ok loaded
  | language :: rest =>
    match directory.loadFile tree working bundle language.identifier with
    | .error error => .error error
    | .ok none => loadAfter directory tree working bundle loaded rest
    | .ok (some messages) =>
      loadAfter directory tree working bundle (loaded.insert language.identifier messages) rest

/-- Loads a bundle for languages. -/
def load (directory : MessageDirectory) (tree : FileTree) (working : List String) (bundle : String)
    (languages : List Language) : Except LoadError Messages :=
  loadAfter directory tree working bundle Dict.empty languages

end MessageDirectory

/-- A message directory in a tree of files, seen from a working directory. -/
structure DirectorySource where
  directory : MessageDirectory
  tree : FileTree
  working : List String

instance : MessageSource DirectorySource where
  load bundle languages := do
    let source ← get
    pure (source.directory.load source.tree source.working bundle languages)
  pauses _ := false

end Phrasebook
