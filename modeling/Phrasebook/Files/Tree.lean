import Phrasebook.Dict
import Phrasebook.Files.Path

/-!
# Trees of files

A `FileTree` holds files and directories under paths from its root.  Reading and opening follow a
path name by name and answer the fault at which that ends.

## Main definitions

- `FileFault` with its wording.
- `FileTree.resolve` follows a path, `readText` reads a file as text, and `openForAppend` says
  whether a file could be opened for writing at its end.
- `write` puts a file into a tree with the directories above it, `makeDirectory` a directory, and
  `remove` takes a file away.
-/

namespace Phrasebook

/-- Why a file cannot be opened or read. -/
inductive FileFault where
  | notFound
  | notADirectory
  | isADirectory
  | nameTooLong
  | nulInName
  | invalidText
  deriving DecidableEq, Repr

/-- The wording of a fault. -/
def FileFault.message : FileFault → String
  | notFound => "No such file or directory (os error 2)"
  | notADirectory => "Not a directory (os error 20)"
  | isADirectory => "Is a directory (os error 21)"
  | nameTooLong => "File name too long (os error 36)"
  | nulInName => "file name contained an unexpected NUL byte"
  | invalidText => "stream did not contain valid UTF-8"

/-- What a path of a tree leads to. -/
inductive FileNode where
  | file (content : ByteArray)
  | directory

/-- Files and directories by the names on the way from the root, which is itself a directory. -/
structure FileTree where
  nodes : Dict (List String) FileNode

namespace FileTree

/-- The tree with nothing but its root. -/
def empty : FileTree := ⟨Dict.empty⟩

instance : Inhabited FileTree := ⟨empty⟩

/-- What the names on the way from the root lead to. -/
def node? (tree : FileTree) (names : List String) : Option FileNode :=
  if names = [] then some .directory else tree.nodes.get? names

/-- The longest name, in bytes. -/
def longestName : Nat := 255

/-- The length in bytes that a path does not reach. -/
def longestPath : Nat := 4096

/-- Follows names from a directory. -/
def follow (tree : FileTree) (directory : List String) :
    List String → Except FileFault (List String)
  | [] => .ok directory
  | name :: rest =>
    if Path.isIdle name then follow tree directory rest
    else if name = ".." then follow tree directory.dropLast rest
    else if longestName < name.utf8ByteSize then .error .nameTooLong
    else
      match tree.node? (directory ++ [name]) with
      | none => .error .notFound
      | some .directory => follow tree (directory ++ [name]) rest
      | some (.file _) => if rest = [] then .ok (directory ++ [name]) else .error .notADirectory

/-- The directory at which a path starts, seen from a working directory, and the names to follow. -/
def start (working : List String) (path : String) : Except FileFault (List String × List String) :=
  if '\x00' ∈ path.toList then .error .nulInName
  else if path = "" then .error .notFound
  else if longestPath ≤ path.utf8ByteSize then .error .nameTooLong
  else .ok (if Path.isAbsolute path.toList then [] else working, Path.components path)

/-- The names from the root to where a path leads, seen from a working directory. -/
def resolve (tree : FileTree) (working : List String) (path : String) :
    Except FileFault (List String) := do
  let (directory, names) ← start working path
  tree.follow directory names

/-- The text of the file that a path leads to. -/
def readText (tree : FileTree) (working : List String) (path : String) :
    Except FileFault String := do
  match tree.node? (← tree.resolve working path) with
  | none => .error .notFound
  | some .directory => .error .isADirectory
  | some (.file content) =>
    match String.fromUTF8? content with
    | some text => .ok text
    | none => .error .invalidText

/-- Splits names into those above the last one, the last one, and whether slashes follow it.
Without a last name the path is the root. -/
def splitLast (names : List String) : List String × Option String × Bool :=
  match names.reverse.dropWhile fun name => name = "" with
  | [] => ([], none, true)
  | last :: above => (above.reverse, some last, names.getLast? = some "")

/-- Whether the file that a path leads to can be opened for writing at its end; a missing file is
created, its directory is not.  A path that ends in a slash asks for a directory, whether there is
one or not. -/
def openForAppend (tree : FileTree) (working : List String) (path : String) :
    Except FileFault Unit := do
  let (directory, names) ← start working path
  let (above, last, closed) := splitLast names
  let above ← tree.follow directory above
  match tree.node? above, last with
  | some .directory, some name =>
    if closed ∨ name = "." ∨ name = ".." then .error .isADirectory
    else if longestName < name.utf8ByteSize then .error .nameTooLong
    else
      match tree.node? (above ++ [name]) with
      | some .directory => .error .isADirectory
      | _ => .ok ()
  | some .directory, none => .error .isADirectory
  | _, _ => .error .notADirectory

/-- Goes along names from a directory, making the directories on the way.  Answers where that leads
as well. -/
def makeDirectories (tree : FileTree) (directory : List String) :
    List String → FileTree × List String
  | [] => (tree, directory)
  | name :: rest =>
    if Path.isIdle name then makeDirectories tree directory rest
    else if name = ".." then makeDirectories tree directory.dropLast rest
    else
      let names := directory ++ [name]
      makeDirectories ⟨tree.nodes.insert names .directory⟩ names rest

/-- Puts a directory and those above it into a tree. -/
def makeDirectory (tree : FileTree) (path : String) : FileTree :=
  (tree.makeDirectories [] (Path.components path)).1

/-- Puts a file and the directories above it into a tree. -/
def write (tree : FileTree) (path : String) (content : ByteArray) : FileTree :=
  let names := Path.components path
  let (made, directory) := tree.makeDirectories [] names.dropLast
  ⟨made.nodes.insert (directory ++ [names.getLast?.getD ""]) (.file content)⟩

/-- Takes a file out of a tree. -/
def remove (tree : FileTree) (path : String) : FileTree :=
  match tree.resolve [] path with
  | .error _ => tree
  | .ok names =>
    match tree.node? names with
    | some (.file _) => ⟨tree.nodes.erase names⟩
    | _ => tree

end FileTree

end Phrasebook
