/-
# Files

What the program asks of the files around it: the text of a file, whether there is anything
at a path, and to write a text.  It also asks in which words a text is refused that is not what it
is to be.  `Files` is that interface in any monad.  `FileTree` is a
tree of files and directories held as a value, and `FileTree.files` serves the interface from
it; the paths are those of a system with one root, without links.

A path is cut at its slashes.  An empty part and `.` stay where they are, `..` goes to the
parent, and any part at all, also the empty one after a slash at the end, can only follow a
directory.
-/

namespace ActorLtl

/-- Why the text of a file cannot be read or written. -/
inductive FileError where
  /-- The system's own words and its number for the cause. -/
  | system (description : String) (number : Nat)
  | notUtf8
  | nulInPath
  deriving DecidableEq, Repr

namespace FileError

def notFound : FileError := system "No such file or directory" 2
def permissionDenied : FileError := system "Permission denied" 13
def notDirectory : FileError := system "Not a directory" 20
def isDirectory : FileError := system "Is a directory" 21
def nameTooLong : FileError := system "File name too long" 36

/-- What a reader is told. -/
def message : FileError → String
  | system description number => description ++ " (os error " ++ toString number ++ ")"
  | notUtf8 => "stream did not contain valid UTF-8"
  | nulInPath => "file name contained an unexpected NUL byte"

end FileError

/-- Access to files. -/
structure Files (m : Type → Type) where
  readText : String → m (Except FileError String)
  pathExists : String → m Bool
  writeText : String → String → m (Except FileError Unit)
  /-- What a reader is told of a text that holds nothing of this kind. -/
  refusal (kind text : String) : String := "not a " ++ kind

/-- Whether files keep what is written: a text that has been written at a path is what is read there
next, and reading it changes nothing. -/
def Files.Keeps {σ : Type} (files : Files (StateM σ)) : Prop :=
  ∀ (path text : String) (before after : σ),
    (files.writeText path text).run before = (.ok (), after) →
      (files.readText path).run after = (.ok text, after)

/-- What stands at a place of a file tree. -/
inductive FileEntry where
  | directory
  /-- A file with its text, `none` if its bytes are not UTF-8. -/
  | file (text : Option String)
  deriving DecidableEq, Repr

/-- Files and directories by their way from the root, the latest first, and the directory in
which relative paths begin. -/
structure FileTree where
  entries : List (List String × FileEntry)
  here : List String
  deriving DecidableEq, Repr

namespace FileTree

/-- What stands at a place; the root is a directory. -/
def entryAt? (tree : FileTree) (place : List String) : Option FileEntry :=
  if place = [] then some .directory else tree.entries.lookup place

/-- Follows the parts of a path from a place. -/
def follow (tree : FileTree) : List String → List String → Except FileError (List String)
  | place, [] => .ok place
  | place, part :: parts =>
      match tree.entryAt? place with
      | none => .error .notFound
      | some (.file _) => .error .notDirectory
      | some .directory =>
          if part = "" ∨ part = "." then tree.follow place parts
          else if part = ".." then tree.follow place.dropLast parts
          else if 255 < part.utf8ByteSize then .error .nameTooLong
          else tree.follow (place ++ [part]) parts

/-- The parts of a path between its slashes. -/
def pathParts (path : String) : List String :=
  (path.toList.splitOn '/').map String.ofList

/-- The place that a path leads to, whether or not anything stands there. -/
def place? (tree : FileTree) (path : String) : Except FileError (List String) :=
  if path.toList.contains '\x00' then .error .nulInPath
  else if path = "" then .error .notFound
  else if 4095 < path.utf8ByteSize then .error .nameTooLong
  else tree.follow (if path.toList.head? = some '/' then [] else tree.here) (pathParts path)

/-- What a path leads to. -/
def find? (tree : FileTree) (path : String) : Except FileError FileEntry := do
  match tree.entryAt? (← tree.place? path) with
  | some found => return found
  | none => throw .notFound

/-- The text of a file. -/
def readText (tree : FileTree) (path : String) : Except FileError String := do
  match ← tree.find? path with
  | .directory => throw .isDirectory
  | .file none => throw .notUtf8
  | .file (some text) => return text

/-- Whether a path leads to anything. -/
def pathExists (tree : FileTree) (path : String) : Bool := (tree.find? path).isOk

/-- The tree with this text at a path, a new file if there is none. -/
def writeText (tree : FileTree) (path text : String) : Except FileError FileTree := do
  let place ← tree.place? path
  if tree.entryAt? place = some .directory then throw .isDirectory
  return { tree with entries := (place, .file (some text)) :: tree.entries }

/-- Access to a file tree. -/
def files : Files (StateM FileTree) where
  readText path := do return (← get).readText path
  pathExists path := do return (← get).pathExists path
  writeText path text := do
    match (← get).writeText path text with
    | .ok tree => set tree; return .ok ()
    | .error cause => return .error cause

end FileTree
end ActorLtl
