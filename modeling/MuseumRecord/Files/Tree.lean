import MuseumRecord.Files.Path

/-!
# File trees

The files and directories that a command can reach, and the directory it works in.  A tree is taken
to have no links, and all that is in it can be listed, read and written: an operation fails for what
is in the tree, never for missing permission or a full disk.
-/

namespace MuseumRecord

/-- A file or a directory. -/
inductive Node where
  /-- A file with its bytes. -/
  | file (content : ByteArray)
  /-- A directory with its named entries. -/
  | directory (entries : List (String × Node))

/-- Why a file cannot be reached, read or written. -/
inductive FileError where
  /-- Nothing has the name. -/
  | notFound
  /-- A name in front of a slash is that of a file. -/
  | notADirectory
  /-- A directory stands where a file is asked for. -/
  | isADirectory
  /-- The bytes are no text. -/
  | notText
deriving DecidableEq, Repr

/-- What is said about the error. -/
def FileError.message : FileError → String
  | .notFound => "No such file or directory (os error 2)"
  | .notADirectory => "Not a directory (os error 20)"
  | .isADirectory => "Is a directory (os error 21)"
  | .notText => "stream did not contain valid UTF-8"

namespace Node

/-- The node that names lead to. -/
def at? : Node → List String → Option Node
  | node, [] => some node
  | .file _, _ :: _ => none
  | .directory entries, name :: names => (entries.lookup name).bind fun node => node.at? names

mutual

/-- The paths of the files of a node that stands at a path. -/
def filePaths (path : Path) : Node → List Path
  | .file _ => [path]
  | .directory entries => entryPaths path entries

/-- The paths of the files below entries of the directory at a path. -/
def entryPaths (path : Path) : List (String × Node) → List Path
  | [] => []
  | (name, node) :: rest => node.filePaths (path.child name) ++ entryPaths path rest

end

/-- The entries with one more file. -/
def addFile (name : String) (content : ByteArray) (entries : List (String × Node)) :
    List (String × Node) :=
  entries ++ [(name, .file content)]

/-- Change the entries of the directory that names lead to. -/
def changeDirectory (change : List (String × Node) → List (String × Node)) :
    List String → Node → Node
  | _, .file content => .file content
  | [], .directory entries => .directory (change entries)
  | name :: names, .directory entries =>
    .directory (entries.map fun (key, node) =>
      if key = name then (key, changeDirectory change names node) else (key, node))

/-- Entries with a new or another node under a name, given the node that is there now. -/
def setEntry (name : String) (change : Option Node → Node) :
    List (String × Node) → List (String × Node)
  | [] => [(name, change none)]
  | (key, node) :: rest =>
    if key = name then (key, change (some node)) :: rest
    else (key, node) :: setEntry name change rest

/-- A node with another one in the place that names lead to.  Directories on the way are made. -/
def graft (added : Node) : List String → Option Node → Node
  | [], _ => added
  | name :: names, some (.directory entries) =>
    .directory (setEntry name (graft added names) entries)
  | name :: names, _ => .directory (setEntry name (graft added names) [])

end Node

/-- A file tree with the directory that relative paths begin at. -/
structure Files where
  /-- The root directory. -/
  root : Node
  /-- The names that lead from the root to the working directory. -/
  place : List String

namespace Files

/-- The tree with a node in the place that names lead to from the root. -/
def graft (files : Files) (names : List String) (node : Node) : Files :=
  { files with root := node.graft names (some files.root) }

/-- Take one segment of a path from the directory that names lead to. -/
def enter (files : Files) (names : List String) (segment : String) :
    Except FileError (List String) :=
  match files.root.at? names with
  | some (.directory entries) =>
    if segment = "" ∨ segment = "." then .ok names
    else if segment = ".." then .ok names.dropLast
    else if (entries.lookup segment).isSome then .ok (names ++ [segment])
    else .error .notFound
  | some (.file _) => .error .notADirectory
  | none => .error .notFound

/-- The names that a path leads along from the root. -/
def follow (files : Files) (absolute : Bool) (segments : List String) :
    Except FileError (List String) :=
  segments.foldlM files.enter (if absolute then [] else files.place)

/-- The names that a path leads along from the root. -/
def namesOf (files : Files) (path : Path) : Except FileError (List String) :=
  if path.isEmpty then .error .notFound else files.follow path.isAbsolute path.segments

/-- The node at a path. -/
def find (files : Files) (path : Path) : Except FileError Node :=
  if path.isEmpty then
    .error .notFound
  else
    match files.follow path.isAbsolute path.segments with
    | .error cause => .error cause
    | .ok names =>
      match files.root.at? names with
      | some node => .ok node
      | none => .error .notFound

/-- Whether there is anything at a path. -/
def isThere (files : Files) (path : Path) : Bool :=
  (files.find path).toBool

/-- The bytes of the file at a path. -/
def readBytes (files : Files) (path : Path) : Except FileError ByteArray :=
  match files.find path with
  | .ok (.file content) => .ok content
  | .ok (.directory _) => .error .isADirectory
  | .error cause => .error cause

/-- The text of the file at a path. -/
def readText (files : Files) (path : Path) : Except FileError String :=
  match files.readBytes path with
  | .error cause => .error cause
  | .ok content =>
    match String.fromUTF8? content with
    | some text => .ok text
    | none => .error .notText

/-- The segments of a path without the slashes at its end, and whether there are such slashes. -/
def withoutEndingSlashes (segments : List String) : List String × Bool :=
  let kept := (segments.reverse.dropWhile String.isEmpty).reverse
  (kept, kept.length < segments.length)

/-- The tree with a new file at a path where there was none.  A slash at the end asks for a
directory. -/
def create (files : Files) (path : Path) (content : ByteArray) : Except FileError Files :=
  let (segments, asksDirectory) := withoutEndingSlashes path.segments
  match segments.getLast? with
  | none => .error .notFound
  | some name =>
    match files.follow path.isAbsolute segments.dropLast with
    | .error cause => .error cause
    | .ok names =>
      match files.root.at? names with
      | some (.directory _) =>
        if asksDirectory then
          .error .isADirectory
        else
          .ok { files with
            root := files.root.changeDirectory (Node.addFile name content) names }
      | some (.file _) => .error .notADirectory
      | none => .error .notFound

/-- The tree after bytes are written to a path: in place of those of the file at it, or to a new
file where a path leads nowhere. -/
def write (files : Files) (path : Path) (content : ByteArray) : Except FileError Files :=
  match files.namesOf path with
  | .error _ => files.create path content
  | .ok names =>
    match files.root.at? names with
    | some (.file _) => .ok (files.graft names (.file content))
    | some (.directory _) => .error .isADirectory
    | none => .error .notFound

end Files

end MuseumRecord
