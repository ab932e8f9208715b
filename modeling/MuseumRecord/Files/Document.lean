import MuseumRecord.Files.Tree
import MuseumRecord.Settings.Basic

/-!
# Document files

The files that paths ask for: a file is taken as it is, and of a directory all files below it that
have the extension of a document.
-/

namespace MuseumRecord

/-- Whether the file at a path has the extension of a document. -/
def Settings.acceptsPath (settings : Settings) (path : Path) : Bool :=
  path.extension?.any settings.accepts

namespace Files

/-- The files that one path asks for, or nothing if there is nothing at it. -/
def documentsAt? (files : Files) (settings : Settings) (path : Path) : Option (List Path) :=
  match files.find path with
  | .ok (.directory entries) =>
    some ((Node.entryPaths path entries).filter settings.acceptsPath)
  | .ok (.file _) => some [path]
  | .error _ => none

/-- The files that paths ask for, in the order of the paths; the first path with nothing at it is
the error. -/
def gather (files : Files) (settings : Settings) : List Path → Except Path (List Path)
  | [] => .ok []
  | path :: rest =>
    match files.documentsAt? settings path with
    | none => .error path
    | some found =>
      match gather files settings rest with
      | .error missing => .error missing
      | .ok others => .ok (found ++ others)

/-- The files that paths ask for, sorted and each once. -/
def documents (files : Files) (settings : Settings) (paths : List Path) :
    Except Path (List Path) :=
  match files.gather settings paths with
  | .error missing => .error missing
  | .ok found => .ok (Path.sorted found)

end Files

end MuseumRecord
