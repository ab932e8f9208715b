/-!
# Paths

The way to a file as it is written: names with slashes between them.  Paths that differ only in
doubled slashes and in single dots behind the first name are the same path.

Names are text here.  On a disk they are bytes, and those that are no text are shown with
replacement characters: a path stands for the way it is shown, and no two names in a directory are
shown alike.  Which paths are text on the disk is known to the host of a command.
-/

namespace MuseumRecord

/-- A path as it is written. -/
abbrev Path := String

namespace Path

/-- The stretches of a text between its slashes. -/
def split : List Char → List (List Char)
  | [] => [[]]
  | character :: rest =>
    if character = '/' then
      [] :: split rest
    else
      match split rest with
      | [] => [[character]]
      | first :: others => (character :: first) :: others

/-- The stretches of a path between its slashes. -/
def segments (path : Path) : List String :=
  (split path.toList).map String.ofList

/-- Whether a path begins at the root. -/
def isAbsolute (path : Path) : Bool :=
  path.toList.head? == some '/'

/-- A step of a path. -/
inductive Step where
  /-- To the root. -/
  | root
  /-- Stay. -/
  | here
  /-- To the directory above. -/
  | above
  /-- To an entry of the directory. -/
  | entry (name : String)
deriving DecidableEq, Repr

/-- The steps of segments that are not the first: empty ones and single dots say nothing. -/
def Step.later? : String → Option Step
  | "" => none
  | "." => none
  | ".." => some .above
  | name => some (.entry name)

/-- The steps of a path. -/
def steps (path : Path) : List Step :=
  match segments path with
  | [] => []
  | "" :: rest =>
    if path.isAbsolute then .root :: rest.filterMap Step.later? else rest.filterMap Step.later?
  | "." :: rest => .here :: rest.filterMap Step.later?
  | all => all.filterMap Step.later?

/-- The place of a kind of step in the order of paths. -/
def Step.rank : Step → Nat
  | .root => 0
  | .here => 1
  | .above => 2
  | .entry _ => 3

/-- Whether a step comes before another: by kind, and entries by name. -/
def Step.isBefore : Step → Step → Bool
  | .entry name, .entry other => name < other
  | step, other => step.rank < other.rank

/-- Whether steps come no later than others: the first difference decides, and a path comes before
those that continue it. -/
def noLaterSteps : List Step → List Step → Bool
  | [], _ => true
  | _ :: _, [] => false
  | step :: steps, other :: others =>
    if step = other then noLaterSteps steps others else step.isBefore other

/-- Whether a path comes no later than another. -/
def noLater (path other : Path) : Bool :=
  noLaterSteps path.steps other.steps

/-- Whether two paths take the same steps. -/
def same (path other : Path) : Bool :=
  path.steps == other.steps

/-- The path to an entry of a directory. -/
def child (directory : Path) (name : String) : Path :=
  if directory.toList.getLast? = some '/' then directory ++ name else directory ++ "/" ++ name

/-- The name of the file at the end of a path. -/
def fileName? (path : Path) : Option String :=
  match path.steps.getLast? with
  | some (.entry name) => some name
  | _ => none

/-- What stands behind the last dot of a name that does not begin with it. -/
def extensionOf? (name : String) : Option String :=
  let reversed := name.toList.reverse
  let behind := reversed.takeWhile fun character => character != '.'
  match reversed.drop behind.length with
  | '.' :: _ :: _ => some (String.ofList behind.reverse)
  | _ => none

/-- The extension of the file at the end of a path. -/
def extension? (path : Path) : Option String :=
  path.fileName?.bind extensionOf?

/-- Neighbours that are the same path, only the first of them kept. -/
def withoutRepeats : List Path → List Path
  | [] => []
  | path :: rest =>
    match withoutRepeats rest with
    | [] => [path]
    | next :: others => if same path next then path :: others else path :: next :: others

/-- Paths in order, each once, in the spelling in which it first stands. -/
def sorted (paths : List Path) : List Path :=
  withoutRepeats (paths.mergeSort noLater)

end Path

end MuseumRecord
