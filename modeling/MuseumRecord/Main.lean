import MuseumRecord.Command.Run
import Std.Time

/-!
# Main

The program reads the clock, its arguments and the files they name, runs, and shows the result.
-/

namespace MuseumRecord
namespace Main

/-- Where names lead from the root. -/
def pathOf (names : List String) : String :=
  "/" ++ "/".intercalate names

/-- A file or a directory with all below it.  Links inside directories are passed over. -/
partial def readNode (names : List String) : IO Node := do
  let here ← IO.currentDir
  let path := here / pathOf names
  if ← path.isDir then
    let mut entries : List (String × Node) := []
    for entry in ← path.readDir do
      let kind := (← entry.path.symlinkMetadata).type
      if kind == .dir || kind == .file then
        entries := (entry.fileName, ← readNode (names ++ [entry.fileName])) :: entries
    return .directory entries.reverse
  else
    return .file (← IO.FS.readBinFile path)

/-- The tree with an empty directory where there is nothing yet. -/
def withDirectory (files : Files) (names : List String) : Files :=
  if (files.root.at? names).isSome then files else files.graft names (.directory [])

/-- The tree with what a path leads to and the directories on the way. -/
def readPath (files : Files) (path : Path) : IO Files := do
  let here ← IO.currentDir
  let mut known := files
  let mut names := if path.isAbsolute then [] else files.place
  for segment in path.segments do
    if segment == ".." then
      names := names.dropLast
    else if segment != "" && segment != "." then
      names := names ++ [segment]
      let place := here / pathOf names
      if !(← place.pathExists) then
        return known
      else if ← place.isDir then
        known := withDirectory known names
      else
        return known.graft names (← readNode names)
  return known

/-- The tree with what a path leads to and all below it. -/
def readAll (files : Files) (path : Path) : IO Files := do
  let known ← readPath files path
  match known.follow path.isAbsolute path.segments with
  | .ok names => return known.graft names (← readNode names)
  | .error _ => return known

/-- The files that arguments name. -/
def readFiles (arguments : List String) : IO Files := do
  let place := (Path.segments (← IO.currentDir).toString).filter fun name => !name.isEmpty
  let start := withDirectory ⟨.directory [], place⟩ place
  match Command.Request.ofArguments arguments with
  | .perform settingsPath action =>
    let known ← readPath start settingsPath
    action.paths.foldlM readAll known
  | _ => return start

/-- The current moment at the prime meridian. -/
def currentMoment : IO Calendar.Moment := do
  let timestamp ← Std.Time.Timestamp.now
  let now := Std.Time.DateTime.ofTimestampWithZone timestamp Std.Time.TimeZone.UTC
  let day := Calendar.Day.of? now.year.toInt now.month.val.toNat now.day.val.toNat
  let moment := day.bind fun day =>
    Calendar.Moment.ofClock? day now.hour.val.toNat now.minute.val.toNat now.second.val.toNat
      now.nanosecond.val.toNat
  match moment with
  | some found => return found
  | none => throw (IO.userError "the clock shows no time of the calendar")

/-- Whether output is coloured: if it goes to a terminal or colour is asked for. -/
def wantsColor : IO Bool := do
  match ← IO.getEnv "FORCE_COLOR" with
  | some value => return value != "0"
  | none => (← IO.getStdout).isTty

/-- The columns of the terminal, if output goes to one and they are told. -/
def terminalColumns : IO (Option Nat) := do
  if ← (← IO.getStdout).isTty then
    return (← IO.getEnv "COLUMNS").bind String.toNat?
  else
    return none

end Main
end MuseumRecord

open MuseumRecord in
/-- Run the program. -/
def main (arguments : List String) : IO UInt32 := do
  let host : Command.Host :=
    { color := ← Main.wantsColor, columns? := ← Main.terminalColumns }
  let surroundings : Command.Surroundings :=
    ⟨← Main.readFiles arguments, ← Main.currentMoment, host⟩
  let result := Command.run surroundings arguments
  if let some (path, text) := result.created then
    IO.FS.writeFile path text
  IO.print result.output
  if let some message := result.error then
    IO.eprintln message
  return UInt32.ofNat result.code
