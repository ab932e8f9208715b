import MuseumRecord.Files.Path

/-!
# Hosts

What a run finds out about the machine it runs on, besides the files and the clock.
-/

namespace MuseumRecord
namespace Command

/-- What is known about a machine. -/
structure Host where
  /-- Whether output is coloured. -/
  color : Bool
  /-- How many columns the terminal has, if output goes to one. -/
  columns? : Option Nat := none
  /-- Whether the names of a path are text.  Names on a disk are bytes; those that are no text are
  shown with replacement characters, and file trees hold them as they are shown. -/
  isText : Path → Bool := fun _ => true

/-- Mostly all names are text and output goes to no terminal. -/
instance : Coe Bool Host :=
  ⟨fun color => { color }⟩

/-- Terminals with fewer columns are narrow. -/
def narrowWidth : Nat := 60

/-- Whether output goes to a narrow terminal. -/
def Host.isNarrow (host : Host) : Bool :=
  host.columns?.any fun columns => columns < narrowWidth

end Command
end MuseumRecord
