import MuseumRecord.Files.Path

/-!
# Commands

What the program can be asked to do.
-/

namespace MuseumRecord
namespace Command

/-- How the outcome for several documents is presented. -/
inductive Presentation where
  /-- A line for every document, with what was found in it. -/
  | table
  /-- A value for other programs. -/
  | json
  /-- One line of numbers. -/
  | summary
deriving DecidableEq, Repr

namespace Presentation

/-- The name of a presentation. -/
def text : Presentation → String
  | .table => "table"
  | .json => "json"
  | .summary => "summary"

/-- The presentation with a name. -/
def ofText? (name : String) : Option Presentation :=
  [table, json, summary].find? fun presentation => presentation.text == name

end Presentation

/-- How documents are to be validated. -/
structure Validation where
  /-- Files and directories. -/
  paths : List Path
  /-- How the outcome is presented. -/
  presentation : Presentation := .table
  /-- Whether valid documents are passed over in silence. -/
  quiet : Bool := false
  /-- Whether comments and instructions are taken out, whatever the settings say. -/
  sanitize : Bool := false
  /-- More extensions of document files. -/
  extensions : List String := []
deriving DecidableEq, Repr

/-- Something the program can be asked to do. -/
inductive Action where
  /-- Validate documents. -/
  | validate (validation : Validation)
  /-- Report on one document. -/
  | report (path : Path) (sanitize : Bool)
  /-- Interpret historical dates. -/
  | date (expressions : List String)
  /-- Show the schema of exhibits. -/
  | schema
  /-- Show a document without comments and instructions. -/
  | sanitize (path : Path)
  /-- Write a file of default settings. -/
  | create
deriving DecidableEq, Repr

/-- The paths that an action reads. -/
def Action.paths : Action → List Path
  | .validate validation => validation.paths
  | .report path _ => [path]
  | .sanitize path => [path]
  | _ => []

/-- The settings file that is used when no other is named. -/
def defaultSettingsPath : Path := "exval.toml"

/-- What the arguments ask for. -/
inductive Request where
  /-- The arguments make no sense. -/
  | misuse
  /-- How to use the program. -/
  | help
  /-- Which version of the program this is. -/
  | version
  /-- An action, with the path of the settings file. -/
  | perform (settingsPath : Path) (action : Action)
deriving DecidableEq, Repr

end Command
end MuseumRecord
