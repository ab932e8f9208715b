/-!
# Diagnostics

What is found wrong with a document: how serious it is, at which stage it was found, where in the
document it stands, and what is said about it.
-/

namespace MuseumRecord

/-- How serious a finding is. -/
inductive Severity where
  /-- The document must not be kept. -/
  | error
  /-- The document may be kept. -/
  | warning
deriving DecidableEq, Repr

/-- The word for a severity. -/
def Severity.text : Severity → String
  | .error => "error"
  | .warning => "warning"

/-- The groups of curatorial rules. -/
inductive RuleGroup where
  | identifier
  | basicInfo
  | dimensions
  | location
  | history
  | media
  | condition
deriving DecidableEq, Repr

namespace RuleGroup

/-- Every group, in the order in which they are applied. -/
def all : List RuleGroup :=
  [identifier, basicInfo, dimensions, location, history, media, condition]

/-- The name of a group for a reader. -/
def text : RuleGroup → String
  | .identifier => "identifier"
  | .basicInfo => "basic info"
  | .dimensions => "dimensions"
  | .location => "location"
  | .history => "history"
  | .media => "media"
  | .condition => "condition"

/-- The name of a group as the value of a field. -/
def key : RuleGroup → String
  | .basicInfo => "basic_info"
  | group => group.text

/-- The group with a name. -/
def ofText? (name : String) : Option RuleGroup :=
  all.find? fun group => group.text == name

end RuleGroup

/-- The stages of an inspection. -/
inductive Stage where
  /-- There is no content. -/
  | input
  /-- The text is no document. -/
  | parse
  /-- The document departs from its schema. -/
  | structural
  /-- A group of rules is broken. -/
  | rule (group : RuleGroup)
deriving DecidableEq, Repr

namespace Stage

/-- The name of a stage. -/
def text : Stage → String
  | .input => "input"
  | .parse => "parse"
  | .structural => "structure"
  | .rule _ => "rule"

/-- The group of rules that was applied. -/
def group? : Stage → Option RuleGroup
  | .rule group => some group
  | _ => none

end Stage

/-- One thing found wrong with a document. -/
structure Diagnostic where
  /-- How serious it is. -/
  severity : Severity
  /-- The stage that found it. -/
  stage : Stage
  /-- The path of the element it is about. -/
  path : Option String := none
  /-- What is said about it. -/
  message : String
deriving DecidableEq, Repr

namespace Diagnostic

/-- Whether the document must not be kept. -/
def isError (diagnostic : Diagnostic) : Bool :=
  diagnostic.severity == .error

/-- The line of a diagnostic. -/
def text (diagnostic : Diagnostic) : String :=
  match diagnostic.path with
  | some path => s!"[{diagnostic.severity.text}] {path}: {diagnostic.message}"
  | none => s!"[{diagnostic.severity.text}] {diagnostic.message}"

end Diagnostic

end MuseumRecord
