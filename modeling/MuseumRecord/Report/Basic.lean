import MuseumRecord.Calendar.Written
import MuseumRecord.Diagnostic
import MuseumRecord.Report.Json

/-!
# Reports

The outcome of an inspection: its diagnostics and the moment it was made at, as a text for people
and as a value for other programs.
-/

namespace MuseumRecord

/-- The outcome of the inspection of a document. -/
structure Report where
  /-- What was found, in the order in which it was found. -/
  diagnostics : List Diagnostic
  /-- When the inspection was made. -/
  generatedAt : Calendar.Moment
deriving DecidableEq, Repr

namespace Report

/-- A document is valid when nothing found in it is an error. -/
def isValid (report : Report) : Bool :=
  !report.diagnostics.any Diagnostic.isError

/-- The errors. -/
def errors (report : Report) : List Diagnostic :=
  report.diagnostics.filter Diagnostic.isError

/-- The warnings. -/
def warnings (report : Report) : List Diagnostic :=
  report.diagnostics.filter fun diagnostic => !diagnostic.isError

/-- A line of text. -/
def line (text : String) : String :=
  text ++ "\n"

/-- The lines of diagnostics that are numbered from `number` on. -/
def numbered (number : Nat) : List Diagnostic → String
  | [] => ""
  | diagnostic :: rest =>
    line s!"{number}. {diagnostic.text}" ++ numbered (number + 1) rest

/-- The word for the verdict. -/
def status (report : Report) : String :=
  if report.isValid then "VALID" else "INVALID"

/-- The lines in front of the diagnostics. -/
def header (report : Report) : String :=
  line "=== EXHIBIT VALIDATION REPORT ===" ++
    line s!"Generated: {Calendar.momentText report.generatedAt}" ++
    line s!"Status: {report.status}" ++
    line s!"Errors: {report.errors.length}" ++
    line s!"Warnings: {report.warnings.length}" ++
    line ""

/-- The lines of the diagnostics. -/
def body (report : Report) : String :=
  if report.diagnostics.isEmpty then
    line "Document is valid and conforms to the exhibit schema."
  else
    numbered 1 report.diagnostics

/-- The lines behind the diagnostics. -/
def footer : String :=
  line "" ++ line "=== END OF REPORT ==="

/-- The text of a report. -/
def text (report : Report) : String :=
  report.header ++ report.body ++ footer

end Report

/-- The value of a diagnostic for other programs, its fields in alphabetical order. -/
def Diagnostic.json (diagnostic : Diagnostic) : JsonValue :=
  .object
    ((diagnostic.stage.group?.toList.map fun group => ("group", .text group.key)) ++
      [("message", .text diagnostic.message)] ++
      (diagnostic.path.toList.map fun path => ("path", .text path)) ++
      [("severity", .text diagnostic.severity.text), ("stage", .text diagnostic.stage.text)])

/-- The value of a report for other programs, its fields in alphabetical order. -/
def Report.json (report : Report) : JsonValue :=
  .object
    [("diagnostics", .array (report.diagnostics.map Diagnostic.json)),
      ("errors", .number report.errors.length),
      ("generated_at", .text (Calendar.timestampText report.generatedAt)),
      ("valid", .truth report.isValid),
      ("warnings", .number report.warnings.length)]

end MuseumRecord
