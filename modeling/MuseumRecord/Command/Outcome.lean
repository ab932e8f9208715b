import MuseumRecord.Command.Basic
import MuseumRecord.Command.Host
import MuseumRecord.Command.Paint
import MuseumRecord.Files.Tree
import MuseumRecord.Inspection

/-!
# Outcomes for several documents

Every document is inspected, or cannot be read.  The table, the value for other programs and the
line of numbers show the same outcomes.
-/

namespace MuseumRecord
namespace Command

/-- A document that was to be inspected. -/
structure Checked where
  /-- Its path. -/
  path : Path
  /-- Its report, or why it cannot be read. -/
  outcome : Except FileError Report

namespace Checked

/-- Inspect the document at a path. -/
def ofPath (files : Files) (settings : Settings) (now : Calendar.Moment) (path : Path) :
    Checked :=
  match files.readText path with
  | .ok text => ⟨path, .ok (settings.inspect now text)⟩
  | .error cause => ⟨path, .error cause⟩

/-- Whether a document was read and is valid. -/
def isValid (checked : Checked) : Bool :=
  match checked.outcome with
  | .ok report => report.isValid
  | .error _ => false

/-- What is said about a document that cannot be read. -/
def unreadable (cause : FileError) : String :=
  s!"Failed to read file: {cause.message}"

/-- A line of output. -/
def line (text : String) : String :=
  text ++ "\n"

/-- The row of a valid document. -/
def validRow (host : Host) (path : Path) (warnings : Nat) : String :=
  if warnings = 0 then s!"✓ {path}"
  else Paint.info.apply host.color s!"✓ {path} ({warnings} warnings)"

/-- The first row of an invalid document. -/
def invalidRow (host : Host) (path : Path) (errors : Nat) : String :=
  Paint.warning.apply host.color s!"✗ {path} ({errors} errors)"

/-- The row of a diagnostic.  On a narrow terminal it has no path. -/
def diagnosticRow (host : Host) (diagnostic : Diagnostic) : String :=
  let shown :=
    if host.isNarrow then s!"[{diagnostic.severity.text}] {diagnostic.message}"
    else diagnostic.text
  Paint.dim.apply host.color s!"    {shown}"

/-- The row of a document that cannot be read. -/
def unreadableRow (host : Host) (path : Path) (cause : FileError) : String :=
  Paint.warning.apply host.color s!"✗ {path}: {unreadable cause}"

/-- The value of a document for other programs, its fields in alphabetical order. -/
def json (checked : Checked) : JsonValue :=
  match checked.outcome with
  | .ok report => .object [("file", .text checked.path), ("report", report.json)]
  | .error cause => .object [("error", .text (unreadable cause)), ("file", .text checked.path)]

end Checked

/-- A table that is being written: its text, and the invalid documents that were met. -/
structure Table where
  /-- What is written. -/
  text : String := ""
  /-- How many invalid documents were met. -/
  invalid : Nat := 0

/-- Write the rows of a document. -/
def Table.add (host : Host) (quiet : Bool) (table : Table) (checked : Checked) : Table :=
  match checked.outcome with
  | .ok report =>
    if report.isValid then
      if quiet then
        table
      else
        { table with
          text := table.text ++
            Checked.line (Checked.validRow host checked.path report.warnings.length) }
    else
      { text := table.text ++
          Checked.line (Checked.invalidRow host checked.path report.errors.length) ++
          String.join (report.diagnostics.map fun diagnostic =>
            Checked.line (Checked.diagnosticRow host diagnostic))
        invalid := table.invalid + 1 }
  | .error cause =>
    { text := table.text ++ Checked.line (Checked.unreadableRow host checked.path cause)
      invalid := table.invalid + 1 }

/-- The rows of documents, one after the other. -/
def Table.ofDocuments (host : Host) (quiet : Bool) (documents : List Checked) : Table :=
  documents.foldl (Table.add host quiet) {}

/-- The last row of the table, when `invalid` of `all` documents are. -/
def verdictRow (host : Host) (invalid all : Nat) : String :=
  if invalid = 0 then Paint.success.apply host.color s!"All {all} documents are valid"
  else Paint.warning.apply host.color s!"{invalid} of {all} documents are invalid"

/-- The table of documents. -/
def table (host : Host) (quiet : Bool) (documents : List Checked) : String :=
  let table := Table.ofDocuments host quiet documents
  if quiet then table.text
  else
    table.text ++ Checked.line "" ++
      Checked.line (verdictRow host table.invalid documents.length)

/-- How many documents are not valid. -/
def invalidCount (documents : List Checked) : Nat :=
  documents.countP fun checked => !checked.isValid

/-- How many documents are valid. -/
def validCount (documents : List Checked) : Nat :=
  documents.length - invalidCount documents

/-- The value of documents for other programs, its fields in alphabetical order. -/
def json (documents : List Checked) : JsonValue :=
  .object
    [("documents", .array (documents.map Checked.json)),
      ("status", .text (if invalidCount documents = 0 then "valid" else "invalid")),
      ("summary", .object
        [("invalid", .number (invalidCount documents)),
          ("total", .number documents.length),
          ("valid", .number (validCount documents))])]

/-- The line of numbers. -/
def summary (documents : List Checked) : String :=
  Checked.line <|
    s!"documents={documents.length} valid={validCount documents} " ++
      s!"invalid={invalidCount documents}"

/-- Documents in a presentation.  The value for other programs has no place for a path that is no
text: there is nothing then. -/
def present? (host : Host) (quiet : Bool) (documents : List Checked) :
    Presentation → Option String
  | .table => some (table host quiet documents)
  | .json =>
    if documents.all fun checked => host.isText checked.path then
      some (Checked.line ((json documents).pretty 0))
    else
      none
  | .summary => some (summary documents)

end Command
end MuseumRecord
