import MuseumRecord.Markup.Message
import MuseumRecord.Markup.Sanitized
import MuseumRecord.Report.Basic
import MuseumRecord.Rule.Group
import MuseumRecord.Settings.Basic

/-!
# Inspection

A document is inspected in four stages: it has content, its text is a document, the document
conforms to the schema of exhibits, and the exhibit keeps the rules.  A stage that finds an error
is the last.
-/

namespace MuseumRecord

/-- The text that stands for no content. -/
def emptyPlaceholder : String := "<empty>"

/-- Whether a text has no content. -/
def hasNoContent (text : String) : Bool :=
  let trimmed := Text.trim text.toList
  trimmed.isEmpty || trimmed == emptyPlaceholder.toList

namespace Settings

/-- The text that is read as a document. -/
def documentText (settings : Settings) (text : String) : String :=
  if settings.sanitize then Markup.sanitize text else text

/-- The diagnostics of a document: those of the schema, and those of the rules if the schema finds
no error. -/
def judge (settings : Settings) (now : Calendar.Moment) (root : Markup.Element) :
    List Diagnostic :=
  let structural := Schema.exhibit.diagnostics settings.namespacePolicy root
  if structural.any Diagnostic.isError then structural
  else structural ++ (Exhibit.ofElement root).diagnostics now

/-- The diagnostics of a text. -/
def diagnose (settings : Settings) (now : Calendar.Moment) (text : String) : List Diagnostic :=
  if hasNoContent text then
    [{ severity := .error, stage := .input, message := "Document has no content" }]
  else
    match Markup.parse (settings.documentText text) with
    | .error fault =>
      [{ severity := .error
         stage := .parse
         message := s!"Document could not be parsed: {fault.message}" }]
    | .ok root => settings.judge now root

/-- Inspect a text at a moment. -/
def inspect (settings : Settings) (now : Calendar.Moment) (text : String) : Report :=
  ⟨settings.diagnose now text, now⟩

end Settings

end MuseumRecord
