import MuseumRecord.Command.Selection
import MuseumRecord.Command.Outcome
import MuseumRecord.Files.Document
import MuseumRecord.HistoricalDate.Reading
import MuseumRecord.Schema.Outline
import MuseumRecord.Settings.Storage

/-!
# Runs

A run of the program reads the file tree and answers with a code, with output and perhaps with an
error.  Only the creation of a settings file changes the tree.  Notes on the course of a run and the
bar that shows its progress are left out: they are no part of its answer.
-/

namespace MuseumRecord
namespace Command

/-- What a run depends on besides its arguments. -/
structure Surroundings where
  /-- The files that can be reached. -/
  files : Files
  /-- The current moment. -/
  now : Calendar.Moment
  /-- The machine. -/
  host : Host

/-- What a run comes to. -/
structure Result where
  /-- The exit code: one for an error, two for invalid documents and for misuse, and a hundred and
  one for a crash. -/
  code : Nat
  /-- The output. -/
  output : String
  /-- What is said about an error. -/
  error : Option String
  /-- A file that is new, with its text. -/
  created : Option (Path × String)
  /-- The files afterwards. -/
  files : Files

/-- A run that is all right. -/
def Result.success (files : Files) (output : String) : Result :=
  ⟨0, output, none, none, files⟩

/-- A run that tells good from bad. -/
def Result.verdict (files : Files) (good : Bool) (output : String) : Result :=
  ⟨if good then 0 else 2, output, none, none, files⟩

/-- A run that ends with an error. -/
def Result.failure (files : Files) (message : String) : Result :=
  ⟨1, "", some s!"Error: {message}", none, files⟩

/-- A run that ends without an answer. -/
def Result.crash (files : Files) : Result :=
  ⟨101, "", none, none, files⟩

/-- A run that presents what is good or bad, unless there is no presentation of it. -/
def Result.presented (files : Files) (good : Bool) : Option String → Result
  | some output => .verdict files good output
  | none => .crash files

/-- Arguments that make no sense. -/
def Result.misuse (files : Files) : Result :=
  ⟨2, "", none, none, files⟩

/-- The settings at a path, or the default ones if there is nothing at it. -/
def loadSettings (files : Files) (path : Path) : Except SettingsError Settings :=
  if files.isThere path then Settings.load files path else .ok {}

/-- Run with the settings at a path. -/
def withSettings (files : Files) (path : Path) (use : Settings → Result) : Result :=
  match loadSettings files path with
  | .ok settings => use settings
  | .error cause => .failure files s!"{path}: {cause.message}"

/-- Run with the text of the document at a path. -/
def withDocument (files : Files) (path : Path) (use : String → Result) : Result :=
  match files.readText path with
  | .ok text => use text
  | .error cause =>
    .failure files s!"Failed to read {path}\n\nCaused by:\n    {cause.message}"

/-- The settings of a validation. -/
def Validation.settings (validation : Validation) (settings : Settings) : Settings :=
  validation.extensions.foldl (fun known extension => (known.addExtension extension).1)
    { settings with sanitize := settings.sanitize || validation.sanitize }

/-- Validate documents. -/
def validate (surroundings : Surroundings) (validation : Validation) (settings : Settings) :
    Result :=
  let files := surroundings.files
  let settings := validation.settings settings
  match files.documents settings validation.paths with
  | .error missing => .failure files s!"{missing} does not exist"
  | .ok [] => .failure files "No documents found"
  | .ok paths =>
    let documents := paths.map (Checked.ofPath files settings surroundings.now)
    .presented files (documents.all Checked.isValid)
      (present? surroundings.host validation.quiet documents validation.presentation)

/-- Report on one document. -/
def report (surroundings : Surroundings) (path : Path) (sanitize : Bool) (settings : Settings) :
    Result :=
  withDocument surroundings.files path fun text =>
    let settings := { settings with sanitize := settings.sanitize || sanitize }
    let report := settings.inspect surroundings.now text
    .verdict surroundings.files report.isValid report.text

/-- The line of a date expression. -/
def dateLine (surroundings : Surroundings) (expression : String) : String :=
  match HistoricalDate.parse surroundings.now expression with
  | .ok date =>
    let tick := Paint.success.apply surroundings.host.color "✓"
    Checked.line s!"{tick} {expression}: {date.text}"
  | .error cause =>
    Checked.line (Paint.warning.apply surroundings.host.color s!"✗ {expression}: {cause.message}")

/-- Interpret date expressions. -/
def date (surroundings : Surroundings) (expressions : List String) : Result :=
  .verdict surroundings.files
    (expressions.all fun expression =>
      (HistoricalDate.parse surroundings.now expression).toBool)
    (String.join (expressions.map (dateLine surroundings)))

/-- Write the default settings to a path where there is nothing. -/
def create (files : Files) (path : Path) : Result :=
  if files.isThere path then
    .failure files s!"Configuration file {path} already exists"
  else
    match Settings.save {} files path with
    | .ok after =>
      ⟨0, Checked.line s!"Created {path}", none, some (path, Settings.fileText {}), after⟩
    | .error cause => .failure files s!"Failed to create {path}: {cause.message}"

/-- Carry out an action. -/
def perform (surroundings : Surroundings) (settingsPath : Path) : Action → Result
  | .validate validation =>
    withSettings surroundings.files settingsPath (validate surroundings validation)
  | .report path sanitize =>
    withSettings surroundings.files settingsPath (report surroundings path sanitize)
  | .date expressions => date surroundings expressions
  | .schema => .success surroundings.files Schema.exhibit.outline
  | .sanitize path =>
    withDocument surroundings.files path fun text =>
      .success surroundings.files (Checked.line (Markup.sanitize text))
  | .create => create surroundings.files settingsPath

/-- The name and the number of the program. -/
def versionText : String := "exhibit-validator 0.1.0"

/-- How the program is used, in short: the long descriptions of commands and options are left out,
and the same is said whatever help is asked for. -/
def usageText : String :=
  "Usage: exval [OPTIONS] <validate|report|date|schema|sanitize|init> [ARGUMENTS]"

/-- A run with arguments. -/
def run (surroundings : Surroundings) (arguments : List String) : Result :=
  match Request.ofArguments arguments with
  | .misuse => .misuse surroundings.files
  | .help => .success surroundings.files (Checked.line usageText)
  | .version => .success surroundings.files (Checked.line versionText)
  | .perform settingsPath action => perform surroundings settingsPath action

end Command
end MuseumRecord
