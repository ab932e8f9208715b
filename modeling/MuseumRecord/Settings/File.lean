import MuseumRecord.Settings.Basic
import MuseumRecord.Toml.Document
import MuseumRecord.Toml.Style

/-!
# Settings files

Settings are kept in a text file with the version of its form.  A name that is left out keeps its
default, and names of no meaning are passed over.
-/

namespace MuseumRecord

/-- Why settings cannot be read or kept. -/
inductive SettingsError where
  /-- The file cannot be read. -/
  | unreadable (cause : String)
  /-- The text of the file is not that of settings. -/
  | malformed
  /-- The file cannot be written. -/
  | unwritable (cause : String)
deriving DecidableEq, Repr

/-- What is said about the error. -/
def SettingsError.message : SettingsError → String
  | .unreadable cause => s!"Failed to read config file: {cause}"
  | .malformed => "Failed to parse config file:"
  | .unwritable cause => s!"Failed to write config file: {cause}"

namespace Settings

open Toml

/-- The version of the form of the file. -/
def fileVersion : String := "1"

/-- The text of the settings file. -/
def fileText (settings : Settings) : String :=
  s!"_version = {writtenString fileVersion}\n" ++
    s!"namespace_policy = {writtenString settings.namespacePolicy.text}\n" ++
    s!"sanitize = {writtenTruth settings.sanitize}\n" ++
    s!"extensions = {writtenStrings settings.extensions}\n"

/-- A policy: its name, or a table that holds an empty table under its name. -/
def policy? : Value → Option NamespacePolicy
  | .text name => NamespacePolicy.ofText? name
  | .table _ [(name, .table _ [])] => NamespacePolicy.ofText? name
  | _ => none

/-- A truth value. -/
def truth? : Value → Option Bool
  | .truth value => some value
  | _ => none

/-- A string. -/
def string? : Value → Option String
  | .text content => some content
  | _ => none

/-- A row of strings. -/
def strings? : Value → Option (List String)
  | .array items => items.mapM string?
  | _ => none

/-- The value of a name, or the default if the name is absent. -/
def field? {α : Type} (read : Value → Option α) (default : α) (name : String)
    (entries : Entries) : Option α :=
  match entries.lookup name with
  | some value => read value
  | none => some default

/-- The settings in a table. -/
def ofEntries? (entries : Entries) : Option Settings := do
  let version ← (entries.lookup "_version").bind string?
  let policy ← field? policy? .warn "namespace_policy" entries
  let sanitize ← field? truth? false "sanitize" entries
  let extensions ← field? strings? ["xml"] "extensions" entries
  if version = fileVersion then some ⟨policy, sanitize, extensions⟩ else none

/-- The settings in the text of a file. -/
def ofFileText? (text : String) : Option Settings :=
  (Toml.parse? text).bind ofEntries?

end Settings

end MuseumRecord
