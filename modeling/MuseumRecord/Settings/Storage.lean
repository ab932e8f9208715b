import MuseumRecord.Files.Tree
import MuseumRecord.Settings.File

/-!
# Storage of settings

Settings are loaded from a file and saved to one, over what it holds or as a new file.
-/

namespace MuseumRecord
namespace Settings

/-- The settings in the file at a path. -/
def load (files : Files) (path : Path) : Except SettingsError Settings :=
  match files.readText path with
  | .error cause => .error (.unreadable cause.message)
  | .ok text =>
    match ofFileText? text with
    | some settings => .ok settings
    | none => .error .malformed

/-- The files after settings are saved to a path. -/
def save (settings : Settings) (files : Files) (path : Path) : Except SettingsError Files :=
  match files.write path settings.fileText.toUTF8 with
  | .ok after => .ok after
  | .error cause => .error (.unwritable cause.message)

end Settings
end MuseumRecord
