import MuseumRecord.Command.Run
import MuseumRecord.Proofs.Files.Writing
import MuseumRecord.Proofs.Toml.Line

/-!
# Settings files are read back

The text of a settings file has one line for each setting.  Read as a file, it gives the settings
that were written, whatever their extensions are.  Settings that are saved are therefore loaded
again from where they were saved.
-/

namespace MuseumRecord
namespace Settings

open Toml

/-! ## The lines of the file -/

/-- The lines of the file. -/
def fileLines (settings : Settings) : List Line :=
  [⟨"_version", .text fileVersion, .string fileVersion, by decide, rfl⟩,
    ⟨"namespace_policy", .text settings.namespacePolicy.text,
      .string settings.namespacePolicy.text, by decide, rfl⟩,
    ⟨"sanitize", .truth settings.sanitize, .truth settings.sanitize, by decide, rfl⟩,
    ⟨"extensions", .array (settings.extensions.map .text), .strings settings.extensions,
      by decide, rfl⟩]

theorem toList_fileText (settings : Settings) :
    settings.fileText.toList = settings.fileLines.flatMap Line.text := by
  have text : settings.fileText =
      ("_version = " ++ writtenString fileVersion ++ "\n") ++
        ("namespace_policy = " ++ writtenString settings.namespacePolicy.text ++ "\n") ++
        ("sanitize = " ++ writtenTruth settings.sanitize ++ "\n") ++
        ("extensions = " ++ writtenStrings settings.extensions ++ "\n") := rfl
  rw [text]
  simp [fileLines, Line.text, Writing.string, Writing.truth, Writing.strings]

/-- The entries of the file. -/
def fileEntries (settings : Settings) : Entries :=
  settings.fileLines.map Line.entry

theorem parse?_fileText (settings : Settings) :
    Toml.parse? settings.fileText = some settings.fileEntries := by
  have distinct : (settings.fileLines.map Line.name).Nodup := by
    change ["_version", "namespace_policy", "sanitize", "extensions"].Nodup
    decide
  exact parse?_lines (toList_fileText settings) distinct

/-! ## Settings -/

theorem ofText?_text (policy : NamespacePolicy) :
    NamespacePolicy.ofText? policy.text = some policy := by
  cases policy with
  | require => rfl
  | warn => rfl
  | ignore => rfl

theorem strings?_texts (strings : List String) :
    strings? (.array (strings.map .text)) = some strings := by
  rw [strings?]
  induction strings with
  | nil => rfl
  | cons string strings inductionHypothesis =>
    rw [List.map_cons, List.mapM_cons, inductionHypothesis]
    rfl

theorem ofEntries?_fileEntries (settings : Settings) :
    ofEntries? settings.fileEntries = some settings := by
  have version : (settings.fileEntries.lookup "_version").bind string? = some fileVersion := rfl
  have policy : field? policy? .warn "namespace_policy" settings.fileEntries =
      some settings.namespacePolicy := ofText?_text settings.namespacePolicy
  have sanitize : field? truth? false "sanitize" settings.fileEntries =
      some settings.sanitize := rfl
  have extensions : field? strings? ["xml"] "extensions" settings.fileEntries =
      some settings.extensions := strings?_texts settings.extensions
  rw [ofEntries?, version, policy, sanitize, extensions]
  rfl

theorem ofFileText?_fileText (settings : Settings) :
    ofFileText? settings.fileText = some settings := by
  rw [ofFileText?, parse?_fileText, Option.bind_some, ofEntries?_fileEntries]

theorem fromUTF8?_toUTF8 (text : String) : String.fromUTF8? text.toUTF8 = some text := by
  have valid : text.toUTF8.IsValidUTF8 := text.isValidUTF8
  unfold String.fromUTF8?
  rw [dif_pos valid]
  rfl

theorem isThere_of_readBytes {files : Files} {path : MuseumRecord.Path} {content : ByteArray}
    (read : files.readBytes path = .ok content) : files.isThere path = true := by
  unfold Files.readBytes at read
  split at read
  · next found => rw [Files.isThere, found]; rfl
  · cases read
  · cases read

section Files

variable {settings : Settings} {files after : Files} {path : MuseumRecord.Path}

theorem load_of_readBytes (read : files.readBytes path = .ok settings.fileText.toUTF8) :
    load files path = .ok settings := by
  have text : files.readText path = .ok settings.fileText := by
    rw [Files.readText, read]
    simp only [fromUTF8?_toUTF8]
  rw [load, text]
  simp only [ofFileText?_fileText]

theorem loadSettings_of_readBytes
    (read : files.readBytes path = .ok settings.fileText.toUTF8) :
    Command.loadSettings files path = .ok settings :=
  (if_pos (isThere_of_readBytes read)).trans (load_of_readBytes read)

theorem write_of_save (saved : settings.save files path = .ok after) :
    files.write path settings.fileText.toUTF8 = .ok after := by
  unfold save at saved
  split at saved
  · next written => rw [written, Except.ok.inj saved]
  · cases saved

theorem save_of_write (written : files.write path settings.fileText.toUTF8 = .ok after) :
    settings.save files path = .ok after := by
  rw [save, written]

/-- Settings that are saved to a path are loaded from it, and every other file is read as before. -/
theorem load_of_save (saved : settings.save files path = .ok after) :
    load after path = .ok settings ∧ Command.loadSettings after path = .ok settings ∧
      ∀ other kept, files.readBytes other = .ok kept → after.namesOf other ≠ after.namesOf path →
        after.readBytes other = .ok kept := by
  have written := write_of_save saved
  have read := Files.readBytes_of_write written
  exact ⟨load_of_readBytes read, loadSettings_of_readBytes read,
    fun _ _ before apart => Files.readBytes_of_write_of_ne written before apart⟩

/-- Settings can be saved over every file, whatever it holds, and loaded from it. -/
theorem exists_save_over {old : ByteArray} (settings : Settings)
    (there : files.readBytes path = .ok old) :
    ∃ after, settings.save files path = .ok after ∧ load after path = .ok settings := by
  obtain ⟨after, written⟩ := Files.exists_write_of_readBytes settings.fileText.toUTF8 there
  exact ⟨after, save_of_write written, load_of_readBytes (Files.readBytes_of_write written)⟩

/-- Settings can be saved as a new file in every directory and loaded from it. -/
theorem exists_save_new {front place : List String} {name : String} (settings : Settings)
    (absent : files.isThere path = false) (division : path.segments = front ++ [name])
    (notEmpty : name ≠ "") (followed : files.follow path.isAbsolute front = .ok place)
    (directory : files.root.shows place = some none) :
    ∃ after, settings.save files path = .ok after ∧ load after path = .ok settings := by
  obtain ⟨after, written⟩ := Files.exists_write_of_directory settings.fileText.toUTF8 absent
    division notEmpty followed directory
  exact ⟨after, save_of_write written, load_of_readBytes (Files.readBytes_of_write written)⟩

end Files

end Settings
end MuseumRecord
