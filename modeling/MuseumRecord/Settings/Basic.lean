import MuseumRecord.Schema.Conformance
import MuseumRecord.Text.LowerCase

/-!
# Settings

How documents are read, how strictly namespaces are judged, and which files of a directory are
documents.
-/

namespace MuseumRecord

namespace NamespacePolicy

/-- The name of a policy. -/
def text : NamespacePolicy → String
  | .require => "require"
  | .warn => "warn"
  | .ignore => "ignore"

/-- The policy with a name. -/
def ofText? (name : String) : Option NamespacePolicy :=
  [require, warn, ignore].find? fun policy => policy.text == name

end NamespacePolicy

/-- The settings of an inspection. -/
structure Settings where
  /-- What to do about elements outside the namespace of the schema. -/
  namespacePolicy : NamespacePolicy := .warn
  /-- Whether comments and instructions are taken out before a document is read. -/
  sanitize : Bool := false
  /-- The extensions of document files, without the dot in front. -/
  extensions : List String := ["xml"]
deriving DecidableEq, Repr

namespace Settings

/-- An extension without the dots in front. -/
def withoutDots (extension : String) : List Char :=
  extension.toList.dropWhile fun character => character == '.'

/-- Whether files with an extension are documents.  The case of ASCII letters does not matter. -/
def accepts (settings : Settings) (extension : String) : Bool :=
  settings.extensions.any fun known =>
    Text.lowerAscii known.toList == Text.lowerAscii (withoutDots extension)

/-- The form in which an extension is added: no dots in front, in lower case. -/
def normalExtension (extension : String) : String :=
  String.ofList (Text.lower (withoutDots extension))

/-- The settings with one more extension, and whether it is new. -/
def addExtension (settings : Settings) (extension : String) : Settings × Bool :=
  if settings.extensions.contains (normalExtension extension) then
    (settings, false)
  else
    ({ settings with extensions := settings.extensions ++ [normalExtension extension] }, true)

end Settings

end MuseumRecord
