import MuseumRecord.HistoricalDate.Basic
import MuseumRecord.Identifier
import MuseumRecord.Number.Shortest
import MuseumRecord.Schema.Exhibit

/-!
# Violations

The ways in which an exhibit can break the curatorial rules.
-/

namespace MuseumRecord
namespace Rule

/-- The greatest number of characters of a title or a file name. -/
def longestText : Nat := 255

/-- The greatest measurement, in whatever unit. -/
def largestMeasurement : Nat := 10000

/-- A broken rule. -/
inductive Violation where
  /-- There is no identifier. -/
  | missingIdentifier
  /-- The identifier is malformed. -/
  | badIdentifier (cause : IdentifierError)
  /-- A whole section is absent. -/
  | missingSection (part : String)
  /-- A required value is absent or blank. -/
  | missingField (part field : String)
  /-- A text is too long. -/
  | tooLong (field : String) (length : Nat)
  /-- The date of making cannot be read. -/
  | badCreationDate (value : String) (cause : DateError)
  /-- The unit of length is not known. -/
  | unknownUnit (unit : String)
  /-- A measurement is no number. -/
  | notANumber (field value : String)
  /-- A measurement is out of range. -/
  | outOfRange (field : String) (value : Number.Binary64)
  /-- Nothing is measured. -/
  | noMeasurements
  /-- An exhibit on display has no display case. -/
  | noDisplayCase
  /-- The day of acquisition cannot be read. -/
  | badAcquisitionDate (value : String)
  /-- The day of acquisition is yet to come. -/
  | futureAcquisition (value : String)
  /-- The price is no decimal number or less than zero. -/
  | badPrice (value : String)
  /-- An exhibition, counted from one, ends before it starts. -/
  | exhibitionOrder (number : Nat) (start finish : String)
  /-- Several images are the main one. -/
  | severalPrimaryImages (count : Nat)
  /-- A file is no image file. -/
  | notAnImageFile (fileName : String)
  /-- The state of preservation is not known. -/
  | unknownCondition (condition : String)
deriving DecidableEq, Repr

/-- The allowed values of an enumeration. -/
def allowed (enumeration : Schema.Enumeration) : String :=
  "(allowed: " ++ ", ".intercalate enumeration.values ++ ")"

/-- What is said about a violation. -/
def Violation.message : Violation → String
  | .missingIdentifier => "Exhibit identifier is required"
  | .badIdentifier cause => cause.message
  | .missingSection part => s!"{part} section is required"
  | .missingField part field => s!"{part}/{field} is required"
  | .tooLong field length =>
    s!"{field} must not be longer than {longestText} characters (found {length})"
  | .badCreationDate value cause => s!"invalid creation date '{value}': {cause.message}"
  | .unknownUnit unit => s!"unknown dimension unit '{unit}' {allowed Schema.Exhibit.unit}"
  | .notANumber field value => s!"{field} '{value}' is not a number"
  | .outOfRange field value =>
    s!"{field} must be greater than 0 and at most {largestMeasurement} (found {value.text})"
  | .noMeasurements =>
    "Dimensions must contain at least one of Height, Width, Depth or Diameter"
  | .noDisplayCase => "Location/Display is required when the exhibit is on display"
  | .badAcquisitionDate value => s!"invalid acquisition date '{value}'"
  | .futureAcquisition value => s!"acquisition date '{value}' lies in the future"
  | .badPrice value => s!"invalid acquisition price '{value}'"
  | .exhibitionOrder number start finish =>
    s!"exhibition {number} must start before it ends ({start} to {finish})"
  | .severalPrimaryImages count => s!"only one image may be marked primary (found {count})"
  | .notAnImageFile fileName => s!"unsupported image file extension: {fileName}"
  | .unknownCondition condition =>
    s!"'{condition}' is not a valid Condition {allowed Schema.Exhibit.condition}"

/-- A field of a part that is absent or blank. -/
def blankField (part field : String) (value : Option String) : Option Violation :=
  if value.all Text.isBlankString then some (.missingField part field) else none

/-- A field of a part that is absent or empty. -/
def emptyField (part field : String) (value : Option String) : Option Violation :=
  if value.all String.isEmpty then some (.missingField part field) else none

/-- A text that is too long. -/
def overlong (field : String) (value : Option String) : Option Violation :=
  match value with
  | some text =>
    if longestText < text.length then some (.tooLong field text.length) else none
  | none => none

end Rule
end MuseumRecord
