import MuseumRecord.Diagnostic
import MuseumRecord.HistoricalDate.Reading
import MuseumRecord.Rule.ImageFile
import MuseumRecord.Rule.Measurement
import MuseumRecord.Rule.Provenance

/-!
# Groups of rules

A group stops at its first violation, and every group is applied whatever the others found.
-/

namespace MuseumRecord
namespace Rule

/-- The violation of the group of identifiers. -/
def identifierViolation (exhibit : Exhibit) : Option Violation :=
  match exhibit.id with
  | none => some .missingIdentifier
  | some id =>
    if id.isEmpty then
      some .missingIdentifier
    else
      match Identifier.parse id with
      | .ok _ => none
      | .error cause => some (.badIdentifier cause)

/-- A date of making that is written and cannot be read. -/
def creationDateViolation (now : Calendar.Moment) (date : Option String) : Option Violation :=
  match date with
  | none => none
  | some written =>
    if written.isEmpty then
      none
    else
      match HistoricalDate.parse now written with
      | .ok _ => none
      | .error cause => some (.badCreationDate written cause)

/-- The first violation of the group of basic information. -/
def basicInfoViolation (now : Calendar.Moment) (exhibit : Exhibit) : Option Violation :=
  match exhibit.basicInfo with
  | none => some (.missingSection "BasicInfo")
  | some basicInfo =>
    blankField "BasicInfo" "Title" basicInfo.title <|>
    overlong "Title" basicInfo.title <|>
    blankField "BasicInfo" "Category" basicInfo.category <|>
    creationDateViolation now basicInfo.dateCreated

/-- An exhibit on display without a display case.  Other spellings of truth do not count. -/
def displayViolation (location : Location) : Option Violation :=
  if location.onDisplay = some "true" ∧ location.display.all Text.isBlankString then
    some .noDisplayCase
  else
    none

/-- The first violation of the group of locations. -/
def locationViolation (exhibit : Exhibit) : Option Violation :=
  match exhibit.location with
  | none => some (.missingSection "Location")
  | some location =>
    emptyField "Location" "onDisplay" location.onDisplay <|>
    blankField "Location" "Building" location.building <|>
    blankField "Location" "Room" location.room <|>
    displayViolation location

/-- A state of preservation that is not known. -/
def conditionNameViolation (condition : Option String) : Option Violation :=
  match condition with
  | some name =>
    if Schema.Exhibit.condition.values.contains name then none
    else some (.unknownCondition name)
  | none => none

/-- The first violation of the group of conditions. -/
def conditionViolation (exhibit : Exhibit) : Option Violation :=
  match exhibit.technical with
  | none => some (.missingSection "Technical")
  | some technical =>
    blankField "Technical" "Condition" technical.condition <|>
    conditionNameViolation technical.condition

end Rule

namespace RuleGroup

/-- The first violation of a group. -/
def violation? (now : Calendar.Moment) (exhibit : Exhibit) :
    RuleGroup → Option Rule.Violation
  | .identifier => Rule.identifierViolation exhibit
  | .basicInfo => Rule.basicInfoViolation now exhibit
  | .dimensions => Rule.dimensionsViolation exhibit
  | .location => Rule.locationViolation exhibit
  | .history => Rule.historyViolation now exhibit
  | .media => Rule.mediaViolation exhibit
  | .condition => Rule.conditionViolation exhibit

/-- The diagnostic of a group that an exhibit breaks. -/
def diagnostic? (now : Calendar.Moment) (exhibit : Exhibit) (group : RuleGroup) :
    Option Diagnostic :=
  (group.violation? now exhibit).map fun violation =>
    { severity := .error, stage := .rule group, message := violation.message }

end RuleGroup

/-- The diagnostics of all groups, in the order of the groups. -/
def Exhibit.diagnostics (now : Calendar.Moment) (exhibit : Exhibit) : List Diagnostic :=
  RuleGroup.all.filterMap fun group => group.diagnostic? now exhibit

end MuseumRecord
