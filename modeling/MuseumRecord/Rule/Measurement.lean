import MuseumRecord.Exhibit
import MuseumRecord.Rule.Violation

/-!
# Measurements

Measured dimensions name a known unit, and each is a number in range.
-/

namespace MuseumRecord
namespace Rule

open Number

/-- A unit that is not known. -/
def unitViolation (unit : Option String) : Option Violation :=
  match unit with
  | some name => if Schema.Exhibit.unit.values.contains name then none else some (.unknownUnit name)
  | none => none

/-- A measurement that is no number or out of range. -/
def measurementViolation (field value : String) : Option Violation :=
  match Binary64.read? (Text.trim value.toList) with
  | none => some (.notANumber field value)
  | some number =>
    if number.isPositive && number.isAtMost largestMeasurement then none
    else some (.outOfRange field number)

/-- The first violation of measured dimensions. -/
def measuredViolation (dimensions : Dimensions) : Option Violation :=
  emptyField "Dimensions" "unit" dimensions.unit <|>
  unitViolation dimensions.unit <|>
  dimensions.measurements.findSome? (fun (field, value) =>
    value.bind (measurementViolation field)) <|>
  if dimensions.measurements.all fun (_, value) => value.isNone then
    some .noMeasurements
  else
    none

/-- The first violation of the group of dimensions. -/
def dimensionsViolation (exhibit : Exhibit) : Option Violation :=
  (exhibit.technical.bind Technical.dimensions).bind measuredViolation

end Rule
end MuseumRecord
