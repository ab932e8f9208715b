import MuseumRecord.Number.Literal

/-!
# Fixed-point numbers

A price is kept as a whole number of units of 96 bits with at most 28 decimal places.  Places
beyond these are rounded off; a whole part that does not fit is refused.
-/

namespace MuseumRecord
namespace Number

/-- A number of units, each a power of a tenth. -/
structure FixedPoint where
  /-- Whether a minus sign is written, also in front of zero. -/
  negative : Bool
  /-- The number of units. -/
  units : Nat
  /-- The number of decimal places. -/
  places : Nat
deriving DecidableEq, Repr

namespace FixedPoint

/-- The first number of units that does not fit. -/
def unitLimit : Nat := Nat.pow 2 96

/-- The greatest number of decimal places. -/
def mostPlaces : Nat := 28

/-- Round off the digits from one on: a half goes up.  If the units then no longer fit, one place
less is kept. -/
def roundOff (negative : Bool) (units places digit : Nat) : Option FixedPoint :=
  if digit < 5 then
    some ⟨negative, units, places⟩
  else if units + 1 < unitLimit then
    some ⟨negative, units + 1, places⟩
  else if places = 0 then
    none
  else
    some ⟨negative, (units + 5) / 10, places - 1⟩

/-- Take in the digits behind the point as long as they fit. -/
def addPlaces (negative : Bool) (units places : Nat) : List Char → Option FixedPoint
  | [] => some ⟨negative, units, places⟩
  | digit :: rest =>
    if places < mostPlaces ∧ units * 10 + digitValue digit < unitLimit then
      addPlaces negative (units * 10 + digitValue digit) (places + 1) rest
    else
      roundOff negative units places (digitValue digit)

/-- The number that a literal without an exponent writes, if its whole part fits. -/
def ofLiteral? (literal : Literal) : Option FixedPoint :=
  if ofDigits literal.whole < unitLimit then
    addPlaces literal.negative (ofDigits literal.whole) 0 literal.fraction
  else
    none

/-- Zero, with whatever sign, or greater. -/
def isNonNegative (number : FixedPoint) : Bool :=
  !number.negative || number.units == 0

end FixedPoint

end Number
end MuseumRecord
