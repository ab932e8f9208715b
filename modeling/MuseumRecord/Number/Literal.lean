import MuseumRecord.Number.Digits

/-!
# Decimal literals

An optional sign, digits with an optional point among or around them, and an optional exponent.
-/

namespace MuseumRecord
namespace Number

/-- A written number: the digits on both sides of the point and the exponent, if one is written. -/
structure Literal where
  /-- Whether a minus sign is written. -/
  negative : Bool
  /-- The digits in front of the point. -/
  whole : List Char
  /-- The digits behind the point. -/
  fraction : List Char
  /-- The power of ten, if one is written. -/
  exponent : Option Int
deriving DecidableEq, Repr

namespace Literal

/-- Whether a minus sign leads, and what follows the sign. -/
def splitSign : List Char → Bool × List Char
  | '+' :: rest => (false, rest)
  | '-' :: rest => (true, rest)
  | text => (false, text)

/-- The leading digits and what follows them. -/
def splitDigits (text : List Char) : List Char × List Char :=
  (text.takeWhile isDigit, text.dropWhile isDigit)

/-- The digits behind a point, if a point leads, and what follows. -/
def splitFraction : List Char → List Char × List Char
  | '.' :: rest => splitDigits rest
  | text => ([], text)

/-- The exponent that the whole text writes, if it writes any. -/
def exponent? : List Char → Option (Option Int)
  | [] => some none
  | mark :: rest =>
    if mark = 'e' ∨ mark = 'E' then (integer? rest).map some else none

/-- The literal that the whole text writes. -/
def read? (text : List Char) : Option Literal :=
  let (negative, unsigned) := splitSign text
  let (whole, afterWhole) := splitDigits unsigned
  let (fraction, afterFraction) := splitFraction afterWhole
  if whole.isEmpty && fraction.isEmpty then
    none
  else
    (exponent? afterFraction).map fun exponent => ⟨negative, whole, fraction, exponent⟩

end Literal

end Number
end MuseumRecord
