import MuseumRecord.Number.Binary64

/-!
# Shortest decimal digits

The text of a binary number holds the fewest digits that read back to it; of two such rows the one
nearer to the number.  It is written without an exponent.
-/

namespace MuseumRecord
namespace Number
namespace Shortest

/-- A positive number with the bounds of what rounds to it, as numerators over one denominator. -/
structure Interval where
  /-- The least number that may round to it. -/
  low : Nat
  /-- The number itself. -/
  value : Nat
  /-- The greatest number that may round to it. -/
  high : Nat
  /-- The common denominator. -/
  denominator : Nat
  /-- Whether the bounds themselves round to it. -/
  closed : Bool

/-- The interval of a mantissa and an exponent.  Below a power of two the numbers lie twice as
close. -/
def Interval.of (mantissa : Nat) (exponent : Int) : Interval :=
  let below :=
    if mantissa = Nat.pow 2 (Binary64.precision - 1) ∧ Binary64.leastExponent < exponent then 1
    else 2
  let factor := Nat.pow 2 (exponent - 2).toNat
  ⟨(4 * mantissa - below) * factor, 4 * mantissa * factor, (4 * mantissa + 2) * factor,
    Nat.pow 2 (2 - exponent).toNat, mantissa % 2 == 0⟩

/-- Whether a number of units of ten to a power rounds to the number of the interval. -/
def Interval.holds (interval : Interval) (units : Nat) (power : Int) : Bool :=
  let candidate := units * Nat.pow 10 power.toNat * interval.denominator
  let grid := Nat.pow 10 (-power).toNat
  if interval.closed then
    interval.low * grid ≤ candidate && candidate ≤ interval.high * grid
  else
    interval.low * grid < candidate && candidate < interval.high * grid

/-- The multiple of ten to a power next below the number of an interval. -/
def Interval.floorAt (interval : Interval) (power : Int) : Nat :=
  interval.value * Nat.pow 10 (-power).toNat / (interval.denominator * Nat.pow 10 power.toNat)

/-- Whether the multiple above is at least as near to the number as the multiple below. -/
def Interval.upperIsNearer (interval : Interval) (units : Nat) (power : Int) : Bool :=
  (2 * units + 1) * Nat.pow 10 power.toNat * interval.denominator ≤
    2 * interval.value * Nat.pow 10 (-power).toNat

/-- The multiple of ten to a power that rounds to the number, the nearer of two. -/
def Interval.at? (interval : Interval) (power : Int) : Option Nat :=
  let below := interval.floorAt power
  match interval.holds below power, interval.holds (below + 1) power with
  | true, true => some (if interval.upperIsNearer below power then below + 1 else below)
  | true, false => some below
  | false, true => some (below + 1)
  | false, false => none

/-- How many zeros follow the point in front of the first digit of a fraction below one. -/
def leadingZeros (fuel numerator denominator : Nat) : Nat :=
  match fuel with
  | 0 => 0
  | fuel + 1 =>
    if denominator ≤ numerator * 10 then 0
    else leadingZeros fuel (numerator * 10) denominator + 1

/-- The power of ten next above a positive fraction. -/
def powerAbove (numerator denominator : Nat) : Int :=
  if denominator ≤ numerator then
    (digits (numerator / denominator)).length
  else
    -(leadingZeros 400 numerator denominator : Int)

/-- The units and the power with the fewest digits, at most `more` beyond those tried. -/
def search (interval : Interval) (above : Int) : Nat → Nat → Nat × Int
  | 0, tried => (interval.floorAt (above - tried), above - tried)
  | more + 1, tried =>
    match interval.at? (above - (tried + 1)) with
    | some units => (units, above - (tried + 1))
    | none => search interval above more (tried + 1)

/-- The digits of units of ten to a power, with a point where one is needed. -/
def positional (units : Nat) (power : Int) : List Char :=
  let row := digits units
  let zeros := (row.reverse.takeWhile fun digit => digit == '0').length
  let kept := row.take (row.length - zeros)
  let power := power + zeros
  if 0 ≤ power then
    kept ++ List.replicate power.toNat '0'
  else
    let places := (-power).toNat
    if places < kept.length then
      kept.take (kept.length - places) ++ '.' :: kept.drop (kept.length - places)
    else
      '0' :: '.' :: List.replicate (places - kept.length) '0' ++ kept

/-- The text of a positive number.  Seventeen digits always suffice. -/
def text (mantissa : Nat) (exponent : Int) : List Char :=
  let interval := Interval.of mantissa exponent
  let (units, power) :=
    search interval (powerAbove interval.value interval.denominator) 17 0
  positional units power

end Shortest

/-- The text of a binary number. -/
def Binary64.text : Binary64 → String
  | .undefined => "NaN"
  | .infinite negative => if negative then "-inf" else "inf"
  | .finite negative mantissa exponent =>
    let magnitude :=
      if mantissa = 0 then ['0'] else Shortest.text mantissa exponent
    String.ofList (if negative then '-' :: magnitude else magnitude)

end Number
end MuseumRecord
