import MuseumRecord.Number.Literal

/-!
# Binary numbers of 64 bits

A measurement is kept as the binary number nearest to what is written: a whole multiple of a power
of two, with at most 53 binary digits.  All steps are exact, but for an exponent of more than five
digits, whose digits are not all counted.
-/

namespace MuseumRecord
namespace Number

/-- A binary number of 64 bits. -/
inductive Binary64 where
  /-- No number. -/
  | undefined
  /-- Beyond the largest number. -/
  | infinite (negative : Bool)
  /-- The mantissa times two to the exponent. -/
  | finite (negative : Bool) (mantissa : Nat) (exponent : Int)
deriving DecidableEq, Repr

namespace Binary64

/-- The least exponent. -/
def leastExponent : Int := -1074

/-- The greatest exponent. -/
def greatestExponent : Int := 971

/-- The number of binary digits of a mantissa. -/
def precision : Nat := 53

/-- A fraction divided by two to an exponent. -/
def scaleDown (numerator denominator : Nat) (exponent : Int) : Nat × Nat :=
  if 0 ≤ exponent then
    (numerator, denominator * Nat.pow 2 exponent.toNat)
  else
    (numerator * Nat.pow 2 (-exponent).toNat, denominator)

/-- The whole number nearest to a fraction; of two, the even one. -/
def roundToEven (numerator denominator : Nat) : Nat :=
  let quotient := numerator / denominator
  let twice := 2 * (numerator % denominator)
  if twice < denominator then quotient
  else if denominator < twice then quotient + 1
  else quotient + quotient % 2

/-- The exponent at which a positive fraction has the full number of binary digits, or the least
exponent if that is greater. -/
def exponentOf (numerator denominator : Nat) : Int :=
  let estimate := (Nat.log2 numerator : Int) - (Nat.log2 denominator : Int) - (precision - 1)
  let (scaledNumerator, scaledDenominator) := scaleDown numerator denominator estimate
  let exponent :=
    if scaledNumerator / scaledDenominator < Nat.pow 2 (precision - 1) then estimate - 1
    else estimate
  max leastExponent exponent

/-- The number nearest to a positive fraction, with a sign. -/
def nearest (negative : Bool) (numerator denominator : Nat) : Binary64 :=
  let exponent := exponentOf numerator denominator
  let (scaledNumerator, scaledDenominator) := scaleDown numerator denominator exponent
  let mantissa := roundToEven scaledNumerator scaledDenominator
  let (mantissa, exponent) :=
    if mantissa = Nat.pow 2 precision then (Nat.pow 2 (precision - 1), exponent + 1)
    else (mantissa, exponent)
  if greatestExponent < exponent then .infinite negative else .finite negative mantissa exponent

/-- Zero, with a sign. -/
def zero (negative : Bool) : Binary64 :=
  .finite negative 0 leastExponent

/-- An exponent as far as it is counted: once it has reached two to the sixteenth, its further
digits are passed over.  A literal with fewer digits than that is then so far beyond every number, or
so near to zero, that they make no difference. -/
def countedExponent (exponent : Int) : Int :=
  let counted := (digits exponent.natAbs).foldl
    (fun counted digit => if counted < 65536 then 10 * counted + digitValue digit else counted) 0
  if exponent < 0 then -counted else counted

/-- The number nearest to a literal.  A literal of more than 310 places in front of the point is
beyond every number; one with its first digit behind the 330th place is nearest to zero. -/
def ofLiteral (literal : Literal) : Binary64 :=
  let written := ofDigits (literal.whole ++ literal.fraction)
  let exponent := countedExponent (literal.exponent.getD 0) - literal.fraction.length
  let places := (digits written).length + exponent
  if written = 0 then zero literal.negative
  else if 310 < places then .infinite literal.negative
  else if places < -330 then zero literal.negative
  else if 0 ≤ exponent then nearest literal.negative (written * Nat.pow 10 exponent.toNat) 1
  else nearest literal.negative written (Nat.pow 10 (-exponent).toNat)

/-- The words for what is no finite number, without regard to letter case. -/
def ofWord? (negative : Bool) (word : List Char) : Option Binary64 :=
  let word := String.ofList (word.map Char.toLower)
  if word = "inf" ∨ word = "infinity" then some (.infinite negative)
  else if word = "nan" then some .undefined
  else none

/-- The number that the whole text writes. -/
def read? (text : List Char) : Option Binary64 :=
  match Literal.read? text with
  | some literal => some (ofLiteral literal)
  | none =>
    let (negative, word) := Literal.splitSign text
    ofWord? negative word

/-- Whether a number is finite and greater than zero. -/
def isPositive : Binary64 → Bool
  | .finite false mantissa _ => 0 < mantissa
  | _ => false

/-- Whether a finite number that is not negative is at most a whole number. -/
def isAtMost (limit : Nat) : Binary64 → Bool
  | .finite _ mantissa exponent =>
    let (numerator, denominator) := scaleDown mantissa 1 (-exponent)
    numerator ≤ limit * denominator
  | _ => false

end Binary64

end Number
end MuseumRecord
