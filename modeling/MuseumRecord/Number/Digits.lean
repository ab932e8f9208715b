/-!
# Decimal digits

Rows of ASCII digits, the numbers they denote, and the rows written for a number.
-/

namespace MuseumRecord
namespace Number

/-- An ASCII digit. -/
def isDigit (character : Char) : Bool :=
  '0' ≤ character && character ≤ '9'

/-- The value of an ASCII digit. -/
def digitValue (character : Char) : Nat :=
  character.toNat - '0'.toNat

/-- The digit of a value below ten. -/
def digitChar (value : Nat) : Char :=
  Char.ofNat ('0'.toNat + value % 10)

/-- The number that a row of digits denotes. -/
def ofDigits (digits : List Char) : Nat :=
  digits.foldl (fun value character => value * 10 + digitValue character) 0

/-- The number denoted by a non-empty row of digits. -/
def natural? (text : List Char) : Option Nat :=
  if !text.isEmpty && text.all isDigit then some (ofDigits text) else none

/-- The number denoted by a row of digits with an optional sign. -/
def integer? : List Char → Option Int
  | '+' :: digits => (natural? digits).map Int.ofNat
  | '-' :: digits => (natural? digits).map fun magnitude => -Int.ofNat magnitude
  | digits => (natural? digits).map Int.ofNat

/-- The number denoted by a row of digits with an optional sign, if it needs at most 32 bits. -/
def integer32? (text : List Char) : Option Int :=
  (integer? text).filter fun value => -2147483648 ≤ value && value ≤ 2147483647

/-- The digits of a number, with no leading zero. -/
def digits (value : Nat) : List Char :=
  if value < 10 then
    [digitChar value]
  else
    digits (value / 10) ++ [digitChar (value % 10)]
termination_by value

/-- The last digits of a number, with leading zeros up to the given width. -/
def lastDigits : Nat → Nat → List Char
  | 0, _ => []
  | width + 1, value => lastDigits width (value / 10) ++ [digitChar (value % 10)]

/-- The digits of a number, with leading zeros up to the given width. -/
def padded (width value : Nat) : List Char :=
  if value < Nat.pow 10 width then lastDigits width value else digits value

/-- A row of at least one and at most `most` leading digits, and what follows it. -/
def leadingDigits? (most : Nat) (text : List Char) : Option (Nat × List Char) :=
  let row := (text.take most).takeWhile isDigit
  if row.isEmpty then none else some (ofDigits row, text.drop row.length)

/-- A row of exactly `width` leading digits, and what follows it. -/
def exactDigits? (width : Nat) (text : List Char) : Option (Nat × List Char) :=
  let row := (text.take width).takeWhile isDigit
  if row.length = width then some (ofDigits row, text.drop width) else none

/-- The value of a digit in a base of at most sixteen. -/
def digitIn? (base : Nat) (character : Char) : Option Nat :=
  let value :=
    if isDigit character then digitValue character
    else if 'a' ≤ character ∧ character ≤ 'f' then character.toNat - 'a'.toNat + 10
    else if 'A' ≤ character ∧ character ≤ 'F' then character.toNat - 'A'.toNat + 10
    else base
  if value < base then some value else none

end Number
end MuseumRecord
