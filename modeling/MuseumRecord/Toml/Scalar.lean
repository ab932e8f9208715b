import MuseumRecord.Calendar.Timestamp
import MuseumRecord.Number.Binary64
import MuseumRecord.Toml.Value

/-!
# Unquoted values

Truth values, numbers and dates.
-/

namespace MuseumRecord
namespace Toml

open Calendar Number

/-- The digits of a row in which an underscore may stand between two digits. -/
def ungrouped? (accepts : Char → Bool) : List Char → Option (List Char)
  | [] => none
  | [digit] => if accepts digit then some [digit] else none
  | digit :: '_' :: rest =>
    if accepts digit then (ungrouped? accepts rest).map fun others => digit :: others else none
  | digit :: rest =>
    if accepts digit then (ungrouped? accepts rest).map fun others => digit :: others else none

/-- The digits of a whole number in decimal, without a leading zero. -/
def wholeDigits? (text : List Char) : Option (List Char) :=
  (ungrouped? isDigit text).filter fun row => row.length == 1 || row.head? != some '0'

/-- The letters that announce the digits of other bases. -/
def bases : List (Char × Nat) :=
  [('x', 16), ('o', 8), ('b', 2)]

/-- The whole number that a text writes: decimal with an optional sign, or in another base. -/
def integer? : List Char → Option Int
  | '0' :: letter :: rest =>
    match bases.lookup letter with
    | some base =>
      (ungrouped? (fun digit => (digitIn? base digit).isSome) rest).map fun row =>
        Int.ofNat (row.foldl (fun value digit => value * base + (digitIn? base digit).getD 0) 0)
    | none => none
  | text =>
    let (negative, unsigned) := Literal.splitSign text
    (wholeDigits? unsigned).map fun row =>
      if negative then -Int.ofNat (ofDigits row) else Int.ofNat (ofDigits row)

/-- Whether a whole number needs at most 64 bits, with a sign or without. -/
def fits (value : Int) : Bool :=
  -(Nat.pow 2 63 : Int) ≤ value && value < (Nat.pow 2 64 : Int)

/-- Whether a character begins an exponent. -/
def isExponentMark (character : Char) : Bool :=
  character == 'e' || character == 'E'

/-- The exponent behind its letter, zero if there is none. -/
def exponent? : List Char → Option Int
  | [] => some 0
  | _ :: text =>
    let (negative, unsigned) := Literal.splitSign text
    (ungrouped? isDigit unsigned).map fun row =>
      if negative then -Int.ofNat (ofDigits row) else Int.ofNat (ofDigits row)

/-- The digits behind a point, if there is one. -/
def fractionDigits? : List Char → Option (List Char)
  | [] => some []
  | _ :: text => ungrouped? isDigit text

/-- The number with a fraction or an exponent that a text writes. -/
def literal? (text : List Char) : Option Literal := do
  let (negative, unsigned) := Literal.splitSign text
  let mantissa := unsigned.takeWhile fun character => !isExponentMark character
  let exponent ← exponent? (unsigned.drop mantissa.length)
  let whole := mantissa.takeWhile fun character => character != '.'
  let fraction ← fractionDigits? (mantissa.drop whole.length)
  let row ← wholeDigits? whole
  return ⟨negative, row, fraction, some exponent⟩

/-- Whether a text writes a number that is not too large to be kept. -/
def isNumber (text : List Char) : Bool :=
  let word := (Literal.splitSign text).2
  word == "inf".toList || word == "nan".toList || (integer? text).any fits ||
    ((integer? text).isNone &&
      (literal? text).any fun literal =>
        match Binary64.ofLiteral literal with
        | .finite _ _ _ => true
        | _ => false)

/-- Whether a text is a distance from the prime meridian. -/
def isOffset (text : List Char) : Bool :=
  match text with
  | ['Z'] => true
  | ['z'] => true
  | sign :: rest =>
    (sign == '+' || sign == '-') &&
      match Timestamp.distance? rest with
      | some (_, after) => after.isEmpty
      | none => false
  | [] => false

/-- The text behind a time of day.  Seconds may be left out, and so may their fraction. -/
def afterTime? (text : List Char) : Option (List Char) := do
  let (hour, text) ← exactDigits? 2 text
  let text ← Timestamp.after? ':' text
  let (minute, text) ← exactDigits? 2 text
  if 24 ≤ hour ∨ 60 ≤ minute then none
  else
    match text with
    | ':' :: rest => do
      let (second, text) ← exactDigits? 2 rest
      let (_, text) ← Timestamp.fraction? text
      if 60 < second then none else some text
    | _ => some text

/-- The text behind a day of the calendar. -/
def afterDay? (text : List Char) : Option (List Char) := do
  let (year, text) ← exactDigits? 4 text
  let text ← Timestamp.after? '-' text
  let (month, text) ← exactDigits? 2 text
  let text ← Timestamp.after? '-' text
  let (day, text) ← exactDigits? 2 text
  let _ ← Calendar.Day.of? year month day
  return text

/-- Whether a text is a date. -/
def isDay (text : List Char) : Bool :=
  afterDay? text == some []

/-- Whether a text is a date, a time of day or both, with an optional offset behind both. -/
def isMoment (text : List Char) : Bool :=
  isDay text || afterTime? text == some [] ||
    match afterDay? text with
    | some (mark :: rest) =>
      (mark == 'T' || mark == 't' || mark == ' ') &&
        match afterTime? rest with
        | some after => after.isEmpty || isOffset after
        | none => false
    | _ => false

/-- The value of an unquoted text. -/
def scalar? (text : List Char) : Option Value :=
  if text = "true".toList then some (.truth true)
  else if text = "false".toList then some (.truth false)
  else if isNumber text then some .number
  else if isMoment text then some .moment
  else none

end Toml
end MuseumRecord
