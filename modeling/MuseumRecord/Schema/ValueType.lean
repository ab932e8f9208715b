import MuseumRecord.Calendar.Day
import MuseumRecord.Number.Literal
import MuseumRecord.Text.Blank

/-!
# Types of values

The types of attribute values and of text-only elements.  Numbers, dates and truth values may stand
between blanks; free text and the values of an enumeration are taken as written.
-/

namespace MuseumRecord
namespace Schema

open Number

/-- A closed set of values. -/
structure Enumeration where
  /-- The name of the set. -/
  name : String
  /-- The values. -/
  values : List String
deriving DecidableEq, Repr

/-- The name of a set with its values. -/
def Enumeration.text (enumeration : Enumeration) : String :=
  enumeration.name ++ " \x7b" ++ ", ".intercalate enumeration.values ++ "\x7d"

/-- The type of a value. -/
inductive ValueType where
  /-- Any text. -/
  | string
  /-- A decimal literal with an optional exponent, infinity or no number. -/
  | double
  /-- A decimal literal. -/
  | decimal
  /-- A day of the calendar with an optional zone. -/
  | date
  /-- A truth value. -/
  | boolean
  /-- A value of a closed set. -/
  | enumeration (set : Enumeration)
deriving DecidableEq, Repr

namespace ValueType

/-- The name of a type. -/
def text : ValueType → String
  | .string => "string"
  | .double => "double"
  | .decimal => "decimal"
  | .date => "date"
  | .boolean => "boolean"
  | .enumeration set => set.text

/-- A decimal literal without an exponent. -/
def isDecimal (text : List Char) : Bool :=
  match Literal.read? text with
  | some literal => literal.exponent.isNone
  | none => false

/-- A decimal literal, an infinity with an optional sign, or the word for no number. -/
def isDouble (text : List Char) : Bool :=
  (Literal.read? text).isSome || (Literal.splitSign text).2 == "INF".toList ||
    text == "NaN".toList

/-- Nothing, the letter `Z`, or a sign and two pairs of digits with a colon. -/
def isZone : List Char → Bool
  | [] => true
  | ['Z'] => true
  | [sign, h, i, ':', m, n] =>
    (sign == '+' || sign == '-') && [h, i, m, n].all isDigit
  | _ => false

/-- Four, two and two digits of a day that exists, and a zone. -/
def isDate : List Char → Bool
  | a :: b :: c :: d :: '-' :: m :: n :: '-' :: s :: t :: zone =>
    [a, b, c, d, m, n, s, t].all isDigit && isZone zone &&
      (Calendar.Day.of? (ofDigits [a, b, c, d]) (ofDigits [m, n]) (ofDigits [s, t])).isSome
  | _ => false

/-- Whether a value belongs to a type. -/
def accepts (type : ValueType) (value : String) : Bool :=
  let collapsed := Text.trim value.toList
  match type with
  | .string => true
  | .double => isDouble collapsed
  | .decimal => isDecimal collapsed
  | .date => isDate collapsed
  | .boolean =>
    ["true".toList, "false".toList, "1".toList, "0".toList].contains collapsed
  | .enumeration set => set.values.contains value

/-- What is said about a value that does not belong to a type. -/
def rejection (type : ValueType) (value : String) : String :=
  s!"'{value}' is not a valid {type.text}"

end ValueType

end Schema
end MuseumRecord
