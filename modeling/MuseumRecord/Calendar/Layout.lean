import MuseumRecord.Calendar.Moment
import MuseumRecord.Number.Digits
import MuseumRecord.Text.Blank
import MuseumRecord.Text.LowerCase

/-!
# Calendar layouts

A layout is a row of items that a date or a time of day is written in.  Writing pads every number
with zeros; reading is more lenient about widths, blanks and letter case.
-/

namespace MuseumRecord
namespace Calendar

open Number

/-- The numbers a layout can hold. -/
inductive Field where
  | year
  | month
  | day
  | hour
  | minute
  | second
deriving DecidableEq, Repr

/-- One item of a layout. -/
inductive LayoutItem where
  /-- A number. -/
  | number (field : Field)
  /-- The English name of the month, in full or by its first three letters. -/
  | monthName (full : Bool)
  /-- A character that stands as it is. -/
  | mark (character : Char)
  /-- A space, read as any number of blanks. -/
  | gap
deriving DecidableEq, Repr

/-- A row of items. -/
abbrev Layout := List LayoutItem

/-- The English names of the months. -/
def monthNames : List String :=
  ["January", "February", "March", "April", "May", "June", "July", "August", "September",
    "October", "November", "December"]

/-- The letters of the name of a month, counted from one. -/
def fullMonthName (month : Nat) : List Char :=
  (monthNames.getD (month - 1) "").toList

/-- The letters by which a month is abbreviated. -/
def shortMonthName (month : Nat) : List Char :=
  (fullMonthName month).take 3

/-! ## Writing -/

/-- A year: four digits, with a sign when it lies outside the years 0 to 9999. -/
def writeYear (year : Int) : List Char :=
  if 0 ≤ year ∧ year ≤ 9999 then
    padded 4 year.toNat
  else
    (if year < 0 then '-' else '+') :: padded 4 year.natAbs

/-- The text of one item for a moment. -/
def LayoutItem.write (moment : Moment) : LayoutItem → List Char
  | .number .year => writeYear moment.day.year
  | .number .month => padded 2 moment.day.month
  | .number .day => padded 2 moment.day.day
  | .number .hour => padded 2 moment.hour
  | .number .minute => padded 2 moment.minute
  | .number .second => padded 2 moment.clockSecond
  | .monthName true => fullMonthName moment.day.month
  | .monthName false => shortMonthName moment.day.month
  | .mark character => [character]
  | .gap => [' ']

/-- The text of a moment in a layout. -/
def Layout.write (layout : Layout) (moment : Moment) : List Char :=
  layout.flatMap fun item => item.write moment

/-! ## Reading -/

/-- The numbers found so far. -/
structure Reading where
  /-- The year. -/
  year : Option Int := none
  /-- The month. -/
  month : Option Nat := none
  /-- The day of the month. -/
  day : Option Nat := none
  /-- The hour. -/
  hour : Option Nat := none
  /-- The minute. -/
  minute : Option Nat := none
  /-- The second, sixty for a leap second. -/
  second : Option Nat := none
deriving DecidableEq, Repr

/-- The first and the last year that a day is read for. -/
def readableYears : Int × Int := (-262143, 262142)

/-- The day whose numbers were found, if it exists. -/
def Reading.day? (reading : Reading) : Option Day :=
  match reading.year, reading.month, reading.day with
  | some year, some month, some day =>
    if readableYears.1 ≤ year ∧ year ≤ readableYears.2 then Day.of? year month day else none
  | _, _, _ => none

/-- The moment whose numbers were found, if it exists.  A layout without seconds means second
zero. -/
def Reading.moment? (reading : Reading) : Option Moment :=
  match reading.day?, reading.hour, reading.minute with
  | some day, some hour, some minute =>
    Moment.ofClock? day hour minute (reading.second.getD 0) 0
  | _, _, _ => none

/-- A year: a sign and any number of digits, or up to four digits without a sign. -/
def readYear? : List Char → Option (Int × List Char)
  | '-' :: rest =>
    (leadingDigits? rest.length rest).map fun (value, after) => (-(value : Int), after)
  | '+' :: rest =>
    (leadingDigits? rest.length rest).map fun (value, after) => ((value : Int), after)
  | text => (leadingDigits? 4 text).map fun (value, after) => ((value : Int), after)

/-- What follows a leading word, compared without regard to the case of ASCII letters. -/
def afterWord? (word text : List Char) : Option (List Char) :=
  if Text.lowerAscii (text.take word.length) = Text.lowerAscii word then
    some (text.drop word.length)
  else
    none

/-- The month whose abbreviation leads the text, and what follows it. -/
def readShortMonth? (text : List Char) : Option (Nat × List Char) :=
  (List.range 12).findSome? fun index =>
    (afterWord? (shortMonthName (index + 1)) text).map fun after => (index + 1, after)

/-- The month whose name or abbreviation leads the text, and what follows it. -/
def readMonth? (text : List Char) : Option (Nat × List Char) :=
  (readShortMonth? text).map fun (month, after) =>
    (month, (afterWord? ((fullMonthName month).drop 3) after).getD after)

/-- The reading with one more number, and what follows the digits.  Blanks may lead a number. -/
def Field.read? (reading : Reading) (text : List Char) : Field → Option (Reading × List Char)
  | .year =>
    (readYear? (Text.trimStart text)).map fun (value, after) =>
      ({ reading with year := some value }, after)
  | .month =>
    (leadingDigits? 2 (Text.trimStart text)).map fun (value, after) =>
      ({ reading with month := some value }, after)
  | .day =>
    (leadingDigits? 2 (Text.trimStart text)).map fun (value, after) =>
      ({ reading with day := some value }, after)
  | .hour =>
    (leadingDigits? 2 (Text.trimStart text)).map fun (value, after) =>
      ({ reading with hour := some value }, after)
  | .minute =>
    (leadingDigits? 2 (Text.trimStart text)).map fun (value, after) =>
      ({ reading with minute := some value }, after)
  | .second =>
    (leadingDigits? 2 (Text.trimStart text)).map fun (value, after) =>
      ({ reading with second := some value }, after)

/-- The reading after one item, and what follows it. -/
def LayoutItem.read? (reading : Reading) (text : List Char) :
    LayoutItem → Option (Reading × List Char)
  | .number field => field.read? reading text
  | .monthName true =>
    (readMonth? text).map fun (month, after) => ({ reading with month := some month }, after)
  | .monthName false =>
    (readShortMonth? text).map fun (month, after) => ({ reading with month := some month }, after)
  | .mark character =>
    match text with
    | head :: after => if head = character then some (reading, after) else none
    | [] => none
  | .gap => some (reading, Text.trimStart text)

/-- The numbers read in a layout, and what follows them. -/
def Layout.read? : Layout → Reading → List Char → Option (Reading × List Char)
  | [], reading, text => some (reading, text)
  | item :: layout, reading, text =>
    match item.read? reading text with
    | some (next, after) => Layout.read? layout next after
    | none => none

/-- The day that the whole text writes in a layout. -/
def Layout.day? (layout : Layout) (text : List Char) : Option Day :=
  match Layout.read? layout {} text with
  | some (reading, []) => reading.day?
  | _ => none

/-- The moment that the whole text writes in a layout. -/
def Layout.moment? (layout : Layout) (text : List Char) : Option Moment :=
  match Layout.read? layout {} text with
  | some (reading, []) => reading.moment?
  | _ => none

end Calendar
end MuseumRecord
