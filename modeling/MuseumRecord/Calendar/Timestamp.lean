import MuseumRecord.Calendar.Layout

/-!
# Timestamps with a zone

The Internet date and time format: a full date, a full time of day and the distance of the local
clock from the prime meridian.

A timestamp is read as the moment that clocks show here.  It is assumed that they show the time of
the prime meridian all the year, so nothing is added to the moment that is denoted.
-/

namespace MuseumRecord
namespace Calendar
namespace Timestamp

open Number

/-- What follows a given leading character. -/
def after? (character : Char) : List Char → Option (List Char)
  | head :: rest => if head = character then some rest else none
  | [] => none

/-- What follows the mark between date and time. -/
def afterTimeMark? : List Char → Option (List Char)
  | head :: rest => if head = 'T' ∨ head = 't' ∨ head = ' ' then some rest else none
  | [] => none

/-- The nanoseconds of an optional fraction of a second.  Digits beyond the ninth are passed
over. -/
def fraction? : List Char → Option (Nat × List Char)
  | '.' :: rest =>
    let row := rest.takeWhile isDigit
    if row.isEmpty then
      none
    else
      some (ofDigits ((row ++ List.replicate 9 '0').take 9), rest.drop row.length)
  | text => some (0, text)

/-- Hours and minutes of a zone, in seconds. -/
def distance? (text : List Char) : Option (Nat × List Char) := do
  let (hours, text) ← exactDigits? 2 text
  let text ← after? ':' text
  let (minutes, text) ← exactDigits? 2 text
  if hours < 24 ∧ minutes < 60 then
    some (hours * 3600 + minutes * 60, text)
  else
    none

/-- How many seconds the local clock runs ahead.  The mathematical minus sign counts as a sign. -/
def offset? : List Char → Option (Int × List Char)
  | [] => none
  | sign :: rest =>
    if sign = 'Z' ∨ sign = 'z' then
      some (0, rest)
    else if sign = '+' then
      (distance? rest).map fun (seconds, after) => ((seconds : Int), after)
    else if sign = '-' ∨ sign = '\u2212' then
      (distance? rest).map fun (seconds, after) => (-(seconds : Int), after)
    else
      none

/-- The moment at the prime meridian that the whole text denotes. -/
def read? (text : List Char) : Option Moment := do
  let (year, text) ← exactDigits? 4 text
  let text ← after? '-' text
  let (month, text) ← exactDigits? 2 text
  let text ← after? '-' text
  let (day, text) ← exactDigits? 2 text
  let text ← afterTimeMark? text
  let (hour, text) ← exactDigits? 2 text
  let text ← after? ':' text
  let (minute, text) ← exactDigits? 2 text
  let text ← after? ':' text
  let (second, text) ← exactDigits? 2 text
  let (nano, text) ← fraction? text
  let (offset, text) ← offset? text
  let date ← Day.of? year month day
  let moment ← Moment.ofClock? date hour minute second nano
  if text.isEmpty then some (moment.universal offset) else none

end Timestamp
end Calendar
end MuseumRecord
