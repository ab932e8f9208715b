import MuseumRecord.Calendar.Written

/-!
# Historical dates

A record dates its object by a year of an era, by a calendar date or by a range between two such
dates.  An expression that is none of these is rejected with the cause.
-/

namespace MuseumRecord

/-- The era that a year is counted in. -/
inductive Era where
  | beforeCommon
  | common
deriving DecidableEq, Repr

/-- The abbreviation of an era. -/
def Era.text : Era → String
  | .beforeCommon => "BCE"
  | .common => "CE"

/-- An accepted date expression. -/
inductive HistoricalDate where
  /-- A year, with its era written out or implied by a bare number. -/
  | year (number : Nat) (era : Era) (explicit : Bool)
  /-- A calendar date, at midnight when no time was given. -/
  | calendar (moment : Calendar.Moment)
  /-- Two expressions with a dash between them. -/
  | range (start finish : HistoricalDate)
deriving DecidableEq, Repr

namespace HistoricalDate

/-- The text of a date in answers. -/
def text : HistoricalDate → String
  | .year number era true => s!"{number} {era.text}"
  | .year number era false => s!"{number} ({era.text})"
  | .calendar moment =>
    if moment.isMidnight then Calendar.dayText moment else Calendar.momentText moment
  | .range start finish => s!"{start.text} to {finish.text}"

end HistoricalDate

/-- Why a date expression is rejected. -/
inductive DateError where
  /-- Nothing but blanks. -/
  | empty
  /-- An era marker beside something that is no whole number. -/
  | notAYear (text : String)
  /-- A year before the common era that is zero or less. -/
  | nonPositiveYear (year : Int)
  /-- A year of the common era before year one or after the current year. -/
  | yearOutOfRange (year current : Int)
  /-- A calendar date later than the current moment. -/
  | future (text : String)
  /-- Neither a year nor a calendar date nor a range. -/
  | unrecognised (text : String)
deriving DecidableEq, Repr

/-- The wording of a rejection. -/
def DateError.message : DateError → String
  | .empty => "date expression is empty"
  | .notAYear text => s!"'{text}' is not a year"
  | .nonPositiveYear year => s!"year {year} before the common era must be positive"
  | .yearOutOfRange year current => s!"year {year} must be between 1 and {current}"
  | .future text => s!"'{text}' lies in the future"
  | .unrecognised text => s!"'{text}' is not a recognised date expression"

end MuseumRecord
