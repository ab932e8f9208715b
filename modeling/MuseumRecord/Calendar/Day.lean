/-!
# Days of the proleptic Gregorian calendar

A day is a year, a month and a day of the month that exist together.
-/

namespace MuseumRecord
namespace Calendar

/-- A year with a twenty-ninth of February. -/
def isLeapYear (year : Int) : Bool :=
  year % 4 == 0 && (year % 100 != 0 || year % 400 == 0)

/-- The number of days of a month. -/
def monthLength (year : Int) (month : Nat) : Nat :=
  if month = 2 then
    if isLeapYear year then 29 else 28
  else if month = 4 ∨ month = 6 ∨ month = 9 ∨ month = 11 then
    30
  else
    31

theorem monthLength_positive (year : Int) (month : Nat) : 1 ≤ monthLength year month := by
  unfold monthLength
  split <;> split <;> omega

/-- A day of the calendar, with year zero before year one. -/
structure Day where
  /-- The astronomical year. -/
  year : Int
  /-- The month, from one to twelve. -/
  month : Nat
  /-- The day of the month, from one. -/
  day : Nat
  /-- The month exists. -/
  monthExists : 1 ≤ month ∧ month ≤ 12
  /-- The day exists in its month. -/
  dayExists : 1 ≤ day ∧ day ≤ monthLength year month
deriving DecidableEq, Repr

namespace Day

/-- The day with the given parts, if there is one. -/
def of? (year : Int) (month day : Nat) : Option Day :=
  if monthExists : 1 ≤ month ∧ month ≤ 12 then
    if dayExists : 1 ≤ day ∧ day ≤ monthLength year month then
      some ⟨year, month, day, monthExists, dayExists⟩
    else
      none
  else
    none

/-- The first day of a month. -/
def firstOf (year : Int) (month : Nat) (monthExists : 1 ≤ month ∧ month ≤ 12) : Day :=
  ⟨year, month, 1, monthExists, ⟨Nat.le_refl 1, monthLength_positive year month⟩⟩

/-- The last day of a month. -/
def lastOf (year : Int) (month : Nat) (monthExists : 1 ≤ month ∧ month ≤ 12) : Day :=
  ⟨year, month, monthLength year month, monthExists,
    ⟨monthLength_positive year month, Nat.le_refl _⟩⟩

/-- The day after. -/
def next (date : Day) : Day :=
  if within : date.day + 1 ≤ monthLength date.year date.month then
    ⟨date.year, date.month, date.day + 1, date.monthExists, ⟨by omega, within⟩⟩
  else if inYear : date.month + 1 ≤ 12 then
    firstOf date.year (date.month + 1) ⟨by omega, inYear⟩
  else
    firstOf (date.year + 1) 1 (by omega)

/-- The day before. -/
def previous (date : Day) : Day :=
  if within : 1 ≤ date.day - 1 then
    ⟨date.year, date.month, date.day - 1, date.monthExists,
      ⟨within, Nat.le_trans (Nat.sub_le _ _) date.dayExists.2⟩⟩
  else if inYear : 1 ≤ date.month - 1 then
    lastOf date.year (date.month - 1) ⟨inYear, Nat.le_trans (Nat.sub_le _ _) date.monthExists.2⟩
  else
    lastOf (date.year - 1) 12 (by omega)

/-- A number that orders days as the calendar does: months and days are bounded by the factors. -/
def rank (date : Day) : Int :=
  (date.year * 12 + (date.month - 1 : Int)) * 31 + (date.day - 1 : Int)

end Day

end Calendar
end MuseumRecord
