import MuseumRecord.Calendar.Day

/-!
# Moments

A moment is a day and a time of that day, to the nanosecond.  A leap second is the second before it
with a billion nanoseconds more.
-/

namespace MuseumRecord
namespace Calendar

/-- Seconds of a day. -/
def secondsPerDay : Nat := 86400

/-- Nanoseconds of a second. -/
def nanosPerSecond : Nat := 1000000000

/-- A point in time without a zone. -/
structure Moment where
  /-- The day. -/
  day : Day
  /-- Seconds since midnight. -/
  second : Nat
  /-- Nanoseconds since the second, twice as many in a leap second. -/
  nano : Nat
  /-- The second lies in the day. -/
  secondBound : second < secondsPerDay
  /-- The nanosecond lies in the second or in the leap second that follows it. -/
  nanoBound : nano < 2 * nanosPerSecond
deriving DecidableEq, Repr

namespace Moment

/-- The start of a day. -/
def midnight (day : Day) : Moment :=
  ⟨day, 0, 0, by decide, by decide⟩

/-- The moment at a time of day, if there is one.  Second sixty is a leap second after any
minute. -/
def ofClock? (day : Day) (hour minute second nano : Nat) : Option Moment :=
  if bounds : hour < 24 ∧ minute < 60 ∧ nano < nanosPerSecond then
    if inMinute : second < 60 then
      some ⟨day, hour * 3600 + minute * 60 + second, nano,
        by simp only [secondsPerDay]; omega, by omega⟩
    else if second = 60 then
      some ⟨day, hour * 3600 + minute * 60 + 59, nano + nanosPerSecond,
        by simp only [secondsPerDay]; omega, by omega⟩
    else
      none
  else
    none

/-- Whether the moment is the start of its day. -/
def isMidnight (moment : Moment) : Bool :=
  moment.second == 0 && moment.nano == 0

/-- The hour of the day. -/
def hour (moment : Moment) : Nat :=
  moment.second / 3600

/-- The minute of the hour. -/
def minute (moment : Moment) : Nat :=
  moment.second / 60 % 60

/-- The second of the minute as a clock shows it, sixty in a leap second. -/
def clockSecond (moment : Moment) : Nat :=
  moment.second % 60 + moment.nano / nanosPerSecond

/-- A number that orders moments by day, second and nanosecond: each part is bounded by the factor
that follows it. -/
def rank (moment : Moment) : Int :=
  (moment.day.rank * secondsPerDay + moment.second) * (2 * nanosPerSecond) + moment.nano

instance : LE Moment := ⟨fun earlier later => earlier.rank ≤ later.rank⟩

instance : LT Moment := ⟨fun earlier later => earlier.rank < later.rank⟩

instance (earlier later : Moment) : Decidable (earlier ≤ later) :=
  inferInstanceAs (Decidable (earlier.rank ≤ later.rank))

instance (earlier later : Moment) : Decidable (earlier < later) :=
  inferInstanceAs (Decidable (earlier.rank < later.rank))

theorem second_remainder_lt (seconds : Int) : (seconds % secondsPerDay).toNat < secondsPerDay := by
  simp only [secondsPerDay]
  omega

/-- The moment at the prime meridian when a clock that runs `offset` seconds ahead of it shows this
moment.  The offset is shorter than a day. -/
def universal (moment : Moment) (offset : Int) : Moment :=
  let seconds := (moment.second : Int) - offset
  let day :=
    if seconds < 0 then moment.day.previous
    else if (secondsPerDay : Int) ≤ seconds then moment.day.next
    else moment.day
  ⟨day, (seconds % secondsPerDay).toNat, moment.nano, second_remainder_lt seconds,
    moment.nanoBound⟩

end Moment

end Calendar
end MuseumRecord
