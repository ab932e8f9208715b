import MuseumRecord.Calendar.Timestamp

/-!
# Written dates

The layouts in which a date or a date with a time of day may be written, and the moment such a text
denotes.  A date alone denotes its midnight.
-/

namespace MuseumRecord
namespace Calendar

/-- Year, month and day with a mark between them. -/
def yearFirst (mark : Char) : Layout :=
  [.number .year, .mark mark, .number .month, .mark mark, .number .day]

/-- Day, month and year with a mark between them. -/
def dayFirst (mark : Char) : Layout :=
  [.number .day, .mark mark, .number .month, .mark mark, .number .year]

/-- Hour and minute. -/
def clockMinutes : Layout :=
  [.number .hour, .mark ':', .number .minute]

/-- Hour, minute and second. -/
def clockSeconds : Layout :=
  clockMinutes ++ [.mark ':', .number .second]

/-- The layout of a day in answers. -/
def isoDay : Layout := yearFirst '-'

/-- The layout of a day with its time in answers. -/
def isoMoment : Layout := isoDay ++ [.gap] ++ clockSeconds

/-- The layouts of a date with a time of day, in the order they are tried. -/
def momentLayouts : List Layout :=
  [isoDay ++ [.mark 'T'] ++ clockSeconds,
    isoDay ++ [.mark 't'] ++ clockSeconds,
    isoDay ++ [.gap] ++ clockSeconds,
    dayFirst '.' ++ [.gap] ++ clockSeconds,
    dayFirst '.' ++ [.gap] ++ clockMinutes,
    dayFirst '/' ++ [.gap] ++ clockSeconds,
    dayFirst '/' ++ [.gap] ++ clockMinutes]

/-- The layouts of a date, in the order they are tried. -/
def dayLayouts : List Layout :=
  [isoDay,
    yearFirst '/',
    dayFirst '.',
    dayFirst '/',
    [.number .day, .gap, .monthName true, .gap, .number .year],
    [.number .day, .gap, .monthName false, .gap, .number .year],
    [.monthName true, .gap, .number .day, .mark ',', .gap, .number .year]]

/-- The day written in front of a zone.  The zone is a single letter or whatever completes the
day's midnight to a timestamp; the day is kept as it was written. -/
def zonedDay? (text : List Char) : Option Day :=
  match Layout.read? isoDay {} text with
  | none => none
  | some (reading, zone) =>
    match reading.day? with
    | none => none
    | some day =>
      if zone = ['Z'] ∨ zone = ['z'] then
        some day
      else if zone.isEmpty then
        none
      else
        (Timestamp.read? (isoDay.write (Moment.midnight day) ++ "T00:00:00".toList ++ zone)).map
          fun _ => day

/-- The moment that a text denotes, blanks around it aside. -/
def written? (text : List Char) : Option Moment :=
  let text := Text.trim text
  Timestamp.read? text <|>
    (zonedDay? text).map Moment.midnight <|>
    momentLayouts.findSome? (fun layout => layout.moment? text) <|>
    (dayLayouts.findSome? fun layout => layout.day? text).map Moment.midnight

/-- The text of a day in answers. -/
def dayText (moment : Moment) : String :=
  String.ofList (isoDay.write moment)

/-- The fraction of a second: none, or as many groups of three digits as it needs. -/
def fractionText (moment : Moment) : List Char :=
  let nano := moment.nano % nanosPerSecond
  if nano = 0 then []
  else if nano % 1000000 = 0 then '.' :: Number.padded 3 (nano / 1000000)
  else if nano % 1000 = 0 then '.' :: Number.padded 6 (nano / 1000)
  else '.' :: Number.padded 9 nano

/-- The timestamp of a moment at the prime meridian. -/
def timestampText (moment : Moment) : String :=
  String.ofList
    (Layout.write (isoDay ++ [.mark 'T'] ++ clockSeconds) moment ++ fractionText moment ++ ['Z'])

/-- The text of a day with its time in answers. -/
def momentText (moment : Moment) : String :=
  String.ofList (isoMoment.write moment)

end Calendar
end MuseumRecord
