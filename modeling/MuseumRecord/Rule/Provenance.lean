import MuseumRecord.Calendar.Written
import MuseumRecord.Exhibit
import MuseumRecord.Number.FixedPoint
import MuseumRecord.Rule.Violation

/-!
# Provenance

An acquisition lies in the past and has a price of zero or more; exhibitions start before they end.
-/

namespace MuseumRecord
namespace Rule

open Number

/-- A day of acquisition that cannot be read or is yet to come. -/
def acquisitionDateViolation (now : Calendar.Moment) (date : String) : Option Violation :=
  match Calendar.written? date.toList with
  | none => some (.badAcquisitionDate date)
  | some moment => if now < moment then some (.futureAcquisition date) else none

/-- A decimal literal of zero or more, between blanks. -/
def isPrice (price : String) : Bool :=
  match Literal.read? (Text.trim price.toList) with
  | some literal =>
    literal.exponent.isNone &&
      (FixedPoint.ofLiteral? literal).any FixedPoint.isNonNegative
  | none => false

/-- A price that is none. -/
def priceViolation (price : String) : Option Violation :=
  if isPrice price then none else some (.badPrice price)

/-- The first violation of an acquisition. -/
def acquisitionViolation (now : Calendar.Moment) (acquisition : Acquisition) :
    Option Violation :=
  acquisition.date.bind (acquisitionDateViolation now) <|>
  acquisition.price.bind priceViolation

/-- An exhibition that does not start before it ends, when both days can be read. -/
def exhibitionViolation (number : Nat) (exhibition : Exhibition) : Option Violation :=
  match exhibition.startDate, exhibition.endDate with
  | some start, some finish =>
    match Calendar.written? start.toList, Calendar.written? finish.toList with
    | some first, some last =>
      if first < last then none else some (.exhibitionOrder number start finish)
    | _, _ => none
  | _, _ => none

/-- The first violation of exhibitions that are numbered from `number` on. -/
def exhibitionsViolation (number : Nat) : List Exhibition → Option Violation
  | [] => none
  | exhibition :: rest =>
    exhibitionViolation number exhibition <|> exhibitionsViolation (number + 1) rest

/-- The first violation of the group of history. -/
def historyViolation (now : Calendar.Moment) (exhibit : Exhibit) : Option Violation :=
  exhibit.history.bind fun history =>
    history.acquisition.bind (acquisitionViolation now) <|>
    exhibitionsViolation 1 history.exhibitions

end Rule
end MuseumRecord
