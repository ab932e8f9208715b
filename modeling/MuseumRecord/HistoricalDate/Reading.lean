import MuseumRecord.HistoricalDate.Basic
import MuseumRecord.HistoricalDate.Dash

/-!
# Reading a date expression

An expression is first divided at a separator into the two ends of a range, each read in the same
way.  An expression without a division is a year with an era marker, a bare year or a calendar date.
-/

namespace MuseumRecord
namespace HistoricalDate

open Text

/-- The marker of a year before the common era. -/
def beforeCommonMarker : List Char := "p.n.e.".toList

/-- The marker of a year of the common era.  It is the end of the other marker, which is therefore
looked for first. -/
def commonMarker : List Char := "n.e.".toList

/-- The separators of a range, in the order they are tried. -/
def separators : List (List Char) :=
  [" - ".toList, " – ".toList, " — ".toList, "-".toList]

/-- An expression, undivided or divided into the ends of a range. -/
inductive Expression where
  | single (text : List Char)
  | range (start finish : List Char)
deriving DecidableEq, Repr

/-- The two non-empty pieces that a separator leaves, if it leaves exactly two. -/
def divide? (text separator : List Char) : Option (List Char × List Char) :=
  match (pieces separator text).filter fun piece => !piece.isEmpty with
  | [start, finish] => some (start, finish)
  | _ => none

/-- Divide an expression at the first separator that leaves exactly two non-empty pieces. -/
def Expression.split (text : List Char) : Expression :=
  match separators.findSome? (divide? text) with
  | some (start, finish) => .range start finish
  | none => .single text

/-- The number of a marked year. -/
def readYear (text : List Char) : Except DateError Int :=
  match Number.integer32? (trim text) with
  | some number => .ok number
  | none => .error (.notAYear (String.ofList (trim text)))

/-- A year of the common era lies between year one and the current year. -/
def commonYear (now : Calendar.Moment) (year : Int) (explicit : Bool) :
    Except DateError HistoricalDate :=
  if 1 ≤ year ∧ year ≤ now.day.year then
    .ok (.year year.toNat .common explicit)
  else
    .error (.yearOutOfRange year now.day.year)

/-- A year before the common era is positive. -/
def yearBefore (year : Int) : Except DateError HistoricalDate :=
  if 0 < year then .ok (.year year.toNat .beforeCommon true) else .error (.nonPositiveYear year)

/-- A calendar date is not later than the current moment. -/
def readCalendar (now : Calendar.Moment) (text : List Char) : Except DateError HistoricalDate :=
  match Calendar.written? text with
  | some moment =>
    if moment ≤ now then .ok (.calendar moment) else .error (.future (String.ofList text))
  | none => .error (.unrecognised (String.ofList text))

/-- Read an undivided expression. -/
def readSingle (now : Calendar.Moment) (text : List Char) : Except DateError HistoricalDate :=
  if contains beforeCommonMarker text then
    match readYear (without beforeCommonMarker text) with
    | .ok number => yearBefore number
    | .error cause => .error cause
  else if contains commonMarker text then
    match readYear (without commonMarker text) with
    | .ok number => commonYear now number true
    | .error cause => .error cause
  else
    match Number.integer32? text with
    | some number => commonYear now number false
    | none => readCalendar now text

/-- An expression without surrounding blanks, in lower case. -/
def normalise (text : List Char) : List Char :=
  lower (trim text)

theorem dashCount_normalise_le (text : List Char) :
    dashCount (normalise text) ≤ dashCount text :=
  Nat.le_trans (dashCount_lower_le _) (dashCount_trim_le _)

theorem dashCount_pos_of_mem_separators {separator : List Char}
    (member : separator ∈ separators) : 0 < dashCount separator := by
  have all : ∀ separator ∈ separators, 0 < dashCount separator := by decide
  exact all separator member

/-- Each end of a range holds fewer dashes than the expression. -/
theorem dashCount_lt_of_split {text start finish : List Char}
    (divided : Expression.split text = .range start finish) :
    dashCount start < dashCount text ∧ dashCount finish < dashCount text := by
  unfold Expression.split at divided
  split at divided
  · next found =>
    cases divided
    obtain ⟨separator, member, division⟩ := List.exists_of_findSome?_eq_some found
    unfold divide? at division
    split at division
    · next kept =>
      cases division
      have startMember : start ∈ pieces separator text :=
        (List.mem_filter.mp (kept ▸ List.mem_cons_self)).1
      have finishMember : finish ∈ pieces separator text :=
        (List.mem_filter.mp (kept ▸ List.mem_cons_of_mem _ List.mem_cons_self)).1
      have contained : contains separator text = true := by
        unfold contains
        cases found : cut separator text with
        | some _ => rfl
        | none =>
          rw [pieces, found] at kept
          simp only [List.filter_cons] at kept
          split at kept <;> simp at kept
      have dashed := dashCount_pos_of_mem_separators member
      exact ⟨dashCount_lt_of_mem_pieces dashed contained startMember,
        dashCount_lt_of_mem_pieces dashed contained finishMember⟩
    · cases division
  · cases divided

/-- Read a date expression relative to the current moment. -/
def read (now : Calendar.Moment) (text : List Char) : Except DateError HistoricalDate :=
  if (normalise text).isEmpty then
    .error .empty
  else
    match _divided : Expression.split (normalise text) with
    | .single single => readSingle now single
    | .range start finish =>
      match read now start with
      | .error cause => .error cause
      | .ok first =>
        match read now finish with
        | .error cause => .error cause
        | .ok last => .ok (.range first last)
termination_by dashCount text
decreasing_by
  · exact Nat.lt_of_lt_of_le (dashCount_lt_of_split _divided).1 (dashCount_normalise_le text)
  · exact Nat.lt_of_lt_of_le (dashCount_lt_of_split _divided).2 (dashCount_normalise_le text)

/-- Read a date expression given as a string. -/
def parse (now : Calendar.Moment) (text : String) : Except DateError HistoricalDate :=
  read now text.toList

end HistoricalDate
end MuseumRecord
