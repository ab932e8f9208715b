import MuseumRecord.HistoricalDate.Reading

/-!
# Dates as time passes

The clock bounds a date from above only, by its year or by its moment.  A date that is accepted is
therefore accepted at every later moment, and as the same date.
-/

namespace MuseumRecord

namespace Calendar

theorem monthLength_le (year : Int) (month : Nat) : monthLength year month ≤ 31 := by
  unfold monthLength
  split <;> split <;> omega

namespace Moment

variable {first second third : Moment}

theorem le_trans (before : first ≤ second) (behind : second ≤ third) : first ≤ third :=
  Int.le_trans before behind

theorem lt_of_le_of_lt (before : first ≤ second) (behind : second < third) : first < third :=
  Int.lt_of_le_of_lt before behind

/-- Moments are ordered by their years before all else. -/
theorem year_le (passed : first ≤ second) : first.day.year ≤ second.day.year := by
  have ranks : first.rank ≤ second.rank := passed
  have firstDay := first.day.dayExists
  have secondDay := second.day.dayExists
  have firstLength := monthLength_le first.day.year first.day.month
  have secondLength := monthLength_le second.day.year second.day.month
  have firstMonth := first.day.monthExists
  have secondMonth := second.day.monthExists
  have firstSecond := first.secondBound
  have secondSecond := second.secondBound
  have firstNano := first.nanoBound
  have secondNano := second.nanoBound
  simp only [rank, Day.rank, secondsPerDay, nanosPerSecond] at *
  omega

end Moment
end Calendar

namespace HistoricalDate

variable {now later : Calendar.Moment} {date : HistoricalDate}

theorem commonYear_later (passed : now ≤ later) {year : Int} {explicit : Bool}
    (accepted : commonYear now year explicit = .ok date) :
    commonYear later year explicit = .ok date := by
  unfold commonYear at accepted ⊢
  split at accepted
  · next bounds =>
    rw [if_pos ⟨bounds.1, Int.le_trans bounds.2 (Calendar.Moment.year_le passed)⟩]
    exact accepted
  · cases accepted

theorem readCalendar_later (passed : now ≤ later) {text : List Char}
    (accepted : readCalendar now text = .ok date) : readCalendar later text = .ok date := by
  unfold readCalendar at accepted ⊢
  split at accepted
  · next moment _ =>
    split at accepted
    · next past =>
      rw [if_pos (Calendar.Moment.le_trans past passed)]
      exact accepted
    · cases accepted
  · cases accepted

/-- An undivided expression is read as a year of the era whose marker it holds, as a bare year or, if
it is no number, as a calendar date. -/
theorem readSingle_eq_ok_iff {text : List Char} :
    readSingle now text = .ok date ↔
      (Text.contains beforeCommonMarker text = true ∧
        ∃ number, readYear (Text.without beforeCommonMarker text) = .ok number ∧
          yearBefore number = .ok date) ∨
      (Text.contains beforeCommonMarker text = false ∧ Text.contains commonMarker text = true ∧
        ∃ number, readYear (Text.without commonMarker text) = .ok number ∧
          commonYear now number true = .ok date) ∨
      (Text.contains beforeCommonMarker text = false ∧ Text.contains commonMarker text = false ∧
        ∃ number, Number.integer32? text = some number ∧ commonYear now number false = .ok date) ∨
      (Text.contains beforeCommonMarker text = false ∧ Text.contains commonMarker text = false ∧
        Number.integer32? text = none ∧ readCalendar now text = .ok date) := by
  unfold readSingle
  cases Text.contains beforeCommonMarker text with
  | true => cases readYear (Text.without beforeCommonMarker text) <;> simp
  | false =>
    cases Text.contains commonMarker text with
    | true => cases readYear (Text.without commonMarker text) <;> simp
    | false => cases Number.integer32? text <;> simp

/-- Each kind of undivided expression compares with the clock in its own way: a marked or bare year
of the common era by its number, a calendar date by its moment, an earlier year not at all. -/
theorem readSingle_later (passed : now ≤ later) {text : List Char}
    (accepted : readSingle now text = .ok date) : readSingle later text = .ok date := by
  apply readSingle_eq_ok_iff.mpr
  rcases readSingle_eq_ok_iff.mp accepted with before | common | bare | calendar
  · exact .inl before
  · obtain ⟨unmarked, marked, number, read, within⟩ := common
    exact .inr (.inl ⟨unmarked, marked, number, read, commonYear_later passed within⟩)
  · obtain ⟨unmarked, uncommon, number, read, within⟩ := bare
    exact .inr (.inr (.inl ⟨unmarked, uncommon, number, read, commonYear_later passed within⟩))
  · obtain ⟨unmarked, uncommon, noNumber, past⟩ := calendar
    exact .inr (.inr (.inr ⟨unmarked, uncommon, noNumber, readCalendar_later passed past⟩))

theorem read_of_single {text single : List Char} (content : ¬ (normalise text).isEmpty = true)
    (divided : Expression.split (normalise text) = .single single) :
    read now text = readSingle now single := by
  rw [read, if_neg content]
  split
  · next other same =>
    rw [divided] at same
    cases same
    rfl
  · next same =>
    rw [divided] at same
    cases same

theorem read_of_range {text start finish : List Char} {first last : HistoricalDate}
    (content : ¬ (normalise text).isEmpty = true)
    (divided : Expression.split (normalise text) = .range start finish)
    (readStart : read now start = .ok first) (readFinish : read now finish = .ok last) :
    read now text = .ok (.range first last) := by
  rw [read, if_neg content]
  split
  · next same =>
    rw [divided] at same
    cases same
  · next same =>
    rw [divided] at same
    cases same
    simp only [readStart, readFinish]

/-- An accepted expression is accepted later, as the same date.  The induction is on the nested
ranges of the expression, each end of which is read at the same moment. -/
theorem read_later (passed : now ≤ later) {text : List Char}
    (accepted : read now text = .ok date) : read later text = .ok date := by
  fun_induction read now text generalizing date with
  | case1 text empty => cases accepted
  | case2 text content single divided =>
    rw [read_of_single content divided]
    exact readSingle_later passed accepted
  | case3 text content start finish divided cause failed => cases accepted
  | case4 text content start finish divided first readStart cause failed => cases accepted
  | case5 text content start finish divided first readStart last readFinish startHypothesis
      finishHypothesis =>
    rw [read_of_range content divided (startHypothesis readStart) (finishHypothesis readFinish)]
    exact accepted

end HistoricalDate
end MuseumRecord
