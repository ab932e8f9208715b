import Mathlib.Data.List.Basic
import MuseumRecord.Proofs.HistoricalDate.Passing

/-!
# Accepted dates lie in the past

Every year and every calendar date inside an accepted expression is bounded by the clock or, before
the common era, by the size of a number.  There is no year zero in either era.
-/

namespace MuseumRecord

/-- A number of 32 bits lies between the least and the greatest of them. -/
theorem Number.bounds_of_integer32? {text : List Char} {number : Int}
    (read : integer32? text = some number) : -2147483648 ≤ number ∧ number ≤ 2147483647 := by
  obtain ⟨_, within⟩ := Option.filter_eq_some_iff.mp read
  simpa using within

namespace HistoricalDate

/-- The years and calendar dates of a date, whatever ranges they stand in, in written order. -/
def leaves : HistoricalDate → List HistoricalDate
  | .year number era explicit => [.year number era explicit]
  | .calendar moment => [.calendar moment]
  | .range start finish => start.leaves ++ finish.leaves

/-- A year before the common era is positive, a number of 32 bits, and has its era written out; a
year of the common era lies between year one and the current year; a calendar date is not later than
now.  A range is neither. -/
def IsPastLeaf (now : Calendar.Moment) : HistoricalDate → Prop
  | .year number .beforeCommon explicit => 1 ≤ number ∧ number ≤ 2147483647 ∧ explicit = true
  | .year number .common _ => 1 ≤ number ∧ (number : Int) ≤ now.day.year
  | .calendar moment => moment ≤ now
  | .range _ _ => False

/-- All leaves of a date lie in the past. -/
def LiesInPast (now : Calendar.Moment) (date : HistoricalDate) : Prop :=
  ∀ leaf ∈ date.leaves, leaf.IsPastLeaf now

section Leaves

variable {now : Calendar.Moment} {date start finish : HistoricalDate}

theorem liesInPast_year_iff {number : Nat} {era : Era} {explicit : Bool} :
    (HistoricalDate.year number era explicit).LiesInPast now ↔
      (HistoricalDate.year number era explicit).IsPastLeaf now :=
  List.forall_mem_singleton

theorem liesInPast_calendar_iff {moment : Calendar.Moment} :
    (HistoricalDate.calendar moment).LiesInPast now ↔ moment ≤ now :=
  List.forall_mem_singleton

theorem liesInPast_range_iff :
    (HistoricalDate.range start finish).LiesInPast now ↔
      start.LiesInPast now ∧ finish.LiesInPast now :=
  List.forall_mem_append

/-! ### Undivided expressions -/

theorem yearBefore_liesInPast {year : Int} (small : year ≤ 2147483647)
    (accepted : yearBefore year = .ok date) : date.LiesInPast now := by
  unfold yearBefore at accepted
  split at accepted
  · next positive =>
    cases accepted
    apply liesInPast_year_iff.mpr
    refine ⟨?_, ?_, rfl⟩
    · omega
    · omega
  · cases accepted

theorem commonYear_liesInPast {year : Int} {explicit : Bool}
    (accepted : commonYear now year explicit = .ok date) : date.LiesInPast now := by
  unfold commonYear at accepted
  split at accepted
  · next bounds =>
    cases accepted
    apply liesInPast_year_iff.mpr
    refine ⟨?_, ?_⟩
    · omega
    · rw [Int.toNat_of_nonneg (Int.le_trans Int.one_nonneg bounds.1)]
      exact bounds.2
  · cases accepted

theorem readCalendar_liesInPast {text : List Char}
    (accepted : readCalendar now text = .ok date) : date.LiesInPast now := by
  unfold readCalendar at accepted
  split at accepted
  · split at accepted
    · next past =>
      cases accepted
      exact liesInPast_calendar_iff.mpr past
    · cases accepted
  · cases accepted

theorem readYear_le {text : List Char} {number : Int} (read : readYear text = .ok number) :
    number ≤ 2147483647 := by
  unfold readYear at read
  split at read
  · next found =>
    cases read
    exact (Number.bounds_of_integer32? found).2
  · cases read

/-- Each kind of undivided expression has its own guard. -/
theorem readSingle_liesInPast {text : List Char} (accepted : readSingle now text = .ok date) :
    date.LiesInPast now := by
  rcases readSingle_eq_ok_iff.mp accepted with before | common | bare | calendar
  · obtain ⟨_, number, read, positive⟩ := before
    exact yearBefore_liesInPast (readYear_le read) positive
  · obtain ⟨_, _, number, _, within⟩ := common
    exact commonYear_liesInPast within
  · obtain ⟨_, _, number, _, within⟩ := bare
    exact commonYear_liesInPast within
  · obtain ⟨_, _, _, past⟩ := calendar
    exact readCalendar_liesInPast past

/-! ### Ranges -/

/-- The induction is on the nested ranges of the expression, whose ends are read apart. -/
theorem read_liesInPast {text : List Char} (accepted : read now text = .ok date) :
    date.LiesInPast now := by
  fun_induction read now text generalizing date with
  | case1 text empty => cases accepted
  | case2 text content single divided => exact readSingle_liesInPast accepted
  | case3 text content start finish divided cause failed => cases accepted
  | case4 text content start finish divided first readStart cause failed => cases accepted
  | case5 text content start finish divided first readStart last readFinish startHypothesis
      finishHypothesis =>
    cases accepted
    apply liesInPast_range_iff.mpr
    exact ⟨startHypothesis readStart, finishHypothesis readFinish⟩

/-- No year of the common era lies in the past when there has been none. -/
theorem LiesInPast.ne_common (past : date.LiesInPast now) (early : now.day.year < 1)
    {number : Nat} {explicit : Bool} : .year number .common explicit ∉ date.leaves := by
  intro member
  obtain ⟨positive, passed⟩ := past _ member
  omega

end Leaves

/-- Nothing that is read lies in the future or in a year zero: every leaf of an accepted date lies in
the past, and before year one no year of the common era is accepted. -/
theorem parsed_dates_lie_in_past {now : Calendar.Moment} {text : String} {date : HistoricalDate}
    (accepted : parse now text = .ok date) :
    (∀ leaf ∈ date.leaves, leaf.IsPastLeaf now) ∧
      (now.day.year < 1 → ∀ number explicit,
        HistoricalDate.year number .common explicit ∉ date.leaves) := by
  have past : date.LiesInPast now := read_liesInPast accepted
  exact ⟨past, fun early _ _ => past.ne_common early⟩

/-- A range between the greatest year before the common era and a range up to the current day. -/
theorem nested_range_lies_in_past :
    parse (.midnight ⟨2024, 6, 1, by decide, by decide⟩)
        "2147483647 P.N.E. - 1350 n.e. – 01.06.2024" =
      .ok (.range (.year 2147483647 .beforeCommon true) (.range (.year 1350 .common true)
        (.calendar (.midnight ⟨2024, 6, 1, by decide, by decide⟩)))) ∧
      ∀ leaf ∈ [HistoricalDate.year 2147483647 .beforeCommon true, .year 1350 .common true,
          .calendar (.midnight ⟨2024, 6, 1, by decide, by decide⟩)],
        leaf.IsPastLeaf (.midnight ⟨2024, 6, 1, by decide, by decide⟩) := by
  have accepted : parse (.midnight ⟨2024, 6, 1, by decide, by decide⟩)
        "2147483647 P.N.E. - 1350 n.e. – 01.06.2024" =
      .ok (.range (.year 2147483647 .beforeCommon true) (.range (.year 1350 .common true)
        (.calendar (.midnight ⟨2024, 6, 1, by decide, by decide⟩)))) := by
    decide +kernel
  exact ⟨accepted, (parsed_dates_lie_in_past accepted).1⟩

end HistoricalDate
end MuseumRecord
