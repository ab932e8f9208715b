import MuseumRecord.Proofs.Calendar.Layout
import MuseumRecord.Proofs.Calendar.LetterCase

/-!
# Overlapping layouts

Layouts overlap: a day may lead or a year, and numbers are read with fewer digits than they are
written in.  Whether one layout misses what another writes is decided item by item, and of the
layouts that are tried before another all but two miss it.
-/

namespace MuseumRecord
namespace Calendar

open Number

/-! ## Layouts that miss each other -/

/-- An item at which a row of digits ends. -/
def LayoutItem.parts : LayoutItem → Bool
  | .mark character => !isDigit character
  | .gap => true
  | _ => false

/-- The second layout cannot read what the first has written: going along both, a mark is asked for
where another character or a digit too many stands or where the text has ended, or a number where a
name begins. -/
def Layout.misses : Layout → Layout → Bool
  | .number field :: written, .number other :: sought =>
    if other.width < field.width then
      sought.head?.any fun item => item.parts && item != .gap
    else
      (field.width == other.width || written.head?.any LayoutItem.parts) &&
        Layout.misses written sought
  | .mark mark :: written, .mark other :: sought => mark != other || Layout.misses written sought
  | .gap :: _, .mark other :: _ => other != ' '
  | .gap :: item :: written, .gap :: sought =>
    item.isSolid && Layout.misses (item :: written) sought
  | .monthName _ :: _, .number _ :: _ => true
  | [], .mark _ :: _ => true
  | [], .gap :: .number _ :: _ => true
  | _, _ => false

section Misses

variable {moment : Moment}

/-- What parts numbers is written without a digit in front. -/
theorem LayoutItem.exists_write_of_parts (moment : Moment) {item : LayoutItem}
    (parts : item.parts = true) :
    ∃ next, item.write moment = [next] ∧ isDigit next = false := by
  cases item with
  | mark mark => exact ⟨mark, rfl, Bool.eq_false_of_not_eq_true' parts⟩
  | gap => exact ⟨' ', rfl, rfl⟩
  | number field => cases parts
  | monthName full => cases parts

theorem Field.read?_of_letter {head : Char} (unblank : Text.isBlank head = false)
    (undigit : isDigit head = false) (notMinus : head ≠ '-') (notPlus : head ≠ '+')
    (reading : Reading) (rest : List Char) (field : Field) :
    field.read? reading (head :: rest) = none := by
  have start : Text.trimStart (head :: rest) = head :: rest :=
    List.dropWhile_cons_of_neg (by simp [unblank])
  have rowless (most : Nat) : leadingDigits? most (head :: rest) = none := by
    cases most <;> simp [leadingDigits?, undigit]
  cases field <;> simp [Field.read?, start, readYear?_of_unsigned notMinus notPlus, rowless]

/-- A number that takes fewer digits than are written leaves a digit where a mark is asked for. -/
theorem Layout.read?_eq_none_of_longer (fourDigits : moment.day.HasFourDigits)
    {field other : Field} (longer : other.width < field.width) {mark : Char}
    (undigit : isDigit mark = false) (sought : Layout) (reading : Reading) (rest : List Char) :
    Layout.read? (.number other :: .mark mark :: sought) reading
      ((LayoutItem.number field).write moment ++ rest) = none := by
  obtain ⟨row, shape, digits, length, _⟩ := field.exists_row fourDigits
  have split := List.take_append_drop other.width row
  have front := all_isDigit_take digits other.width
  have frontLength : (row.take other.width).length = other.width := by
    rw [List.length_take, length]
    omega
  obtain ⟨next, left, behind⟩ : ∃ next left, row.drop other.width = next :: left := by
    refine List.exists_cons_of_ne_nil fun nothing => ?_
    have short := List.drop_eq_nil_iff.mp nothing
    omega
  have digit : isDigit next = true :=
    List.all_eq_true.mp digits next (List.mem_of_mem_drop (behind ▸ List.mem_cons_self))
  rw [shape, ← split, List.append_assoc, Layout.read?, LayoutItem.read?,
    Field.read?_row front frontLength, behind]
  simp only [Layout.read?, LayoutItem.read?, List.cons_append,
    if_neg (ne_of_isDigit digit undigit)]

/-- A number takes all the digits that are written where it takes as many, or where something parts
them from what is behind. -/
theorem Field.exists_read?_write (fourDigits : moment.day.HasFourDigits) {field other : Field}
    (room : field.width ≤ other.width) {written : Layout}
    (parted : field.width = other.width ∨ written.head?.any LayoutItem.parts = true)
    (reading : Reading) :
    ∃ found, other.read? reading ((LayoutItem.number field).write moment ++ written.write moment) =
      some (found, written.write moment) := by
  obtain ⟨row, shape, digits, length, _⟩ := field.exists_row fourDigits
  refine ⟨other.set reading (ofDigits row), ?_⟩
  rw [shape]
  rcases parted with same | parted
  · exact Field.read?_row digits (length.trans same) reading _
  · cases written with
    | nil => cases parted
    | cons item written =>
      obtain ⟨next, single, undigit⟩ := LayoutItem.exists_write_of_parts moment parted
      have filled : row ≠ [] := by
        rw [← List.length_pos_iff, length]
        exact field.width_pos
      rw [Layout.write_cons, single]
      refine Field.read?_of_ends digits filled (by omega) (.inr ?_) reading
      rintro character head
      cases head
      exact undigit

/-- A layout that misses another reads nothing of what that has written.  The induction goes along
both layouts, whatever was read of the text in front. -/
theorem Layout.read?_eq_none_of_misses (fourDigits : moment.day.HasFourDigits)
    {written sought : Layout} (misses : written.misses sought = true) (reading : Reading) :
    Layout.read? sought reading (written.write moment) = none := by
  fun_induction Layout.misses written sought generalizing reading with
  | case1 field written other sought longer =>
    cases sought with
    | nil => cases misses
    | cons item sought =>
      cases item with
      | mark mark =>
        have misses : (!isDigit mark && LayoutItem.mark mark != .gap) = true := misses
        have undigit := Bool.eq_false_of_not_eq_true' (Bool.and_eq_true_iff.mp misses).1
        exact read?_eq_none_of_longer fourDigits longer undigit sought reading _
      | number field => cases misses
      | monthName full => cases misses
      | gap => cases misses
  | case2 field written other sought fits inductionHypothesis =>
    rw [Bool.and_eq_true, Bool.or_eq_true, beq_iff_eq] at misses
    obtain ⟨found, taken⟩ :=
      Field.exists_read?_write fourDigits (Nat.not_lt.mp fits) misses.1 reading
    rw [write_cons, Layout.read?, LayoutItem.read?, taken]
    exact inductionHypothesis misses.2 _
  | case3 mark written other sought inductionHypothesis =>
    change Layout.read? (.mark other :: sought) reading (mark :: Layout.write written moment) = none
    by_cases same : mark = other
    · rw [Layout.read?, LayoutItem.read?, if_pos same]
      refine inductionHypothesis ?_ reading
      simpa [same] using misses
    · simp only [Layout.read?, LayoutItem.read?, if_neg same]
  | case4 written other sought =>
    have different : ' ' ≠ other := (bne_iff_ne.mp misses).symm
    change Layout.read? (.mark other :: sought) reading (' ' :: Layout.write written moment) = none
    simp only [Layout.read?, LayoutItem.read?, if_neg different]
  | case5 item written sought inductionHypothesis =>
    rw [Bool.and_eq_true] at misses
    have leading := LayoutItem.trimStart_write fourDigits misses.1 (Layout.write written moment)
    have behind : Text.trimStart (' ' :: Layout.write (item :: written) moment) =
        Layout.write (item :: written) moment := leading
    change Layout.read? (.gap :: sought) reading
      (' ' :: Layout.write (item :: written) moment) = none
    rw [Layout.read?, LayoutItem.read?, behind]
    exact inductionHypothesis misses.2 reading
  | case6 full written field sought =>
    obtain ⟨first, tail, shape, unblank, undigit, notMinus, notPlus⟩ :=
      LayoutItem.exists_letter moment full
    rw [write_cons, shape, List.cons_append, Layout.read?, LayoutItem.read?,
      Field.read?_of_letter unblank undigit notMinus notPlus]
  | case7 mark sought => rfl
  | case8 field sought => cases field <;> rfl
  | case9 => cases misses

theorem Layout.moment?_eq_none_of_misses (fourDigits : moment.day.HasFourDigits)
    {written sought : Layout} (misses : written.misses sought = true) :
    sought.moment? (written.write moment) = none := by
  rw [Layout.moment?, Layout.read?_eq_none_of_misses fourDigits misses]

theorem Layout.day?_eq_none_of_misses (fourDigits : moment.day.HasFourDigits)
    {written sought : Layout} (misses : written.misses sought = true) :
    sought.day? (written.write moment) = none := by
  rw [Layout.day?, Layout.read?_eq_none_of_misses fourDigits misses]

end Misses

/-! ## Layouts in order -/

section Order

/-- Day, name of the month and year. -/
def monthNamed (full : Bool) : Layout :=
  [.number .day, .gap, .monthName full, .gap, .number .year]

/-- Of the layouts of a date with a time of day, none reads what a later one writes. -/
theorem momentLayouts_miss :
    momentLayouts.Pairwise fun earlier later => later.misses earlier = true := by
  decide

/-- No layout of a date with a time of day reads a date alone. -/
theorem dayLayouts_miss_moments :
    ∀ layout ∈ dayLayouts, ∀ other ∈ momentLayouts, layout.misses other = true := by
  decide

/-- Of the layouts of a date, two may read what a later one writes. -/
theorem dayLayouts_miss :
    dayLayouts.Pairwise fun earlier later => later.misses earlier = true ∨
      (earlier = yearFirst '/' ∧ later = dayFirst '/') ∨
      (earlier = monthNamed true ∧ later = monthNamed false) := by
  decide

/-- The layout of answers reads only what begins with it. -/
theorem layouts_miss_isoDay :
    ∀ layout ∈ momentLayouts ++ dayLayouts, layout.misses isoDay = true ∨ layout = isoDay ∨
      layout ∈ [isoDay ++ [.mark 'T'] ++ clockSeconds, isoDay ++ [.mark 't'] ++ clockSeconds,
        isoDay ++ [.gap] ++ clockSeconds] := by
  decide

end Order

end Calendar
end MuseumRecord
