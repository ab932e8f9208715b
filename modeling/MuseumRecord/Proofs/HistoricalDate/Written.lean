import MuseumRecord.Proofs.Calendar.Characters
import MuseumRecord.Proofs.HistoricalDate.Division

/-!
# Written calendar dates as expressions

What a layout writes is read as a calendar date in any case of its letters: no separator divides it,
it holds no marker of an era, and it is no number.
-/

namespace MuseumRecord
namespace HistoricalDate

open Calendar Number Text

variable {text : List Char}

/-! ## Normal forms -/

/-- Of a text that differs from another in the case of ASCII letters and in the blanks around it,
the normal form is the other in lower case. -/
theorem normalise_eq {other : List Char} (cased : HasAsciiCase other)
    (same : lowerAscii (trim text) = lowerAscii other) : normalise text = lowerAscii other := by
  rw [normalise, (cased.of_lowerAscii_eq same).lower_eq, same]

/-! ## Neither marked nor a number -/

theorem contains_eq_false_of_not_mem {mark : List Char} {character : Char} (held : character ∈ mark)
    (fresh : character ∉ text) : contains mark text = false := by
  rw [Bool.eq_false_iff, ne_eq, contains_iff]
  exact fun inside => fresh (inside.subset held)

/-- A marker holds a point and the letter in front of it. -/
theorem unmarked_of_not_mem (fresh : '.' ∉ text ∨ 'n' ∉ text) :
    contains beforeCommonMarker text = false ∧ contains commonMarker text = false := by
  rcases fresh with point | letter
  · exact ⟨contains_eq_false_of_not_mem (by decide) point,
      contains_eq_false_of_not_mem (by decide) point⟩
  · exact ⟨contains_eq_false_of_not_mem (by decide) letter,
      contains_eq_false_of_not_mem (by decide) letter⟩

theorem integer32?_eq_none {first other : Char} {rest : List Char} (member : other ∈ rest)
    (undigit : isDigit other = false) : integer32? (first :: rest) = none := by
  have mixed {row : List Char} (held : other ∈ row) : natural? row = none := by
    refine if_neg fun digits => ?_
    rw [Bool.and_eq_true, List.all_eq_true] at digits
    rw [digits.2 other held] at undigit
    cases undigit
  have numberless : integer? (first :: rest) = none := by
    unfold integer?
    split
    · next equal => rw [mixed ((List.cons.inj equal).2 ▸ member)]; rfl
    · next equal => rw [mixed ((List.cons.inj equal).2 ▸ member)]; rfl
    · rw [mixed (List.mem_cons_of_mem _ member)]
      rfl
  rw [integer32?, numberless]
  rfl

/-! ## Numbers and hyphens -/

/-- A hyphen behind digits does not stand behind a space. -/
theorem isCompact_row {row : List Char} (digits : row.all isDigit = true)
    (compact : IsCompact '-' text) : IsCompact '-' (row ++ '-' :: text) := by
  have hyphen : IsCompact '-' (['-'] ++ text) :=
    IsCompact.append_of_last (List.isChain_singleton _) compact (by simp)
  refine (isCompact_of_not_mem (not_mem_of_digits digits rfl)).append_of_last hyphen ?_
  rintro character last rfl
  cases List.all_eq_true.mp digits ' ' (List.mem_of_getLast? last)

section Written

variable {moment : Moment} {layout : Layout} (fourDigits : moment.day.HasFourDigits)
  (listed : layout ∈ momentLayouts ++ dayLayouts)

include fourDigits listed

theorem unmarked_write :
    contains beforeCommonMarker (lowerAscii (layout.write moment)) = false ∧
      contains commonMarker (lowerAscii (layout.write moment)) = false := by
  apply unmarked_of_not_mem
  by_cases point : '.' ∈ layout.write moment
  · have unlettered := not_isLetter_of_point fourDigits listed point
    refine .inr fun member => ?_
    rw [lowerAscii_eq_self unlettered] at member
    cases unlettered 'n' member
  · exact .inl (mt (mem_lowerAscii_iff rfl).mp point)

theorem integer32?_write : integer32? (lowerAscii (layout.write moment)) = none := by
  obtain ⟨first, rest, shape, other, member, undigit⟩ := exists_parted_write fourDigits listed
  rw [shape]
  exact integer32?_eq_none (List.mem_map_of_mem member) ((isDigit_asciiLetter other).trans undigit)

/-! ## Undivided -/

/-- Lower-casing a date in the layout of answers leaves its numbers and hyphens. -/
theorem exists_rows_of_hyphen (hyphen : .mark '-' ∈ layout) :
    ∃ year month day rest : List Char,
      lowerAscii (layout.write moment) = year ++ '-' :: (month ++ '-' :: (day ++ rest)) ∧
        year.all isDigit = true ∧ month.all isDigit = true ∧ day.all isDigit = true ∧
        year ≠ [] ∧ month ≠ [] ∧ day ≠ [] ∧ '-' ∉ rest := by
  obtain ⟨shape, restless⟩ :=
    (layouts_hyphen layout listed).resolve_left (not_not_intro hyphen)
  obtain ⟨year, yearShape, yearDigits, yearLength, _⟩ := Field.exists_row fourDigits .year
  obtain ⟨month, monthShape, monthDigits, monthLength, _⟩ := Field.exists_row fourDigits .month
  obtain ⟨day, dayShape, dayDigits, dayLength, _⟩ := Field.exists_row fourDigits .day
  have whole : layout.write moment = year ++ '-' :: (month ++ '-' :: (day ++
      Layout.write (layout.drop 5) moment)) := by
    rw [shape, Layout.write_append, ← yearShape, ← monthShape, ← dayShape]
    simp [isoDay, yearFirst, Layout.write, LayoutItem.write]
  have kept {row : List Char} (digits : row.all isDigit = true) : lowerAscii row = row :=
    lowerAscii_of_digits (List.all_eq_true.mp digits)
  have hyphenKept (row : List Char) : lowerAscii ('-' :: row) = '-' :: lowerAscii row := rfl
  refine ⟨year, month, day, lowerAscii (Layout.write (layout.drop 5) moment), ?_, yearDigits,
    monthDigits, dayDigits, List.ne_nil_of_length_pos (yearLength ▸ Field.width_pos .year),
    List.ne_nil_of_length_pos (monthLength ▸ Field.width_pos .month),
    List.ne_nil_of_length_pos (dayLength ▸ Field.width_pos .day), fun member => ?_⟩
  · simp only [whole, lowerAscii_append, hyphenKept, kept yearDigits, kept monthDigits,
      kept dayDigits]
  · exact restless (mark_mem_of_mem_write fourDigits rfl rfl (by decide)
      ((mem_lowerAscii_iff rfl).mp member))

/-- The only dashes of a written date are the hyphens of the layout of answers. -/
theorem eq_hyphen_of_mem_write {dash : Char} (dashed : isDash dash = true)
    (member : dash ∈ lowerAscii (layout.write moment)) : dash = '-' ∧ .mark '-' ∈ layout := by
  have written := (mem_lowerAscii_iff (isLetter_of_isDash dashed)).mp member
  obtain rfl := (isPlain_write fourDigits listed).eq_hyphen_of_isDash written dashed
  exact ⟨rfl, mark_mem_of_mem_write fourDigits rfl rfl (by decide) written⟩

/-- A written date holds no dash, or two hyphens behind digits. -/
theorem isCompact_write {dash : Char} (dashed : isDash dash = true) :
    IsCompact dash (lowerAscii (layout.write moment)) := by
  by_cases member : dash ∈ lowerAscii (layout.write moment)
  · obtain ⟨rfl, hyphen⟩ := eq_hyphen_of_mem_write fourDigits listed dashed member
    obtain ⟨year, month, day, rest, whole, yearDigits, monthDigits, dayDigits, _, _, _, restless⟩ :=
      exists_rows_of_hyphen fourDigits listed hyphen
    have dayFree : '-' ∉ day := not_mem_of_digits dayDigits rfl
    rw [whole]
    exact isCompact_row yearDigits (isCompact_row monthDigits (isCompact_of_not_mem (by
      simp [dayFree, restless])))
  · exact isCompact_of_not_mem member

/-- A written date is not divided, at no hyphen or at two. -/
theorem split_write :
    Expression.split (lowerAscii (layout.write moment)) =
      .single (lowerAscii (layout.write moment)) := by
  by_cases hyphen : .mark '-' ∈ layout
  · obtain ⟨year, month, day, rest, whole, yearDigits, monthDigits, dayDigits, yearFilled,
      monthFilled, dayFilled, restless⟩ := exists_rows_of_hyphen fourDigits listed hyphen
    have dayFree : '-' ∉ day := not_mem_of_digits dayDigits rfl
    have other {dash : Char} (dashed : isDash dash = true) (different : dash ≠ '-') :
        dash ∉ lowerAscii (layout.write moment) := fun member =>
      different (eq_hyphen_of_mem_write fourDigits listed dashed member).1
    exact split_of_hyphens (not_mem_of_digits yearDigits rfl) (not_mem_of_digits monthDigits rfl)
      (by simp [dayFree, restless]) yearFilled monthFilled (by simp [dayFilled]) whole
      (isCompact_write fourDigits listed rfl) (other rfl (by decide)) (other rfl (by decide))
  · refine split_of_undashed fun character member => ?_
    rw [Bool.eq_false_iff]
    exact fun dashed => hyphen (eq_hyphen_of_mem_write fourDigits listed dashed member).2

/-! ## Read -/

/-- A date in a listed layout, blanks around it aside, is read as the moment that the layout shows,
or as one of the future. -/
theorem read_write (whole : moment.IsWhole)
    (same : lowerAscii (trim text) = lowerAscii (layout.write moment)) (now : Moment) :
    read now text =
      if layout.shown moment ≤ now then .ok (.calendar (layout.shown moment))
      else .error (.future (String.ofList (lowerAscii (layout.write moment)))) := by
  have normal := normalise_eq (isPlain_write fourDigits listed).hasAsciiCase same
  obtain ⟨first, rest, shape, _⟩ := exists_parted_write fourDigits listed
  have content : ¬ (normalise text).isEmpty = true := by
    rw [normal, shape]
    exact Bool.false_ne_true
  have undivided := split_write fourDigits listed
  rw [← normal] at undivided
  rw [read_of_single content undivided, normal]
  obtain ⟨unmarked, uncommon⟩ := unmarked_write fourDigits listed
  simp only [readSingle, unmarked, uncommon, integer32?_write fourDigits listed, readCalendar,
    written?_lowerAscii, written?_write fourDigits whole listed, Bool.false_eq_true, if_false]

end Written

/-- Every moment with a year of four digits is read back from every listed layout, as far as the
layout shows it.  As an expression, in any case of its ASCII letters, the text is accepted as this
moment unless the moment lies in the future, which is then the cause of the rejection. -/
theorem calendar_layouts_read_back {moment : Moment} (fourDigits : moment.day.HasFourDigits)
    (whole : moment.IsWhole) {layout : Layout} (listed : layout ∈ momentLayouts ++ dayLayouts) :
    written? (layout.write moment) = some (layout.shown moment) ∧
      ∀ (now : Moment) (text : String),
        lowerAscii text.toList = lowerAscii (layout.write moment) →
          parse now text =
            if layout.shown moment ≤ now then .ok (.calendar (layout.shown moment))
            else .error (.future (String.ofList (lowerAscii (layout.write moment)))) := by
  refine ⟨written?_write fourDigits whole listed, fun now text same => ?_⟩
  refine read_write fourDigits listed whole ?_ now
  rw [← trim_lowerAscii, same, trim_lowerAscii, trim_write fourDigits listed]

/-- A leap day with the name of its month, written in capitals and read before and after it. -/
theorem capitalised_leap_day_read_back :
    written? "February 29, 2020".toList =
        some (.midnight ⟨2020, 2, 29, by decide, by decide⟩) ∧
      parse (.midnight ⟨2024, 6, 1, by decide, by decide⟩) "FEBRUARY 29, 2020" =
        .ok (.calendar (.midnight ⟨2020, 2, 29, by decide, by decide⟩)) ∧
      parse (.midnight ⟨2020, 2, 28, by decide, by decide⟩) "February 29, 2020" =
        .error (.future "february 29, 2020") := by
  have back := @calendar_layouts_read_back (.midnight ⟨2020, 2, 29, by decide, by decide⟩)
    ⟨by decide, by decide⟩ (.inl rfl)
    [.monthName true, .gap, .number .day, .mark ',', .gap, .number .year] (by decide)
  exact ⟨back.1, back.2 _ "FEBRUARY 29, 2020" (by decide), back.2 _ "February 29, 2020" (by decide)⟩

end HistoricalDate
end MuseumRecord
