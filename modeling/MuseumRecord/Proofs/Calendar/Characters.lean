import MuseumRecord.Proofs.Calendar.ReadBack

/-!
# Characters of a written date

What the listed layouts write consists of ASCII letters, digits and signs.  Hyphens stand in the
layout of answers alone, and points only where no letter stands.
-/

namespace MuseumRecord

open Text Number

/-! ## Plain texts -/

namespace Text

/-- A text of ASCII letters, digits, spaces and the signs in front of the letters. -/
def IsPlain (text : List Char) : Prop :=
  ∀ character ∈ text, isLetter character = true ∨
    (1 ≤ character.toNat ∧ character.toNat ≤ 0x40)

variable {text other : List Char}

theorem IsPlain.append (plain : IsPlain text) (plainOther : IsPlain other) :
    IsPlain (text ++ other) :=
  List.forall_mem_append.mpr ⟨plain, plainOther⟩

theorem IsPlain.hasAsciiCase (plain : IsPlain text) : HasAsciiCase text := fun character member =>
  (plain character member).imp_right fun bounds => isCaseless_of_code bounds.1 bounds.2

/-- The only dash of a plain text is the hyphen. -/
theorem IsPlain.eq_hyphen_of_isDash (plain : IsPlain text) {character : Char}
    (member : character ∈ text) (dash : HistoricalDate.isDash character = true) :
    character = '-' := by
  have known := plain character member
  rw [isLetter_iff] at known
  simp only [HistoricalDate.isDash, Bool.or_eq_true, beq_iff_eq] at dash
  rw [← Char.toNat_inj]
  change character.toNat = 0x2D
  omega

theorem isPlain_of_digits (digits : text.all isDigit = true) : IsPlain text := by
  intro character member
  have bounds := isDigit_iff.mp (List.all_eq_true.mp digits character member)
  omega

end Text

/-! ## Characters of a layout -/

namespace Calendar

variable {moment : Moment} {layout : Layout}

/-- An item whose mark is plain. -/
def LayoutItem.isPlain : LayoutItem → Bool
  | .mark character => isLetter character || (1 ≤ character.toNat && character.toNat ≤ 0x40)
  | _ => true

/-- An item that is written without letters. -/
def LayoutItem.isLetterless : LayoutItem → Bool
  | .mark character => !isLetter character
  | .monthName _ => false
  | _ => true

theorem isLetter_of_mem_monthName {month : Nat} (listed : 1 ≤ month ∧ month ≤ 12) :
    ∀ character ∈ fullMonthName month, isLetter character = true := by
  have all : (fullMonthName month).all isLetter = true := by
    obtain ⟨lower, upper⟩ := listed
    interval_cases month <;> decide
  exact List.all_eq_true.mp all

/-- A character is written as a digit, as a letter of a name, as a mark or as a gap. -/
theorem Layout.cases_of_mem_write (fourDigits : moment.day.HasFourDigits) {character : Char}
    (member : character ∈ layout.write moment) :
    isDigit character = true ∨
      (isLetter character = true ∧ ∃ full, .monthName full ∈ layout) ∨
      .mark character ∈ layout ∨ character = ' ' := by
  obtain ⟨item, listed, member⟩ := List.mem_flatMap.mp member
  cases item with
  | number field =>
    obtain ⟨row, shape, digits, _⟩ := field.exists_row fourDigits
    rw [shape] at member
    exact .inl (List.all_eq_true.mp digits character member)
  | monthName full =>
    have held : character ∈ fullMonthName moment.day.month := by
      cases full with
      | true => exact member
      | false => exact List.mem_of_mem_take member
    have letter := isLetter_of_mem_monthName moment.day.monthExists character held
    exact .inr (.inl ⟨letter, full, listed⟩)
  | mark mark =>
    obtain rfl := List.mem_singleton.mp member
    exact .inr (.inr (.inl listed))
  | gap => exact .inr (.inr (.inr (List.mem_singleton.mp member)))

theorem layouts_plain :
    ∀ layout ∈ momentLayouts ++ dayLayouts, layout.all LayoutItem.isPlain = true := by
  decide

/-- Hyphens stand in the layout of answers alone. -/
theorem layouts_hyphen :
    ∀ layout ∈ momentLayouts ++ dayLayouts, .mark '-' ∉ layout ∨
      (layout = isoDay ++ layout.drop 5 ∧ .mark '-' ∉ layout.drop 5) := by
  decide

/-- No layout with points has letters. -/
theorem layouts_point :
    ∀ layout ∈ momentLayouts ++ dayLayouts, .mark '.' ∉ layout ∨
      layout.all LayoutItem.isLetterless = true := by
  decide

/-- Behind the first item another character than a digit stands. -/
theorem layouts_parted :
    ∀ layout ∈ momentLayouts ++ dayLayouts,
      (layout.drop 1).head?.any LayoutItem.parts = true := by
  decide

section Written

variable (fourDigits : moment.day.HasFourDigits)

include fourDigits

theorem isPlain_write (listed : layout ∈ momentLayouts ++ dayLayouts) :
    IsPlain (layout.write moment) := by
  intro character member
  rcases Layout.cases_of_mem_write fourDigits member with digit | ⟨letter, _⟩ | mark | rfl
  · have bounds := isDigit_iff.mp digit
    omega
  · exact .inl letter
  · have plain := List.all_eq_true.mp (layouts_plain layout listed) _ mark
    simpa [LayoutItem.isPlain] using plain
  · exact .inr (by decide)

/-- A sign is written where it is a mark of the layout. -/
theorem mark_mem_of_mem_write {sign : Char} (undigit : isDigit sign = false)
    (unlettered : isLetter sign = false) (solid : sign ≠ ' ')
    (member : sign ∈ layout.write moment) : .mark sign ∈ layout := by
  rcases Layout.cases_of_mem_write fourDigits member with digit | ⟨letter, _⟩ | mark | space
  · rw [undigit] at digit
    cases digit
  · rw [unlettered] at letter
    cases letter
  · exact mark
  · exact absurd space solid

theorem not_isLetter_of_mem_write (letterless : layout.all LayoutItem.isLetterless = true) :
    ∀ character ∈ layout.write moment, isLetter character = false := by
  rw [List.all_eq_true] at letterless
  intro character member
  rcases Layout.cases_of_mem_write fourDigits member with digit | ⟨_, full, named⟩ | mark | rfl
  · exact isLetter_of_isDigit digit
  · cases letterless _ named
  · simpa [LayoutItem.isLetterless] using letterless _ mark
  · rfl

/-- Where a point is written, no letter is. -/
theorem not_isLetter_of_point (listed : layout ∈ momentLayouts ++ dayLayouts)
    (point : '.' ∈ layout.write moment) :
    ∀ character ∈ layout.write moment, isLetter character = false := by
  have mark := mark_mem_of_mem_write fourDigits rfl rfl (by decide) point
  exact not_isLetter_of_mem_write fourDigits
    ((layouts_point layout listed).resolve_left (not_not_intro mark))

theorem LayoutItem.exists_write (item : LayoutItem) :
    ∃ first rest, item.write moment = first :: rest := by
  cases item with
  | number field =>
    obtain ⟨first, rest, shape, _⟩ := exists_digit fourDigits field
    exact ⟨first, rest, shape⟩
  | monthName full =>
    obtain ⟨first, rest, shape, _⟩ := exists_letter moment full
    exact ⟨first, rest, shape⟩
  | mark character => exact ⟨character, [], rfl⟩
  | gap => exact ⟨' ', [], rfl⟩

/-- Behind its first character something else than a digit is written. -/
theorem exists_parted_write (listed : layout ∈ momentLayouts ++ dayLayouts) :
    ∃ first rest, layout.write moment = first :: rest ∧ ∃ other ∈ rest, isDigit other = false := by
  have parted := layouts_parted layout listed
  cases layout with
  | nil => cases parted
  | cons item layout =>
    cases layout with
    | nil => cases parted
    | cons second layout =>
      obtain ⟨first, rest, shape⟩ := item.exists_write fourDigits
      obtain ⟨other, single, undigit⟩ :=
        LayoutItem.exists_write_of_parts moment parted
      refine ⟨first, rest ++ Layout.write (second :: layout) moment, ?_, other, ?_, undigit⟩
      · rw [Layout.write_cons, shape, List.cons_append]
      · simp [Layout.write_cons, single]

end Written

end Calendar
end MuseumRecord
