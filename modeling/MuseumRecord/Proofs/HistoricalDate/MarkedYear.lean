import MuseumRecord.Proofs.HistoricalDate.WrittenRange
import MuseumRecord.Proofs.Number.Literal

/-!
# Marked years

The marker of an era is taken out of an expression wherever it stands, and the pieces that it leaves
must join to one number.  The marker stands beside the number when it stands there once and one of
the two pieces is blank, and in no other case.
-/

namespace MuseumRecord
namespace HistoricalDate

open Number Text

/-- A row of digits, with a plus sign or without, that denotes a number. -/
def IsNumeral (number : Nat) (numeral : List Char) : Prop :=
  ∃ sign row, numeral = sign ++ row ∧ SpellsSign false sign ∧ row ≠ [] ∧ row.all isDigit = true ∧
    number = ofDigits row

/-- The markers of an era divide a text into two or more pieces, and these join to a numeral between
blanks. -/
structure IsScattered (era : Era) (numeral : List Char) (row : List (List Char))
    (text : List Char) : Prop where
  /-- The markers stand between the pieces. -/
  whole : text = era.marker.intercalate row
  /-- There is a marker. -/
  marked : 2 ≤ row.length
  /-- The pieces join to the numeral. -/
  joined : trim row.flatten = numeral

/-- A text is a numeral and one marker with nothing but blanks between them. -/
def StandsBeside (era : Era) (numeral text : List Char) : Prop :=
  ∃ blanks, (∀ character ∈ blanks, isBlank character = true) ∧
    (text = numeral ++ blanks ++ era.marker ∨ text = era.marker ++ blanks ++ numeral)

/-! ## Numerals -/

section Numerals

variable {number : Nat} {numeral : List Char}

namespace IsNumeral

theorem ne_nil (denotes : IsNumeral number numeral) : numeral ≠ [] := by
  obtain ⟨sign, row, rfl, _, filled, _⟩ := denotes
  simp [filled]

/-- A numeral holds a sign and digits. -/
theorem isDigit_or_eq (denotes : IsNumeral number numeral) :
    ∀ character ∈ numeral, isDigit character = true ∨ character = '+' := by
  obtain ⟨sign, row, rfl, signed, _, digits, _⟩ := denotes
  intro character member
  rcases List.mem_append.mp member with front | behind
  · cases signed with
    | missing => cases front
    | plus => exact .inr (List.mem_singleton.mp front)
  · exact .inl (List.all_eq_true.mp digits character behind)

theorem isBlank_eq_false (denotes : IsNumeral number numeral) :
    ∀ character ∈ numeral, isBlank character = false := by
  intro character member
  rcases denotes.isDigit_or_eq character member with digit | rfl
  · exact Calendar.isBlank_of_isDigit digit
  · rfl

theorem trim_eq (denotes : IsNumeral number numeral) : trim numeral = numeral :=
  trim_eq_self
    (fun character head => denotes.isBlank_eq_false character (List.mem_of_mem_head? head))
    fun character last => denotes.isBlank_eq_false character (List.mem_of_getLast? last)

theorem integer32?_eq (denotes : IsNumeral number numeral) (small : number ≤ 2147483647) :
    integer32? numeral = some (number : Int) := by
  obtain ⟨sign, row, rfl, signed, filled, digits, rfl⟩ := denotes
  have read : integer? (sign ++ row) = some (ofDigits row : Int) :=
    integer?_eq_some_iff.mpr ⟨false, sign, row, rfl, signed, filled, digits, rfl⟩
  rw [integer32?, read]
  refine Option.filter_some_pos ?_
  simp only [Bool.and_eq_true, decide_eq_true_eq]
  omega

end IsNumeral

/-- A positive number is read from a numeral. -/
theorem isNumeral_of_integer32? (positive : 1 ≤ number)
    (read : integer32? numeral = some (number : Int)) : IsNumeral number numeral := by
  have read : integer? numeral = some (number : Int) := Option.eq_some_of_filter_eq_some read
  obtain ⟨negative, sign, row, whole, signed, filled, digits, value⟩ := integer?_eq_some_iff.mp read
  cases negative with
  | true =>
    simp only [if_true] at value
    omega
  | false =>
    simp only [Bool.false_eq_true, if_false, Nat.cast_inj] at value
    exact ⟨sign, row, whole, signed, filled, digits, value⟩

end Numerals

/-! ## Markers -/

/-- A marker begins with a character that stands in no numeral and is no blank. -/
theorem exists_marker_eq_cons (era : Era) :
    ∃ first tail, era.marker = first :: tail ∧ isDigit first = false ∧ isBlank first = false ∧
      first ≠ '+' := by
  cases era with
  | beforeCommon => exact ⟨'p', _, rfl, rfl, rfl, by decide⟩
  | common => exact ⟨'n', _, rfl, rfl, rfl, by decide⟩

theorem marker_ne_nil (era : Era) : era.marker ≠ [] := by
  cases era <;> exact List.cons_ne_nil _ _

namespace IsScattered

variable {era : Era} {number : Nat} {numeral text : List Char} {row : List (List Char)}

/-- The pieces hold a numeral and blanks. -/
theorem mem_or_isBlank (scattered : IsScattered era numeral row text) :
    ∀ character ∈ row.flatten, character ∈ numeral ∨ isBlank character = true := by
  obtain ⟨front, back, whole, frontBlank, backBlank⟩ := exists_trim row.flatten
  rw [scattered.joined] at whole
  intro character member
  rw [whole, List.mem_append, List.mem_append] at member
  rcases member with inFront | inside | behind
  · exact .inr (frontBlank character inFront)
  · exact .inl inside
  · exact .inr (backBlank character behind)

/-- A character that is no digit, no sign and no blank stands in no piece. -/
theorem not_mem_flatten (scattered : IsScattered era numeral row text)
    (denotes : IsNumeral number numeral) {character : Char} (undigit : isDigit character = false)
    (solid : isBlank character = false) (unsigned : character ≠ '+') :
    character ∉ row.flatten := by
  intro member
  rcases scattered.mem_or_isBlank character member with inside | blank
  · rcases denotes.isDigit_or_eq character inside with digit | sign
    · rw [undigit] at digit
      cases digit
    · exact unsigned sign
  · rw [solid] at blank
    cases blank

/-- The pieces are those that the marker leaves of the text. -/
theorem pieces_eq (scattered : IsScattered era numeral row text)
    (denotes : IsNumeral number numeral) : pieces era.marker text = row := by
  obtain ⟨first, tail, shape, undigit, solid, unsigned⟩ := exists_marker_eq_cons era
  have absent := scattered.not_mem_flatten denotes undigit solid unsigned
  have filled : row ≠ [] := List.ne_nil_of_length_pos (Nat.lt_of_lt_of_le Nat.two_pos
    scattered.marked)
  rw [scattered.whole, shape]
  refine pieces_intercalate filled fun piece member held => absent ?_
  exact List.mem_flatten.mpr ⟨piece, member, held⟩

theorem without_eq (scattered : IsScattered era numeral row text)
    (denotes : IsNumeral number numeral) : without era.marker text = row.flatten := by
  rw [without, scattered.pieces_eq denotes]

theorem contains_marker (scattered : IsScattered era numeral row text) :
    contains era.marker text = true := by
  obtain ⟨whole, marked, _⟩ := scattered
  match row, marked with
  | left :: right :: others, _ =>
    rw [contains_iff, whole, List.intercalate_cons_cons]
    exact (List.suffix_append _ _).isInfix.trans (List.prefix_append _ _).isInfix

/-- The marker of an earlier year is not made of the other one. -/
theorem contains_beforeCommonMarker (scattered : IsScattered .common numeral row text)
    (denotes : IsNumeral number numeral) : contains beforeCommonMarker text = false := by
  refine contains_eq_false_of_not_mem (show 'p' ∈ beforeCommonMarker by decide) fun member => ?_
  rw [scattered.whole] at member
  rcases mem_or_mem_of_mem_intercalate member with mark | piece
  · exact absurd mark (by decide)
  · exact scattered.not_mem_flatten denotes rfl rfl (by decide) piece

theorem undashed (scattered : IsScattered era numeral row text)
    (denotes : IsNumeral number numeral) : ∀ character ∈ text, isDash character = false := by
  intro character member
  rw [scattered.whole] at member
  rcases mem_or_mem_of_mem_intercalate member with mark | piece
  · exact undashed_marker era character (List.mem_cons_of_mem _ mark)
  · rcases scattered.mem_or_isBlank character piece with inside | blank
    · rcases denotes.isDigit_or_eq character inside with digit | rfl
      · exact isDash_of_isDigit digit
      · rfl
    · exact isDash_of_isBlank blank

end IsScattered

/-! ## Reading -/

section Reading

variable {now : Calendar.Moment} {text : List Char} {number : Nat} {era : Era} {explicit : Bool}

/-- A year is read from an undivided expression. -/
theorem readSingle_of_read (accepted : read now text = .ok (.year number era explicit)) :
    readSingle now (normalise text) = .ok (.year number era explicit) := by
  rw [read] at accepted
  split at accepted
  · cases accepted
  · split at accepted
    · next single undivided => exact eq_of_split_single undivided ▸ accepted
    · split at accepted
      · cases accepted
      · split at accepted <;> cases accepted

theorem readYear_eq_ok_iff {year : Int} :
    readYear text = .ok year ↔ integer32? (trim text) = some year := by
  unfold readYear
  cases integer32? (trim text) <;> simp

theorem yearBefore_eq_ok_iff {year : Int} (small : year ≤ 2147483647) :
    yearBefore year = .ok (.year number era true) ↔
      era = .beforeCommon ∧ year = number ∧ 1 ≤ number ∧ number ≤ 2147483647 := by
  unfold yearBefore
  split <;> simp <;> grind

theorem commonYear_eq_ok_iff {year : Int} {written : Bool} :
    commonYear now year written = .ok (.year number era explicit) ↔
      era = .common ∧ written = explicit ∧ year = number ∧ 1 ≤ number ∧
        (number : Int) ≤ now.day.year := by
  unfold commonYear
  split <;> simp <;> grind

/-- A year with its era written out is what is left of an expression without the markers. -/
theorem readSingle_eq_marked_iff :
    readSingle now text = .ok (.year number era true) ↔
      contains era.marker text = true ∧
        (era = .common → contains beforeCommonMarker text = false) ∧
        integer32? (trim (without era.marker text)) = some (number : Int) ∧
        (HistoricalDate.year number era true).IsPastLeaf now := by
  rw [readSingle_eq_ok_iff]
  constructor
  · rintro (⟨marked, year, left, past⟩ | ⟨unmarked, marked, year, left, past⟩ |
      ⟨_, _, year, _, past⟩ | ⟨_, _, _, calendar⟩)
    · have left := readYear_eq_ok_iff.mp left
      obtain ⟨rfl, rfl, bounds⟩ := (yearBefore_eq_ok_iff (bounds_of_integer32? left).2).mp past
      exact ⟨marked, nofun, left, bounds.1, bounds.2, rfl⟩
    · obtain ⟨rfl, _, rfl, bounds⟩ := commonYear_eq_ok_iff.mp past
      exact ⟨marked, fun _ => unmarked, readYear_eq_ok_iff.mp left, bounds⟩
    · obtain ⟨_, bare, _⟩ := commonYear_eq_ok_iff.mp past
      cases bare
    · unfold readCalendar at calendar
      split at calendar
      · split at calendar <;> cases calendar
      · cases calendar
  · rintro ⟨marked, unmarked, left, past⟩
    have left := readYear_eq_ok_iff.mpr left
    cases era with
    | beforeCommon =>
      obtain ⟨positive, small, _⟩ := past
      refine .inl ⟨marked, number, left, (yearBefore_eq_ok_iff ?_).mpr ⟨rfl, rfl, positive, small⟩⟩
      exact Int.ofNat_le.mpr small
    | common =>
      exact .inr (.inl ⟨unmarked rfl, marked, number, left,
        commonYear_eq_ok_iff.mpr ⟨rfl, rfl, rfl, past⟩⟩)

/-- The texts that are read as a year with its era written out. -/
theorem read_eq_marked_iff :
    read now text = .ok (.year number era true) ↔
      ∃ numeral row, IsNumeral number numeral ∧ number ≤ 2147483647 ∧
        IsScattered era numeral row (normalise text) ∧
        (HistoricalDate.year number era true).IsPastLeaf now := by
  constructor
  · intro accepted
    obtain ⟨marked, _, left, past⟩ := readSingle_eq_marked_iff.mp (readSingle_of_read accepted)
    have positive : 1 ≤ number := by cases era <;> exact past.1
    have small : (number : Int) ≤ 2147483647 := (bounds_of_integer32? left).2
    refine ⟨_, pieces era.marker (normalise text), isNumeral_of_integer32? positive left,
      Int.ofNat_le.mp small, ⟨?_, ?_, rfl⟩, past⟩
    · exact (intercalate_pieces (marker_ne_nil era) _).symm
    · exact two_le_length_pieces (marker_ne_nil era) marked
  · rintro ⟨numeral, row, denotes, small, scattered, past⟩
    have content : ¬ (normalise text).isEmpty = true := by
      have marked := scattered.contains_marker
      rw [List.isEmpty_iff]
      intro nothing
      rw [nothing, contains_iff, List.infix_nil] at marked
      exact marker_ne_nil era marked
    rw [read_of_single content (split_of_undashed (scattered.undashed denotes)),
      readSingle_eq_marked_iff]
    refine ⟨scattered.contains_marker, ?_, ?_, past⟩
    · rintro rfl
      exact scattered.contains_beforeCommonMarker denotes
    · rw [scattered.without_eq denotes, scattered.joined, denotes.integer32?_eq small]

end Reading

/-! ## Markers beside a number -/

section Beside

variable {era : Era} {number : Nat} {numeral text : List Char} {row : List (List Char)}

theorem solid_of_mem_head?_normalise (text : List Char) :
    ∀ character ∈ (normalise text).head?, isBlank character = false := by
  intro character head
  rw [Bool.eq_false_iff]
  intro blank
  obtain ⟨tail, shape⟩ := List.head?_eq_some_iff.mp head
  have caseless : ∀ other ∈ [character], LowerCase.IsCaseless other :=
    List.forall_mem_singleton.mpr (LowerCase.isCaseless_of_isBlank blank)
  obtain ⟨rest, whole⟩ : [character] <+: trim text :=
    LowerCase.prefix_of_prefix_lowerAfter caseless ⟨tail, shape.symm⟩
  have solid := solid_of_mem_head?_trim text character (by rw [← whole]; rfl)
  rw [blank] at solid
  cases solid

theorem solid_of_mem_getLast?_normalise (text : List Char) :
    ∀ character ∈ (normalise text).getLast?, isBlank character = false := by
  intro character last
  rw [Bool.eq_false_iff]
  intro blank
  have kept := (LowerCase.isCaseless_of_isBlank blank).mem_getLast? last
  have solid := solid_of_mem_getLast?_trimEnd _ character kept
  rw [blank] at solid
  cases solid

/-- Blanks at the beginning of a normal form are none. -/
theorem eq_nil_of_normalise_eq_append {blanks rest : List Char}
    (shape : normalise text = blanks ++ rest)
    (blank : ∀ character ∈ blanks, isBlank character = true) : blanks = [] := by
  cases blanks with
  | nil => rfl
  | cons first blanks =>
    have solid := solid_of_mem_head?_normalise text first (by rw [shape]; rfl)
    rw [blank first List.mem_cons_self] at solid
    cases solid

/-- Blanks at the end of a normal form are none. -/
theorem eq_nil_of_normalise_append_eq {blanks rest : List Char}
    (shape : normalise text = rest ++ blanks)
    (blank : ∀ character ∈ blanks, isBlank character = true) : blanks = [] := by
  rcases List.eq_nil_or_concat blanks with rfl | ⟨front, last, rfl⟩
  · rfl
  · have ends : last ∈ (normalise text).getLast? := by
      rw [shape, List.concat_eq_append, ← List.append_assoc, List.getLast?_concat]
      rfl
    have solid := solid_of_mem_getLast?_normalise text last ends
    rw [blank last (by simp)] at solid
    cases solid

/-- One marker leaves two pieces. -/
theorem isScattered_pair {left right : List Char}
    (joined : trim (left ++ right) = numeral) :
    IsScattered era numeral [left, right] (left ++ era.marker ++ right) := by
  refine ⟨?_, Nat.le_refl 2, ?_⟩
  · rw [List.intercalate_cons_cons, List.intercalate_singleton]
  · rw [List.flatten_cons, List.flatten_cons, List.flatten_nil, List.append_nil, joined]

/-- A marker beside a number leaves the number with its blanks and an empty piece. -/
theorem StandsBeside.exists_pieces (beside : StandsBeside era numeral text)
    (denotes : IsNumeral number numeral) :
    ∃ left right, pieces era.marker text = [left, right] ∧ (left = [] ∨ right = []) := by
  obtain ⟨blanks, blank, behind | front⟩ := beside
  · have joined : trim (numeral ++ blanks ++ []) = numeral := by
      rw [List.append_nil, trim_append_blank _ blank, denotes.trim_eq]
    have pair := @isScattered_pair era numeral _ _ joined
    rw [List.append_nil, ← behind] at pair
    exact ⟨_, _, pair.pieces_eq denotes, .inr rfl⟩
  · have joined : trim ([] ++ (blanks ++ numeral)) = numeral := by
      rw [List.nil_append, trim_blank_append _ blank, denotes.trim_eq]
    have pair := @isScattered_pair era numeral _ _ joined
    rw [List.nil_append, ← List.append_assoc, ← front] at pair
    exact ⟨_, _, pair.pieces_eq denotes, .inl rfl⟩

/-- A marker stands beside the number when it stands in the expression once and all on one side of
it is blank. -/
theorem IsScattered.standsBeside_iff (scattered : IsScattered era numeral row (normalise text))
    (denotes : IsNumeral number numeral) :
    StandsBeside era numeral (normalise text) ↔
      ∃ left right, row = [left, right] ∧
        ((∀ character ∈ left, isBlank character = true) ∨
          ∀ character ∈ right, isBlank character = true) := by
  constructor
  · intro beside
    obtain ⟨left, right, pair, rfl | rfl⟩ := beside.exists_pieces denotes
    · exact ⟨[], right, scattered.pieces_eq denotes ▸ pair, .inl (List.forall_mem_nil _)⟩
    · exact ⟨left, [], scattered.pieces_eq denotes ▸ pair, .inr (List.forall_mem_nil _)⟩
  · rintro ⟨left, right, rfl, blank⟩
    obtain ⟨whole, _, joined⟩ := scattered
    rw [List.intercalate_cons_cons, List.intercalate_singleton] at whole
    simp only [List.flatten_cons, List.flatten_nil, List.append_nil] at joined
    rcases blank with leftBlank | rightBlank
    · obtain ⟨front, back, shape, frontBlank, backBlank⟩ := exists_trim right
      rw [trim_blank_append _ leftBlank] at joined
      rw [joined] at shape
      obtain rfl := eq_nil_of_normalise_eq_append (whole.trans (List.append_assoc _ _ _)) leftBlank
      have whole : normalise text = era.marker ++ front ++ numeral ++ back := by
        rw [whole, shape]
        simp
      obtain rfl := eq_nil_of_normalise_append_eq whole backBlank
      exact ⟨front, frontBlank, .inr (whole.trans (List.append_nil _))⟩
    · obtain ⟨front, back, shape, frontBlank, backBlank⟩ := exists_trim left
      rw [trim_append_blank _ rightBlank] at joined
      rw [joined] at shape
      obtain rfl := eq_nil_of_normalise_append_eq whole rightBlank
      have whole : normalise text = front ++ (numeral ++ back ++ era.marker) := by
        rw [whole, shape]
        simp
      obtain rfl := eq_nil_of_normalise_eq_append whole frontBlank
      exact ⟨back, backBlank, .inl whole⟩

end Beside

/-- A year with its era written out is read from the expressions that are, without the blanks
around them and in lower case, a numeral of the year into which the marker of the era has been put,
once or more often, with blanks around the numeral.  The marker stands there once and directly in
front of the numeral or behind it, up to blanks, exactly when it leaves two pieces of which one is
blank: when it is neither repeated nor inside the numeral. -/
theorem marked_years_are_scattered_numerals (now : Calendar.Moment) (text : String) (number : Nat)
    (era : Era) :
    (parse now text = .ok (.year number era true) ↔
      ∃ numeral row, IsNumeral number numeral ∧ number ≤ 2147483647 ∧
        IsScattered era numeral row (normalise text.toList) ∧
        (HistoricalDate.year number era true).IsPastLeaf now) ∧
      ∀ numeral row, IsNumeral number numeral →
        IsScattered era numeral row (normalise text.toList) →
          (StandsBeside era numeral (normalise text.toList) ↔
            ∃ left right, row = [left, right] ∧
              ((∀ character ∈ left, isBlank character = true) ∨
                ∀ character ∈ right, isBlank character = true)) :=
  ⟨read_eq_marked_iff, fun _ _ denotes scattered => scattered.standsBeside_iff denotes⟩

/-- The marker stands inside one number and around another, and years are read from both. -/
theorem marked_years_with_scattered_markers :
    (parse (.midnight ⟨2024, 6, 1, by decide, by decide⟩) "1p.n.e.2" =
        .ok (.year 12 .beforeCommon true) ∧
      ∀ numeral, IsNumeral 12 numeral →
        ¬ StandsBeside .beforeCommon numeral (normalise "1p.n.e.2".toList)) ∧
      parse (.midnight ⟨2024, 6, 1, by decide, by decide⟩) "n.e. 5 n.e." =
        .ok (.year 5 .common true) ∧
      ∀ numeral, IsNumeral 5 numeral →
        ¬ StandsBeside .common numeral (normalise "n.e. 5 n.e.".toList) := by
  have inside : pieces Era.beforeCommon.marker (normalise "1p.n.e.2".toList) = [['1'], ['2']] := by
    decide +kernel
  have around : pieces Era.common.marker (normalise "n.e. 5 n.e.".toList) =
      [[], [' ', '5', ' '], []] := by
    decide +kernel
  refine ⟨⟨by decide +kernel, fun numeral denotes beside => ?_⟩, by decide +kernel,
    fun numeral denotes beside => ?_⟩
  · obtain ⟨left, right, pair, empty⟩ := beside.exists_pieces denotes
    rw [inside] at pair
    cases pair
    rcases empty with none | none <;> cases none
  · obtain ⟨left, right, pair, _⟩ := beside.exists_pieces denotes
    rw [around] at pair
    cases pair

end HistoricalDate
end MuseumRecord
