import MuseumRecord.Proofs.HistoricalDate.Written

/-!
# Written ranges

A year with or without its era and a day are written without a dash or with hyphens behind digits,
so that a separator between two of them divides a range there and nowhere else, and each end is read
as it was written.
-/

namespace MuseumRecord

open Calendar Number Text

/-- The marker of an era. -/
def Era.marker : Era → List Char
  | .beforeCommon => HistoricalDate.beforeCommonMarker
  | .common => HistoricalDate.commonMarker

namespace HistoricalDate

/-- One end of a range. -/
inductive Leaf where
  /-- A year and the marker of its era. -/
  | marked (number : Nat) (era : Era)
  /-- A year of the common era without a marker. -/
  | bare (number : Nat)
  /-- A day in the layout of answers. -/
  | hyphened (day : Day)
  /-- A day in front of its month and year, with points. -/
  | pointed (day : Day)

namespace Leaf

/-- The text of a leaf. -/
def text : Leaf → List Char
  | .marked number era => digits number ++ ' ' :: era.marker
  | .bare number => digits number
  | .hyphened day => isoDay.write (.midnight day)
  | .pointed day => (dayFirst '.').write (.midnight day)

/-- The date that a leaf denotes. -/
def date : Leaf → HistoricalDate
  | .marked number era => .year number era true
  | .bare number => .year number .common false
  | .hyphened day => .calendar (.midnight day)
  | .pointed day => .calendar (.midnight day)

/-- The number of a year has 32 bits, as that of every clock, and the year of a day four digits. -/
def Fits : Leaf → Prop
  | .marked number _ => number ≤ 2147483647
  | .bare number => number ≤ 2147483647
  | .hyphened day => day.HasFourDigits
  | .pointed day => day.HasFourDigits

/-- A leaf that fits and lies in the past. -/
def IsPast (now : Moment) (leaf : Leaf) : Prop :=
  leaf.Fits ∧ leaf.date.IsPastLeaf now

end Leaf

/-! ## Texts of leaves -/

/-- A text in lower case between a digit and a character that is no blank, in which no dash stands
behind a space. -/
structure IsAtom (text : List Char) : Prop where
  /-- Letters are ASCII letters. -/
  plain : IsPlain text
  /-- Letters are small. -/
  small : lowerAscii text = text
  /-- A digit leads. -/
  begins : ∃ head tail, text = head :: tail ∧ isDigit head = true
  /-- No blank ends the text. -/
  ends : ∀ character ∈ text.getLast?, isBlank character = false
  /-- Dashes do not stand behind spaces. -/
  compact : ∀ dash, isDash dash = true → IsCompact dash text

section Atoms

variable {text : List Char}

theorem isDash_of_isDigit {character : Char} (digit : isDigit character = true) :
    isDash character = false := by
  have bounds := isDigit_iff.mp digit
  simp only [isDash, Bool.or_eq_false_iff, beq_eq_false_iff_ne, ne_eq]
  omega

theorem isDash_of_isBlank {character : Char} (blank : isBlank character = true) :
    isDash character = false := by
  simp only [isBlank, Bool.or_eq_true, Bool.and_eq_true, decide_eq_true_eq, beq_iff_eq] at blank
  simp only [isDash, Bool.or_eq_false_iff, beq_eq_false_iff_ne, ne_eq]
  omega

namespace IsAtom

theorem ne_nil (atom : IsAtom text) : text ≠ [] := by
  obtain ⟨head, tail, rfl, _⟩ := atom.begins
  exact List.cons_ne_nil head tail

theorem isDigit_of_mem_head? (atom : IsAtom text) :
    ∀ character ∈ text.head?, isDigit character = true := by
  obtain ⟨head, tail, rfl, digit⟩ := atom.begins
  rintro character same
  cases same
  exact digit

/-- Nothing is trimmed from what one atom begins and another ends. -/
theorem trim_append {first last : List Char} (atom : IsAtom first) (lastAtom : IsAtom last)
    (middle : List Char) : trim (first ++ middle ++ last) = first ++ middle ++ last := by
  refine trim_eq_self (fun character head => isBlank_of_isDigit ?_) ?_
  · rw [List.append_assoc, List.head?_append_of_ne_nil _ atom.ne_nil] at head
    exact atom.isDigit_of_mem_head? character head
  · rw [List.getLast?_append_of_ne_nil _ lastAtom.ne_nil]
    exact lastAtom.ends

/-- Nothing is trimmed from an atom. -/
theorem trim_eq (atom : IsAtom text) : trim text = text :=
  trim_eq_self (fun character head => isBlank_of_isDigit (atom.isDigit_of_mem_head? character head))
    atom.ends

end IsAtom

theorem undashed_digits (value : Nat) : ∀ character ∈ digits value, isDash character = false :=
  fun character member =>
    isDash_of_isDigit (List.all_eq_true.mp (all_isDigit_digits value) character member)

theorem isAtom_digits (value : Nat) : IsAtom (digits value) := by
  have digits := all_isDigit_digits value
  refine ⟨isPlain_of_digits digits, lowerAscii_of_digits (List.all_eq_true.mp digits),
    exists_head_digits value, fun character last => ?_, fun dash dashed => ?_⟩
  · exact isBlank_of_isDigit (List.all_eq_true.mp digits character (List.mem_of_getLast? last))
  · exact isCompact_of_not_mem (not_mem_of_undashed dashed (undashed_digits value))

theorem undashed_marker (era : Era) :
    ∀ character ∈ ' ' :: era.marker, isDash character = false := by
  have all : ((' ' :: era.marker).all fun character => !isDash character) = true := by
    cases era <;> decide
  intro character member
  simpa only [Bool.not_eq_true'] using List.all_eq_true.mp all character member

theorem isPlain_marker (era : Era) : IsPlain (' ' :: era.marker) := by
  have all : ((' ' :: era.marker).all fun character =>
      isLetter character || decide (1 ≤ character.toNat ∧ character.toNat ≤ 0x40)) = true := by
    cases era <;> decide
  intro character member
  simpa only [Bool.or_eq_true, decide_eq_true_eq] using List.all_eq_true.mp all character member

theorem isAtom_marked (value : Nat) (era : Era) :
    IsAtom (digits value ++ ' ' :: era.marker) := by
  have number := isAtom_digits value
  have markerSmall : lowerAscii (' ' :: era.marker) = ' ' :: era.marker := by
    cases era <;> rfl
  have markerEnds : (' ' :: era.marker).getLast? = some '.' := by
    cases era <;> rfl
  refine ⟨number.plain.append (isPlain_marker era), ?_, ?_, ?_, fun dash dashed => ?_⟩
  · rw [lowerAscii_append, number.small, markerSmall]
  · obtain ⟨head, tail, shape, digit⟩ := exists_head_digits value
    exact ⟨head, tail ++ ' ' :: era.marker, by rw [shape, List.cons_append], digit⟩
  · rw [List.getLast?_append_of_ne_nil _ (List.cons_ne_nil _ _), markerEnds]
    rintro character ends
    cases ends
    rfl
  · have fresh := not_mem_of_undashed dashed (undashed_marker era)
    refine (number.compact dash dashed).append (isCompact_of_not_mem fresh) fun character head => ?_
    exact ne_of_isDash dashed (undashed_marker era character (List.mem_of_mem_head? head))

theorem isAtom_write {day : Day} (fourDigits : day.HasFourDigits) {layout : Layout}
    (known : layout = isoDay ∨ layout = dayFirst '.') : IsAtom (layout.write (.midnight day)) := by
  have fourDigits : (Moment.midnight day).day.HasFourDigits := fourDigits
  have listed : layout ∈ momentLayouts ++ dayLayouts := by
    rcases known with rfl | rfl <;> decide
  have letterless : layout.all LayoutItem.isLetterless = true := by
    rcases known with rfl | rfl <;> decide
  have small := lowerAscii_eq_self (not_isLetter_of_mem_write fourDigits letterless)
  refine ⟨isPlain_write fourDigits listed, small, ?_, fun character last => ?_,
    fun dash dashed => small ▸ isCompact_write fourDigits listed dashed⟩
  · have numbered : ∃ field items, layout = .number field :: items := by
      rcases known with rfl | rfl <;> exact ⟨_, _, rfl⟩
    obtain ⟨field, items, rfl⟩ := numbered
    obtain ⟨head, tail, shape, digit⟩ := LayoutItem.exists_digit fourDigits field
    exact ⟨head, tail ++ Layout.write items (.midnight day),
      by rw [Layout.write_cons, shape, List.cons_append], digit⟩
  · exact isBlank_of_isDigit (last_write_isDigit fourDigits listed character last)

theorem Leaf.isAtom_text {leaf : Leaf} (fits : leaf.Fits) : IsAtom leaf.text := by
  cases leaf with
  | marked number era => exact isAtom_marked number era
  | bare number => exact isAtom_digits number
  | hyphened day => exact isAtom_write fits (.inl rfl)
  | pointed day => exact isAtom_write fits (.inr rfl)

end Atoms

/-! ## Leaves read -/

section Leaves

variable {now : Moment} {text : List Char}

/-- An atom without a dash is read undivided. -/
theorem read_of_undashed {single : List Char} (atom : IsAtom single)
    (undashed : ∀ character ∈ single, isDash character = false)
    (same : lowerAscii (trim text) = single) : read now text = readSingle now single := by
  have normal : normalise text = single := by
    have same : lowerAscii (trim text) = lowerAscii single := same.trans atom.small.symm
    rw [normalise_eq atom.plain.hasAsciiCase same, atom.small]
  have content : ¬ (normalise text).isEmpty = true := by
    rw [normal, List.isEmpty_iff]
    exact atom.ne_nil
  have undivided := split_of_undashed undashed
  rw [← normal] at undivided
  rw [read_of_single content undivided, normal]

/-- A mark whose first character stands only there is taken from the end of a text. -/
theorem without_append {first : Char} {tail front : List Char} (fresh : first ∉ front) :
    without (first :: tail) (front ++ first :: tail) = front := by
  have found : cut (first :: tail) (front ++ first :: tail) = some (front, []) := by
    have leading := cut_leading (first :: tail) []
    rw [List.append_nil] at leading
    rw [isClear_of_not_mem fresh, leading]
    simp
  have rest : pieces (first :: tail) [] = [[]] := pieces_of_uncut (by simp)
  rw [without, pieces_of_cut (List.cons_ne_nil _ _) found, rest]
  simp

theorem readYear_digits {value : Nat} (small : value ≤ 2147483647) :
    readYear (digits value ++ [' ']) = .ok (value : Int) := by
  have trimmed : trim (digits value ++ [' ']) = digits value := by
    rw [trim_append_blank _ (List.forall_mem_singleton.mpr rfl), (isAtom_digits value).trim_eq]
  rw [readYear, trimmed, integer32?_digits small]

theorem readSingle_marked {value : Nat} {era : Era} (small : value ≤ 2147483647)
    (past : (HistoricalDate.year value era true).IsPastLeaf now) :
    readSingle now (digits value ++ ' ' :: era.marker) = .ok (.year value era true) := by
  have fresh {character : Char} (undigit : isDigit character = false) (solid : character ≠ ' ') :
      character ∉ digits value ++ [' '] := by
    have absent : character ∉ digits value := not_mem_digits undigit value
    simp [absent, solid]
  have whole : digits value ++ ' ' :: era.marker = digits value ++ [' '] ++ era.marker := by simp
  rw [whole]
  have held : contains era.marker (digits value ++ [' '] ++ era.marker) = true :=
    contains_iff.mpr (List.suffix_append _ _).isInfix
  cases era with
  | beforeCommon =>
    have taken : without beforeCommonMarker (digits value ++ [' '] ++ beforeCommonMarker) =
        digits value ++ [' '] :=
      without_append (fresh rfl (by decide))
    have held : contains beforeCommonMarker (digits value ++ [' '] ++ beforeCommonMarker) = true :=
      held
    obtain ⟨positive, _, _⟩ := past
    have positive : 0 < (value : Int) := by omega
    simp only [readSingle, Era.marker, held, if_true, taken, readYear_digits small, yearBefore,
      if_pos positive, Int.toNat_natCast]
  | common =>
    have taken : without commonMarker (digits value ++ [' '] ++ commonMarker) =
        digits value ++ [' '] :=
      without_append (fresh rfl (by decide))
    have held : contains commonMarker (digits value ++ [' '] ++ commonMarker) = true := held
    have absent : 'p' ∉ digits value := not_mem_digits rfl value
    have unmarked :
        contains beforeCommonMarker (digits value ++ [' '] ++ commonMarker) = false := by
      refine contains_eq_false_of_not_mem (show 'p' ∈ _ by decide) ?_
      simp [absent, commonMarker]
    obtain ⟨positive, passed⟩ := past
    have within : 1 ≤ (value : Int) ∧ (value : Int) ≤ now.day.year := ⟨by omega, passed⟩
    simp only [readSingle, Era.marker, unmarked, held, if_true, Bool.false_eq_true, if_false, taken,
      readYear_digits small, commonYear, if_pos within, Int.toNat_natCast]

theorem readSingle_bare {value : Nat} (small : value ≤ 2147483647)
    (past : (HistoricalDate.year value .common false).IsPastLeaf now) :
    readSingle now (digits value) = .ok (.year value .common false) := by
  have pointless : '.' ∉ digits value := not_mem_digits rfl value
  obtain ⟨unmarked, uncommon⟩ := unmarked_of_not_mem (.inl pointless)
  obtain ⟨positive, passed⟩ := past
  have within : 1 ≤ (value : Int) ∧ (value : Int) ≤ now.day.year := ⟨by omega, passed⟩
  simp only [readSingle, unmarked, uncommon, Bool.false_eq_true, if_false, integer32?_digits small,
    commonYear, if_pos within, Int.toNat_natCast]

theorem read_day {day : Day} (fourDigits : day.HasFourDigits) (past : .midnight day ≤ now)
    {layout : Layout} (known : layout = isoDay ∨ layout = dayFirst '.')
    (same : lowerAscii (trim text) = layout.write (.midnight day)) :
    read now text = .ok (.calendar (.midnight day)) := by
  have timeless : layout ∈ dayLayouts := by rcases known with rfl | rfl <;> decide
  have listed : layout ∈ momentLayouts ++ dayLayouts := List.mem_append_right _ timeless
  have same := same.trans (isAtom_write fourDigits known).small.symm
  have fourDigits : (Moment.midnight day).day.HasFourDigits := fourDigits
  have found := read_write fourDigits listed (.inl rfl) same now
  rw [Layout.shown_of_day timeless] at found
  exact found.trans (if_pos past)

/-- A leaf is read as the date it denotes, in any case of its letters and with blanks around it. -/
theorem read_leaf {leaf : Leaf} (past : leaf.IsPast now)
    (same : lowerAscii (trim text) = leaf.text) : read now text = .ok leaf.date := by
  obtain ⟨fits, past⟩ := past
  have atom := leaf.isAtom_text fits
  cases leaf with
  | marked number era =>
    have undashed := List.forall_mem_append.mpr ⟨undashed_digits number, undashed_marker era⟩
    rw [read_of_undashed atom undashed same]
    exact readSingle_marked fits past
  | bare number =>
    rw [read_of_undashed atom (undashed_digits number) same]
    exact readSingle_bare fits past
  | hyphened day => exact read_day fits past (.inl rfl) same
  | pointed day => exact read_day fits past (.inr rfl) same

end Leaves

/-! ## Ranges -/

section Ranges

variable {first last : List Char}

theorem undashed_blank {blanks : List Char}
    (blank : ∀ character ∈ blanks, isBlank character = true) :
    ∀ character ∈ blanks, isDash character = false :=
  fun character member => isDash_of_isBlank (blank character member)

theorem isCompact_blank {blanks : List Char} {dash : Char} (dashed : isDash dash = true)
    (blank : ∀ character ∈ blanks, isBlank character = true) : IsCompact dash blanks :=
  isCompact_of_not_mem (not_mem_of_undashed dashed (undashed_blank blank))

section Middle

variable {middle : List Char}
  (between : ∀ character ∈ middle, isBlank character = true ∨ isDash character = true)

include between

theorem lowerAscii_of_between : lowerAscii middle = middle :=
  lowerAscii_eq_self fun character member =>
    (between character member).elim isLetter_of_isBlank isLetter_of_isDash

theorem hasAsciiCase_of_between : HasAsciiCase middle :=
  fun character member => .inr ((between character member).elim
    LowerCase.isCaseless_of_isBlank LowerCase.isCaseless_of_isDash)

/-- Two atoms with blanks and dashes between them are a normal form, from which blanks around them
and capitals do not lead away. -/
theorem normalise_atoms (atom : IsAtom first) (lastAtom : IsAtom last)
    {before behind text : List Char} (beforeBlank : ∀ character ∈ before, isBlank character = true)
    (behindBlank : ∀ character ∈ behind, isBlank character = true)
    (lowered : lowerAscii text = before ++ (first ++ middle ++ last ++ behind)) :
    normalise text = first ++ middle ++ last := by
  have small : lowerAscii (first ++ middle ++ last) = first ++ middle ++ last := by
    simp only [lowerAscii_append, atom.small, lowerAscii_of_between between, lastAtom.small]
  have cased : HasAsciiCase (first ++ middle ++ last) :=
    (atom.plain.hasAsciiCase.append (hasAsciiCase_of_between between)).append
      lastAtom.plain.hasAsciiCase
  have same : lowerAscii (trim text) = lowerAscii (first ++ middle ++ last) := by
    rw [← trim_lowerAscii, lowered, trim_blank_append _ beforeBlank,
      trim_append_blank _ behindBlank, atom.trim_append lastAtom, small]
  rw [normalise_eq cased same, small]

end Middle

section Atoms

variable (atom : IsAtom first) (lastAtom : IsAtom last) {back front : List Char}
  (backBlank : ∀ character ∈ back, isBlank character = true)
  (frontBlank : ∀ character ∈ front, isBlank character = true)

include atom lastAtom backBlank frontBlank

/-- A separator with spaces divides two atoms. -/
theorem split_spaced {dash : Char} (kind : dash = '-' ∨ dash = '–' ∨ dash = '—') :
    Expression.split (first ++ back ++ spaced dash ++ (front ++ last)) =
      .range (first ++ back) (front ++ last) := by
  have lastBegins : ∀ character ∈ last.head?, isDash character = false := fun character head =>
    isDash_of_isDigit (lastAtom.isDigit_of_mem_head? character head)
  have blankBegins {blanks : List Char} (blank : ∀ character ∈ blanks, isBlank character = true) :
      ∀ character ∈ blanks.head?, isDash character = false := fun character head =>
    undashed_blank blank character (List.mem_of_mem_head? head)
  refine split_of_spaced (List.append_ne_nil_of_left_ne_nil atom.ne_nil _)
    (List.append_ne_nil_of_right_ne_nil _ lastAtom.ne_nil) kind ?_ ?_ ?_
  · intro other dashed
    exact (atom.compact other dashed).append (isCompact_blank dashed backBlank)
      fun character head => ne_of_isDash dashed (blankBegins backBlank character head)
  · intro other dashed
    exact (isCompact_blank dashed frontBlank).append (lastAtom.compact other dashed)
      fun character head => ne_of_isDash dashed (lastBegins character head)
  · intro character head
    cases front with
    | nil => exact lastBegins character head
    | cons blank front => exact blankBegins frontBlank character head

/-- A hyphen that is the only dash divides two atoms where a space is missing next to it. -/
theorem split_hyphen (undashed : ∀ character ∈ first, isDash character = false)
    (lastUndashed : ∀ character ∈ last, isDash character = false)
    (loose : ¬(back.getLast? = some ' ' ∧ front.head? = some ' ')) :
    Expression.split (first ++ back ++ ['-'] ++ (front ++ last)) =
      .range (first ++ back) (front ++ last) := by
  have leftUndashed := List.forall_mem_append.mpr ⟨undashed, undashed_blank backBlank⟩
  have rightUndashed := List.forall_mem_append.mpr ⟨undashed_blank frontBlank, lastUndashed⟩
  rw [List.append_assoc (first ++ back), List.singleton_append]
  refine split_of_hyphen (List.append_ne_nil_of_left_ne_nil atom.ne_nil _)
    (List.append_ne_nil_of_right_ne_nil _ lastAtom.ne_nil) leftUndashed rightUndashed
    fun leftEnds rightBegins => loose ⟨?_, ?_⟩
  · cases back with
    | nil =>
      rw [List.append_nil] at leftEnds
      cases atom.ends ' ' leftEnds
    | cons blank back =>
      rwa [List.getLast?_append_of_ne_nil _ (List.cons_ne_nil _ _)] at leftEnds
  · cases front with
    | nil => cases lastAtom.isDigit_of_mem_head? ' ' rightBegins
    | cons blank front => exact rightBegins

/-- A separator, with blanks around it, divides a range between two atoms; the blanks are left at
the ends. -/
theorem exists_split {separator : List Char}
    (separated : separator ∈ [spaced '-', spaced '–', spaced '—'] ∨
      (separator = ['-'] ∧ (∀ character ∈ first, isDash character = false) ∧
        ∀ character ∈ last, isDash character = false)) :
    ∃ behind ahead, (∀ character ∈ behind, isBlank character = true) ∧
      (∀ character ∈ ahead, isBlank character = true) ∧
      Expression.split (first ++ back ++ separator ++ (front ++ last)) =
        .range (first ++ behind) (ahead ++ last) := by
  rcases separated with listed | ⟨rfl, undashed, lastUndashed⟩
  · refine ⟨back, front, backBlank, frontBlank, ?_⟩
    simp only [List.mem_cons, List.not_mem_nil, or_false] at listed
    rcases listed with rfl | rfl | rfl
    · exact split_spaced atom lastAtom backBlank frontBlank (.inl rfl)
    · exact split_spaced atom lastAtom backBlank frontBlank (.inr (.inl rfl))
    · exact split_spaced atom lastAtom backBlank frontBlank (.inr (.inr rfl))
  · by_cases crowded : back.getLast? = some ' ' ∧ front.head? = some ' '
    · -- The blanks next to the hyphen make it a separator with spaces.
      obtain ⟨behind, rfl⟩ := List.getLast?_eq_some_iff.mp crowded.1
      obtain ⟨ahead, rfl⟩ := List.head?_eq_some_iff.mp crowded.2
      have behindBlank := (List.forall_mem_append.mp backBlank).1
      have aheadBlank := (List.forall_mem_cons.mp frontBlank).2
      refine ⟨behind, ahead, behindBlank, aheadBlank, ?_⟩
      have division := split_spaced atom lastAtom behindBlank aheadBlank (.inl rfl)
      rw [← division]
      simp [spaced]
    · exact ⟨back, front, backBlank, frontBlank,
        split_hyphen atom lastAtom backBlank frontBlank undashed lastUndashed crowded⟩

/-- A range is normalised to its ends, its separator and the blanks between them. -/
theorem normalise_range {separator start finish : List Char}
    (caseless : ∀ character ∈ separator, isBlank character = true ∨ isDash character = true)
    (startWritten : lowerAscii (trim start) = first)
    (startShape : ∃ before, (∀ character ∈ before, isBlank character = true) ∧
      start = before ++ (trim start ++ back))
    (finishWritten : lowerAscii (trim finish) = last)
    (finishShape : ∃ behind, (∀ character ∈ behind, isBlank character = true) ∧
      finish = front ++ (trim finish ++ behind)) :
    normalise (start ++ separator ++ finish) = first ++ back ++ separator ++ (front ++ last) := by
  obtain ⟨before, beforeBlank, startShape⟩ := startShape
  obtain ⟨behind, behindBlank, finishShape⟩ := finishShape
  have between : ∀ character ∈ back ++ separator ++ front,
      isBlank character = true ∨ isDash character = true := by
    intro character member
    simp only [List.mem_append] at member
    rcases member with (held | held) | held
    · exact .inl (backBlank character held)
    · exact caseless character held
    · exact .inl (frontBlank character held)
  have lowered : lowerAscii (start ++ separator ++ finish) =
      before ++ (first ++ (back ++ separator ++ front) ++ last ++ behind) := by
    rw [startShape, finishShape]
    simp only [lowerAscii_append, startWritten, finishWritten, lowerAscii_of_blank beforeBlank,
      lowerAscii_of_blank backBlank, lowerAscii_of_blank frontBlank,
      lowerAscii_of_blank behindBlank, lowerAscii_of_between caseless, List.append_assoc]
  rw [normalise_atoms between atom lastAtom beforeBlank behindBlank lowered]
  simp only [List.append_assoc]

end Atoms

end Ranges

namespace Leaf

/-- A text of the leaf in any case of its ASCII letters, with any blanks around it. -/
def IsWrittenAs (leaf : Leaf) (text : String) : Prop :=
  lowerAscii (trim text.toList) = leaf.text

instance (leaf : Leaf) (text : String) : Decidable (leaf.IsWrittenAs text) :=
  inferInstanceAs (Decidable (lowerAscii (trim text.toList) = leaf.text))

theorem isWrittenAs_text {leaf : Leaf} (fits : leaf.Fits) :
    leaf.IsWrittenAs (String.ofList leaf.text) := by
  have atom := leaf.isAtom_text fits
  rw [IsWrittenAs, String.toList_ofList, atom.trim_eq, atom.small]

end Leaf

/-- A separator between two written leaves makes the range of the dates that they denote, in any
case of their ASCII letters and with blanks around each of them.  A hyphen without spaces does so
where neither leaf holds another. -/
theorem written_ranges_read_as_written {now : Moment} {first last : Leaf}
    (firstPast : first.IsPast now) (lastPast : last.IsPast now) {start finish separator : String}
    (startWritten : first.IsWrittenAs start) (finishWritten : last.IsWrittenAs finish)
    (separated : separator ∈ [" - ", " – ", " — "] ∨
      (separator = "-" ∧ '-' ∉ first.text ∧ '-' ∉ last.text)) :
    parse now (start ++ separator ++ finish) = .ok (.range first.date last.date) := by
  have atom := first.isAtom_text firstPast.1
  have lastAtom := last.isAtom_text lastPast.1
  obtain ⟨before, back, startShape, beforeBlank, backBlank⟩ := exists_trim start.toList
  obtain ⟨front, behind, finishShape, frontBlank, behindBlank⟩ := exists_trim finish.toList
  have undashed {text : List Char} (atom : IsAtom text) (fresh : '-' ∉ text) :
      ∀ character ∈ text, isDash character = false := by
    intro character member
    rw [Bool.eq_false_iff]
    exact fun dashed => fresh (atom.plain.eq_hyphen_of_isDash member dashed ▸ member)
  have known : separator.toList ∈ [spaced '-', spaced '–', spaced '—'] ∨
      (separator.toList = ['-'] ∧ (∀ character ∈ first.text, isDash character = false) ∧
        ∀ character ∈ last.text, isDash character = false) := by
    rcases separated with listed | ⟨rfl, fresh, lastFresh⟩
    · exact .inl (List.mem_map_of_mem listed)
    · exact .inr ⟨rfl, undashed atom fresh, undashed lastAtom lastFresh⟩
  have listed : separator.toList ∈ separators := by
    rw [separators_eq]
    rcases known with spaced | ⟨bare, _⟩
    · exact List.mem_append_left [['-']] spaced
    · simp [bare]
  have caseless := isBlank_or_isDash_of_mem_separators listed
  have normal := normalise_range atom lastAtom backBlank frontBlank caseless startWritten
    ⟨before, beforeBlank, startShape⟩ finishWritten ⟨behind, behindBlank, finishShape⟩
  obtain ⟨after, ahead, afterBlank, aheadBlank, division⟩ :=
    exists_split atom lastAtom backBlank frontBlank known
  rw [parse, String.toList_append, String.toList_append]
  have content : ¬ (normalise (start.toList ++ separator.toList ++ finish.toList)).isEmpty =
      true := by
    rw [normal, List.isEmpty_iff]
    simp [atom.ne_nil]
  refine read_of_range content (normal ▸ division) (read_leaf firstPast ?_) (read_leaf lastPast ?_)
  · rw [trim_append_blank _ afterBlank, atom.trim_eq, atom.small]
  · rw [trim_blank_append _ aheadBlank, lastAtom.trim_eq, lastAtom.small]

/-- A marked year in capitals and a day with points, divided by a hyphen without spaces. -/
theorem hyphenated_range_read_as_written :
    parse (.midnight ⟨2024, 6, 1, by decide, by decide⟩) "  44 P.N.E.-31.05.2024 " =
      .ok (.range (.year 44 .beforeCommon true)
        (.calendar (.midnight ⟨2024, 5, 31, by decide, by decide⟩))) := by
  have past : Moment.midnight ⟨2024, 5, 31, by decide, by decide⟩ ≤
      .midnight ⟨2024, 6, 1, by decide, by decide⟩ := by
    decide
  exact @written_ranges_read_as_written (.midnight ⟨2024, 6, 1, by decide, by decide⟩)
    (.marked 44 .beforeCommon) (.pointed ⟨2024, 5, 31, by decide, by decide⟩)
    ⟨show 44 ≤ 2147483647 by decide, by decide, by decide, rfl⟩
    ⟨⟨by decide, by decide⟩, past⟩ "  44 P.N.E." "31.05.2024 " "-" (by decide +kernel)
    (by decide +kernel) (.inr ⟨rfl, by decide +kernel, by decide +kernel⟩)

end HistoricalDate
end MuseumRecord
