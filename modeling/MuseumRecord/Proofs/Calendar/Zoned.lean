import MuseumRecord.Calendar.Written
import MuseumRecord.Proofs.Number.Digits
import MuseumRecord.Schema.ValueType

/-!
# Days with a zone

The schema takes a day of the calendar with an optional zone and knows nothing of how far zones
reach; the reader of written dates completes day and zone to a timestamp.  The two agree where the
zone is one that a clock can show, and there the day is kept as it was written.
-/

namespace MuseumRecord
namespace Calendar

open Number Schema

/-- A day in four, two and two digits with hyphens between them. -/
inductive Spells : List Char → Day → Prop where
  /-- The digits denote the parts of the day. -/
  | digits {a b c d m n s t : Char} {day : Day}
      (year : [a, b, c, d].all isDigit = true) (month : [m, n].all isDigit = true)
      (number : [s, t].all isDigit = true) (yearRead : day.year = ofDigits [a, b, c, d])
      (monthRead : day.month = ofDigits [m, n]) (numberRead : day.day = ofDigits [s, t]) :
      Spells [a, b, c, d, '-', m, n, '-', s, t] day

/-- A zone whose hours and minutes, if there are any, are those of a clock. -/
def zoneExists : List Char → Bool
  | [_, h, i, ':', m, n] => decide (ofDigits [h, i] < 24 ∧ ofDigits [m, n] < 60)
  | _ => true

theorem Day.of?_eq_some {year : Int} {month number : Nat} {day : Day}
    (found : Day.of? year month number = some day) :
    day.year = year ∧ day.month = month ∧ day.day = number := by
  unfold Day.of? at found
  split at found
  · split at found
    · cases found
      exact ⟨rfl, rfl, rfl⟩
    · cases found
  · cases found

theorem Day.of?_self (day : Day) : Day.of? day.year day.month day.day = some day := by
  rw [Day.of?, dif_pos day.monthExists, dif_pos day.dayExists]

/-- What the schema takes for a date spells a day and carries a zone. -/
theorem exists_spells_of_isDate {text : List Char} (date : ValueType.isDate text = true) :
    ∃ front day zone, text = front ++ zone ∧ Spells front day ∧
      ValueType.isZone zone = true := by
  unfold ValueType.isDate at date
  split at date
  · next a b c d m n s t zone =>
    simp only [Bool.and_eq_true] at date
    obtain ⟨⟨digits, zoned⟩, present⟩ := date
    obtain ⟨day, found⟩ := Option.isSome_iff_exists.mp present
    obtain ⟨year, month, number⟩ := Day.of?_eq_some found
    simp only [List.all_cons, List.all_nil, Bool.and_true, Bool.and_eq_true] at digits
    refine ⟨[a, b, c, d, '-', m, n, '-', s, t], day, zone, rfl, .digits ?_ ?_ ?_ year month number,
      zoned⟩ <;> simp [digits]
  · cases date

/-- A zone is missing, the letter `Z`, or hours and minutes behind a sign. -/
theorem isZone_cases {zone : List Char} (zoned : ValueType.isZone zone = true) :
    zone = [] ∨ zone = ['Z'] ∨
      ∃ sign h i m n, zone = [sign, h, i, ':', m, n] ∧ (sign = '+' ∨ sign = '-') ∧
        [h, i].all isDigit = true ∧ [m, n].all isDigit = true := by
  unfold ValueType.isZone at zoned
  split at zoned
  · exact .inl rfl
  · exact .inr (.inl rfl)
  · next sign h i m n =>
    simp only [List.all_cons, List.all_nil, Bool.and_true, Bool.and_eq_true, Bool.or_eq_true,
      beq_iff_eq] at zoned
    obtain ⟨signed, hour, hourUnit, minute, minuteUnit⟩ := zoned
    exact .inr (.inr ⟨sign, h, i, m, n, rfl, signed, by simp [hour, hourUnit],
      by simp [minute, minuteUnit]⟩)
  · cases zoned

theorem isBlank_of_isDigit {character : Char} (digit : isDigit character = true) :
    Text.isBlank character = false := by
  have bounds := isDigit_iff.mp digit
  simp only [Text.isBlank, Bool.or_eq_false_iff, Bool.and_eq_false_iff, decide_eq_false_iff_not,
    beq_eq_false_iff_ne, ne_eq]
  omega

theorem trimStart_of_isDigit {head : Char} (digit : isDigit head = true) (rest : List Char) :
    Text.trimStart (head :: rest) = head :: rest :=
  List.dropWhile_cons_of_neg (by simp [isBlank_of_isDigit digit])

theorem ne_of_isDigit {character other : Char} (digit : isDigit character = true)
    (different : isDigit other = false) : character ≠ other := by
  rintro rfl
  rw [digit] at different
  cases different

theorem readYear?_of_isDigit {head : Char} (digit : isDigit head = true) (rest : List Char) :
    readYear? (head :: rest) =
      (leadingDigits? 4 (head :: rest)).map fun (value, after) => ((value : Int), after) := by
  have notMinus := ne_of_isDigit digit (show isDigit '-' = false from rfl)
  have notPlus := ne_of_isDigit digit (show isDigit '+' = false from rfl)
  simp [readYear?, notMinus, notPlus]

/-- One step of a reader that goes on. -/
theorem bind_of_some {α β : Type} {value : Option α} {found : α} (read : value = some found)
    (next : α → Option β) : (value >>= next) = next found := by
  rw [read]
  rfl

theorem after?_self (character : Char) (rest : List Char) :
    Timestamp.after? character (character :: rest) = some rest :=
  if_pos rfl

namespace Spells

variable {front : List Char} {day : Day}

theorem year_bounds (spells : Spells front day) : 0 ≤ day.year ∧ day.year ≤ 9999 := by
  cases spells with
  | @digits a b c d _ _ _ _ _ year _ _ yearRead _ _ =>
    have below : ofDigits [a, b, c, d] < 10 ^ 4 := ofDigits_lt year
    rw [yearRead]
    omega

/-- The digits of a day are what the layout of answers writes for it. -/
theorem write (spells : Spells front day) : isoDay.write (Moment.midnight day) = front := by
  have within := spells.year_bounds
  cases spells with
  | @digits a b c d m n s t _ year month number yearRead monthRead numberRead =>
    have yearText : padded 4 (ofDigits [a, b, c, d]) = [a, b, c, d] := padded_ofDigits year
    have monthText : padded 2 (ofDigits [m, n]) = [m, n] := padded_ofDigits month
    have numberText : padded 2 (ofDigits [s, t]) = [s, t] := padded_ofDigits number
    rw [yearRead] at within
    simp only [isoDay, yearFirst, Layout.write, List.flatMap_cons, List.flatMap_nil,
      LayoutItem.write, writeYear, Moment.midnight, yearRead, monthRead, numberRead, if_pos within,
      Int.toNat_natCast, yearText, monthText, numberText]
    rfl

/-- The layout of answers reads a day and leaves whatever follows it. -/
theorem read? (spells : Spells front day) (rest : List Char) :
    Layout.read? isoDay {} (front ++ rest) =
      some ({ year := some day.year, month := some day.month, day := some day.day }, rest) := by
  cases spells with
  | @digits a b c d m n s t _ year month number yearRead monthRead numberRead =>
    have yearTaken := leadingDigits?_four year ('-' :: m :: n :: '-' :: s :: t :: rest)
    have monthTaken := leadingDigits?_pair month ('-' :: s :: t :: rest)
    have numberTaken := leadingDigits?_pair number rest
    simp only [List.all_cons, Bool.and_eq_true] at year month number
    simp only [isoDay, yearFirst, List.cons_append, List.nil_append, Layout.read?,
      LayoutItem.read?, Field.read?, trimStart_of_isDigit year.1, trimStart_of_isDigit month.1,
      trimStart_of_isDigit number.1, readYear?_of_isDigit year.1, yearTaken, monthTaken,
      numberTaken, Option.map_some, if_true, yearRead, monthRead, numberRead]

/-- The numbers read for a day make up the day. -/
theorem day? (spells : Spells front day) :
    Reading.day? { year := some day.year, month := some day.month, day := some day.day } =
      some day := by
  have bounds := spells.year_bounds
  have within : readableYears.1 ≤ day.year ∧ day.year ≤ readableYears.2 := by
    simp only [readableYears]
    omega
  simp only [Reading.day?, if_pos within, Day.of?_self]

/-- Without a time of day there is no timestamp. -/
theorem timestamp_of_no_time (spells : Spells front day) {rest : List Char}
    (noTime : Timestamp.afterTimeMark? rest = none) : Timestamp.read? (front ++ rest) = none := by
  cases spells with
  | @digits a b c d m n s t _ year month number _ _ _ =>
    simp only [List.cons_append, List.nil_append]
    unfold Timestamp.read?
    refine (bind_of_some (exactDigits?_four year _) _).trans ?_
    refine (bind_of_some (after?_self '-' _) _).trans ?_
    refine (bind_of_some (exactDigits?_pair month _) _).trans ?_
    refine (bind_of_some (after?_self '-' _) _).trans ?_
    refine (bind_of_some (exactDigits?_pair number _) _).trans ?_
    simp only [noTime, Option.bind_eq_bind, Option.bind_none]

/-- Behind a day and its midnight, a fraction of a second and an offset make a timestamp. -/
theorem timestamp_of_fraction (spells : Spells front day) (zone : List Char) :
    Timestamp.read? (front ++ "T00:00:00".toList ++ zone) =
      (Timestamp.fraction? zone).bind fun (nano, text) =>
        (Timestamp.offset? text).bind fun (offset, rest) =>
          (Moment.ofClock? day 0 0 0 nano).bind fun moment =>
            if rest.isEmpty then some (moment.universal offset) else none := by
  cases spells with
  | @digits a b c d m n s t _ year month number yearRead monthRead numberRead =>
    have zeroTaken (rest : List Char) : exactDigits? 2 ('0' :: '0' :: rest) = some (0, rest) :=
      exactDigits?_pair (by decide) rest
    have present : Day.of? (ofDigits [a, b, c, d]) (ofDigits [m, n]) (ofDigits [s, t]) =
        some day := by
      rw [← yearRead, ← monthRead, ← numberRead, Day.of?_self]
    have marked (rest : List Char) : Timestamp.afterTimeMark? ('T' :: rest) = some rest := rfl
    have time : "T00:00:00".toList = ['T', '0', '0', ':', '0', '0', ':', '0', '0'] := rfl
    simp only [time, List.cons_append, List.nil_append]
    unfold Timestamp.read?
    refine (bind_of_some (exactDigits?_four year _) _).trans ?_
    refine (bind_of_some (after?_self '-' _) _).trans ?_
    refine (bind_of_some (exactDigits?_pair month _) _).trans ?_
    refine (bind_of_some (after?_self '-' _) _).trans ?_
    refine (bind_of_some (exactDigits?_pair number _) _).trans ?_
    refine (bind_of_some (marked _) _).trans ?_
    refine (bind_of_some (zeroTaken _) _).trans ?_
    refine (bind_of_some (after?_self ':' _) _).trans ?_
    refine (bind_of_some (zeroTaken _) _).trans ?_
    refine (bind_of_some (after?_self ':' _) _).trans ?_
    refine (bind_of_some (zeroTaken _) _).trans ?_
    refine congrArg (Option.bind _) (funext fun (nano, text) => ?_)
    refine congrArg (Option.bind _) (funext fun (offset, rest) => ?_)
    exact bind_of_some present _

/-- A day, its midnight and a zone make the timestamp that the zone completes. -/
theorem timestamp_of_midnight (spells : Spells front day) {zone : List Char}
    (unfractioned : Timestamp.fraction? zone = some (0, zone)) :
    Timestamp.read? (front ++ "T00:00:00".toList ++ zone) =
      (Timestamp.offset? zone).bind fun (offset, rest) =>
        if rest.isEmpty then some ((Moment.midnight day).universal offset) else none := by
  rw [spells.timestamp_of_fraction, unfractioned]
  rfl

end Spells

/-- Hours and minutes are read as a distance exactly when a clock shows them. -/
theorem distance?_pairs {h i m n : Char} (hours : [h, i].all isDigit = true)
    (minutes : [m, n].all isDigit = true) (rest : List Char) :
    Timestamp.distance? (h :: i :: ':' :: m :: n :: rest) =
      if ofDigits [h, i] < 24 ∧ ofDigits [m, n] < 60 then
        some (ofDigits [h, i] * 3600 + ofDigits [m, n] * 60, rest)
      else none := by
  simp only [Timestamp.distance?, exactDigits?_pair hours, exactDigits?_pair minutes,
    after?_self, Option.bind_eq_bind, Option.bind_some]

/-- The offset of a signed zone is read exactly when the zone exists. -/
theorem exists_offset?_of_signed {sign h i m n : Char} (signed : sign = '+' ∨ sign = '-')
    (hours : [h, i].all isDigit = true) (minutes : [m, n].all isDigit = true) :
    ∃ offset, Timestamp.offset? [sign, h, i, ':', m, n] =
      if zoneExists [sign, h, i, ':', m, n] then some (offset, []) else none := by
  have distance := distance?_pairs hours minutes []
  by_cases clock : ofDigits [h, i] < 24 ∧ ofDigits [m, n] < 60
  · rcases signed with rfl | rfl
    · refine ⟨ofDigits [h, i] * 3600 + ofDigits [m, n] * 60, ?_⟩
      simp [Timestamp.offset?, distance, zoneExists, clock]
    · refine ⟨-(ofDigits [h, i] * 3600 + ofDigits [m, n] * 60), ?_⟩
      simp [Timestamp.offset?, distance, zoneExists, clock]
  · refine ⟨0, ?_⟩
    rcases signed with rfl | rfl <;> simp [Timestamp.offset?, distance, zoneExists, clock]

namespace Spells

variable {front : List Char} {day : Day}

/-- The zoned reader takes every day with a zone that exists, and keeps the day. -/
theorem zonedDay?_append (spells : Spells front day) {zone : List Char}
    (zoned : ValueType.isZone zone = true) :
    zonedDay? (front ++ zone) = if zone ≠ [] ∧ zoneExists zone then some day else none := by
  simp only [zonedDay?, spells.read?, spells.day?, spells.write]
  obtain rfl | rfl | ⟨sign, h, i, m, n, rfl, signed, hours, minutes⟩ := isZone_cases zoned
  · rfl
  · rfl
  · have unfractioned : Timestamp.fraction? [sign, h, i, ':', m, n] =
        some (0, [sign, h, i, ':', m, n]) := by
      rcases signed with rfl | rfl <;> rfl
    obtain ⟨offset, offsetRead⟩ := exists_offset?_of_signed signed hours minutes
    rw [spells.timestamp_of_midnight unfractioned, offsetRead]
    by_cases known : zoneExists [sign, h, i, ':', m, n] = true <;> simp [known]

end Spells

/-! ## Layouts that no such text fits -/

/-- A layout that continues another is read in two steps. -/
theorem Layout.read?_append (first second : Layout) (reading : Reading) (text : List Char) :
    Layout.read? (first ++ second) reading text =
      (Layout.read? first reading text).bind fun (next, after) =>
        Layout.read? second next after := by
  induction first generalizing reading text with
  | nil => rfl
  | cons item first inductionHypothesis =>
    simp only [List.cons_append, Layout.read?]
    split
    · next next after _ => exact inductionHypothesis next after
    · rfl

/-- A word that leads with a letter is not found where a digit leads. -/
theorem afterWord?_of_isDigit {head letter : Char} (digit : isDigit head = true)
    (other : isDigit (Text.LowerCase.asciiLetter letter) = false) (word rest : List Char) :
    afterWord? (letter :: word) (head :: rest) = none := by
  have bounds := isDigit_iff.mp digit
  have kept : Text.LowerCase.asciiLetter head = head := by
    refine if_neg fun capital => ?_
    have above : 65 ≤ head.toNat := capital.1
    omega
  have different := ne_of_isDigit digit other
  refine if_neg fun same => different ?_
  simp only [List.length_cons, List.take_succ_cons, Text.lowerAscii, List.map_cons, kept,
    List.cons.injEq] at same
  exact same.1

theorem readShortMonth?_of_isDigit {head : Char} (digit : isDigit head = true)
    (rest : List Char) : readShortMonth? (head :: rest) = none := by
  have letters : ∀ index ∈ List.range 12, (shortMonthName (index + 1)).head?.any
      fun letter => !isDigit (Text.LowerCase.asciiLetter letter) := by
    decide +kernel
  refine List.findSome?_eq_none_iff.mpr fun index member => ?_
  have letter := letters index member
  cases name : shortMonthName (index + 1) with
  | nil => simp [name] at letter
  | cons first word =>
    rw [name, List.head?_cons, Option.any_some] at letter
    rw [afterWord?_of_isDigit digit (by simpa using letter), Option.map_none]

namespace Spells

variable {front : List Char} {day : Day}

/-- Whoever takes the year for a day of the month stops in front of its third digit. -/
theorem exists_read?_day (spells : Spells front day) (rest : List Char) :
    ∃ reading head tail, Field.read? {} (front ++ rest) .day = some (reading, head :: tail) ∧
      isDigit head = true := by
  cases spells with
  | @digits a b c d m n s t _ year _ _ _ _ _ =>
    simp only [List.all_cons, List.all_nil, Bool.and_true, Bool.and_eq_true] at year
    have pair : [a, b].all isDigit = true := by simp [year]
    refine ⟨{ day := some (ofDigits [a, b]) }, c, d :: '-' :: m :: n :: '-' :: s :: t :: rest, ?_,
      year.2.2.1⟩
    simp only [List.cons_append, List.nil_append, Field.read?, trimStart_of_isDigit year.1,
      leadingDigits?_pair pair, Option.map_some]

theorem read?_dayFirst (spells : Spells front day) {mark : Char} (other : isDigit mark = false)
    (layout : Layout) (rest : List Char) :
    Layout.read? (.number .day :: .mark mark :: layout) {} (front ++ rest) = none := by
  obtain ⟨reading, head, tail, taken, digit⟩ := spells.exists_read?_day rest
  simp only [Layout.read?, LayoutItem.read?, taken, if_neg (ne_of_isDigit digit other)]

theorem read?_dayMonth (spells : Spells front day) (full : Bool) (layout : Layout)
    (rest : List Char) :
    Layout.read? (.number .day :: .gap :: .monthName full :: layout) {} (front ++ rest) = none := by
  obtain ⟨reading, head, tail, taken, digit⟩ := spells.exists_read?_day rest
  have nameless := readShortMonth?_of_isDigit digit tail
  cases full <;>
    simp only [Layout.read?, LayoutItem.read?, taken, trimStart_of_isDigit digit, readMonth?,
      nameless, Option.map_none]

theorem read?_monthFirst (spells : Spells front day) (layout : Layout) (rest : List Char) :
    Layout.read? (.monthName true :: layout) {} (front ++ rest) = none := by
  cases spells with
  | @digits a b c d m n s t _ year _ _ _ _ _ =>
    simp only [List.all_cons, Bool.and_eq_true] at year
    simp only [List.cons_append, Layout.read?, LayoutItem.read?, readMonth?,
      readShortMonth?_of_isDigit year.1, Option.map_none]

/-- The hyphen after the year is no slash. -/
theorem read?_slashed (spells : Spells front day) (rest : List Char) :
    Layout.read? (yearFirst '/') {} (front ++ rest) = none := by
  cases spells with
  | @digits a b c d m n s t _ year _ _ _ _ _ =>
    have taken (rest : List Char) := leadingDigits?_four year rest
    simp only [List.all_cons, Bool.and_eq_true] at year
    simp [yearFirst, Layout.read?, LayoutItem.read?, Field.read?, trimStart_of_isDigit year.1,
      readYear?_of_isDigit year.1, taken]

/-- A zone is no time of day. -/
theorem read?_isoMoment (spells : Spells front day) {mark : LayoutItem} {zone : List Char}
    (zoned : ValueType.isZone zone = true)
    (known : mark = .mark 'T' ∨ mark = .mark 't' ∨ mark = .gap) :
    Layout.read? (isoDay ++ [mark] ++ clockSeconds) {} (front ++ zone) = none := by
  rw [List.append_assoc, Layout.read?_append, spells.read?, Option.bind_some]
  obtain rfl | rfl | ⟨sign, h, i, m, n, rfl, signed, _, _⟩ := isZone_cases zoned
  · rcases known with rfl | rfl | rfl <;> rfl
  · rcases known with rfl | rfl | rfl <;> rfl
  · rcases signed with rfl | rfl <;> rcases known with rfl | rfl | rfl <;> rfl

/-- No layout with a time of day fits a day with a zone. -/
theorem moment?_eq_none (spells : Spells front day) {zone : List Char}
    (zoned : ValueType.isZone zone = true) {layout : Layout} (listed : layout ∈ momentLayouts) :
    layout.moment? (front ++ zone) = none := by
  have unread : Layout.read? layout {} (front ++ zone) = none := by
    simp only [momentLayouts, List.mem_cons, List.not_mem_nil, or_false] at listed
    rcases listed with rfl | rfl | rfl | rfl | rfl | rfl | rfl
    · exact spells.read?_isoMoment zoned (.inl rfl)
    · exact spells.read?_isoMoment zoned (.inr (.inl rfl))
    · exact spells.read?_isoMoment zoned (.inr (.inr rfl))
    · exact spells.read?_dayFirst rfl _ zone
    · exact spells.read?_dayFirst rfl _ zone
    · exact spells.read?_dayFirst rfl _ zone
    · exact spells.read?_dayFirst rfl _ zone
  rw [Layout.moment?, unread]

/-- Of the layouts of a day, only that of answers fits, and only where no zone follows. -/
theorem day?_layout (spells : Spells front day) (zone : List Char) :
    (dayLayouts.findSome? fun layout => layout.day? (front ++ zone)) =
      if zone = [] then some day else none := by
  have first : isoDay.day? (front ++ zone) = if zone = [] then some day else none := by
    rw [Layout.day?, spells.read?]
    cases zone with
    | nil => exact spells.day?
    | cons head rest => rfl
  have others : ∀ layout ∈ dayLayouts.tail, layout.day? (front ++ zone) = none := by
    intro layout listed
    have unread : Layout.read? layout {} (front ++ zone) = none := by
      simp only [dayLayouts, List.tail_cons, List.mem_cons, List.not_mem_nil, or_false] at listed
      rcases listed with rfl | rfl | rfl | rfl | rfl | rfl
      · exact spells.read?_slashed zone
      · exact spells.read?_dayFirst rfl _ zone
      · exact spells.read?_dayFirst rfl _ zone
      · exact spells.read?_dayMonth true _ zone
      · exact spells.read?_dayMonth false _ zone
      · exact spells.read?_monthFirst _ zone
    rw [Layout.day?, unread]
  rw [dayLayouts, List.findSome?_cons, first]
  cases zone with
  | nil => rfl
  | cons head rest => exact List.findSome?_eq_none_iff.mpr others

end Spells

/-- The moment read from a date that the schema takes is the midnight of its day, if the zone
exists. -/
theorem written?_of_spells {front : List Char} {day : Day} (spells : Spells front day)
    {zone : List Char} (zoned : ValueType.isZone zone = true) {text : List Char}
    (trimmed : Text.trim text = front ++ zone) :
    written? text = if zoneExists zone then some (Moment.midnight day) else none := by
  have timeless : Timestamp.afterTimeMark? zone = none := by
    obtain rfl | rfl | ⟨sign, h, i, m, n, rfl, rfl | rfl, _, _⟩ := isZone_cases zoned <;> rfl
  have moments : momentLayouts.findSome? (fun layout => layout.moment? (front ++ zone)) = none :=
    List.findSome?_eq_none_iff.mpr fun layout listed => spells.moment?_eq_none zoned listed
  simp only [written?, trimmed, spells.timestamp_of_no_time timeless, spells.zonedDay?_append zoned,
    moments, spells.day?_layout]
  cases zone with
  | nil => rfl
  | cons head rest => cases zoneExists (head :: rest) <;> rfl

/-- What stands behind the ten characters of a day, blanks aside. -/
def zoneOf (value : String) : List Char :=
  (Text.trim value.toList).drop 10

/-- The reader of written dates takes what the schema takes for a date, provided that the zone
exists, and denotes the midnight of the day as written. -/
theorem written?_of_accepts {value : String} (accepted : ValueType.date.accepts value = true) :
    ∃ day, (Text.trim value.toList).take 10 = isoDay.write (Moment.midnight day) ∧
      written? value.toList =
        if zoneExists (zoneOf value) then some (Moment.midnight day) else none := by
  obtain ⟨front, day, zone, split, spells, zoned⟩ := exists_spells_of_isDate accepted
  have width : front.length = 10 := by
    cases spells
    rfl
  have zoneFound : zoneOf value = zone := by
    rw [zoneOf, split, List.drop_left' width]
  refine ⟨day, ?_, ?_⟩
  · rw [split, List.take_left' width, spells.write]
  · rw [zoneFound]
    exact written?_of_spells spells zoned split

end Calendar
end MuseumRecord
