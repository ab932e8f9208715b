import MuseumRecord.Proofs.Calendar.ReadBack
import MuseumRecord.Proofs.Calendar.Remainder

/-!
# What passes for a zone

The reader of a day with a zone puts what stands behind the day behind the day's midnight and asks
for a timestamp.  Besides a zone it therefore takes a zone behind a fraction of a second.
-/

namespace MuseumRecord
namespace Calendar

open Number

/-- The letter of the prime meridian, or hours and minutes of a clock behind a sign. -/
inductive IsZone : List Char → Prop where
  /-- The letter, of either case. -/
  | letter {letter : Char} (known : letter = 'Z' ∨ letter = 'z') : IsZone [letter]
  /-- A sign, also the mathematical minus, and a time of day. -/
  | signed {sign h i m n : Char} (known : sign = '+' ∨ sign = '-' ∨ sign = '\u2212')
      (hours : [h, i].all isDigit = true) (minutes : [m, n].all isDigit = true)
      (clock : ofDigits [h, i] < 24 ∧ ofDigits [m, n] < 60) : IsZone [sign, h, i, ':', m, n]

/-- A point and digits, or nothing. -/
def IsFraction (text : List Char) : Prop :=
  text = [] ∨ ∃ row, text = '.' :: row ∧ row ≠ [] ∧ row.all isDigit = true

/-! ## Offsets -/

section Offsets

variable {text rest zone fraction : List Char}

theorem exists_of_distance? {seconds : Nat}
    (read : Timestamp.distance? text = some (seconds, rest)) :
    ∃ h i m n, text = h :: i :: ':' :: m :: n :: rest ∧ [h, i].all isDigit = true ∧
      [m, n].all isDigit = true ∧ ofDigits [h, i] < 24 ∧ ofDigits [m, n] < 60 := by
  unfold Timestamp.distance? at read
  obtain ⟨⟨hours, behind⟩, hoursRead, read⟩ := Option.bind_eq_some_iff.mp read
  obtain ⟨ahead, colon, read⟩ := Option.bind_eq_some_iff.mp read
  obtain ⟨⟨minutes, left⟩, minutesRead, read⟩ := Option.bind_eq_some_iff.mp read
  obtain ⟨clock, found⟩ := Option.ite_none_right_eq_some.mp read
  obtain ⟨hourRow, rfl, hourDigits, hourLength, rfl⟩ := exists_row_of_exactDigits? hoursRead
  obtain rfl := Timestamp.eq_cons_of_after? colon
  obtain ⟨minuteRow, rfl, minuteDigits, minuteLength, rfl⟩ :=
    exists_row_of_exactDigits? minutesRead
  obtain ⟨h, i, rfl⟩ := List.length_eq_two.mp hourLength
  obtain ⟨m, n, rfl⟩ := List.length_eq_two.mp minuteLength
  cases found
  exact ⟨h, i, m, n, rfl, hourDigits, minuteDigits, clock⟩

/-- An offset that is read to the end is a zone. -/
theorem isZone_of_offset? {offset : Int} (read : Timestamp.offset? zone = some (offset, [])) :
    IsZone zone := by
  cases zone with
  | nil => cases read
  | cons sign rest =>
    have signed (change : Nat → Int) (known : sign = '+' ∨ sign = '-' ∨ sign = '\u2212')
        (read : ((Timestamp.distance? rest).map fun distance => (change distance.1, distance.2)) =
          some (offset, [])) : IsZone (sign :: rest) := by
      obtain ⟨⟨seconds, after⟩, distance, equal⟩ := Option.map_eq_some_iff.mp read
      cases equal
      obtain ⟨h, i, m, n, rfl, hours, minutes, clock⟩ := exists_of_distance? distance
      exact .signed known hours minutes clock
    simp only [Timestamp.offset?] at read
    split at read
    · next letter =>
      cases read
      exact .letter letter
    · split at read
      · next plus => exact signed (fun seconds => (seconds : Int)) (.inl plus) read
      · split at read
        · next minus => exact signed (fun seconds => -(seconds : Int)) (.inr minus) read
        · cases read

theorem IsZone.exists_offset? (isZone : IsZone zone) :
    ∃ offset, Timestamp.offset? zone = some (offset, []) := by
  cases isZone with
  | letter known => exact ⟨0, if_pos known⟩
  | @signed sign h i m n known hours minutes clock =>
    have distance := distance?_pairs hours minutes []
    rw [if_pos clock] at distance
    rcases known with rfl | rfl | rfl
    · exact ⟨_, by simp [Timestamp.offset?, distance]; rfl⟩
    · exact ⟨_, by simp [Timestamp.offset?, distance]; rfl⟩
    · exact ⟨_, by simp [Timestamp.offset?, distance]; rfl⟩

/-- No zone begins with a digit, with a point or with a mark between date and time. -/
theorem IsZone.exists_head (isZone : IsZone zone) :
    ∃ head tail, zone = head :: tail ∧ isDigit head = false ∧ head ≠ '.' ∧
      Timestamp.afterTimeMark? zone = none := by
  cases isZone with
  | letter known => rcases known with rfl | rfl <;> exact ⟨_, _, rfl, by decide⟩
  | signed known hours minutes clock =>
    rcases known with rfl | rfl | rfl <;> exact ⟨_, _, rfl, rfl, by decide, rfl⟩

/-! ## Fractions -/

theorem exists_of_fraction? {nano : Nat}
    (read : Timestamp.fraction? text = some (nano, rest)) :
    ∃ fraction, text = fraction ++ rest ∧ IsFraction fraction := by
  cases text with
  | nil =>
    cases read
    exact ⟨[], rfl, .inl rfl⟩
  | cons head tail =>
    by_cases point : head = '.'
    · subst point
      simp only [Timestamp.fraction?] at read
      split at read
      · cases read
      · next filled =>
        cases read
        have digits : (tail.takeWhile isDigit).all isDigit = true := List.all_takeWhile
        obtain ⟨left, whole⟩ : tail.takeWhile isDigit <+: tail := List.takeWhile_prefix _
        generalize tail.takeWhile isDigit = row at *
        subst whole
        exact ⟨'.' :: row, by rw [List.drop_left]; rfl,
          .inr ⟨row, rfl, by simpa using filled, digits⟩⟩
    · rw [Timestamp.fraction?_of_ne point] at read
      cases read
      exact ⟨[], rfl, .inl rfl⟩

theorem IsFraction.exists_fraction? (isFraction : IsFraction fraction) {head : Char}
    (undigit : isDigit head = false) (pointless : head ≠ '.') (rest : List Char) :
    ∃ nano, Timestamp.fraction? (fraction ++ head :: rest) = some (nano, head :: rest) ∧
      nano < nanosPerSecond := by
  rcases isFraction with rfl | ⟨row, rfl, filled, digits⟩
  · exact ⟨0, Timestamp.fraction?_of_ne pointless rest, by decide⟩
  · have taken : (row ++ head :: rest).takeWhile isDigit = row := by
      rw [List.takeWhile_append_of_pos (List.all_eq_true.mp digits)]
      simp [undigit]
    have padding : ((row ++ List.replicate 9 '0').take 9).all isDigit = true :=
      all_isDigit_take (by simp [digits]; decide) 9
    have small := ofDigits_lt padding
    have length : ((row ++ List.replicate 9 '0').take 9).length = 9 := by simp
    rw [length] at small
    refine ⟨ofDigits ((row ++ List.replicate 9 '0').take 9), ?_, small⟩
    simp [Timestamp.fraction?, taken, filled]

end Offsets

/-! ## Zones behind a day -/

section Behind

variable {day found : Day} {text : List Char}

/-- A fraction of a second does not reach the next second. -/
theorem exists_ofClock?_midnight (day : Day) {nano : Nat} (small : nano < nanosPerSecond) :
    ∃ moment, Moment.ofClock? day 0 0 0 nano = some moment := by
  rw [Moment.ofClock?, dif_pos ⟨by decide, by decide, small⟩, dif_pos (by decide)]
  exact ⟨_, rfl⟩

/-- A day's midnight is completed to a timestamp by a zone, also behind a fraction of a second. -/
theorem exists_timestamp_iff (fourDigits : day.HasFourDigits) :
    (∃ moment, Timestamp.read?
        (isoDay.write (Moment.midnight day) ++ "T00:00:00".toList ++ text) = some moment) ↔
      ∃ fraction zone, text = fraction ++ zone ∧ IsFraction fraction ∧ IsZone zone := by
  have fourDigits : (Moment.midnight day).day.HasFourDigits := fourDigits
  rw [fourDigits.spells.timestamp_of_fraction]
  constructor
  · rintro ⟨moment, read⟩
    obtain ⟨⟨nano, behind⟩, fractionRead, read⟩ := Option.bind_eq_some_iff.mp read
    obtain ⟨⟨offset, rest⟩, offsetRead, read⟩ := Option.bind_eq_some_iff.mp read
    obtain ⟨midnight, _, read⟩ := Option.bind_eq_some_iff.mp read
    obtain ⟨nothing, _⟩ := Option.ite_none_right_eq_some.mp read
    obtain rfl := List.isEmpty_iff.mp nothing
    obtain ⟨fraction, rfl, isFraction⟩ := exists_of_fraction? fractionRead
    exact ⟨fraction, behind, rfl, isFraction, isZone_of_offset? offsetRead⟩
  · rintro ⟨fraction, zone, rfl, isFraction, isZone⟩
    obtain ⟨offset, offsetRead⟩ := isZone.exists_offset?
    obtain ⟨head, tail, rfl, undigit, pointless, _⟩ := isZone.exists_head
    obtain ⟨nano, fractionRead, small⟩ := isFraction.exists_fraction? undigit pointless tail
    obtain ⟨moment, clock⟩ := exists_ofClock?_midnight day small
    have clock : Moment.ofClock? (Moment.midnight day).day 0 0 0 nano = some moment := clock
    exact ⟨moment.universal offset, by simp [fractionRead, offsetRead, clock]⟩

/-- A day whose year is written with a sign begins no timestamp. -/
theorem timestamp_of_signed (distant : ¬ day.HasFourDigits) (rest : List Char) :
    Timestamp.read? (isoDay.write (Moment.midnight day) ++ rest) = none := by
  obtain ⟨sign, tail, shape, undigit⟩ : ∃ sign tail,
      isoDay.write (Moment.midnight day) = sign :: tail ∧ isDigit sign = false := by
    have year : writeYear day.year =
        (if day.year < 0 then '-' else '+') :: padded 4 day.year.natAbs := if_neg distant
    have whole : isoDay.write (Moment.midnight day) =
        writeYear day.year ++ Layout.write (isoDay.drop 1) (Moment.midnight day) :=
      Layout.write_cons _ _
    rw [whole, year]
    exact ⟨_, _, List.cons_append, by split <;> rfl⟩
  have unread : exactDigits? 4 (sign :: tail ++ rest) = none := by
    simp [exactDigits?, undigit]
  rw [shape]
  unfold Timestamp.read?
  rw [unread]
  rfl

/-- What is taken for a zone behind a day: a zone, also behind a fraction of a second, but a letter
alone where the year does not have four digits. -/
theorem withZone?_eq_some_iff :
    withZone? day text = some found ↔ found = day ∧ ∃ fraction zone, text = fraction ++ zone ∧
      IsFraction fraction ∧ IsZone zone ∧
      (day.HasFourDigits ∨ (fraction = [] ∧ (zone = ['Z'] ∨ zone = ['z']))) := by
  by_cases letter : text = ['Z'] ∨ text = ['z']
  · have isZone : IsZone text := by
      rcases letter with rfl | rfl
      · exact .letter (.inl rfl)
      · exact .letter (.inr rfl)
    rw [withZone?, if_pos letter, Option.some.injEq]
    constructor
    · rintro rfl
      exact ⟨rfl, [], text, rfl, .inl rfl, isZone, .inr ⟨rfl, letter⟩⟩
    · rintro ⟨rfl, _⟩
      rfl
  · rw [withZone?, if_neg letter]
    constructor
    · intro read
      split at read
      · cases read
      · obtain ⟨moment, stamp, rfl⟩ := Option.map_eq_some_iff.mp read
        by_cases fourDigits : day.HasFourDigits
        · obtain ⟨fraction, zone, whole, isFraction, isZone⟩ :=
            (exists_timestamp_iff fourDigits).mp ⟨moment, stamp⟩
          exact ⟨rfl, fraction, zone, whole, isFraction, isZone, .inl fourDigits⟩
        · rw [List.append_assoc, timestamp_of_signed fourDigits] at stamp
          cases stamp
    · rintro ⟨rfl, fraction, zone, rfl, isFraction, isZone, fourDigits | ⟨rfl, known⟩⟩
      · obtain ⟨moment, stamp⟩ :=
          (exists_timestamp_iff fourDigits).mpr ⟨fraction, zone, rfl, isFraction, isZone⟩
        obtain ⟨head, tail, rfl, _⟩ := isZone.exists_head
        rw [if_neg (by simp), stamp, Option.map_some]
      · exact absurd known letter

end Behind

/-! ## Days with a zone -/

section Zoned

variable {day : Day} {text : List Char}

theorem Layout.day?_eq_some_iff {layout : Layout} :
    layout.day? text = some day ↔
      ∃ reading, Layout.read? layout {} text = some (reading, []) ∧ reading.day? = some day := by
  rw [Layout.day?_eq, Option.bind_eq_bind, Option.bind_eq_some_iff]
  constructor
  · rintro ⟨⟨reading, rest⟩, read, found⟩
    obtain ⟨nothing, found⟩ := Option.ite_none_right_eq_some.mp found
    obtain rfl := List.isEmpty_iff.mp nothing
    exact ⟨reading, read, found⟩
  · rintro ⟨reading, read, found⟩
    exact ⟨(reading, []), read, found⟩

/-- The layout of answers reads a day from the front alone as it does in front of what begins with
no digit. -/
theorem read?_isoDay_iff {reading : Reading} {behind : List Char}
    (stops : ∀ character ∈ behind.head?, isDigit character = false) :
    Layout.read? isoDay {} text = some (reading, behind) ↔
      ∃ front, text = front ++ behind ∧ Layout.read? isoDay {} front = some (reading, []) := by
  have rigid : isoDay.all LayoutItem.isRigid = true := by decide
  constructor
  · intro read
    obtain ⟨front, rfl, again⟩ := Layout.exists_front rigid read
    have alone := again [] fun _ head => nomatch head
    rw [List.append_nil] at alone
    exact ⟨front, rfl, alone⟩
  · rintro ⟨front, rfl, alone⟩
    obtain ⟨whole, split, again⟩ := Layout.exists_front rigid alone
    obtain rfl : front = whole := by simpa using split
    refine again behind fun character head digit => ?_
    rw [stops character head] at digit
    cases digit

/-- A day with a zone is a day that the layout of answers reads and a zone, also behind a fraction
of a second, but without one and with a letter where the year does not have four digits. -/
theorem zonedDay?_eq_some_iff :
    zonedDay? text = some day ↔ ∃ front fraction zone, text = front ++ (fraction ++ zone) ∧
      isoDay.day? front = some day ∧ IsFraction fraction ∧ IsZone zone ∧
      (day.HasFourDigits ∨ (fraction = [] ∧ (zone = ['Z'] ∨ zone = ['z']))) := by
  have stops {fraction zone : List Char} (isFraction : IsFraction fraction) (isZone : IsZone zone) :
      ∀ character ∈ (fraction ++ zone).head?, isDigit character = false := by
    intro character head
    rcases isFraction with rfl | ⟨row, rfl, _⟩
    · obtain ⟨first, rest, rfl, undigit, _⟩ := isZone.exists_head
      cases head
      exact undigit
    · cases head
      rfl
  rw [zonedDay?_eq, Option.bind_eq_bind, Option.bind_eq_some_iff]
  constructor
  · rintro ⟨⟨reading, behind⟩, read, rest⟩
    obtain ⟨own, found, zoned⟩ := Option.bind_eq_some_iff.mp rest
    obtain ⟨rfl, fraction, zone, rfl, isFraction, isZone, known⟩ := withZone?_eq_some_iff.mp zoned
    obtain ⟨front, rfl, alone⟩ := (read?_isoDay_iff (stops isFraction isZone)).mp read
    have dated := Layout.day?_eq_some_iff.mpr ⟨reading, alone, found⟩
    exact ⟨front, fraction, zone, rfl, dated, isFraction, isZone, known⟩
  · rintro ⟨front, fraction, zone, rfl, read, isFraction, isZone, known⟩
    obtain ⟨reading, alone, found⟩ := Layout.day?_eq_some_iff.mp read
    refine ⟨(reading, fraction ++ zone),
      (read?_isoDay_iff (stops isFraction isZone)).mpr ⟨front, rfl, alone⟩, ?_⟩
    exact (bind_of_some found _).trans
      (withZone?_eq_some_iff.mpr ⟨rfl, fraction, zone, rfl, isFraction, isZone, known⟩)

/-- Nothing is trimmed from a day and its zone. -/
theorem Spells.trim_append {front zone : List Char} (spells : Spells front day)
    (isZone : IsZone zone) : Text.trim (front ++ zone) = front ++ zone := by
  apply Text.trim_eq_self
  · cases spells with
    | digits year month number _ _ _ =>
      rw [List.all_cons, Bool.and_eq_true] at year
      rintro character head
      cases head
      exact isBlank_of_isDigit year.1
  · cases isZone with
    | letter known =>
      rw [List.getLast?_append_of_ne_nil _ (List.cons_ne_nil _ _)]
      rintro character last
      cases last
      rcases known with rfl | rfl <;> rfl
    | signed known hours minutes clock =>
      rw [List.getLast?_append_of_ne_nil _ (List.cons_ne_nil _ _)]
      rintro character last
      cases last
      simp only [List.all_cons, List.all_nil, Bool.and_true, Bool.and_eq_true] at minutes
      exact isBlank_of_isDigit minutes.2

/-- A day in front of a zone is kept as it was written. -/
theorem Spells.zoned {front zone : List Char} (spells : Spells front day) (isZone : IsZone zone) :
    zonedDay? (front ++ zone) = some day ∧
      written? (front ++ zone) = some (Moment.midnight day) := by
  have alone := spells.read? []
  rw [List.append_nil] at alone
  have zoned : zonedDay? (front ++ zone) = some day :=
    zonedDay?_eq_some_iff.mpr ⟨front, [], zone, rfl,
      Layout.day?_eq_some_iff.mpr ⟨_, alone, spells.day?⟩, .inl rfl, isZone,
      .inl spells.year_bounds⟩
  obtain ⟨_, _, _, _, _, timeless⟩ := isZone.exists_head
  refine ⟨zoned, ?_⟩
  simp only [written?, spells.trim_append isZone, spells.timestamp_of_no_time timeless, zoned]
  rfl

end Zoned

/-- What the reader of a day with a zone takes, and the day it finds: a day that the layout of
answers reads and behind it a zone, between which a fraction of a second may stand; where the year
has a sign or more than four digits, the zone is a letter and no fraction stands in front of it.  A
day in four, two and two digits with a zone behind it is kept as it was written, whatever the
zone. -/
theorem zoned_days_are_days_with_zones (text : List Char) (day : Day) :
    (zonedDay? text = some day ↔ ∃ front fraction zone, text = front ++ (fraction ++ zone) ∧
        isoDay.day? front = some day ∧ IsFraction fraction ∧ IsZone zone ∧
        (day.HasFourDigits ∨ (fraction = [] ∧ (zone = ['Z'] ∨ zone = ['z'])))) ∧
      ∀ front zone, Spells front day → IsZone zone → text = front ++ zone →
        zonedDay? text = some day ∧ written? text = some (Moment.midnight day) := by
  refine ⟨zonedDay?_eq_some_iff, ?_⟩
  rintro front zone spells isZone rfl
  exact spells.zoned isZone

/-- Half a second behind a day passes with its zone, which is no zone alone. -/
theorem fraction_passes_for_zone :
    zonedDay? "2020-01-01.5Z".toList = some ⟨2020, 1, 1, by decide, by decide⟩ ∧
      ¬ ∃ front zone, "2020-01-01.5Z".toList = front ++ zone ∧
        isoDay.day? front = some ⟨2020, 1, 1, by decide, by decide⟩ ∧ IsZone zone := by
  refine ⟨by decide +kernel, ?_⟩
  rintro ⟨front, zone, whole, read, isZone⟩
  cases isZone with
  | letter known =>
    have shorter : front = "2020-01-01.5".toList := by
      have dropped := congrArg List.dropLast whole
      rw [List.dropLast_concat] at dropped
      exact dropped.symm
    rw [shorter] at read
    exact absurd read (by decide +kernel)
  | signed known hours minutes clock =>
    have ends := congrArg List.reverse whole
    simp at ends

end Calendar
end MuseumRecord
