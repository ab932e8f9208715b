import MuseumRecord.Proofs.Calendar.Overlap
import MuseumRecord.Proofs.Text.Trimmed

/-!
# Layouts read back

A moment is read back from what any of the listed layouts writes, as far as the layout shows it: the
readers that are tried before the layout find nothing, or the same day.
-/

namespace MuseumRecord
namespace Calendar

open Number

namespace Moment

variable {moment : Moment}

/-- A moment without a fraction of a second, also in a leap second. -/
def IsWhole (moment : Moment) : Prop :=
  moment.nano = 0 ∨ (moment.nano = nanosPerSecond ∧ moment.second % 60 = 59)

/-- The start of the minute. -/
def startOfMinute (moment : Moment) : Moment :=
  ⟨moment.day, moment.second - moment.second % 60, 0,
    Nat.lt_of_le_of_lt (Nat.sub_le _ _) moment.secondBound, Nat.zero_lt_of_lt moment.nanoBound⟩

theorem clock_bounds (moment : Moment) : moment.hour < 24 ∧ moment.minute < 60 := by
  have bound := moment.secondBound
  simp only [secondsPerDay] at bound
  constructor
  · change moment.second / 3600 < 24
    omega
  · change moment.second / 60 % 60 < 60
    omega

theorem ofClock?_eq {day : Day} {hour minute second : Nat} (hours : hour < 24)
    (minutes : minute < 60) (seconds : second < 60) (sameDay : moment.day = day)
    (total : moment.second = hour * 3600 + minute * 60 + second) (whole : moment.nano = 0) :
    Moment.ofClock? day hour minute second 0 = some moment := by
  obtain ⟨_, _, _, _, _⟩ := moment
  cases sameDay
  cases total
  cases whole
  rw [Moment.ofClock?, dif_pos ⟨hours, minutes, by decide⟩, dif_pos seconds]
  rfl

theorem ofClock?_sixty {day : Day} {hour minute : Nat} (hours : hour < 24)
    (minutes : minute < 60) (sameDay : moment.day = day)
    (total : moment.second = hour * 3600 + minute * 60 + 59)
    (leap : moment.nano = nanosPerSecond) :
    Moment.ofClock? day hour minute 60 0 = some moment := by
  obtain ⟨_, _, _, _, _⟩ := moment
  cases sameDay
  cases total
  cases leap
  rw [Moment.ofClock?, dif_pos ⟨hours, minutes, by decide⟩, dif_neg (by decide), if_pos rfl]
  rfl

/-- A moment is made up of its numbers. -/
theorem IsWhole.ofClock? (whole : moment.IsWhole) :
    Moment.ofClock? moment.day moment.hour moment.minute moment.clockSecond 0 = some moment := by
  obtain ⟨hours, minutes⟩ := moment.clock_bounds
  have parts : moment.second = moment.hour * 3600 + moment.minute * 60 + moment.second % 60 := by
    change moment.second = moment.second / 3600 * 3600 + moment.second / 60 % 60 * 60 + _
    omega
  rcases whole with whole | ⟨leap, last⟩
  · have shown : moment.clockSecond = moment.second % 60 := by
      rw [clockSecond, whole, Nat.zero_div, Nat.add_zero]
    rw [shown]
    exact ofClock?_eq hours minutes (Nat.mod_lt _ (by decide)) rfl parts whole
  · have shown : moment.clockSecond = 60 := by
      rw [clockSecond, last, leap, Nat.div_self (by decide)]
    rw [shown]
    exact ofClock?_sixty hours minutes rfl (last ▸ parts) leap

theorem ofClock?_minute (moment : Moment) :
    Moment.ofClock? moment.day moment.hour moment.minute 0 0 = some moment.startOfMinute := by
  obtain ⟨hours, minutes⟩ := moment.clock_bounds
  refine ofClock?_eq hours minutes (by decide) rfl ?_ rfl
  change moment.second - moment.second % 60 =
    moment.second / 3600 * 3600 + moment.second / 60 % 60 * 60 + 0
  omega

end Moment

/-- What a layout shows of a moment: the start of its day where no hour is written, the start of its
minute where no seconds are. -/
def Layout.shown (layout : Layout) (moment : Moment) : Moment :=
  if .number .second ∈ layout then moment
  else if .number .hour ∈ layout then moment.startOfMinute
  else Moment.midnight moment.day

/-! ## Numbers found -/

section Found

variable {reading : Reading} {moment : Moment}

theorem Reading.day?_eq (fourDigits : moment.day.HasFourDigits)
    (year : reading.year = some (moment.day.year.toNat : Int))
    (month : reading.month = some moment.day.month) (number : reading.day = some moment.day.day) :
    reading.day? = some moment.day := by
  unfold Day.HasFourDigits at fourDigits
  have same : (moment.day.year.toNat : Int) = moment.day.year := Int.toNat_of_nonneg fourDigits.1
  have within : readableYears.1 ≤ moment.day.year ∧ moment.day.year ≤ readableYears.2 := by
    simp only [readableYears]
    omega
  simp only [Reading.day?, year, month, number, same, if_pos within, Day.of?_self]

theorem Reading.moment?_eq {second : Nat} (day : reading.day? = some moment.day)
    (hour : reading.hour = some moment.hour) (minute : reading.minute = some moment.minute)
    (seconds : reading.second.getD 0 = second) :
    reading.moment? = Moment.ofClock? moment.day moment.hour moment.minute second 0 := by
  simp only [Reading.moment?, day, hour, minute, seconds]

end Found

/-! ## Texts without a zone -/

/-- A text that is neither a timestamp nor a day with a zone. -/
def IsZoneless (text : List Char) : Prop :=
  Timestamp.read? text = none ∧ zonedDay? text = none

theorem Timestamp.eq_cons_of_after? {character : Char} {text rest : List Char}
    (read : after? character text = some rest) : text = character :: rest := by
  cases text with
  | nil => cases read
  | cons head text =>
    obtain ⟨rfl, found⟩ := Option.ite_none_right_eq_some.mp read
    rw [Option.some.inj found]

/-- Numbers in the layout of answers are read, and the rest is left. -/
theorem isoDay_read?_rows {year month day : List Char} (yearDigits : year.all isDigit = true)
    (monthDigits : month.all isDigit = true) (dayDigits : day.all isDigit = true)
    (yearLength : year.length = 4) (monthLength : month.length = 2) (dayLength : day.length = 2)
    (rest : List Char) :
    Layout.read? isoDay {} (year ++ '-' :: (month ++ '-' :: (day ++ rest))) =
      some ({ year := some (ofDigits year), month := some (ofDigits month),
              day := some (ofDigits day) }, rest) := by
  have yearRead := @Field.read?_row year yearDigits .year yearLength
  have monthRead := @Field.read?_row month monthDigits .month monthLength
  have dayRead := @Field.read?_row day dayDigits .day dayLength
  simp only [isoDay, yearFirst, Layout.read?, LayoutItem.read?, yearRead, monthRead, dayRead,
    if_true, Field.set]

/-- A timestamp begins with a day in the layout of answers. -/
theorem isZoneless_of_unread {text : List Char} (unread : Layout.read? isoDay {} text = none) :
    IsZoneless text := by
  refine ⟨?_, by rw [zonedDay?, unread]⟩
  cases stamp : Timestamp.read? text with
  | none => rfl
  | some moment =>
    unfold Timestamp.read? at stamp
    obtain ⟨⟨year, afterYear⟩, yearRead, stamp⟩ := Option.bind_eq_some_iff.mp stamp
    obtain ⟨beforeMonth, firstMark, stamp⟩ := Option.bind_eq_some_iff.mp stamp
    obtain ⟨⟨month, afterMonth⟩, monthRead, stamp⟩ := Option.bind_eq_some_iff.mp stamp
    obtain ⟨beforeDay, secondMark, stamp⟩ := Option.bind_eq_some_iff.mp stamp
    obtain ⟨⟨day, rest⟩, dayRead, _⟩ := Option.bind_eq_some_iff.mp stamp
    obtain ⟨yearRow, rfl, yearDigits, yearLength, _⟩ := exists_row_of_exactDigits? yearRead
    obtain rfl := Timestamp.eq_cons_of_after? firstMark
    obtain ⟨monthRow, rfl, monthDigits, monthLength, _⟩ := exists_row_of_exactDigits? monthRead
    obtain rfl := Timestamp.eq_cons_of_after? secondMark
    obtain ⟨dayRow, rfl, dayDigits, dayLength, _⟩ := exists_row_of_exactDigits? dayRead
    rw [isoDay_read?_rows yearDigits monthDigits dayDigits yearLength monthLength dayLength]
      at unread
    cases unread

section Answers

variable {moment : Moment}

/-- A day of four digits is written as the schema spells it. -/
theorem Day.HasFourDigits.spells (fourDigits : moment.day.HasFourDigits) :
    Spells (isoDay.write moment) moment.day := by
  obtain ⟨year, yearShape, yearDigits, yearLength, yearValue⟩ := Field.exists_row fourDigits .year
  obtain ⟨month, monthShape, monthDigits, monthLength, monthValue⟩ :=
    Field.exists_row fourDigits .month
  obtain ⟨day, dayShape, dayDigits, dayLength, dayValue⟩ := Field.exists_row fourDigits .day
  have whole : isoDay.write moment = year ++ '-' :: (month ++ '-' :: (day ++ [])) := by
    rw [← yearShape, ← monthShape, ← dayShape]
    rfl
  obtain ⟨a, b, c, d, rfl⟩ : ∃ a b c d, year = [a, b, c, d] := List.length_eq_four.mp yearLength
  obtain ⟨m, n, rfl⟩ := List.length_eq_two.mp monthLength
  obtain ⟨s, t, rfl⟩ := List.length_eq_two.mp dayLength
  have sameYear : moment.day.year = ofDigits [a, b, c, d] := by
    rw [yearValue]
    exact (Int.toNat_of_nonneg fourDigits.1).symm
  rw [whole]
  exact .digits yearDigits monthDigits dayDigits sameYear monthValue.symm dayValue.symm

/-- A time of day behind a day asks for a zone. -/
theorem Spells.timestamp_of_unzoned {front : List Char} {day : Day} (spells : Spells front day)
    (fourDigits : moment.day.HasFourDigits) {mark : Char}
    (known : mark = 'T' ∨ mark = 't' ∨ mark = ' ') :
    Timestamp.read? (front ++ mark :: clockSeconds.write moment) = none := by
  have exact2 {field : Field} (width : field.width = 2) (rest : List Char) :
      exactDigits? 2 ((LayoutItem.number field).write moment ++ rest) =
        some (field.valueOf moment, rest) := by
    obtain ⟨row, shape, digits, length, value⟩ := field.exists_row fourDigits
    rw [shape, ← width, ← length, ← value]
    exact exactDigits?_append digits rest
  have clock : clockSeconds.write moment = (LayoutItem.number .hour).write moment ++
      ':' :: ((LayoutItem.number .minute).write moment ++
        ':' :: ((LayoutItem.number .second).write moment ++ [])) := rfl
  have marked (rest : List Char) : Timestamp.afterTimeMark? (mark :: rest) = some rest :=
    if_pos known
  have unfractioned : Timestamp.fraction? [] = some (0, []) := rfl
  cases spells with
  | @digits a b c d m n s t _ year month number _ _ _ =>
    simp only [List.cons_append, List.nil_append, clock]
    unfold Timestamp.read?
    refine (bind_of_some (exactDigits?_four year _) _).trans ?_
    refine (bind_of_some (after?_self '-' _) _).trans ?_
    refine (bind_of_some (exactDigits?_pair month _) _).trans ?_
    refine (bind_of_some (after?_self '-' _) _).trans ?_
    refine (bind_of_some (exactDigits?_pair number _) _).trans ?_
    refine (bind_of_some (marked _) _).trans ?_
    refine (bind_of_some (@exact2 .hour rfl _) _).trans ?_
    refine (bind_of_some (after?_self ':' _) _).trans ?_
    refine (bind_of_some (@exact2 .minute rfl _) _).trans ?_
    refine (bind_of_some (after?_self ':' _) _).trans ?_
    refine (bind_of_some (@exact2 .second rfl _) _).trans ?_
    exact bind_of_some unfractioned _

/-- A day and a time of day are neither a timestamp nor a day with a zone. -/
theorem isZoneless_of_timed (fourDigits : moment.day.HasFourDigits) {mark : Char}
    (known : mark = 'T' ∨ mark = 't' ∨ mark = ' ') :
    IsZoneless (isoDay.write moment ++ mark :: clockSeconds.write moment) := by
  have spells := fourDigits.spells
  refine ⟨spells.timestamp_of_unzoned fourDigits known, ?_⟩
  have other : mark ≠ 'Z' ∧ mark ≠ 'z' ∧ mark ≠ '.' := by
    rcases known with rfl | rfl | rfl <;> decide
  have offsetless : Timestamp.offset? (mark :: clockSeconds.write moment) = none := by
    rcases known with rfl | rfl | rfl <;> rfl
  have unfractioned := Timestamp.fraction?_of_ne other.2.2 (clockSeconds.write moment)
  have stamp := spells.timestamp_of_midnight unfractioned
  rw [offsetless] at stamp
  simp only [zonedDay?, spells.read?, spells.day?, spells.write, stamp]
  simp [other]

end Answers

/-! ## Written dates -/

/-- A number. -/
def LayoutItem.isNumber : LayoutItem → Bool
  | .number _ => true
  | _ => false

/-- Every layout begins with a number or a name, ends with a number and has its gaps in front of
numbers and names. -/
theorem layouts_solid :
    ∀ layout ∈ momentLayouts ++ dayLayouts, layout.isSpaced = true ∧
      layout.head?.any LayoutItem.isSolid = true ∧
      layout.getLast?.any LayoutItem.isNumber = true := by
  decide

section Written

variable {moment : Moment} {layout : Layout}

/-- No blank leads what a layout writes. -/
theorem head_write_solid (fourDigits : moment.day.HasFourDigits)
    (listed : layout ∈ momentLayouts ++ dayLayouts) :
    ∀ character ∈ (layout.write moment).head?, Text.isBlank character = false := by
  obtain ⟨_, begins, _⟩ := layouts_solid layout listed
  cases layout with
  | nil => cases begins
  | cons item items =>
    intro character head
    have start := LayoutItem.trimStart_write fourDigits begins (Layout.write items moment)
    rw [← Layout.write_cons] at start
    rw [← start] at head
    exact Text.solid_of_mem_head?_trimStart _ character head

/-- A digit ends what a layout writes. -/
theorem last_write_isDigit (fourDigits : moment.day.HasFourDigits)
    (listed : layout ∈ momentLayouts ++ dayLayouts) :
    ∀ character ∈ (layout.write moment).getLast?, isDigit character = true := by
  obtain ⟨_, _, ends⟩ := layouts_solid layout listed
  cases last : layout.getLast? with
  | none =>
    rw [last] at ends
    cases ends
  | some item =>
    rw [last] at ends
    obtain ⟨items, rfl⟩ := List.getLast?_eq_some_iff.mp last
    cases item with
    | number field =>
      obtain ⟨row, shape, digits, length, _⟩ := field.exists_row fourDigits
      have filled : row ≠ [] := by
        rw [← List.length_pos_iff, length]
        exact field.width_pos
      have tail : Layout.write [.number field] moment = row := by
        rw [Layout.write_cons, shape]
        exact List.append_nil row
      intro character ends
      rw [Layout.write_append, tail, List.getLast?_append_of_ne_nil _ filled] at ends
      exact List.all_eq_true.mp digits _ (List.mem_of_mem_getLast? ends)
    | monthName full => cases ends
    | mark character => cases ends
    | gap => cases ends

/-- Nothing is trimmed from what a layout writes. -/
theorem trim_write (fourDigits : moment.day.HasFourDigits)
    (listed : layout ∈ momentLayouts ++ dayLayouts) :
    Text.trim (layout.write moment) = layout.write moment :=
  Text.trim_eq_self (head_write_solid fourDigits listed) fun character last =>
    isBlank_of_isDigit (last_write_isDigit fourDigits listed character last)

theorem Layout.day?_write (fourDigits : moment.day.HasFourDigits) (listed : layout ∈ dayLayouts) :
    layout.day? (layout.write moment) = some moment.day := by
  have spaced := (layouts_solid layout (List.mem_append_right _ listed)).1
  have read := Layout.read?_write fourDigits spaced {} []
  rw [List.append_nil] at read
  rw [Layout.day?, read]
  simp only [dayLayouts, List.mem_cons, List.not_mem_nil, or_false] at listed
  rcases listed with rfl | rfl | rfl | rfl | rfl | rfl | rfl <;>
    exact Reading.day?_eq fourDigits rfl rfl rfl

theorem Layout.moment?_write (fourDigits : moment.day.HasFourDigits) (whole : moment.IsWhole)
    (listed : layout ∈ momentLayouts) :
    layout.moment? (layout.write moment) = some (layout.shown moment) := by
  have spaced := (layouts_solid layout (List.mem_append_left _ listed)).1
  have read := Layout.read?_write fourDigits spaced {} []
  rw [List.append_nil] at read
  rw [Layout.moment?, read]
  simp only [momentLayouts, List.mem_cons, List.not_mem_nil, or_false] at listed
  rcases listed with rfl | rfl | rfl | rfl | rfl | rfl | rfl <;>
    first
      | exact (Reading.moment?_eq (Reading.day?_eq fourDigits rfl rfl rfl) rfl rfl rfl).trans
          whole.ofClock?
      | exact (Reading.moment?_eq (Reading.day?_eq fourDigits rfl rfl rfl) rfl rfl rfl).trans
          moment.ofClock?_minute

/-- No listed layout writes a timestamp or a day with a zone. -/
theorem isZoneless_write (fourDigits : moment.day.HasFourDigits)
    (listed : layout ∈ momentLayouts ++ dayLayouts) : IsZoneless (layout.write moment) := by
  rcases layouts_miss_isoDay layout listed with misses | rfl | timed
  · exact isZoneless_of_unread (Layout.read?_eq_none_of_misses fourDigits misses _)
  · have spells := fourDigits.spells
    have stampless := @Spells.timestamp_of_no_time _ _ spells [] rfl
    have zoneless := @Spells.zonedDay?_append _ _ spells [] rfl
    rw [List.append_nil] at stampless zoneless
    exact ⟨stampless, zoneless⟩
  · simp only [List.mem_cons, List.not_mem_nil, or_false] at timed
    rcases timed with rfl | rfl | rfl <;>
      rw [Layout.write_append, Layout.write_append, List.append_assoc]
    · exact isZoneless_of_timed fourDigits (.inl rfl)
    · exact isZoneless_of_timed fourDigits (.inr (.inl rfl))
    · exact isZoneless_of_timed fourDigits (.inr (.inr rfl))

/-- With slashes a day in front of the month is read as a short year, which leaves two digits of the
year behind the month. -/
theorem day?_slashed (fourDigits : moment.day.HasFourDigits) :
    (yearFirst '/').day? ((dayFirst '/').write moment) = none := by
  obtain ⟨day, dayShape, dayDigits, dayLength, _⟩ := Field.exists_row fourDigits .day
  obtain ⟨month, monthShape, monthDigits, monthLength, _⟩ := Field.exists_row fourDigits .month
  obtain ⟨year, yearShape, yearDigits, yearLength, _⟩ := Field.exists_row fourDigits .year
  have whole : (dayFirst '/').write moment =
      day ++ '/' :: (month ++ '/' :: (year.take 2 ++ (year.drop 2 ++ []))) := by
    rw [← List.append_assoc (year.take 2), List.take_append_drop, ← dayShape, ← monthShape,
      ← yearShape]
    rfl
  have filled : day ≠ [] := List.ne_nil_of_length_pos (by rw [dayLength]; decide)
  have room : day.length ≤ Field.year.width := by rw [dayLength]; decide
  have shortLength : (year.take 2).length = Field.day.width := by
    rw [List.length_take, yearLength]
    rfl
  have dayRead (reading : Reading) (rest : List Char) :
      Field.read? reading (day ++ '/' :: rest) .year =
        some (Field.set reading (ofDigits day) .year, '/' :: rest) := by
    refine Field.read?_of_ends dayDigits filled room (.inr ?_) reading
    rintro character head
    cases head
    rfl
  have left : (year.drop 2 ++ []).length = 2 := by
    rw [List.append_nil, List.length_drop, yearLength]
    rfl
  rw [whole, Layout.day?]
  simp only [yearFirst, Layout.read?, LayoutItem.read?,
    dayRead, if_true,
    @Field.read?_row month monthDigits .month monthLength,
    Field.read?_row (all_isDigit_take yearDigits 2) shortLength]
  cases behind : year.drop 2 ++ [] with
  | nil => simp [behind] at left
  | cons head rest => rfl

/-- The full name of a month is read where its abbreviation stands. -/
theorem day?_abbreviated (fourDigits : moment.day.HasFourDigits) :
    (monthNamed true).day? ((monthNamed false).write moment) = some moment.day := by
  have dayRead := @Field.read?_write moment fourDigits
  have whole : (monthNamed false).write moment = (LayoutItem.number .day).write moment ++
      ' ' :: ((LayoutItem.monthName false).write moment ++
        ' ' :: ((LayoutItem.number .year).write moment ++ [])) := rfl
  have nameLeads (rest : List Char) :
      Text.trimStart (' ' :: ((LayoutItem.monthName false).write moment ++ rest)) =
        (LayoutItem.monthName false).write moment ++ rest :=
    LayoutItem.trimStart_write fourDigits rfl rest
  have yearLeads (rest : List Char) :
      Text.trimStart (' ' :: ((LayoutItem.number .year).write moment ++ rest)) =
        (LayoutItem.number .year).write moment ++ rest :=
    LayoutItem.trimStart_write fourDigits rfl rest
  have named (rest : List Char) :
      readMonth? ((LayoutItem.monthName false).write moment ++ ' ' :: rest) =
        some (moment.day.month, ' ' :: rest) :=
    readMonth?_short rest moment.day.monthExists
  rw [whole, Layout.day?]
  simp only [monthNamed, Layout.read?, LayoutItem.read?, dayRead, nameLeads, named, yearLeads,
    Option.map_some]
  exact Reading.day?_eq fourDigits rfl rfl rfl

/-- Of the layouts of a date, the first that reads what one of them writes finds its day. -/
theorem findSome?_days_write (fourDigits : moment.day.HasFourDigits)
    (listed : layout ∈ dayLayouts) :
    (dayLayouts.findSome? fun other => other.day? (layout.write moment)) = some moment.day := by
  by_cases abbreviated : layout = monthNamed false
  · have split : dayLayouts = dayLayouts.take 4 ++ monthNamed true :: dayLayouts.drop 5 := rfl
    have missed : ∀ other ∈ dayLayouts.take 4, (monthNamed false).misses other = true := by decide
    rw [abbreviated]
    exact List.findSome?_eq_some_iff.mpr ⟨_, _, _, split, day?_abbreviated fourDigits,
      fun other earlier => Layout.day?_eq_none_of_misses fourDigits (missed other earlier)⟩
  · obtain ⟨tried, untried, split⟩ := List.append_of_mem listed
    refine List.findSome?_eq_some_iff.mpr ⟨tried, layout, untried, split,
      Layout.day?_write fourDigits listed, fun other earlier => ?_⟩
    have missed := dayLayouts_miss
    rw [split, List.pairwise_append] at missed
    rcases missed.2.2 other earlier layout List.mem_cons_self with misses | ⟨rfl, rfl⟩ | named
    · exact Layout.day?_eq_none_of_misses fourDigits misses
    · exact day?_slashed fourDigits
    · exact absurd named.2 abbreviated

/-- A date alone shows the start of the day. -/
theorem Layout.shown_of_day (listed : layout ∈ dayLayouts) (moment : Moment) :
    layout.shown moment = Moment.midnight moment.day := by
  have clockless : ∀ layout ∈ dayLayouts,
      .number .second ∉ layout ∧ .number .hour ∉ layout := by
    decide
  obtain ⟨noSecond, noHour⟩ := clockless layout listed
  rw [Layout.shown, if_neg noSecond, if_neg noHour]

/-- Every moment is read back from what a layout writes, as far as the layout shows it. -/
theorem written?_write (fourDigits : moment.day.HasFourDigits) (whole : moment.IsWhole)
    (listed : layout ∈ momentLayouts ++ dayLayouts) :
    written? (layout.write moment) = some (layout.shown moment) := by
  have trimmed := trim_write fourDigits listed
  have zoneless := isZoneless_write fourDigits listed
  rcases List.mem_append.mp listed with timed | timeless
  · have found : (momentLayouts.findSome? fun other => other.moment? (layout.write moment)) =
        some (layout.shown moment) := by
      obtain ⟨tried, untried, split⟩ := List.append_of_mem timed
      refine List.findSome?_eq_some_iff.mpr ⟨tried, layout, untried, split,
        Layout.moment?_write fourDigits whole timed, fun other earlier => ?_⟩
      have missed := momentLayouts_miss
      rw [split, List.pairwise_append] at missed
      exact Layout.moment?_eq_none_of_misses fourDigits
        (missed.2.2 other earlier layout List.mem_cons_self)
    simp only [written?, trimmed, zoneless.1, zoneless.2, found]
    rfl
  · have timesMissed : (momentLayouts.findSome? fun other => other.moment? (layout.write moment)) =
        none :=
      List.findSome?_eq_none_iff.mpr fun other listed =>
        Layout.moment?_eq_none_of_misses fourDigits
          (dayLayouts_miss_moments layout timeless other listed)
    simp only [written?, trimmed, zoneless.1, zoneless.2, timesMissed,
      findSome?_days_write fourDigits timeless, Layout.shown_of_day timeless]
    rfl

end Written

end Calendar
end MuseumRecord
