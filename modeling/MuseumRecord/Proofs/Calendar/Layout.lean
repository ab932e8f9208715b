import Mathlib.Tactic.IntervalCases
import MuseumRecord.Proofs.Calendar.Zoned
import MuseumRecord.Proofs.HistoricalDate.Passing

/-!
# What a layout writes and reads

A layout reads back what it has written of a moment, whatever follows it, and leaves the rest.
-/

namespace MuseumRecord
namespace Calendar

open Number

/-- A year that is written in four digits without a sign. -/
def Day.HasFourDigits (day : Day) : Prop :=
  0 ≤ day.year ∧ day.year ≤ 9999

/-! ## Numbers -/

namespace Field

/-- The number of digits in which a number is written, and the greatest number of digits read. -/
def width : Field → Nat
  | .year => 4
  | _ => 2

/-- The number of a moment. -/
def valueOf (moment : Moment) : Field → Nat
  | .year => moment.day.year.toNat
  | .month => moment.day.month
  | .day => moment.day.day
  | .hour => moment.hour
  | .minute => moment.minute
  | .second => moment.clockSecond

/-- The reading with one more number. -/
def set (reading : Reading) (value : Nat) : Field → Reading
  | .year => { reading with year := some (value : Int) }
  | .month => { reading with month := some value }
  | .day => { reading with day := some value }
  | .hour => { reading with hour := some value }
  | .minute => { reading with minute := some value }
  | .second => { reading with second := some value }

theorem width_pos (field : Field) : 0 < field.width := by
  cases field <;> decide

variable {moment : Moment}

theorem valueOf_lt (fourDigits : moment.day.HasFourDigits) (field : Field) :
    field.valueOf moment < Nat.pow 10 field.width := by
  have month := moment.day.monthExists
  have length := monthLength_le moment.day.year moment.day.month
  have day := moment.day.dayExists
  have second := moment.secondBound
  have nano := moment.nanoBound
  unfold Day.HasFourDigits at fourDigits
  simp only [secondsPerDay, nanosPerSecond] at second nano
  cases field
  case year =>
    change moment.day.year.toNat < 10000
    omega
  case month =>
    change moment.day.month < 100
    omega
  case day =>
    change moment.day.day < 100
    omega
  case hour =>
    change moment.second / 3600 < 100
    omega
  case minute =>
    change moment.second / 60 % 60 < 100
    omega
  case second =>
    change moment.second % 60 + moment.nano / 1000000000 < 100
    omega

theorem write_eq (fourDigits : moment.day.HasFourDigits) (field : Field) :
    (LayoutItem.number field).write moment = padded field.width (field.valueOf moment) := by
  cases field with
  | year => exact if_pos fourDigits
  | month => rfl
  | day => rfl
  | hour => rfl
  | minute => rfl
  | second => rfl

theorem read?_of_isDigit {head : Char} (digit : isDigit head = true) (reading : Reading)
    (rest : List Char) (field : Field) :
    field.read? reading (head :: rest) =
      (leadingDigits? field.width (head :: rest)).map fun (value, after) =>
        (field.set reading value, after) := by
  cases field with
  | year =>
    simp only [read?, trimStart_of_isDigit digit, readYear?_of_isDigit digit, Option.map_map]
    rfl
  | month => simp only [read?, trimStart_of_isDigit digit]; rfl
  | day => simp only [read?, trimStart_of_isDigit digit]; rfl
  | hour => simp only [read?, trimStart_of_isDigit digit]; rfl
  | minute => simp only [read?, trimStart_of_isDigit digit]; rfl
  | second => simp only [read?, trimStart_of_isDigit digit]; rfl

/-- A number is read from a row of digits that is as wide as it is written or ended. -/
theorem read?_of_ends {row rest : List Char} (digits : row.all isDigit = true) (filled : row ≠ [])
    {field : Field} (room : row.length ≤ field.width)
    (ends : row.length = field.width ∨ ∀ character ∈ rest.head?, isDigit character = false)
    (reading : Reading) :
    field.read? reading (row ++ rest) = some (field.set reading (ofDigits row), rest) := by
  have taken := leadingDigits?_of_ends digits filled room ends
  obtain ⟨head, tail, rfl⟩ := List.exists_cons_of_ne_nil filled
  rw [List.all_cons, Bool.and_eq_true] at digits
  rw [List.cons_append] at taken ⊢
  rw [field.read?_of_isDigit digits.1, taken]
  rfl

theorem read?_row {row : List Char} (digits : row.all isDigit = true) {field : Field}
    (length : row.length = field.width) (reading : Reading) (rest : List Char) :
    field.read? reading (row ++ rest) = some (field.set reading (ofDigits row), rest) :=
  read?_of_ends digits (List.ne_nil_of_length_pos (length ▸ field.width_pos))
    (Nat.le_of_eq length) (.inl length) reading

/-- A number is written in a row of digits. -/
theorem exists_row (fourDigits : moment.day.HasFourDigits) (field : Field) :
    ∃ row, (LayoutItem.number field).write moment = row ∧ row.all isDigit = true ∧
      row.length = field.width ∧ ofDigits row = field.valueOf moment := by
  have small := field.valueOf_lt fourDigits
  exact ⟨_, field.write_eq fourDigits, all_isDigit_padded small, length_padded small,
    ofDigits_padded small⟩

/-- A number is read back from its digits. -/
theorem read?_write (fourDigits : moment.day.HasFourDigits) (reading : Reading)
    (rest : List Char) (field : Field) :
    field.read? reading ((LayoutItem.number field).write moment ++ rest) =
      some (field.set reading (field.valueOf moment), rest) := by
  obtain ⟨row, written, digits, length, value⟩ := field.exists_row fourDigits
  rw [written, read?_row digits length, value]

end Field

/-! ## Names of months -/

section Names

variable {month : Nat} (rest : List Char)

theorem readShortMonth?_short (listed : 1 ≤ month ∧ month ≤ 12) :
    readShortMonth? (shortMonthName month ++ rest) = some (month, rest) := by
  obtain ⟨lower, upper⟩ := listed
  interval_cases month <;> rfl

theorem readMonth?_full (listed : 1 ≤ month ∧ month ≤ 12) :
    readMonth? (fullMonthName month ++ rest) = some (month, rest) := by
  obtain ⟨lower, upper⟩ := listed
  interval_cases month <;> rfl

/-- Where a full name is asked for, its abbreviation in front of a blank will do. -/
theorem readMonth?_short (listed : 1 ≤ month ∧ month ≤ 12) :
    readMonth? (shortMonthName month ++ ' ' :: rest) = some (month, ' ' :: rest) := by
  obtain ⟨lower, upper⟩ := listed
  interval_cases month <;> rfl

end Names

/-! ## Items -/

namespace LayoutItem

variable {moment : Moment}

/-- The reading after the item of a moment was read. -/
def fill (moment : Moment) (reading : Reading) : LayoutItem → Reading
  | .number field => field.set reading (field.valueOf moment)
  | .monthName _ => { reading with month := some moment.day.month }
  | .mark _ => reading
  | .gap => reading

/-- An item that begins with a digit or a letter. -/
def isSolid : LayoutItem → Bool
  | .number _ => true
  | .monthName _ => true
  | .mark _ => false
  | .gap => false

theorem read?_write (fourDigits : moment.day.HasFourDigits) {item : LayoutItem}
    (filled : item ≠ .gap) (reading : Reading) (rest : List Char) :
    item.read? reading (item.write moment ++ rest) = some (item.fill moment reading, rest) := by
  cases item with
  | number field => exact field.read?_write fourDigits reading rest
  | monthName full =>
    cases full with
    | true => simp only [read?, write, readMonth?_full rest moment.day.monthExists]; rfl
    | false => simp only [read?, write, readShortMonth?_short rest moment.day.monthExists]; rfl
  | mark character => exact if_pos rfl
  | gap => exact absurd rfl filled

theorem exists_digit (fourDigits : moment.day.HasFourDigits) (field : Field) :
    ∃ head tail, (LayoutItem.number field).write moment = head :: tail ∧
      isDigit head = true := by
  obtain ⟨row, written, digits, length, _⟩ := field.exists_row fourDigits
  cases row with
  | nil => exact absurd length (Nat.ne_of_lt field.width_pos)
  | cons head tail =>
    rw [List.all_cons, Bool.and_eq_true] at digits
    exact ⟨head, tail, written, digits.1⟩

/-- A name of a month begins with a letter, also where it is cut short. -/
theorem exists_letter (moment : Moment) (full : Bool) :
    ∃ first tail, (LayoutItem.monthName full).write moment = first :: tail ∧
      Text.isBlank first = false ∧ isDigit first = false ∧ first ≠ '-' ∧ first ≠ '+' := by
  have letter {month : Nat} (listed : 1 ≤ month ∧ month ≤ 12) :
      ∃ first tail, fullMonthName month = first :: tail ∧
        Text.isBlank first = false ∧ isDigit first = false ∧ first ≠ '-' ∧ first ≠ '+' := by
    obtain ⟨lower, upper⟩ := listed
    interval_cases month <;> exact ⟨_, _, rfl, by decide⟩
  obtain ⟨first, tail, shape, kind⟩ := letter moment.day.monthExists
  cases full with
  | true => exact ⟨first, tail, shape, kind⟩
  | false => exact ⟨first, tail.take 2, by simp only [write, shortMonthName, shape]; rfl, kind⟩

/-- No blank leads a number or a name. -/
theorem trimStart_write (fourDigits : moment.day.HasFourDigits) {item : LayoutItem}
    (solid : item.isSolid = true) (rest : List Char) :
    Text.trimStart (item.write moment ++ rest) = item.write moment ++ rest := by
  cases item with
  | number field =>
    obtain ⟨head, tail, shape, digit⟩ := exists_digit fourDigits field
    rw [shape, List.cons_append]
    exact trimStart_of_isDigit digit _
  | monthName full =>
    obtain ⟨first, tail, shape, unblank, _⟩ := exists_letter moment full
    rw [shape, List.cons_append]
    exact List.dropWhile_cons_of_neg (by simp [unblank])
  | mark character => cases solid
  | gap => cases solid

end LayoutItem

/-! ## Layouts -/

namespace Layout

variable {moment : Moment}

/-- The reading after the whole layout of a moment was read. -/
def fill (layout : Layout) (moment : Moment) (reading : Reading) : Reading :=
  layout.foldl (LayoutItem.fill moment) reading

/-- Every gap stands in front of a number or a name. -/
def isSpaced : Layout → Bool
  | [] => true
  | [.gap] => false
  | .gap :: item :: layout => item.isSolid && isSpaced (item :: layout)
  | _ :: layout => isSpaced layout

theorem write_cons (item : LayoutItem) (layout : Layout) :
    Layout.write (item :: layout) moment = item.write moment ++ Layout.write layout moment :=
  List.flatMap_cons

theorem write_append (first second : Layout) :
    Layout.write (first ++ second) moment =
      Layout.write first moment ++ Layout.write second moment :=
  List.flatMap_append

/-- A layout reads back what it has written.  The induction is on the items; a gap takes the blanks
in front of the next item, of which there are none but its own. -/
theorem read?_write (fourDigits : moment.day.HasFourDigits) {layout : Layout}
    (spaced : layout.isSpaced = true) (reading : Reading) (rest : List Char) :
    Layout.read? layout reading (layout.write moment ++ rest) =
      some (layout.fill moment reading, rest) := by
  fun_induction isSpaced layout generalizing reading with
  | case1 => rfl
  | case2 => cases spaced
  | case3 item layout inductionHypothesis =>
    rw [Bool.and_eq_true] at spaced
    have leading := LayoutItem.trimStart_write fourDigits spaced.1
      (Layout.write layout moment ++ rest)
    rw [← List.append_assoc, ← write_cons] at leading
    have behind : Text.trimStart (' ' :: (Layout.write (item :: layout) moment ++ rest)) =
        Layout.write (item :: layout) moment ++ rest := leading
    rw [write_cons, LayoutItem.write, List.append_assoc, List.cons_append, List.nil_append,
      Layout.read?, LayoutItem.read?, behind]
    exact inductionHypothesis spaced.2 reading
  | case4 item layout notLast notGap inductionHypothesis =>
    have filled : item ≠ .gap := by
      rintro rfl
      cases layout with
      | nil => exact notLast rfl rfl
      | cons next layout => exact notGap next layout rfl rfl
    rw [write_cons, List.append_assoc, Layout.read?,
      LayoutItem.read?_write fourDigits filled]
    exact inductionHypothesis spaced _

end Layout

end Calendar
end MuseumRecord
