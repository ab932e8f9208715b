import MuseumRecord.Calendar.Day

/-!
# The Gregorian calendar

Seven months are long, four are short, and February has a leap day in every fourth year but for
three centuries out of four.  The days that can be made of three numbers are the days so described.
-/

namespace MuseumRecord
namespace Calendar

/-- A day of a year, by month and number, in the proleptic Gregorian calendar. -/
inductive IsGregorianDay (year : Nat) : Nat → Nat → Prop where
  /-- A day of one of the long months. -/
  | long {month number : Nat} (named : month ∈ [1, 3, 5, 7, 8, 10, 12]) (first : 1 ≤ number)
      (last : number ≤ 31) : IsGregorianDay year month number
  /-- A day of one of the short months. -/
  | short {month number : Nat} (named : month ∈ [4, 6, 9, 11]) (first : 1 ≤ number)
      (last : number ≤ 30) : IsGregorianDay year month number
  /-- A day that February has in every year. -/
  | february {number : Nat} (first : 1 ≤ number) (last : number ≤ 28) :
      IsGregorianDay year 2 number
  /-- The leap day. -/
  | leapDay (fourth : 4 ∣ year) (century : 100 ∣ year → 400 ∣ year) : IsGregorianDay year 2 29

theorem isLeapYear_iff {year : Nat} :
    isLeapYear year = true ↔ 4 ∣ year ∧ (100 ∣ year → 400 ∣ year) := by
  simp only [isLeapYear, Bool.and_eq_true, Bool.or_eq_true, beq_iff_eq, bne_iff_ne]
  omega

theorem Day.isSome_of?_iff {year : Int} {month number : Nat} :
    (Day.of? year month number).isSome = true ↔
      (1 ≤ month ∧ month ≤ 12) ∧ 1 ≤ number ∧ number ≤ monthLength year month := by
  unfold Day.of?
  split
  · split <;> simp [*]
  · simp [*]

theorem mem_months {month : Nat} (monthExists : 1 ≤ month ∧ month ≤ 12) :
    month ∈ [1, 3, 5, 7, 8, 10, 12] ∨ month ∈ [4, 6, 9, 11] ∨ month = 2 := by
  simp only [List.mem_cons, List.not_mem_nil, or_false]
  omega

theorem monthLength_of_long {year : Int} {month : Nat}
    (named : month ∈ [1, 3, 5, 7, 8, 10, 12]) : monthLength year month = 31 := by
  simp only [List.mem_cons, List.not_mem_nil, or_false] at named
  rw [monthLength, if_neg (by omega), if_neg (by omega)]

theorem monthLength_of_short {year : Int} {month : Nat} (named : month ∈ [4, 6, 9, 11]) :
    monthLength year month = 30 := by
  simp only [List.mem_cons, List.not_mem_nil, or_false] at named
  rw [monthLength, if_neg (by omega), if_pos (by omega)]

/-- The days that exist are those of the proleptic Gregorian calendar. -/
theorem isGregorianDay_iff {year month number : Nat} :
    IsGregorianDay year month number ↔ (Day.of? year month number).isSome = true := by
  rw [Day.isSome_of?_iff]
  constructor
  · intro present
    cases present with
    | long named first last =>
      rw [monthLength_of_long named]
      simp only [List.mem_cons, List.not_mem_nil, or_false] at named
      exact ⟨by omega, first, last⟩
    | short named first last =>
      rw [monthLength_of_short named]
      simp only [List.mem_cons, List.not_mem_nil, or_false] at named
      exact ⟨by omega, first, last⟩
    | february first last =>
      refine ⟨by decide, first, ?_⟩
      rw [monthLength, if_pos rfl]
      split <;> omega
    | leapDay fourth century =>
      rw [monthLength, if_pos rfl, if_pos (isLeapYear_iff.mpr ⟨fourth, century⟩)]
      decide
  · rintro ⟨monthExists, first, last⟩
    rcases mem_months monthExists with long | short | rfl
    · exact .long long first (monthLength_of_long long ▸ last)
    · exact .short short first (monthLength_of_short short ▸ last)
    · rw [monthLength, if_pos rfl] at last
      split at last
      · next leap =>
        obtain ⟨fourth, century⟩ := isLeapYear_iff.mp leap
        rcases Nat.lt_or_ge number 29 with before | after
        · exact .february first (Nat.le_of_lt_succ before)
        · obtain rfl : number = 29 := Nat.le_antisymm last after
          exact .leapDay fourth century
      · exact .february first last

end Calendar
end MuseumRecord
