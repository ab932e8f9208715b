import Mathlib.Algebra.Order.Field.Power
import Mathlib.Data.Nat.Digits.Defs
import Mathlib.Tactic.FieldSimp
import Mathlib.Tactic.Positivity
import MuseumRecord.Number.FixedPoint
import MuseumRecord.Proofs.Number.Literal

/-!
# Fixed-point numbers by their value

A literal writes a rational number.  If it has no more digits than there are decimal places, then
its fixed-point number exists and is exactly that rational number.
-/

namespace MuseumRecord
namespace Number

/-! ## Values -/

/-- A magnitude with a sign. -/
def signed (negative : Bool) (magnitude : ℚ) : ℚ :=
  if negative then -magnitude else magnitude

/-- The value of a row of digits behind the point. -/
def behindPoint : List Char → ℚ
  | [] => 0
  | digit :: rest => (digitValue digit + behindPoint rest) / 10

/-- The rational number that a literal writes. -/
def Literal.value (literal : Literal) : ℚ :=
  signed literal.negative
    (((Nat.ofDigits 10 (literal.whole.reverse.map digitValue) : ℕ) +
      behindPoint literal.fraction) * 10 ^ literal.exponent.getD 0)

/-- The rational number that a fixed-point number is. -/
def FixedPoint.value (number : FixedPoint) : ℚ :=
  signed number.negative (number.units / 10 ^ number.places)

/-- A row of digits denotes its positional value. -/
theorem ofDigits_eq (row : List Char) :
    ofDigits row = Nat.ofDigits 10 (row.reverse.map digitValue) := by
  induction row using List.reverseRecOn with
  | nil => rfl
  | append_singleton front last inductionHypothesis =>
    rw [ofDigits_append_singleton, List.reverse_append, List.reverse_singleton,
      List.singleton_append, List.map_cons, Nat.ofDigits_cons, ← inductionHypothesis]
    ring

/-! ## The sign -/

theorem signed_nonneg {negative : Bool} {magnitude : ℚ} (nonneg : 0 ≤ magnitude) :
    0 ≤ signed negative magnitude ↔ negative = false ∨ magnitude = 0 := by
  cases negative with
  | false => simp [signed, nonneg]
  | true => simp [signed, nonneg.ge_iff_eq']

theorem behindPoint_nonneg (row : List Char) : 0 ≤ behindPoint row := by
  induction row with
  | nil => exact le_refl _
  | cons digit rest inductionHypothesis =>
    rw [behindPoint]
    positivity

/-- A literal that is written with a minus sign and is not zero lies below zero. -/
theorem Literal.value_neg {literal : Literal} (minus : literal.negative = true)
    (nonzero : literal.value ≠ 0) : literal.value < 0 := by
  have fraction := behindPoint_nonneg literal.fraction
  have nonneg : (0 : ℚ) ≤ ((Nat.ofDigits 10 (literal.whole.reverse.map digitValue) : ℕ) +
      behindPoint literal.fraction) * 10 ^ literal.exponent.getD 0 := by
    positivity
  rw [value] at nonzero ⊢
  rw [← not_le, signed_nonneg nonneg]
  rintro (plus | zero)
  · rw [minus] at plus
    cases plus
  · rw [zero] at nonzero
    exact nonzero (by simp [signed])

/-- The test of a fixed-point number against zero is one of its value. -/
theorem FixedPoint.isNonNegative_iff {number : FixedPoint} :
    number.isNonNegative = true ↔ 0 ≤ number.value := by
  have nonneg : (0 : ℚ) ≤ number.units / 10 ^ number.places := by positivity
  rw [value, signed_nonneg nonneg]
  simp [isNonNegative]

/-! ## Exactness -/

section Exactness

variable {negative : Bool} {units places : Nat} {row : List Char}

/-- Digits behind the point that fit are all taken in, and none is rounded off. -/
theorem FixedPoint.exists_addPlaces (digits : row.all isDigit = true)
    (placesFit : places + row.length ≤ mostPlaces)
    (unitsFit : (units + 1) * 10 ^ row.length ≤ unitLimit) :
    ∃ number, addPlaces negative units places row = some number ∧
      number.value = signed negative ((units + behindPoint row) / 10 ^ places) := by
  induction row generalizing units places with
  | nil => exact ⟨⟨negative, units, places⟩, rfl, by simp [value, behindPoint]⟩
  | cons digit rest inductionHypothesis =>
    obtain ⟨here, others⟩ := Bool.and_eq_true_iff.mp digits
    have small := digitValue_lt_ten here
    rw [List.length_cons] at placesFit unitsFit
    have room : (units * 10 + digitValue digit + 1) * 10 ^ rest.length ≤ unitLimit := by
      refine Nat.le_trans (Nat.mul_le_mul_right _ (?_ : _ ≤ (units + 1) * 10)) ?_
      · omega
      · rwa [Nat.mul_assoc, ← Nat.pow_succ']
    have fits : units * 10 + digitValue digit < unitLimit :=
      Nat.lt_of_lt_of_le (Nat.le_mul_of_pos_right _ (Nat.pow_pos (by decide))) room
    have placesLeft : places + 1 + rest.length ≤ mostPlaces := by omega
    rw [addPlaces, if_pos ⟨by omega, fits⟩]
    obtain ⟨number, read, valued⟩ := inductionHypothesis others placesLeft room
    refine ⟨number, read, valued.trans (congrArg (signed negative) ?_)⟩
    rw [behindPoint, pow_succ]
    push_cast
    field_simp
    ring

/-- A literal without a power of ten and with no more digits than decimal places is read exactly. -/
theorem FixedPoint.exists_ofLiteral? {literal : Literal}
    (wholeDigits : literal.whole.all isDigit = true)
    (fractionDigits : literal.fraction.all isDigit = true) (powerless : literal.exponent = none)
    (short : literal.whole.length + literal.fraction.length ≤ mostPlaces) :
    ∃ number, ofLiteral? literal = some number ∧ number.value = literal.value := by
  have bound := ofDigits_lt wholeDigits
  have unitsFit : (ofDigits literal.whole + 1) * 10 ^ literal.fraction.length ≤ unitLimit := by
    calc (ofDigits literal.whole + 1) * 10 ^ literal.fraction.length
        ≤ 10 ^ literal.whole.length * 10 ^ literal.fraction.length :=
          Nat.mul_le_mul_right _ bound
      _ = 10 ^ (literal.whole.length + literal.fraction.length) := (Nat.pow_add _ _ _).symm
      _ ≤ 10 ^ mostPlaces := Nat.pow_le_pow_right (by decide) short
      _ ≤ unitLimit := by decide
  have fits : ofDigits literal.whole < unitLimit :=
    Nat.lt_of_lt_of_le (Nat.le_mul_of_pos_right _ (Nat.pow_pos (by decide))) unitsFit
  have placesFit : 0 + literal.fraction.length ≤ mostPlaces := by omega
  obtain ⟨number, read, valued⟩ :=
    @exists_addPlaces literal.negative _ _ _ fractionDigits placesFit unitsFit
  refine ⟨number, ?_, valued.trans ?_⟩
  · rw [ofLiteral?, if_pos fits, read]
  · rw [Literal.value, powerless, ofDigits_eq]
    simp

/-- A text of no more digits than there are decimal places is read exactly. -/
theorem Literal.Spells.exists_ofLiteral? {literal : Literal} {text : List Char}
    (spells : literal.Spells text) (powerless : literal.exponent = none)
    (short : text.countP isDigit ≤ FixedPoint.mostPlaces) :
    ∃ number, FixedPoint.ofLiteral? literal = some number ∧ number.value = literal.value := by
  obtain ⟨wholeDigits, fractionDigits⟩ := spells.all_isDigit
  apply FixedPoint.exists_ofLiteral? wholeDigits fractionDigits powerless
  exact Nat.le_trans spells.length_le short

end Exactness

end Number
end MuseumRecord
