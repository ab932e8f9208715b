import MuseumRecord.Proofs.Rule.Provenance

/-!
# Prices

A price is a decimal literal that its fixed-point number does not put below zero.  Up to the digits
that a fixed-point number keeps, this is the sign of the rational number that the literal writes.
-/

namespace MuseumRecord
namespace Rule

open Number Schema

/-! ## Accepted prices -/

section Accepted

variable {price : String}

theorem spellsDecimal_of_isPrice (accepted : isPrice price = true) :
    SpellsDecimal (Text.trim price.toList) := by
  obtain ⟨literal, _, spells, powerless, _⟩ := isPrice_iff.mp accepted
  exact ⟨literal, spells, powerless⟩

/-- A price of few digits is judged by the rational number that it writes. -/
theorem isPrice_iff_value
    (short : (Text.trim price.toList).countP isDigit ≤ FixedPoint.mostPlaces) :
    isPrice price = true ↔ ∃ literal : Literal, literal.Spells (Text.trim price.toList) ∧
      literal.exponent = none ∧ 0 ≤ literal.value := by
  rw [isPrice_iff]
  constructor
  · rintro ⟨literal, number, spells, powerless, read, nonneg⟩
    obtain ⟨other, otherRead, valued⟩ := spells.exists_ofLiteral? powerless short
    cases read.symm.trans otherRead
    exact ⟨literal, spells, powerless, valued ▸ nonneg⟩
  · rintro ⟨literal, spells, powerless, nonneg⟩
    obtain ⟨number, read, valued⟩ := spells.exists_ofLiteral? powerless short
    exact ⟨literal, number, spells, powerless, read, valued ▸ nonneg⟩

end Accepted

/-! ## What the group of history says of a price -/

section Judged

variable {now : Calendar.Moment} {exhibit : Exhibit} {history : History} {acquisition : Acquisition}
  {price : String}

/-- Behind an acceptable date, the price is reported, as it is written, exactly if it is none. -/
theorem historyViolation_eq_badPrice_iff (viewed : exhibit.history = some history)
    (present : history.acquisition = some acquisition) (priced : acquisition.price = some price)
    (dated : ∀ date, acquisition.date = some date →
      ∃ moment, Calendar.written? date.toList = some moment ∧ ¬ now < moment) {other : String} :
    historyViolation now exhibit = some (.badPrice other) ↔
      other = price ∧ isPrice price = false := by
  rw [historyViolation_eq_some_iff viewed, isPrice_eq_false_iff]
  constructor
  · rintro ⟨turn, breach, _⟩
    cases breach with
    | price presentToo pricedToo bad =>
      cases present.symm.trans presentToo
      cases priced.symm.trans pricedToo
      exact ⟨rfl, bad⟩
  · rintro ⟨rfl, bad⟩
    -- Only breaches of the date have an earlier turn, and the date is acceptable.
    refine ⟨2, .price present priced bad, fun earlier violation breach => ?_⟩
    cases breach with
    | unreadDate presentToo found unread =>
      cases present.symm.trans presentToo
      obtain ⟨moment, read, _⟩ := dated _ found
      cases read.symm.trans unread
    | futureDate presentToo found readToo later =>
      cases present.symm.trans presentToo
      obtain ⟨moment, read, past⟩ := dated _ found
      cases read.symm.trans readToo
      exact absurd later past
    | price _ _ _ => exact Nat.le_refl 2
    | exhibition _ _ _ => omega

/-- Behind an acceptable date, a price of at most 28 digits is judged by the rational number that it
writes: it is kept exactly if it is a decimal literal of zero or more, and a literal below zero is
what the group of history reports.  A longer price that is kept is a decimal literal as well. -/
theorem prices_are_judged_by_value (viewed : exhibit.history = some history)
    (present : history.acquisition = some acquisition) (priced : acquisition.price = some price)
    (dated : ∀ date, acquisition.date = some date →
      ∃ moment, Calendar.written? date.toList = some moment ∧ ¬ now < moment) :
    ((Text.trim price.toList).countP isDigit ≤ 28 →
      ((∀ other, RuleGroup.history.violation? now exhibit ≠ some (.badPrice other)) ↔
        ∃ literal : Literal, literal.Spells (Text.trim price.toList) ∧ literal.exponent = none ∧
          0 ≤ literal.value) ∧
      ∀ literal : Literal, literal.Spells (Text.trim price.toList) → literal.negative = true →
        literal.value ≠ 0 → RuleGroup.history.violation? now exhibit = some (.badPrice price)) ∧
    ((∀ other, RuleGroup.history.violation? now exhibit ≠ some (.badPrice other)) →
      SpellsDecimal (Text.trim price.toList)) := by
  have reported : ∀ other, RuleGroup.history.violation? now exhibit = some (.badPrice other) ↔
      other = price ∧ isPrice price = false :=
    fun other => historyViolation_eq_badPrice_iff viewed present priced dated
  have kept : (∀ other, RuleGroup.history.violation? now exhibit ≠ some (.badPrice other)) ↔
      isPrice price = true := by
    rw [← Bool.not_eq_false]
    constructor
    · intro quiet refused
      exact quiet price ((reported price).mpr ⟨rfl, refused⟩)
    · intro accepted other raised
      exact accepted ((reported other).mp raised).2
  refine ⟨fun short => ⟨kept.trans (isPrice_iff_value short), ?_⟩, ?_⟩
  · intro literal spells minus nonzero
    refine (reported price).mpr ⟨rfl, eq_false_of_ne_true fun judged => ?_⟩
    obtain ⟨other, otherwise, _, nonneg⟩ := (isPrice_iff_value short).mp judged
    cases spells.eq otherwise
    exact absurd nonneg (not_le.mpr (Literal.value_neg minus nonzero))
  · intro quiet
    exact spellsDecimal_of_isPrice (kept.mp quiet)

end Judged

/-- An exhibit of which the day of its acquisition and its price are known. -/
def boughtExhibit (date price : String) : Exhibit :=
  { history := some { acquisition := some { date := some date, price := some price } } }

/-- Zero is a price, also behind a minus sign. -/
theorem negative_zero_is_a_price :
    (∀ date, some "15 March 1995" = some date → ∃ moment,
      Calendar.written? date.toList = some moment ∧
        ¬ Calendar.Moment.midnight ⟨2024, 6, 1, by decide, by decide⟩ < moment) ∧
    (Text.trim " -0.00 ".toList).countP isDigit ≤ 28 ∧
    ∀ other, RuleGroup.history.violation? (.midnight ⟨2024, 6, 1, by decide, by decide⟩)
      (boughtExhibit "15 March 1995" " -0.00 ") ≠ some (.badPrice other) := by
  have dated : ∀ date, some "15 March 1995" = some date → ∃ moment,
      Calendar.written? date.toList = some moment ∧
        ¬ Calendar.Moment.midnight ⟨2024, 6, 1, by decide, by decide⟩ < moment := by
    rintro date ⟨⟩
    refine ⟨.midnight ⟨1995, 3, 15, by decide, by decide⟩, ?_, ?_⟩
    · decide +kernel
    · decide
  have short : (Text.trim " -0.00 ".toList).countP isDigit ≤ 28 := by decide +kernel
  have judged := @prices_are_judged_by_value (.midnight ⟨2024, 6, 1, by decide, by decide⟩)
    (boughtExhibit "15 March 1995" " -0.00 ") _ _ _ rfl rfl rfl dated
  refine ⟨dated, short, (judged.1 short).1.mpr ?_⟩
  refine ⟨⟨true, ['0'], ['0', '0'], none⟩, Literal.read?_eq_some_iff.mp ?_, rfl, ?_⟩
  · decide +kernel
  · simp [Literal.value, signed, behindPoint, digitValue]

end Rule
end MuseumRecord
