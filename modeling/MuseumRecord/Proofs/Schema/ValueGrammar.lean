import MuseumRecord.Proofs.Calendar.Gregorian
import MuseumRecord.Proofs.Calendar.Zoned
import MuseumRecord.Proofs.Number.Binary64
import MuseumRecord.Proofs.Schema.Sighting

/-!
# Spellings of values

The values of numbers and of dates are the spellings of a grammar between blanks, those of an
enumeration are its members and nothing else.  A refused value is quoted as it was written.
-/

namespace MuseumRecord
namespace Schema

open Number Calendar
open Markup (Element)

/-! ## The grammar -/

/-- A decimal literal without a power of ten. -/
def SpellsDecimal (text : List Char) : Prop :=
  ∃ literal : Literal, literal.Spells text ∧ literal.exponent = none

/-- A decimal literal, infinity with a sign or without, or the word for no number. -/
inductive SpellsDouble : List Char → Prop where
  /-- A decimal literal. -/
  | literal {literal : Literal} {text : List Char} (spells : literal.Spells text) :
      SpellsDouble text
  /-- Infinity. -/
  | infinity {negative : Bool} {sign : List Char} (signed : SpellsSign negative sign) :
      SpellsDouble (sign ++ ['I', 'N', 'F'])
  /-- No number. -/
  | undefined : SpellsDouble ['N', 'a', 'N']

/-- Nothing, the letter `Z`, or hours and minutes behind a sign. -/
inductive SpellsZone : List Char → Prop where
  /-- No zone is written. -/
  | missing : SpellsZone []
  /-- The zone of universal time. -/
  | universal : SpellsZone ['Z']
  /-- The hours and the minutes of the zone, each of two digits. -/
  | offset {sign h i m n : Char} (signed : sign = '+' ∨ sign = '-')
      (hours : [h, i].all isDigit = true) (minutes : [m, n].all isDigit = true) :
      SpellsZone [sign, h, i, ':', m, n]

/-- A day of the calendar in four, two and two digits, and a zone. -/
inductive SpellsDate : List Char → Prop where
  /-- The digits of year, month and day with hyphens between them. -/
  | day {a b c d m n s t : Char} {zone : List Char}
      (digits : [a, b, c, d, m, n, s, t].all isDigit = true)
      (present : IsGregorianDay (ofDigits [a, b, c, d]) (ofDigits [m, n]) (ofDigits [s, t]))
      (zoned : SpellsZone zone) :
      SpellsDate (a :: b :: c :: d :: '-' :: m :: n :: '-' :: s :: t :: zone)

section Grammar

variable {text zone : List Char}

theorem SpellsDecimal.spellsDouble (spells : SpellsDecimal text) : SpellsDouble text := by
  obtain ⟨literal, spells, _⟩ := spells
  exact .literal spells

theorem isDecimal_iff : ValueType.isDecimal text = true ↔ SpellsDecimal text := by
  simp only [SpellsDecimal, ← Literal.read?_eq_some_iff, ValueType.isDecimal]
  cases Literal.read? text with
  | none => simp
  | some literal => simp

theorem spellsDouble_of_splitSign (infinite : (Literal.splitSign text).2 = "INF".toList) :
    SpellsDouble text := by
  obtain ⟨sign, signed, division⟩ := exists_spellsSign text
  rw [infinite] at division
  rw [division]
  exact .infinity signed

theorem isDouble_iff : ValueType.isDouble text = true ↔ SpellsDouble text := by
  simp only [ValueType.isDouble, Bool.or_eq_true, beq_iff_eq, Option.isSome_iff_exists,
    Literal.read?_eq_some_iff]
  constructor
  · rintro ((⟨literal, spells⟩ | infinite) | rfl)
    · exact .literal spells
    · exact spellsDouble_of_splitSign infinite
    · exact .undefined
  · intro spells
    cases spells with
    | literal spells => exact .inl (.inl ⟨_, spells⟩)
    | infinity signed =>
      left; right
      rw [signed.splitSign_append (by rintro character ⟨⟩; decide)]
      rfl
    | undefined => exact .inr rfl

/-- What the schema takes for a number spells a binary number: it only takes fewer words. -/
theorem SpellsDouble.spellsBinary64 (spells : SpellsDouble text) : SpellsBinary64 text := by
  cases spells with
  | literal spells => exact .literal spells
  | infinity signed => exact .word signed (by decide)
  | undefined => exact .word .missing (by decide)

theorem isZone_iff : ValueType.isZone zone = true ↔ SpellsZone zone := by
  constructor
  · intro zoned
    rcases isZone_cases zoned with rfl | rfl | ⟨sign, h, i, m, n, rfl, signed, hours, minutes⟩
    · exact .missing
    · exact .universal
    · exact .offset signed hours minutes
  · intro spells
    cases spells with
    | missing => rfl
    | universal => rfl
    | offset signed hours minutes =>
      simp only [List.all_cons, List.all_nil, Bool.and_true, Bool.and_eq_true] at hours minutes
      simp [ValueType.isZone, signed, hours, minutes]

theorem isDate_iff : ValueType.isDate text = true ↔ SpellsDate text := by
  constructor
  · intro date
    unfold ValueType.isDate at date
    split at date
    · simp only [Bool.and_eq_true] at date
      obtain ⟨⟨digits, zoned⟩, present⟩ := date
      exact .day digits (isGregorianDay_iff.mpr present) (isZone_iff.mp zoned)
    · cases date
  · intro spells
    cases spells with
    | day digits present zoned =>
      simp only [ValueType.isDate, Bool.and_eq_true]
      exact ⟨⟨digits, isZone_iff.mpr zoned⟩, isGregorianDay_iff.mp present⟩

end Grammar

/-! ## Refusals -/

/-- A problem of a value that is not of its type. -/
inductive Problem.Refuses (type : ValueType) (value : String) : Problem → Prop where
  /-- The text of an element. -/
  | ofText : Refuses type value (.badText type value)
  /-- The value of an attribute. -/
  | ofAttribute {key : String} : Refuses type value (.badAttribute key type value)

section Refusals

variable {type : ValueType} {value : String} {problem : Problem}

/-- What is said about a refused value ends with its quotation. -/
theorem Problem.Refuses.exists_message (refuses : problem.Refuses type value) :
    ∃ front, problem.message = front ++ type.rejection value := by
  cases refuses with
  | ofText => exact ⟨"", String.empty_append.symm⟩
  | @ofAttribute key => exact ⟨s!"attribute '{key}': ", rfl⟩

/-- A refused value is written in the element, and not of its type. -/
theorem Problem.Refuses.isWritten (refuses : problem.Refuses type value) {element : Element}
    (about : problem.IsAbout element) :
    type.accepts value = false ∧
      (element.text = value ∨ ∃ key, (key, value) ∈ element.attributes) := by
  cases refuses with
  | ofText => exact ⟨about.2, .inl about.1⟩
  | ofAttribute => exact ⟨about.2, .inr ⟨_, about.1⟩⟩

theorem isAbout_of_mem_findings {schema : Schema} {root : Element} {finding : Finding}
    (member : finding ∈ schema.findings root) :
    ∃ place element, root.elementAt? place = some element ∧ finding.problem.IsAbout element := by
  rw [← map_finding_sightings] at member
  obtain ⟨sighting, seen, rfl⟩ := List.mem_map.mp member
  obtain ⟨element, found, _, about⟩ := forall_isIn_sightings schema root sighting seen
  exact ⟨_, element, found, about⟩

end Refusals

/-- Numbers and dates are accepted by their grammar, whatever blanks surround them, and so is every
decimal as a double; an enumeration takes its values as they are.  A refused value stands in the
document, and is quoted as it stands there. -/
theorem values_are_accepted_by_grammar (value : String) :
    (ValueType.double.accepts value = true ↔ SpellsDouble (Text.trim value.toList)) ∧
      (ValueType.decimal.accepts value = true ↔ SpellsDecimal (Text.trim value.toList)) ∧
      (ValueType.date.accepts value = true ↔ SpellsDate (Text.trim value.toList)) ∧
      (ValueType.decimal.accepts value = true → ValueType.double.accepts value = true) ∧
      (∀ set, (ValueType.enumeration set).accepts value = true ↔ value ∈ set.values) ∧
      ∀ type : ValueType,
        type.rejection value = "'" ++ value ++ "' is not a valid " ++ type.text ∧
          ∀ (schema : Schema) (root : Element), ∀ finding ∈ schema.findings root,
            finding.problem.Refuses type value →
              (∃ front, finding.problem.message = front ++ type.rejection value) ∧
                type.accepts value = false ∧
                ∃ place element, root.elementAt? place = some element ∧
                  (element.text = value ∨ ∃ key, (key, value) ∈ element.attributes) := by
  refine ⟨isDouble_iff, isDecimal_iff, isDate_iff, ?_, ?_, ?_⟩
  · intro accepted
    exact isDouble_iff.mpr (isDecimal_iff.mp accepted).spellsDouble
  · intro set
    exact List.contains_iff_mem
  · intro type
    refine ⟨rfl, fun schema root finding member refuses => ⟨refuses.exists_message, ?_⟩⟩
    obtain ⟨place, element, found, about⟩ := isAbout_of_mem_findings member
    obtain ⟨refused, written⟩ := refuses.isWritten about
    exact ⟨refused, place, element, found, written⟩

end Schema
end MuseumRecord
