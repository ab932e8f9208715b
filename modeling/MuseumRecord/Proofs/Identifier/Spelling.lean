import MuseumRecord.Identifier
import MuseumRecord.Proofs.Number.Digits
import MuseumRecord.Proofs.Text.Cut

/-!
# Spellings of an identifier

The number of an identifier may be written with a plus sign instead of its first zero.  Apart from
that an identifier has one spelling, the one in which it is written.
-/

namespace MuseumRecord
namespace Number

/-- In a row of known length a number has one form. -/
theorem natural?_eq_some_iff {width value : Nat} {row : List Char} (positive : 0 < width)
    (length : row.length = width) :
    natural? row = some value ↔ value < Nat.pow 10 width ∧ row = padded width value := by
  subst length
  have filled : row ≠ [] := List.length_pos_iff.mp positive
  constructor
  · intro read
    simp only [natural?, Option.ite_none_right_eq_some, Bool.and_eq_true, Option.some.injEq] at read
    obtain ⟨⟨_, digits⟩, rfl⟩ := read
    exact ⟨ofDigits_lt digits, (padded_ofDigits digits).symm⟩
  · rintro ⟨small, written⟩
    have digits : row.all isDigit = true := written ▸ all_isDigit_padded small
    have denoted : ofDigits row = value :=
      (congrArg ofDigits written).trans (ofDigits_padded small)
    simp [natural?, filled, digits, denoted]

end Number

namespace Identifier

open Number

/-- The written form with a plus sign instead of the first zero. -/
def signedText (identifier : Identifier) : String :=
  String.ofList (letters ++ '+' :: padded 2 identifier.number)

/-- The spellings of an identifier. -/
inductive Spells (identifier : Identifier) : String → Prop
  /-- The written form. -/
  | plain : Spells identifier identifier.text
  /-- A number below a hundred leaves room for a sign. -/
  | signed : identifier.number < 100 → Spells identifier identifier.signedText

/-- Three characters denote a number as three digits, or as a sign and two. -/
theorem suffixNumber?_eq_some_iff {suffix : List Char} {number : Nat}
    (length : suffix.length = 3) :
    suffixNumber? suffix = some number ↔
      (number < 1000 ∧ suffix = padded 3 number) ∨
        (number < 100 ∧ suffix = '+' :: padded 2 number) := by
  unfold suffixNumber?
  split
  · next digits =>
    have short : digits.length = 2 := Nat.succ.inj length
    rw [natural?_eq_some_iff (Nat.succ_pos 1) short, List.cons.injEq]
    have noDigits : ¬(number < 1000 ∧ '+' :: digits = padded 3 number) := by
      rintro ⟨small, written⟩
      have allDigits := @all_isDigit_padded 3 _ small
      rw [← written] at allDigits
      cases allDigits
    simp [noDigits]
  · next unsigned =>
    rw [natural?_eq_some_iff (Nat.succ_pos 2) length]
    have noSign : ¬(number < 100 ∧ suffix = '+' :: padded 2 number) := by
      rintro ⟨_, written⟩
      exact unsigned _ written
    simp [noSign]

/-- An accepted text is the letters and three characters that denote the number. -/
theorem parse_eq_ok_iff {text : String} {identifier : Identifier} :
    parse text = .ok identifier ↔ ∃ suffix, text.toList = letters ++ suffix ∧
      suffix.length = 3 ∧ suffixNumber? suffix = some identifier.number := by
  constructor
  · intro read
    unfold parse at read
    split at read
    · cases read
    · split at read
      · cases read
      · next suffix found =>
        have division := Text.append_of_isPrefixOf? found
        split at read
        · cases read
        · next whole =>
          split at read
          · cases read
          · next number denoted =>
            have lengths : suffix.length = 3 := by
              rw [not_not, division, List.length_append] at whole
              exact Nat.add_left_cancel whole
            unfold ofNumber at read
            split at read
            · cases read
              exact ⟨suffix, division, lengths, denoted⟩
            · cases read
  · rintro ⟨suffix, division, lengths, denoted⟩
    have filled : text.toList.isEmpty = false := by rw [division]; rfl
    have whole : text.toList.length = length := by
      rw [division, List.length_append, lengths]
      rfl
    simp only [parse, division, Text.isPrefixOf?_append, denoted, ofNumber]
    rw [← division, filled, if_neg Bool.false_ne_true, if_neg (not_not_intro whole),
      dif_pos identifier.inRange]

/-- The accepted texts are the spellings. -/
theorem parse_eq_ok_iff_spells {text : String} {identifier : Identifier} :
    parse text = .ok identifier ↔ identifier.Spells text := by
  have small : identifier.number < 1000 := Nat.lt_succ_of_le identifier.inRange.2
  rw [parse_eq_ok_iff]
  constructor
  · rintro ⟨suffix, division, length, denoted⟩
    have whole : text = String.ofList (letters ++ suffix) := by
      rw [← division, String.ofList_toList]
    rcases (suffixNumber?_eq_some_iff length).mp denoted with ⟨_, rfl⟩ | ⟨room, rfl⟩
    · exact whole ▸ .plain
    · exact whole ▸ .signed room
  · intro spells
    cases spells with
    | plain =>
      have length : (padded 3 identifier.number).length = 3 := length_padded small
      exact ⟨_, String.toList_ofList, length,
        (suffixNumber?_eq_some_iff length).mpr (.inl ⟨small, rfl⟩)⟩
    | signed room =>
      have length : ('+' :: padded 2 identifier.number).length = 3 :=
        congrArg Nat.succ (@length_padded 2 _ room)
      exact ⟨_, String.toList_ofList, length,
        (suffixNumber?_eq_some_iff length).mpr (.inr ⟨room, rfl⟩)⟩

/-- The written form has no sign. -/
theorem plus_not_mem_text (identifier : Identifier) : '+' ∉ identifier.text.toList := by
  have small : identifier.number < Nat.pow 10 3 := Nat.lt_succ_of_le identifier.inRange.2
  rw [text, String.toList_ofList, List.mem_append]
  rintro (letter | digit)
  · exact absurd letter (by decide)
  · have sign := List.all_eq_true.mp (all_isDigit_padded small) _ digit
    cases sign

theorem plus_mem_signedText (identifier : Identifier) : '+' ∈ identifier.signedText.toList := by
  rw [signedText, String.toList_ofList]
  exact List.mem_append_right _ List.mem_cons_self

/-- A text is accepted exactly when it is the letters and three characters that denote a positive
number, with a sign or without, and the accepted texts are the spellings of the identifiers: the
written form, and for a number below a hundred the one with a plus sign instead of the first zero.
So the accepted texts without a sign are exactly the written forms of the identifiers that can be
built from a number, and an identifier has one spelling with a sign at most, and one without. -/
theorem accepted_texts_are_spellings :
    (∀ text, (∃ identifier, parse text = .ok identifier) ↔
      ∃ suffix number, text.toList = letters ++ suffix ∧ suffix.length = 3 ∧
        suffixNumber? suffix = some number ∧ 1 ≤ number) ∧
      (∀ text identifier, parse text = .ok identifier ↔ identifier.Spells text) ∧
      (∀ text, ((∃ identifier, parse text = .ok identifier) ∧ '+' ∉ text.toList) ↔
        ∃ number written identifier,
          ofNumber number written = .ok identifier ∧ text = identifier.text) ∧
      ∀ text other identifier, parse text = .ok identifier → parse other = .ok identifier →
        ('+' ∈ text.toList ↔ '+' ∈ other.toList) → text = other := by
  refine ⟨fun text => ?_, fun _ _ => parse_eq_ok_iff_spells, fun text => ?_, ?_⟩
  · constructor
    · rintro ⟨identifier, read⟩
      obtain ⟨suffix, division, length, denoted⟩ := parse_eq_ok_iff.mp read
      exact ⟨suffix, identifier.number, division, length, denoted, identifier.inRange.1⟩
    · rintro ⟨suffix, number, division, length, denoted, positive⟩
      have small : number < 1000 := by
        rcases (suffixNumber?_eq_some_iff length).mp denoted with ⟨small, _⟩ | ⟨room, _⟩
        · exact small
        · omega
      exact ⟨⟨number, positive, Nat.le_of_lt_succ small⟩,
        parse_eq_ok_iff.mpr ⟨suffix, division, length, denoted⟩⟩
  · constructor
    · rintro ⟨⟨identifier, read⟩, unsigned⟩
      cases parse_eq_ok_iff_spells.mp read with
      | plain => exact ⟨identifier.number, "", identifier, dif_pos identifier.inRange, rfl⟩
      | signed _ => exact absurd (plus_mem_signedText identifier) unsigned
    · rintro ⟨_, _, identifier, _, rfl⟩
      exact ⟨⟨identifier, parse_eq_ok_iff_spells.mpr .plain⟩, plus_not_mem_text identifier⟩
  · intro text other identifier read readOther signs
    cases parse_eq_ok_iff_spells.mp read with
    | plain =>
      cases parse_eq_ok_iff_spells.mp readOther with
      | plain => rfl
      | signed _ =>
        exact absurd (signs.mpr (plus_mem_signedText identifier)) (plus_not_mem_text identifier)
    | signed _ =>
      cases parse_eq_ok_iff_spells.mp readOther with
      | plain =>
        exact absurd (signs.mp (plus_mem_signedText identifier)) (plus_not_mem_text identifier)
      | signed _ => rfl

/-- The first identifier is read from two texts, one of which is not its written form. -/
theorem signed_number_is_read :
    ∃ identifier, parse "EXH+01" = .ok identifier ∧ parse "EXH001" = .ok identifier ∧
      identifier.text ≠ "EXH+01" := by
  refine ⟨⟨1, by omega⟩, ?_, ?_, ?_⟩
  · rfl
  · rfl
  · decide

end Identifier
end MuseumRecord
