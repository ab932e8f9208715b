import Mathlib.Data.List.Induction
import Mathlib.Data.List.TakeWhile
import MuseumRecord.Number.Digits

/-!
# Rows of digits

A row of digits is written back from the number it denotes and its length, and readers of a bounded
number of digits take such a row whole, whatever follows it.
-/

namespace MuseumRecord
namespace Number

variable {row : List Char}

theorem isDigit_iff {character : Char} :
    isDigit character = true ↔ 48 ≤ character.toNat ∧ character.toNat ≤ 57 := by
  simp only [isDigit, Bool.and_eq_true, decide_eq_true_eq, Char.le_def, UInt32.le_iff_toNat_le]
  rfl

theorem digitValue_lt_ten {character : Char} (digit : isDigit character = true) :
    digitValue character < 10 := by
  have bounds := isDigit_iff.mp digit
  change character.toNat - 48 < 10
  omega

/-- The last digit of a number is written as it was read. -/
theorem digitChar_append {character : Char} (digit : isDigit character = true) (front : Nat) :
    digitChar ((front * 10 + digitValue character) % 10) = character := by
  have bounds := isDigit_iff.mp digit
  have value : 48 + (front * 10 + (character.toNat - 48)) % 10 % 10 = character.toNat := by omega
  change Char.ofNat (48 + (front * 10 + (character.toNat - 48)) % 10 % 10) = character
  rw [value, Char.ofNat_toNat]

theorem ofDigits_append_singleton (front : List Char) (last : Char) :
    ofDigits (front ++ [last]) = ofDigits front * 10 + digitValue last := by
  rw [ofDigits, List.foldl_append]
  rfl

theorem lastDigits_ofDigits (digits : row.all isDigit = true) :
    lastDigits row.length (ofDigits row) = row := by
  induction row using List.reverseRecOn with
  | nil => rfl
  | append_singleton front last inductionHypothesis =>
    simp only [List.all_append, List.all_cons, List.all_nil, Bool.and_true, Bool.and_eq_true]
      at digits
    have small := digitValue_lt_ten digits.2
    have quotient : (ofDigits front * 10 + digitValue last) / 10 = ofDigits front := by omega
    rw [List.length_append, List.length_singleton, lastDigits, ofDigits_append_singleton, quotient,
      inductionHypothesis digits.1, digitChar_append digits.2]

theorem ofDigits_lt (digits : row.all isDigit = true) : ofDigits row < Nat.pow 10 row.length := by
  induction row using List.reverseRecOn with
  | nil => exact Nat.one_pos
  | append_singleton front last inductionHypothesis =>
    simp only [List.all_append, List.all_cons, List.all_nil, Bool.and_true, Bool.and_eq_true]
      at digits
    have small := digitValue_lt_ten digits.2
    have bound := inductionHypothesis digits.1
    rw [List.length_append, List.length_singleton, ofDigits_append_singleton]
    change _ < Nat.pow 10 front.length * 10
    omega

/-- A row of digits is the padded form of its number. -/
theorem padded_ofDigits (digits : row.all isDigit = true) :
    padded row.length (ofDigits row) = row := by
  rw [padded, if_pos (ofDigits_lt digits), lastDigits_ofDigits digits]

theorem takeWhile_of_all (digits : row.all isDigit = true) : row.takeWhile isDigit = row :=
  List.takeWhile_eq_self_iff.mpr fun character member => List.all_eq_true.mp digits character member

theorem all_isDigit_take (digits : row.all isDigit = true) (count : Nat) :
    (row.take count).all isDigit = true :=
  List.all_eq_true.mpr fun character member =>
    List.all_eq_true.mp digits character (List.mem_of_mem_take member)

/-- A row is taken whole if it is not too long and either as long as can be or ended. -/
theorem leadingDigits?_of_ends (digits : row.all isDigit = true) (filled : row ≠ []) {most : Nat}
    (room : row.length ≤ most) {rest : List Char}
    (ends : row.length = most ∨ ∀ character ∈ rest.head?, isDigit character = false) :
    leadingDigits? most (row ++ rest) = some (ofDigits row, rest) := by
  have taken : ((row ++ rest).take most).takeWhile isDigit = row := by
    rw [List.take_append, List.take_of_length_le room,
      List.takeWhile_append_of_pos (List.all_eq_true.mp digits)]
    rcases ends with full | stops
    · simp [full]
    · cases rest with
      | nil => simp
      | cons next rest =>
        cases most - row.length with
        | zero => simp
        | succ left => simp [stops next rfl]
  simp [leadingDigits?, taken, filled]

theorem leadingDigits?_append (digits : row.all isDigit = true) (filled : row ≠ [])
    (rest : List Char) :
    leadingDigits? row.length (row ++ rest) = some (ofDigits row, rest) :=
  leadingDigits?_of_ends digits filled (Nat.le_refl _) (.inl rfl)

/-- What is taken is a row of digits, as long as can be or ended. -/
theorem exists_row_of_leadingDigits? {most value : Nat} {text rest : List Char}
    (read : leadingDigits? most text = some (value, rest)) :
    ∃ row, text = row ++ rest ∧ row.all isDigit = true ∧ row ≠ [] ∧ row.length ≤ most ∧
      value = ofDigits row ∧
      (row.length = most ∨ ∀ character ∈ rest.head?, isDigit character = false) := by
  simp only [leadingDigits?] at read
  split at read
  · cases read
  · next filled =>
    cases read
    have leads := (List.takeWhile_prefix isDigit).trans (List.take_prefix most text)
    have digits : ((text.take most).takeWhile isDigit).all isDigit = true := List.all_takeWhile
    have room := ((List.takeWhile_prefix isDigit).length_le).trans (List.length_take_le most text)
    obtain ⟨rest, whole⟩ := leads
    generalize taken : (text.take most).takeWhile isDigit = row at *
    subst whole
    refine ⟨row, by rw [List.drop_left], digits, by simpa using filled, room, rfl, ?_⟩
    rw [List.drop_left]
    rcases Nat.lt_or_ge row.length most with short | full
    · right
      rintro character head
      obtain ⟨others, rfl⟩ := List.head?_eq_some_iff.mp head
      obtain ⟨left, room⟩ := Nat.exists_eq_add_of_lt short
      by_contra digit
      rw [Bool.not_eq_false] at digit
      rw [List.take_append, List.take_of_length_le (Nat.le_of_lt short),
        List.takeWhile_append_of_pos (List.all_eq_true.mp digits),
        show most - row.length = left + 1 by omega] at taken
      simp [digit] at taken
    · exact .inl (Nat.le_antisymm room full)

theorem exactDigits?_append (digits : row.all isDigit = true) (rest : List Char) :
    exactDigits? row.length (row ++ rest) = some (ofDigits row, rest) := by
  rw [exactDigits?, List.take_left, takeWhile_of_all digits]
  simp

theorem exists_row_of_exactDigits? {width value : Nat} {text rest : List Char}
    (read : exactDigits? width text = some (value, rest)) :
    ∃ row, text = row ++ rest ∧ row.all isDigit = true ∧ row.length = width ∧
      value = ofDigits row := by
  simp only [exactDigits?, Option.ite_none_right_eq_some, Option.some.injEq, Prod.mk.injEq] at read
  obtain ⟨length, rfl, rfl⟩ := read
  have whole : (text.take width).takeWhile isDigit = text.take width := by
    refine (List.takeWhile_prefix _).eq_of_length_le ?_
    rw [length]
    exact List.length_take_le width text
  refine ⟨text.take width, (List.take_append_drop _ _).symm, ?_, ?_, by rw [whole]⟩
  · rw [← whole]
    exact List.all_takeWhile
  · rw [← whole]
    exact length

/-! ## Rows of two and of four digits -/

variable {a b c d : Char}

theorem leadingDigits?_pair (digits : [a, b].all isDigit = true) (rest : List Char) :
    leadingDigits? 2 (a :: b :: rest) = some (ofDigits [a, b], rest) :=
  leadingDigits?_append digits (List.cons_ne_nil _ _) rest

theorem leadingDigits?_four (digits : [a, b, c, d].all isDigit = true) (rest : List Char) :
    leadingDigits? 4 (a :: b :: c :: d :: rest) = some (ofDigits [a, b, c, d], rest) :=
  leadingDigits?_append digits (List.cons_ne_nil _ _) rest

theorem exactDigits?_pair (digits : [a, b].all isDigit = true) (rest : List Char) :
    exactDigits? 2 (a :: b :: rest) = some (ofDigits [a, b], rest) :=
  exactDigits?_append digits rest

theorem exactDigits?_four (digits : [a, b, c, d].all isDigit = true) (rest : List Char) :
    exactDigits? 4 (a :: b :: c :: d :: rest) = some (ofDigits [a, b, c, d], rest) :=
  exactDigits?_append digits rest

/-! ## Written numbers -/

theorem toNat_digitChar (value : Nat) : (digitChar value).toNat = 48 + value % 10 := by
  have valid : (48 + value % 10).isValidChar := .inl (by omega)
  change (Char.ofNat (48 + value % 10)).toNat = 48 + value % 10
  rw [Char.ofNat, dif_pos valid]
  rfl

theorem isDigit_digitChar (value : Nat) : isDigit (digitChar value) = true := by
  have code := toNat_digitChar value
  rw [isDigit_iff]
  omega

theorem digitValue_digitChar (value : Nat) : digitValue (digitChar value) = value % 10 := by
  change (digitChar value).toNat - 48 = value % 10
  rw [toNat_digitChar]
  omega

theorem length_lastDigits (width value : Nat) : (lastDigits width value).length = width := by
  induction width generalizing value with
  | zero => rfl
  | succ width inductionHypothesis =>
    rw [lastDigits, List.length_append, inductionHypothesis]
    rfl

theorem all_isDigit_lastDigits (width value : Nat) :
    (lastDigits width value).all isDigit = true := by
  induction width generalizing value with
  | zero => rfl
  | succ width inductionHypothesis =>
    rw [lastDigits, List.all_append, inductionHypothesis]
    simp [isDigit_digitChar]

theorem ofDigits_lastDigits {width value : Nat} (small : value < Nat.pow 10 width) :
    ofDigits (lastDigits width value) = value := by
  induction width generalizing value with
  | zero =>
    have nothing : value < 1 := small
    change 0 = value
    omega
  | succ width inductionHypothesis =>
    have smaller : value / 10 < Nat.pow 10 width := by
      change value < Nat.pow 10 width * 10 at small
      omega
    rw [lastDigits, ofDigits_append_singleton, inductionHypothesis smaller, digitValue_digitChar]
    omega

section Padded

variable {width value : Nat} (small : value < Nat.pow 10 width)

include small

theorem length_padded : (padded width value).length = width := by
  rw [padded, if_pos small, length_lastDigits]

theorem all_isDigit_padded : (padded width value).all isDigit = true := by
  rw [padded, if_pos small, all_isDigit_lastDigits]

theorem ofDigits_padded : ofDigits (padded width value) = value := by
  rw [padded, if_pos small, ofDigits_lastDigits small]

end Padded

theorem digits_ne_nil (value : Nat) : digits value ≠ [] := by
  rw [digits]
  split <;> simp

theorem all_isDigit_digits (value : Nat) : (digits value).all isDigit = true := by
  fun_induction digits value with
  | case1 value small => simp [isDigit_digitChar]
  | case2 value large inductionHypothesis => simp [inductionHypothesis, isDigit_digitChar]

theorem exists_head_digits (value : Nat) :
    ∃ head tail, digits value = head :: tail ∧ isDigit head = true := by
  obtain ⟨head, tail, shape⟩ := List.exists_cons_of_ne_nil (digits_ne_nil value)
  have digit := all_isDigit_digits value
  rw [shape, List.all_cons, Bool.and_eq_true] at digit
  exact ⟨head, tail, shape, digit.1⟩

/-- What is no digit does not stand in a row of digits. -/
theorem not_mem_of_digits {row : List Char} {character : Char} (digits : row.all isDigit = true)
    (undigit : isDigit character = false) : character ∉ row := by
  intro member
  rw [List.all_eq_true.mp digits character member] at undigit
  cases undigit

theorem not_mem_digits {character : Char} (undigit : isDigit character = false) (value : Nat) :
    character ∉ digits value :=
  not_mem_of_digits (all_isDigit_digits value) undigit

/-- The digits of a number denote it. -/
theorem ofDigits_digits (value : Nat) : ofDigits (digits value) = value := by
  fun_induction digits value with
  | case1 value small =>
    change 0 * 10 + digitValue (digitChar value) = value
    rw [digitValue_digitChar]
    omega
  | case2 value large inductionHypothesis =>
    rw [ofDigits_append_singleton, inductionHypothesis, digitValue_digitChar]
    omega

/-- A number is read from its digits. -/
theorem natural?_digits (value : Nat) : natural? (digits value) = some value := by
  rw [natural?, all_isDigit_digits, ofDigits_digits]
  simp [digits_ne_nil value]

/-- The digits of a number are its usual text. -/
theorem toDigits_eq_digits (value : Nat) : Nat.toDigits 10 value = digits value := by
  have below : ∀ value < 10, Nat.digitChar value = digitChar value := by decide
  fun_induction digits value with
  | case1 value small => rw [Nat.toDigits_eq_if (by decide), if_pos small, below value small]
  | case2 value large inductionHypothesis =>
    rw [Nat.toDigits_eq_if (by decide), if_neg large, inductionHypothesis,
      below _ (Nat.mod_lt _ (by decide))]

theorem toList_toString (value : Nat) : (toString value).toList = digits value := by
  rw [Nat.toString_eq_repr, Nat.toList_repr, toDigits_eq_digits]

/-- A number of 32 bits is read from its digits. -/
theorem integer32?_digits {value : Nat} (small : value ≤ 2147483647) :
    integer32? (digits value) = some (value : Int) := by
  have allDigits := all_isDigit_digits value
  have read : integer? (digits value) = some (value : Int) := by
    unfold integer?
    split
    · next equal => rw [equal] at allDigits; cases allDigits
    · next equal => rw [equal] at allDigits; cases allDigits
    · rw [natural?_digits]
      rfl
  rw [integer32?, read]
  refine Option.filter_some_pos ?_
  simp only [Bool.and_eq_true, decide_eq_true_eq]
  omega

end Number
end MuseumRecord
