import MuseumRecord.Number.Literal
import MuseumRecord.Proofs.Number.Digits

/-!
# Spellings of a literal

A decimal literal is spelled by a sign, digits around a point, and a power of ten.  The sign, the
point and the power may be missing.  The reader of literals takes the spellings and nothing else.
-/

namespace MuseumRecord
namespace Number

/-! ## The grammar -/

/-- A sign, and whether it is a minus. -/
inductive SpellsSign : Bool → List Char → Prop where
  /-- No sign is written. -/
  | missing : SpellsSign false []
  /-- A plus sign. -/
  | plus : SpellsSign false ['+']
  /-- A minus sign. -/
  | minus : SpellsSign true ['-']

/-- The digits in front of a point and those behind it, in the text that shows them. -/
inductive SpellsDigits : List Char → List Char → List Char → Prop where
  /-- Digits alone. -/
  | whole {whole : List Char} (filled : whole ≠ []) (digits : whole.all isDigit = true) :
      SpellsDigits whole [] whole
  /-- Digits, a point and any number of digits. -/
  | pointed {whole fraction : List Char} (filled : whole ≠ []) (digits : whole.all isDigit = true)
      (fractionDigits : fraction.all isDigit = true) :
      SpellsDigits whole fraction (whole ++ '.' :: fraction)
  /-- A point and at least one digit. -/
  | fraction {fraction : List Char} (filled : fraction ≠ [])
      (digits : fraction.all isDigit = true) : SpellsDigits [] fraction ('.' :: fraction)

/-- A power of ten: nothing, or a letter, a sign and at least one digit. -/
inductive SpellsPower : Option Int → List Char → Prop where
  /-- No power is written. -/
  | missing : SpellsPower none []
  /-- The letter, of either case, the sign and the digits. -/
  | power {mark : Char} {negative : Bool} {sign row : List Char}
      (marked : mark = 'e' ∨ mark = 'E') (signed : SpellsSign negative sign) (filled : row ≠ [])
      (digits : row.all isDigit = true) :
      SpellsPower (some (if negative then -(ofDigits row : Int) else ofDigits row))
        (mark :: (sign ++ row))

/-- A literal, in the text that spells it. -/
inductive Literal.Spells : Literal → List Char → Prop where
  /-- A sign, digits and a power of ten. -/
  | parts {negative : Bool} {whole fraction : List Char} {exponent : Option Int}
      {sign digits power : List Char} (signed : SpellsSign negative sign)
      (numbered : SpellsDigits whole fraction digits) (raised : SpellsPower exponent power) :
      Spells ⟨negative, whole, fraction, exponent⟩ (sign ++ (digits ++ power))

/-! ## Signs -/

section Signs

variable {negative : Bool} {sign rest text : List Char}

/-- A sign is split off whatever is not led by a sign itself. -/
theorem SpellsSign.splitSign_append (signed : SpellsSign negative sign)
    (unsigned : ∀ character ∈ rest.head?, character ≠ '+' ∧ character ≠ '-') :
    Literal.splitSign (sign ++ rest) = (negative, rest) := by
  cases signed with
  | plus => rfl
  | minus => rfl
  | missing =>
    rw [List.nil_append]
    unfold Literal.splitSign
    split
    · exact absurd rfl (unsigned '+' rfl).1
    · exact absurd rfl (unsigned '-' rfl).2
    · rfl

/-- What is split off is a sign. -/
theorem exists_spellsSign (text : List Char) :
    ∃ sign, SpellsSign (Literal.splitSign text).1 sign ∧
      text = sign ++ (Literal.splitSign text).2 := by
  unfold Literal.splitSign
  split
  · exact ⟨['+'], .plus, rfl⟩
  · exact ⟨['-'], .minus, rfl⟩
  · exact ⟨[], .missing, rfl⟩

theorem unsigned_of_isDigit
    (digit : ∀ character ∈ rest.head?, isDigit character = true) :
    ∀ character ∈ rest.head?, character ≠ '+' ∧ character ≠ '-' := by
  intro character head
  have leads := digit character head
  constructor
  · rintro rfl
    cases leads
  · rintro rfl
    cases leads

theorem isDigit_of_mem_head? (digits : text.all isDigit = true) :
    ∀ character ∈ text.head?, isDigit character = true := by
  intro character head
  exact List.all_eq_true.mp digits character (List.mem_of_mem_head? head)

theorem natural?_eq_some {value : Nat} :
    natural? text = some value ↔
      text ≠ [] ∧ text.all isDigit = true ∧ value = ofDigits text := by
  simp only [natural?, Option.ite_none_right_eq_some, Bool.and_eq_true, Bool.not_eq_true',
    List.isEmpty_eq_false_iff, Option.some.injEq, and_assoc, @eq_comm Nat value]

/-- A whole number is a sign and what follows it. -/
theorem integer?_eq_map (text : List Char) :
    integer? text = (natural? (Literal.splitSign text).2).map fun (magnitude : Nat) =>
      if (Literal.splitSign text).1 then -(magnitude : Int) else magnitude := by
  fun_cases Literal.splitSign text with
  | case1 digits => rfl
  | case2 digits => rfl
  | case3 unsigned plusless minusless =>
    rw [integer?.eq_3 _ plusless minusless]
    rfl

/-- A whole number is read from a sign and at least one digit. -/
theorem integer?_eq_some_iff {value : Int} :
    integer? text = some value ↔ ∃ negative sign row, text = sign ++ row ∧
      SpellsSign negative sign ∧ row ≠ [] ∧ row.all isDigit = true ∧
      value = if negative then -(ofDigits row : Int) else ofDigits row := by
  rw [integer?_eq_map]
  constructor
  · intro read
    obtain ⟨magnitude, denoted, rfl⟩ := Option.map_eq_some_iff.mp read
    obtain ⟨filled, digits, rfl⟩ := natural?_eq_some.mp denoted
    obtain ⟨sign, signed, whole⟩ := exists_spellsSign text
    exact ⟨_, sign, _, whole, signed, filled, digits, rfl⟩
  · rintro ⟨negative, sign, row, rfl, signed, filled, digits, rfl⟩
    have split := signed.splitSign_append (unsigned_of_isDigit (isDigit_of_mem_head? digits))
    rw [split, natural?_eq_some.mpr ⟨filled, digits, rfl⟩]
    rfl

end Signs

/-! ## Powers of ten -/

section Powers

variable {exponent : Option Int} {power : List Char}

theorem exponent?_eq_some_iff :
    Literal.exponent? power = some exponent ↔ SpellsPower exponent power := by
  constructor
  · intro read
    cases power with
    | nil =>
      cases read
      exact .missing
    | cons mark rest =>
      simp only [Literal.exponent?, Option.ite_none_right_eq_some] at read
      obtain ⟨marked, read⟩ := read
      obtain ⟨value, denoted, rfl⟩ := Option.map_eq_some_iff.mp read
      obtain ⟨negative, sign, row, rfl, signed, filled, digits, rfl⟩ :=
        integer?_eq_some_iff.mp denoted
      exact .power marked signed filled digits
  · intro spells
    cases spells with
    | missing => rfl
    | @power mark negative sign row marked signed filled digits =>
      have denoted := integer?_eq_some_iff.mpr
        ⟨negative, sign, row, rfl, signed, filled, digits, rfl⟩
      rw [Literal.exponent?, if_pos marked, denoted]
      rfl

/-- A power of ten is led by no digit and no point. -/
theorem SpellsPower.stops (raised : SpellsPower exponent power) :
    ∀ character ∈ power.head?, isDigit character = false ∧ character ≠ '.' := by
  intro character head
  cases raised with
  | missing => cases head
  | power marked _ _ _ =>
    cases head
    rcases marked with rfl | rfl
    · exact ⟨rfl, by decide⟩
    · exact ⟨rfl, by decide⟩

end Powers

/-! ## Digits around a point -/

section Digits

variable {whole fraction digits rest text : List Char}

/-- A row of digits is split off whatever is not led by a digit. -/
theorem splitDigits_append (allDigits : digits.all isDigit = true)
    (stops : ∀ character ∈ rest.head?, isDigit character = false) :
    Literal.splitDigits (digits ++ rest) = (digits, rest) := by
  have accepted := List.all_eq_true.mp allDigits
  rw [Literal.splitDigits, List.takeWhile_append_of_pos accepted,
    List.dropWhile_append_of_pos accepted]
  cases rest with
  | nil => simp
  | cons next rest => simp [stops next rfl]

theorem exists_splitDigits (text : List Char) :
    text = (Literal.splitDigits text).1 ++ (Literal.splitDigits text).2 ∧
      (Literal.splitDigits text).1.all isDigit = true :=
  ⟨List.takeWhile_append_dropWhile.symm, List.all_takeWhile⟩

theorem splitFraction_of_pointless (pointless : ∀ character ∈ text.head?, character ≠ '.') :
    Literal.splitFraction text = ([], text) := by
  unfold Literal.splitFraction
  split
  · exact absurd rfl (pointless '.' rfl)
  · rfl

theorem isDigit_head?_append (filled : digits ≠ []) (allDigits : digits.all isDigit = true)
    (rest : List Char) :
    ∀ character ∈ (digits ++ rest).head?, isDigit character = true := by
  obtain ⟨first, others, rfl⟩ := List.exists_cons_of_ne_nil filled
  exact @isDigit_of_mem_head? (first :: others) allDigits

theorem SpellsDigits.head_unsigned (numbered : SpellsDigits whole fraction digits)
    (rest : List Char) :
    ∀ character ∈ (digits ++ rest).head?, character ≠ '+' ∧ character ≠ '-' := by
  cases numbered with
  | fraction filled fractionDigits =>
    rintro character ⟨⟩
    decide
  | whole filled wholeDigits =>
    apply unsigned_of_isDigit
    exact isDigit_head?_append filled wholeDigits rest
  | pointed filled wholeDigits fractionDigits =>
    apply unsigned_of_isDigit
    rw [List.append_assoc]
    exact isDigit_head?_append filled wholeDigits _

/-- Digits around a point are taken apart in front of whatever stops them. -/
theorem SpellsDigits.split_append (numbered : SpellsDigits whole fraction digits)
    (stops : ∀ character ∈ rest.head?, isDigit character = false ∧ character ≠ '.') :
    Literal.splitDigits (digits ++ rest) =
        (whole, (Literal.splitDigits (digits ++ rest)).2) ∧
      Literal.splitFraction (Literal.splitDigits (digits ++ rest)).2 = (fraction, rest) ∧
      (whole.isEmpty && fraction.isEmpty) = false := by
  have undigit : ∀ character ∈ rest.head?, isDigit character = false :=
    fun character head => (stops character head).1
  have pointless : ∀ character ∈ rest.head?, character ≠ '.' :=
    fun character head => (stops character head).2
  cases numbered with
  | whole filled wholeDigits =>
    rw [splitDigits_append wholeDigits undigit, splitFraction_of_pointless pointless]
    simp [filled]
  | pointed filled wholeDigits fractionDigits =>
    have point : ∀ character ∈ ('.' :: (fraction ++ rest)).head?, isDigit character = false := by
      rintro character ⟨⟩
      rfl
    rw [List.append_assoc, List.cons_append, splitDigits_append wholeDigits point]
    exact ⟨rfl, splitDigits_append fractionDigits undigit, by simp [filled]⟩
  | fraction filled fractionDigits =>
    have point : ∀ character ∈ ('.' :: (fraction ++ rest)).head?, isDigit character = false := by
      rintro character ⟨⟩
      rfl
    rw [List.cons_append, ← List.nil_append ('.' :: _), splitDigits_append rfl point]
    exact ⟨rfl, splitDigits_append fractionDigits undigit, by simp [filled]⟩

/-- What is taken apart as digits around a point was spelled so. -/
theorem spellsDigits_of_split
    (filled : (whole.isEmpty && fraction.isEmpty) = false)
    (wholeSplit : Literal.splitDigits text = (whole, rest)) {power : List Char}
    (fractionSplit : Literal.splitFraction rest = (fraction, power)) :
    ∃ digits, SpellsDigits whole fraction digits ∧ text = digits ++ power := by
  obtain ⟨division, wholeDigits⟩ := exists_splitDigits text
  rw [wholeSplit] at division wholeDigits
  unfold Literal.splitFraction at fractionSplit
  split at fractionSplit
  · next behind =>
    obtain ⟨behindDivision, fractionDigits⟩ := exists_splitDigits behind
    rw [fractionSplit] at behindDivision fractionDigits
    subst behindDivision
    cases whole with
    | nil =>
      have fractionFilled : fraction ≠ [] := by simpa using filled
      exact ⟨'.' :: fraction, .fraction fractionFilled fractionDigits, division⟩
    | cons first others =>
      refine ⟨_, .pointed (List.cons_ne_nil _ _) wholeDigits fractionDigits, ?_⟩
      rw [List.append_assoc]
      exact division
  · cases fractionSplit
    have wholeFilled : whole ≠ [] := by simpa using filled
    exact ⟨whole, .whole wholeFilled wholeDigits, division⟩

end Digits

/-- The reader of literals takes exactly the texts that spell one. -/
theorem Literal.read?_eq_some_iff {literal : Literal} {text : List Char} :
    Literal.read? text = some literal ↔ literal.Spells text := by
  constructor
  · intro read
    obtain ⟨sign, signed, signSplit⟩ := exists_spellsSign text
    simp only [Literal.read?, Option.ite_none_left_eq_some, Bool.not_eq_true] at read
    obtain ⟨filled, read⟩ := read
    obtain ⟨exponent, powerRead, rfl⟩ := Option.map_eq_some_iff.mp read
    obtain ⟨digits, numbered, digitSplit⟩ :=
      spellsDigits_of_split filled (Prod.eta _).symm (Prod.eta _).symm
    have spelled := Spells.parts signed numbered (exponent?_eq_some_iff.mp powerRead)
    rwa [← digitSplit, ← signSplit] at spelled
  · intro spells
    cases spells with
    | @parts negative whole fraction exponent sign digits power signed numbered raised =>
      have signSplit := signed.splitSign_append (numbered.head_unsigned power)
      obtain ⟨wholeSplit, fractionSplit, filled⟩ := numbered.split_append raised.stops
      simp only [Literal.read?, signSplit, fractionSplit, exponent?_eq_some_iff.mpr raised]
      rw [wholeSplit]
      simp [filled]

/-! ## The digits of a literal -/

theorem countP_of_all {row : List Char} (digits : row.all isDigit = true) :
    row.countP isDigit = row.length :=
  List.countP_eq_length.mpr (List.all_eq_true.mp digits)

section Counts

variable {whole fraction digits : List Char}

theorem SpellsDigits.all_isDigit (numbered : SpellsDigits whole fraction digits) :
    whole.all isDigit = true ∧ fraction.all isDigit = true := by
  cases numbered with
  | whole filled wholeDigits => exact ⟨wholeDigits, rfl⟩
  | pointed filled wholeDigits fractionDigits => exact ⟨wholeDigits, fractionDigits⟩
  | fraction filled fractionDigits => exact ⟨rfl, fractionDigits⟩

/-- The point is no digit. -/
theorem SpellsDigits.countP_eq (numbered : SpellsDigits whole fraction digits) :
    digits.countP isDigit = whole.length + fraction.length := by
  have point : isDigit '.' ≠ true := by decide
  cases numbered with
  | whole filled wholeDigits => exact countP_of_all wholeDigits
  | pointed filled wholeDigits fractionDigits =>
    rw [List.countP_append, List.countP_cons_of_neg point, countP_of_all wholeDigits,
      countP_of_all fractionDigits]
  | fraction filled fractionDigits =>
    rw [List.countP_cons_of_neg point, countP_of_all fractionDigits]
    exact (Nat.zero_add _).symm

/-- The digits around the point are digits of the text. -/
theorem Literal.Spells.length_le {literal : Literal} {text : List Char}
    (spells : literal.Spells text) :
    literal.whole.length + literal.fraction.length ≤ text.countP isDigit := by
  cases spells with
  | parts signed numbered raised =>
    rw [List.countP_append, List.countP_append, numbered.countP_eq]
    exact Nat.le_trans (Nat.le_add_right _ _) (Nat.le_add_left _ _)

theorem Literal.Spells.all_isDigit {literal : Literal} {text : List Char}
    (spells : literal.Spells text) :
    literal.whole.all isDigit = true ∧ literal.fraction.all isDigit = true := by
  cases spells with
  | parts signed numbered raised => exact numbered.all_isDigit

/-- A text spells at most one literal. -/
theorem Literal.Spells.eq {literal other : Literal} {text : List Char}
    (spells : literal.Spells text) (otherwise : other.Spells text) : literal = other := by
  rw [← Literal.read?_eq_some_iff] at spells otherwise
  exact Option.some.inj (spells.symm.trans otherwise)

end Counts

end Number
end MuseumRecord
