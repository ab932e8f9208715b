import MuseumRecord.Proofs.Text.LowerCase

/-!
# Characters without case

Blanks, dashes, digits and punctuation are neither changed nor made by lower-casing.  A mark of such
characters therefore stands in a lower-cased text only where it stands in the text itself.
-/

namespace MuseumRecord
namespace Text
namespace LowerCase

/-- What one character becomes in lower case between its neighbours. -/
def image (behind : List Char) (character : Char) (ahead : List Char) : List Char :=
  if character = 'Σ' then [sigma behind ahead] else letter character

theorem lowerAfter_cons (behind : List Char) (character : Char) (rest : List Char) :
    lowerAfter behind (character :: rest) =
      image behind character rest ++ lowerAfter (character :: behind) rest :=
  rfl

theorem toNat_sigma (behind ahead : List Char) :
    (sigma behind ahead).toNat = 0x3C2 ∨ (sigma behind ahead).toNat = 0x3C3 := by
  unfold sigma
  split
  · exact .inl rfl
  · exact .inr rfl

/-- A character that lower-casing leaves as it is and makes of no other. -/
def IsCaseless (character : Char) : Prop :=
  IsSmall character ∧
    ∀ behind other ahead, character ∈ image behind other ahead → other = character

section Characters

variable {character : Char}

theorem isCaseless_of_range {range : Nat × Nat} (listed : range ∈ caselessRanges)
    (lower : range.1 ≤ character.toNat) (upper : character.toNat ≤ range.2) :
    IsCaseless character := by
  have bounds := caselessRanges_bounds listed
  constructor
  · rcases Nat.lt_or_ge character.toNat 0x80 with ascii | distant
    · exact isSmall_of_ascii ascii (by omega)
    · refine isSmall_of_uncovered distant (by omega) (fun run member => ?_)
        (ne_sigma_of_code (by omega))
      have avoided := ((CapitalRun.sound_of_mem member).avoids_caseless range listed).2
      rw [Bool.eq_false_iff]
      intro covered
      obtain ⟨first, last, _⟩ := CapitalRun.covers_iff.mp covered
      omega
  · intro behind other ahead member
    unfold image at member
    split at member
    · have code := toNat_sigma behind ahead
      rw [← List.mem_singleton.mp member] at code
      omega
    · exact eq_of_mem_letter listed lower upper member

theorem isCaseless_of_isBlank (blank : isBlank character = true) : IsCaseless character := by
  have listed : ∃ range ∈ caselessRanges,
      range.1 ≤ character.toNat ∧ character.toNat ≤ range.2 := by
    simp only [isBlank, Bool.or_eq_true, Bool.and_eq_true, decide_eq_true_eq, beq_iff_eq] at blank
    simp only [caselessRanges, List.exists_mem_cons_iff]
    omega
  obtain ⟨range, member, lower, upper⟩ := listed
  exact isCaseless_of_range member lower upper

theorem isCaseless_of_isDash (dash : HistoricalDate.isDash character = true) :
    IsCaseless character := by
  have listed : ∃ range ∈ caselessRanges,
      range.1 ≤ character.toNat ∧ character.toNat ≤ range.2 := by
    simp only [HistoricalDate.isDash, Bool.or_eq_true, beq_iff_eq] at dash
    simp only [caselessRanges, List.exists_mem_cons_iff]
    omega
  obtain ⟨range, member, lower, upper⟩ := listed
  exact isCaseless_of_range member lower upper

/-- Where a caseless character comes of a character, nothing else does. -/
theorem IsCaseless.image_eq (caseless : IsCaseless character) {behind ahead : List Char}
    {other : Char} (member : character ∈ image behind other ahead) :
    other = character ∧ image behind other ahead = [character] := by
  obtain rfl := caseless.2 behind other ahead member
  exact ⟨rfl, (if_neg caseless.1.1).trans caseless.1.2⟩

theorem image_ne_nil (behind : List Char) (character : Char) (ahead : List Char) :
    image behind character ahead ≠ [] := by
  unfold image
  split
  · exact List.cons_ne_nil _ _
  · exact letter_ne_nil character

end Characters

/-! ## Marks in a lower-cased text -/

variable {mark behind text : List Char}

theorem prefix_of_prefix_lowerAfter (caseless : ∀ character ∈ mark, IsCaseless character)
    (leads : mark <+: lowerAfter behind text) : mark <+: text := by
  induction mark generalizing behind text with
  | nil => exact List.nil_prefix
  | cons first mark inductionHypothesis =>
    obtain ⟨here, others⟩ := List.forall_mem_cons.mp caseless
    cases text with
    | nil => exact leads
    | cons character rest =>
      rw [lowerAfter_cons] at leads
      obtain ⟨head, tail, shape⟩ := List.exists_cons_of_ne_nil (image_ne_nil behind character rest)
      rw [shape, List.cons_append] at leads
      obtain ⟨rfl, _⟩ := List.cons_prefix_cons.mp leads
      have member : first ∈ image behind character rest := shape ▸ List.mem_cons_self
      obtain ⟨rfl, alone⟩ := here.image_eq member
      rw [alone] at shape
      obtain rfl := (List.cons.inj shape).2
      exact List.cons_prefix_cons.mpr
        ⟨rfl, inductionHypothesis others (List.cons_prefix_cons.mp leads).2⟩

/-- A mark that begins inside the image of a character is led by that character itself. -/
theorem infix_of_infix_lowerAfter (caseless : ∀ character ∈ mark, IsCaseless character)
    (inside : mark <:+: lowerAfter behind text) : mark <:+: text := by
  induction text generalizing behind with
  | nil => exact inside
  | cons character rest inductionHypothesis =>
    cases mark with
    | nil => exact List.nil_infix
    | cons first mark =>
      have later (held : first :: mark <:+: lowerAfter (character :: behind) rest) :
          first :: mark <:+: character :: rest :=
        (inductionHypothesis held).trans (List.suffix_cons character rest).isInfix
      obtain ⟨before, after, whole⟩ := inside
      rw [lowerAfter_cons, List.append_assoc] at whole
      rcases List.append_eq_append_iff.mp whole with ⟨within, split, tail⟩ | ⟨front, _, tail⟩
      · cases within with
        | nil => exact later ⟨[], after, tail⟩
        | cons head within =>
          obtain ⟨rfl, _⟩ := List.cons.inj tail
          have member : first ∈ image behind character rest := by simp [split]
          obtain ⟨_, alone⟩ := (caseless first List.mem_cons_self).image_eq member
          have nothing : before = [] ∧ within = [] := by
            rw [alone] at split
            cases before <;> simp_all
          have leads : first :: mark <+: lowerAfter behind (character :: rest) :=
            ⟨after, by rw [lowerAfter_cons, alone, tail, nothing.2]⟩
          exact (prefix_of_prefix_lowerAfter caseless leads).isInfix
      · exact later ⟨front, after, by rw [List.append_assoc, tail]⟩

/-- A caseless character at the end of a lower-cased text stands at the end of the text itself. -/
theorem IsCaseless.mem_getLast? {character : Char} (caseless : IsCaseless character)
    (ends : character ∈ (lowerAfter behind text).getLast?) : character ∈ text.getLast? := by
  induction text generalizing behind with
  | nil => exact ends
  | cons first rest inductionHypothesis =>
    rw [lowerAfter_cons] at ends
    cases rest with
    | nil =>
      rw [lowerAfter, List.append_nil] at ends
      obtain ⟨rfl, _⟩ := caseless.image_eq (List.mem_of_mem_getLast? ends)
      exact rfl
    | cons second rest =>
      have filled : lowerAfter (first :: behind) (second :: rest) ≠ [] := by
        rw [lowerAfter_cons]
        simp [image_ne_nil]
      rw [List.getLast?_append_of_ne_nil _ filled] at ends
      rw [List.getLast?_cons_cons]
      exact inductionHypothesis ends

end LowerCase

/-! ## ASCII letters -/

section Ascii

open LowerCase

/-- An ASCII letter of either case. -/
def isLetter (character : Char) : Bool :=
  ('A' ≤ character && character ≤ 'Z') || ('a' ≤ character && character ≤ 'z')

variable {character other : Char} {text : List Char}

theorem isLetter_iff : isLetter character = true ↔
    (0x41 ≤ character.toNat ∧ character.toNat ≤ 0x5A) ∨
      (0x61 ≤ character.toNat ∧ character.toNat ≤ 0x7A) := by
  simp only [isLetter, Bool.or_eq_true, Bool.and_eq_true, decide_eq_true_eq]
  exact Iff.rfl

/-- Only a letter becomes a letter, and all else stays as it is. -/
theorem isLetter_asciiLetter (character : Char) :
    isLetter (asciiLetter character) = isLetter character := by
  rw [Bool.eq_iff_iff, isLetter_iff, isLetter_iff]
  by_cases capital : 0x41 ≤ character.toNat ∧ character.toNat ≤ 0x5A
  · rw [toNat_asciiLetter capital]
    omega
  · rw [asciiLetter_eq_self capital]

theorem asciiLetter_of_not_isLetter (unlettered : isLetter character = false) :
    asciiLetter character = character := by
  refine asciiLetter_eq_self fun capital => ?_
  rw [isLetter_iff.mpr (.inl capital)] at unlettered
  cases unlettered

theorem asciiLetter_eq_iff (unlettered : isLetter other = false) :
    asciiLetter character = other ↔ character = other := by
  constructor
  · intro same
    have plain : isLetter character = false := by
      rw [← isLetter_asciiLetter, same, unlettered]
    rw [← asciiLetter_of_not_isLetter plain, same]
  · rintro rfl
    exact asciiLetter_of_not_isLetter unlettered

section Capital

variable {capital small : Char} (range : 0x41 ≤ capital.toNat ∧ capital.toNat ≤ 0x5A)

include range

theorem asciiLetter_ne_capital : asciiLetter character ≠ capital := by
  intro same
  rw [← Char.toNat_inj] at same
  by_cases raised : 0x41 ≤ character.toNat ∧ character.toNat ≤ 0x5A
  · rw [toNat_asciiLetter raised] at same
    omega
  · rw [asciiLetter_eq_self raised] at same
    omega

theorem asciiLetter_eq_small_iff (pair : small.toNat = capital.toNat + 32) :
    asciiLetter character = small ↔ character = capital ∨ character = small := by
  rw [← Char.toNat_inj, ← Char.toNat_inj, ← Char.toNat_inj]
  by_cases raised : 0x41 ≤ character.toNat ∧ character.toNat ≤ 0x5A
  · rw [toNat_asciiLetter raised]
    omega
  · rw [asciiLetter_eq_self raised]
    omega

end Capital

/-- Of a class of characters that holds no letter, lower-casing changes no member. -/
theorem class_asciiLetter {accepts : Char → Bool}
    (unlettered : ∀ character, accepts character = true → isLetter character = false)
    (character : Char) : accepts (asciiLetter character) = accepts character := by
  cases lettered : isLetter character with
  | false => rw [asciiLetter_of_not_isLetter lettered]
  | true =>
    have refused {letter : Char} (lettered : isLetter letter = true) : accepts letter = false := by
      cases accepted : accepts letter with
      | false => rfl
      | true => rw [unlettered letter accepted] at lettered; cases lettered
    rw [refused lettered, refused ((isLetter_asciiLetter character).trans lettered)]

theorem isLetter_of_isBlank (blank : isBlank character = true) : isLetter character = false := by
  rw [Bool.eq_false_iff, ne_eq, isLetter_iff]
  simp only [isBlank, Bool.or_eq_true, Bool.and_eq_true, decide_eq_true_eq, beq_iff_eq] at blank
  omega

theorem isLetter_of_isDash (dash : HistoricalDate.isDash character = true) :
    isLetter character = false := by
  rw [Bool.eq_false_iff, ne_eq, isLetter_iff]
  simp only [HistoricalDate.isDash, Bool.or_eq_true, beq_iff_eq] at dash
  omega

theorem isBlank_asciiLetter (character : Char) :
    isBlank (asciiLetter character) = isBlank character :=
  class_asciiLetter (fun _ => isLetter_of_isBlank) character

theorem trimStart_lowerAscii (text : List Char) :
    trimStart (lowerAscii text) = lowerAscii (trimStart text) := by
  have classes : (isBlank ∘ asciiLetter) = isBlank := funext isBlank_asciiLetter
  rw [trimStart, lowerAscii, List.dropWhile_map, classes]
  rfl

theorem trimEnd_lowerAscii (text : List Char) :
    trimEnd (lowerAscii text) = lowerAscii (trimEnd text) := by
  induction text with
  | nil => rfl
  | cons character rest inductionHypothesis =>
    change trimEnd (asciiLetter character :: lowerAscii rest) = _
    rw [trimEnd, trimEnd, inductionHypothesis, isBlank_asciiLetter]
    cases trimEnd rest with
    | nil => cases isBlank character <;> rfl
    | cons first others => rfl

theorem trim_lowerAscii (text : List Char) : trim (lowerAscii text) = lowerAscii (trim text) := by
  rw [trim, trimStart_lowerAscii, trimEnd_lowerAscii]
  rfl

theorem lowerAscii_append (front back : List Char) :
    lowerAscii (front ++ back) = lowerAscii front ++ lowerAscii back :=
  List.map_append

theorem lowerAscii_eq_self (unlettered : ∀ character ∈ text, isLetter character = false) :
    lowerAscii text = text := by
  rw [lowerAscii, List.map_congr_left fun character member =>
    asciiLetter_of_not_isLetter (unlettered character member), List.map_id']

theorem lowerAscii_of_blank (blank : ∀ character ∈ text, isBlank character = true) :
    lowerAscii text = text :=
  lowerAscii_eq_self fun character member => isLetter_of_isBlank (blank character member)

@[simp] theorem lowerAscii_lowerAscii (text : List Char) :
    lowerAscii (lowerAscii text) = lowerAscii text := by
  rw [lowerAscii, lowerAscii, List.map_map]
  refine List.map_congr_left fun character _ => ?_
  change asciiLetter (asciiLetter character) = asciiLetter character
  by_cases capital : 0x41 ≤ character.toNat ∧ character.toNat ≤ 0x5A
  · have code := toNat_asciiLetter capital
    exact asciiLetter_eq_self (by omega)
  · rw [asciiLetter_eq_self capital, asciiLetter_eq_self capital]

/-- A character that is no letter stands in a lower-cased text where it stands in the text. -/
theorem mem_lowerAscii_iff (unlettered : isLetter other = false) :
    other ∈ lowerAscii text ↔ other ∈ text := by
  simp [lowerAscii, asciiLetter_eq_iff unlettered]

/-- A text in which the ASCII letters alone have case. -/
def HasAsciiCase (text : List Char) : Prop :=
  ∀ character ∈ text, isLetter character = true ∨ IsCaseless character

theorem isCaseless_of_code (lower : 1 ≤ character.toNat) (upper : character.toNat ≤ 0x40) :
    IsCaseless character :=
  isCaseless_of_range (show (0x01, 0x40) ∈ caselessRanges by decide) lower upper

theorem HasAsciiCase.append {front back : List Char} (cased : HasAsciiCase front)
    (casedBack : HasAsciiCase back) : HasAsciiCase (front ++ back) :=
  List.forall_mem_append.mpr ⟨cased, casedBack⟩

/-- Two texts that differ in the case of ASCII letters have such case both or neither. -/
theorem HasAsciiCase.of_lowerAscii_eq {text other : List Char} (cased : HasAsciiCase other)
    (same : lowerAscii text = lowerAscii other) : HasAsciiCase text := by
  intro character member
  have image : asciiLetter character ∈ lowerAscii other := same ▸ List.mem_map_of_mem member
  obtain ⟨source, sourceMember, sameImage⟩ := List.mem_map.mp image
  cases lettered : isLetter character with
  | true => exact .inl rfl
  | false =>
    rw [asciiLetter_of_not_isLetter lettered, asciiLetter_eq_iff lettered] at sameImage
    have caseless := (cased source sourceMember).resolve_left (by simp [sameImage, lettered])
    exact .inr (sameImage ▸ caseless)

/-- Of a text whose other characters have no case, the ASCII letters are all that changes. -/
theorem HasAsciiCase.lower_eq (cased : HasAsciiCase text) : lower text = lowerAscii text := by
  rw [← lower_lowerAscii]
  refine lowerAfter_eq_self fun image member => ?_
  obtain ⟨character, listed, rfl⟩ := List.mem_map.mp member
  by_cases capital : 0x41 ≤ character.toNat ∧ character.toNat ≤ 0x5A
  · have code := toNat_asciiLetter capital
    exact isSmall_of_ascii (by omega) (by omega)
  · rw [asciiLetter_eq_self capital]
    rcases cased character listed with letter | caseless
    · have small := (isLetter_iff.mp letter).resolve_left capital
      exact isSmall_of_ascii (by omega) capital
    · exact caseless.1

end Ascii

end Text
end MuseumRecord
