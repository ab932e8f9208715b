import Mathlib.Data.List.Basic
import MuseumRecord.HistoricalDate.Dash

/-!
# Text in lower case

Text in lower case is left as it is, by the mapping of all letters and by that of ASCII letters.
Both mappings together do what the first does alone.
-/

namespace MuseumRecord
namespace Text

namespace LowerCase

/-! ## Images of capitals -/

namespace CapitalRun

/-- The code of the lower-case letter of the first capital. -/
def firstImage (run : CapitalRun) : Nat :=
  (run.first + run.distance).toNat

/-- The code of the lower-case letter of the last capital. -/
def lastImage (run : CapitalRun) : Nat :=
  (run.last + run.distance).toNat

/-- The lower-case letters of the run are outside a range of codes. -/
def avoids (run : CapitalRun) (range : Nat × Nat) : Bool :=
  run.lastImage.blt range.1 || range.2.blt run.firstImage

/-- No lower-case letter of the run is a capital of the other: the ranges do not meet, or both hold
every second letter, and not the same ones. -/
def isApart (run other : CapitalRun) : Bool :=
  run.avoids (other.first, other.last) ||
    (other.step == 2 && (run.step == 2 || run.first == run.last) &&
      (run.firstImage + other.first) % 2 == 1)

end CapitalRun

/-- The ASCII capitals, the dotted capital and the capital sigma. -/
def unreached : List (Nat × Nat) :=
  [(0x41, 0x5A), (0x130, 0x130), (0x3A3, 0x3A3)]

/-- Codes of controls, digits, punctuation, blanks and dashes: no letter of either case has one. -/
def caselessRanges : List (Nat × Nat) :=
  [(0x01, 0x40), (0x85, 0xA0), (0x1680, 0x1680), (0x2000, 0x205F), (0x3000, 0x3000)]

/-- The dot above and the small sigmas, which the dotted capital and the capital sigma become. -/
def directImages : List Nat :=
  [0x307, 0x3C2, 0x3C3]

namespace CapitalRun

/-- The run is as `Sound` says, checked in one pass over the table. -/
def isSound (run : CapitalRun) : Bool :=
  capitalRuns.all run.isApart && unreached.all run.avoids &&
    decide (0 ≤ run.first + run.distance) &&
    (caselessRanges.all fun range =>
      run.avoids range && (run.last.blt range.1 || range.2.blt run.first)) &&
    directImages.all fun code => !run.covers code

/-- What the runs of the table have in common. -/
structure Sound (run : CapitalRun) : Prop where
  /-- No lower-case letter of the run is a capital. -/
  apart : ∀ other ∈ capitalRuns, run.isApart other = true
  avoids_unreached : ∀ range ∈ unreached, run.avoids range = true
  /-- The distance leads to a code. -/
  reaches : 0 ≤ run.first + run.distance
  avoids_caseless : ∀ range ∈ caselessRanges,
    (run.lastImage < range.1 ∨ range.2 < run.firstImage) ∧
      (run.last < range.1 ∨ range.2 < run.first)
  covers_directImage : ∀ code ∈ directImages, run.covers code = false

theorem capitalRuns_isSound : capitalRuns.all isSound = true := by
  decide +kernel

theorem sound_of_mem {run : CapitalRun} (member : run ∈ capitalRuns) : run.Sound := by
  have checked := List.all_eq_true.mp capitalRuns_isSound run member
  simp only [isSound, Bool.and_eq_true, List.all_eq_true, decide_eq_true_eq,
    Bool.not_eq_true'] at checked
  obtain ⟨⟨⟨⟨apart, unreached⟩, reaches⟩, caseless⟩, direct⟩ := checked
  refine ⟨apart, unreached, reaches, fun range listed => ?_, direct⟩
  simpa only [avoids, Bool.or_eq_true, Nat.blt_eq] using caseless range listed

end CapitalRun

/-- A character that lower-casing leaves as it is, wherever it stands. -/
def IsSmall (character : Char) : Prop :=
  character ≠ 'Σ' ∧ letter character = [character]

section Images

variable {run : CapitalRun} {code image : Nat}

theorem CapitalRun.covers_iff :
    run.covers code = true ↔
      run.first ≤ code ∧ code ≤ run.last ∧ (code - run.first) % run.step = 0 := by
  simp only [covers, Bool.and_eq_true, decide_eq_true_eq, beq_iff_eq, and_assoc]

/-- The place of an image in its run. -/
theorem image_of_covers (member : run ∈ capitalRuns) (covered : run.covers code = true)
    (imageIs : image = (code + run.distance).toNat) :
    image = run.firstImage + (code - run.first) ∧ image ≤ run.lastImage := by
  have reaches := (CapitalRun.sound_of_mem member).reaches
  obtain ⟨lower, upper, _⟩ := CapitalRun.covers_iff.mp covered
  unfold CapitalRun.firstImage CapitalRun.lastImage
  omega

theorem not_reached (member : run ∈ capitalRuns) (covered : run.covers code = true)
    (imageIs : image = (code + run.distance).toNat) :
    ∀ range ∈ unreached, ¬(range.1 ≤ image ∧ image ≤ range.2) := by
  intro range listed
  obtain ⟨place, bound⟩ := image_of_covers member covered imageIs
  have avoided := (CapitalRun.sound_of_mem member).avoids_unreached range listed
  simp only [CapitalRun.avoids, Bool.or_eq_true, Nat.blt_eq] at avoided
  omega

/-- The lower-case letter of a capital is no capital. -/
theorem not_covered (member : run ∈ capitalRuns) (covered : run.covers code = true)
    (imageIs : image = (code + run.distance).toNat) {other : CapitalRun}
    (listed : other ∈ capitalRuns) : other.covers image = false := by
  obtain ⟨place, bound⟩ := image_of_covers member covered imageIs
  obtain ⟨lower, upper, stepwise⟩ := CapitalRun.covers_iff.mp covered
  have apart := (CapitalRun.sound_of_mem member).apart other listed
  simp only [CapitalRun.isApart, CapitalRun.avoids, Bool.or_eq_true, Bool.and_eq_true,
    Nat.blt_eq, beq_iff_eq] at apart
  rw [Bool.eq_false_iff]
  intro reached
  obtain ⟨lowerImage, upperImage, stepwiseImage⟩ := CapitalRun.covers_iff.mp reached
  rcases apart with separate | ⟨⟨otherStep, even⟩, odd⟩
  · omega
  · rw [otherStep] at stepwiseImage
    rcases even with step | single
    · rw [step] at stepwise
      omega
    · omega

end Images

/-! ## Small characters -/

section Characters

variable {character image : Char}

theorem capital_iff : 'A' ≤ character ∧ character ≤ 'Z' ↔
    0x41 ≤ character.toNat ∧ character.toNat ≤ 0x5A :=
  Iff.rfl

theorem asciiLetter_eq_self (other : ¬(0x41 ≤ character.toNat ∧ character.toNat ≤ 0x5A)) :
    asciiLetter character = character :=
  if_neg (mt capital_iff.mp other)

theorem toNat_asciiLetter (capital : 0x41 ≤ character.toNat ∧ character.toNat ≤ 0x5A) :
    (asciiLetter character).toNat = character.toNat + 32 := by
  have image : asciiLetter character = Char.ofNat (character.toNat + 32) :=
    if_pos (capital_iff.mpr capital)
  rcases HistoricalDate.toNat_ofNat_eq_or_zero (character.toNat + 32) with code | code
  · rw [image, code]
  · have valid : (character.toNat + 32).isValidChar := by
      left
      omega
    rw [image, Char.ofNat, dif_pos valid]
    rfl

theorem ne_sigma_of_code (other : character.toNat ≠ 0x3A3) : character ≠ 'Σ' := by
  rintro rfl
  exact other rfl

theorem isSmall_of_ascii (ascii : character.toNat < 0x80)
    (other : ¬(0x41 ≤ character.toNat ∧ character.toNat ≤ 0x5A)) : IsSmall character := by
  refine ⟨ne_sigma_of_code (by omega), ?_⟩
  rw [letter, if_pos ascii, asciiLetter_eq_self other]

theorem isSmall_of_uncovered (distant : 0x80 ≤ character.toNat) (undotted : character.toNat ≠ 0x130)
    (uncovered : ∀ run ∈ capitalRuns, run.covers character.toNat = false)
    (other : character ≠ 'Σ') : IsSmall character := by
  have nothing : capitalRuns.find? (fun run => run.covers character.toNat) = none :=
    List.find?_eq_none.mpr fun run member => by simp [uncovered run member]
  refine ⟨other, ?_⟩
  rw [letter, if_neg (Nat.not_lt.mpr distant), if_neg undotted, nothing]

theorem isSmall_of_directImage (listed : character.toNat ∈ directImages) : IsSmall character := by
  have bounds : 0x307 ≤ character.toNat ∧ character.toNat ≠ 0x3A3 := by
    simp only [directImages, List.mem_cons, List.not_mem_nil, or_false] at listed
    omega
  exact isSmall_of_uncovered (by omega) (by omega)
    (fun _ member => (CapitalRun.sound_of_mem member).covers_directImage _ listed)
    (ne_sigma_of_code bounds.2)

/-- What becomes of a capital of a run is small. -/
theorem isSmall_of_covers {run : CapitalRun} {code : Nat} (member : run ∈ capitalRuns)
    (covered : run.covers code = true) :
    IsSmall (Char.ofNat (code + run.distance).toNat) := by
  rcases HistoricalDate.toNat_ofNat_eq_or_zero (code + run.distance).toNat with same | zero
  · have outside := not_reached member covered same
    have capitals := outside (0x41, 0x5A) (by decide)
    have dotted := outside (0x130, 0x130) (by decide)
    have sigma := outside (0x3A3, 0x3A3) (by decide)
    rcases Nat.lt_or_ge (Char.ofNat (code + run.distance).toNat).toNat 0x80 with ascii | distant
    · exact isSmall_of_ascii ascii capitals
    · exact isSmall_of_uncovered distant (by omega) (fun other listed =>
        not_covered member covered same listed) (ne_sigma_of_code (by omega))
  · exact isSmall_of_ascii (by omega) (by omega)

theorem isSmall_of_mem_letter (other : character ≠ 'Σ') (member : image ∈ letter character) :
    IsSmall image := by
  unfold letter at member
  split at member
  · next ascii =>
    obtain rfl := List.mem_singleton.mp member
    by_cases capital : 0x41 ≤ character.toNat ∧ character.toNat ≤ 0x5A
    · have code := toNat_asciiLetter capital
      exact isSmall_of_ascii (by omega) (by omega)
    · rw [asciiLetter_eq_self capital]
      exact isSmall_of_ascii ascii capital
  · next distant =>
    split at member
    · rcases List.mem_pair.mp member with rfl | rfl
      · exact ⟨by decide, rfl⟩
      · exact isSmall_of_directImage (by decide)
    · next undotted =>
      split at member
      · next run found =>
        obtain rfl := List.mem_singleton.mp member
        exact isSmall_of_covers (List.mem_of_find?_eq_some found)
          (by simpa using List.find?_some found)
      · next nothing =>
        obtain rfl := List.mem_singleton.mp member
        exact isSmall_of_uncovered (Nat.not_lt.mp distant) undotted
          (fun run listed => by simpa using List.find?_eq_none.mp nothing run listed) other

theorem isSmall_sigma (behind ahead : List Char) : IsSmall (sigma behind ahead) := by
  unfold sigma
  split
  · exact isSmall_of_directImage (by decide)
  · exact isSmall_of_directImage (by decide)

theorem IsSmall.asciiLetter_eq (small : IsSmall character) : asciiLetter character = character := by
  by_cases capital : 0x41 ≤ character.toNat ∧ character.toNat ≤ 0x5A
  · have mapped := small.2
    rw [letter, if_pos (by omega), List.cons.injEq] at mapped
    exact mapped.1
  · exact asciiLetter_eq_self capital

theorem letter_asciiLetter (character : Char) :
    letter (asciiLetter character) = letter character := by
  by_cases capital : 0x41 ≤ character.toNat ∧ character.toNat ≤ 0x5A
  · have code := toNat_asciiLetter capital
    have small : IsSmall (asciiLetter character) := isSmall_of_ascii (by omega) (by omega)
    rw [small.2, letter, if_pos (by omega)]
  · rw [asciiLetter_eq_self capital]

theorem asciiLetter_eq_sigma_iff : asciiLetter character = 'Σ' ↔ character = 'Σ' := by
  by_cases capital : 0x41 ≤ character.toNat ∧ character.toNat ≤ 0x5A
  · have code := toNat_asciiLetter capital
    have image : asciiLetter character ≠ 'Σ' := ne_sigma_of_code (by omega)
    have here : character ≠ 'Σ' := ne_sigma_of_code (by omega)
    exact iff_of_false image here
  · rw [asciiLetter_eq_self capital]

theorem letter_ne_nil (character : Char) : letter character ≠ [] := by
  unfold letter
  split
  · exact List.cons_ne_nil _ _
  · split
    · exact List.cons_ne_nil _ _
    · split <;> exact List.cons_ne_nil _ _

/-- The caseless ranges avoid the letters that have an entry of their own. -/
theorem caselessRanges_bounds {range : Nat × Nat} (listed : range ∈ caselessRanges) :
    (1 ≤ range.1 ∧ range.2 ≤ 0x40) ∨ (0x85 ≤ range.1 ∧ range.2 ≤ 0xA0) ∨
      (0x1680 ≤ range.1 ∧ range.2 ≤ 0x3000) := by
  have all : (caselessRanges.all fun range =>
      decide ((1 ≤ range.1 ∧ range.2 ≤ 0x40) ∨ (0x85 ≤ range.1 ∧ range.2 ≤ 0xA0) ∨
        (0x1680 ≤ range.1 ∧ range.2 ≤ 0x3000))) = true := by
    decide
  exact of_decide_eq_true (List.all_eq_true.mp all range listed)

/-- A character without case is lower-cased from itself only. -/
theorem eq_of_mem_letter {special : Char} {range : Nat × Nat} (listed : range ∈ caselessRanges)
    (lower : range.1 ≤ special.toNat) (upper : special.toNat ≤ range.2)
    (member : special ∈ letter character) : character = special := by
  have bounds := caselessRanges_bounds listed
  unfold letter at member
  split at member
  · have image := List.mem_singleton.mp member
    by_cases capital : 0x41 ≤ character.toNat ∧ character.toNat ≤ 0x5A
    · have code := toNat_asciiLetter capital
      rw [← image] at code
      omega
    · rw [asciiLetter_eq_self capital] at image
      exact image.symm
  · split at member
    · have codes : 'i'.toNat = 0x69 ∧ '\u0307'.toNat = 0x307 := by decide
      rcases List.mem_pair.mp member with rfl | rfl
      · omega
      · omega
    · split at member
      · next run found =>
        have image := congrArg Char.toNat (List.mem_singleton.mp member)
        have listedRun := List.mem_of_find?_eq_some found
        have avoided := ((CapitalRun.sound_of_mem listedRun).avoids_caseless range listed).1
        rcases HistoricalDate.toNat_ofNat_eq_or_zero (character.toNat + run.distance).toNat
          with same | zero
        · have place := image_of_covers listedRun (by simpa using List.find?_some found) same
          omega
        · omega
      · exact (List.mem_singleton.mp member).symm

/-- The ranges of the ASCII letters. -/
def asciiLetters : List (Nat × Nat) :=
  [(0x41, 0x5A), (0x61, 0x7A)]

theorem asciiLetters_cased : (asciiLetters.all casedRanges.contains) = true := by
  decide

theorem ignorableRanges_avoid_asciiLetters :
    (ignorableRanges.all fun range => asciiLetters.all fun letters =>
      range.2.blt letters.1 || letters.2.blt range.1) = true := by
  decide +kernel

/-- ASCII letters have case and are not ignorable. -/
theorem inRanges_of_asciiLetter {code first last : Nat} (listed : (first, last) ∈ asciiLetters)
    (lower : first ≤ code) (upper : code ≤ last) :
    inRanges ignorableRanges code = false ∧ inRanges casedRanges code = true := by
  constructor
  · refine List.any_eq_false.mpr fun range member inside => ?_
    have apart := List.all_eq_true.mp
      (List.all_eq_true.mp ignorableRanges_avoid_asciiLetters range member) (first, last) listed
    simp only [Bool.or_eq_true, Nat.blt_eq] at apart
    simp only [Bool.and_eq_true, decide_eq_true_eq] at inside
    omega
  · have member := List.contains_iff_mem.mp (List.all_eq_true.mp asciiLetters_cased _ listed)
    exact List.any_eq_true.mpr ⟨(first, last), member, by simp [lower, upper]⟩

theorem inRanges_asciiLetter (character : Char) :
    inRanges ignorableRanges (asciiLetter character).toNat =
        inRanges ignorableRanges character.toNat ∧
      inRanges casedRanges (asciiLetter character).toNat =
        inRanges casedRanges character.toNat := by
  by_cases capital : 0x41 ≤ character.toNat ∧ character.toNat ≤ 0x5A
  · have code := toNat_asciiLetter capital
    have capitals : (0x41, 0x5A) ∈ asciiLetters := by decide
    have letters : (0x61, 0x7A) ∈ asciiLetters := by decide
    obtain ⟨ignorable, cased⟩ := inRanges_of_asciiLetter capitals capital.1 capital.2
    have lower : 0x61 ≤ (asciiLetter character).toNat := by omega
    have upper : (asciiLetter character).toNat ≤ 0x7A := by omega
    obtain ⟨ignorableImage, casedImage⟩ := inRanges_of_asciiLetter letters lower upper
    rw [ignorable, cased, ignorableImage, casedImage]
    exact ⟨rfl, rfl⟩
  · rw [asciiLetter_eq_self capital]
    exact ⟨rfl, rfl⟩

end Characters

/-! ## Texts -/

theorem casedAhead_lowerAscii (text : List Char) :
    casedAhead (lowerAscii text) = casedAhead text := by
  induction text with
  | nil => rfl
  | cons character rest inductionHypothesis =>
    obtain ⟨ignorable, cased⟩ := inRanges_asciiLetter character
    change casedAhead (asciiLetter character :: lowerAscii rest) = _
    rw [casedAhead, casedAhead, ignorable, cased, inductionHypothesis]

theorem lowerAfter_lowerAscii (behind text : List Char) :
    lowerAfter (lowerAscii behind) (lowerAscii text) = lowerAfter behind text := by
  induction text generalizing behind with
  | nil => rfl
  | cons character rest inductionHypothesis =>
    have passed := inductionHypothesis (character :: behind)
    have sigmas : sigma (lowerAscii behind) (lowerAscii rest) = sigma behind rest := by
      rw [sigma, casedAhead_lowerAscii, casedAhead_lowerAscii]
      rfl
    change lowerAfter (lowerAscii behind) (asciiLetter character :: lowerAscii rest) = _
    change lowerAfter (asciiLetter character :: lowerAscii behind) (lowerAscii rest) = _ at passed
    rw [lowerAfter, lowerAfter, passed, sigmas, letter_asciiLetter]
    simp only [asciiLetter_eq_sigma_iff]

theorem isSmall_of_mem_lowerAfter {behind text : List Char} {image : Char}
    (member : image ∈ lowerAfter behind text) : IsSmall image := by
  induction text generalizing behind with
  | nil => cases member
  | cons character rest inductionHypothesis =>
    rw [lowerAfter] at member
    rcases List.mem_append.mp member with here | later
    · split at here
      · obtain rfl := List.mem_singleton.mp here
        exact isSmall_sigma behind rest
      · next other => exact isSmall_of_mem_letter other here
    · exact inductionHypothesis later

theorem lowerAfter_eq_self {behind text : List Char}
    (small : ∀ character ∈ text, IsSmall character) : lowerAfter behind text = text := by
  induction text generalizing behind with
  | nil => rfl
  | cons character rest inductionHypothesis =>
    obtain ⟨⟨other, same⟩, others⟩ := List.forall_mem_cons.mp small
    rw [lowerAfter, if_neg other, same, inductionHypothesis others]
    rfl

end LowerCase

open LowerCase

theorem isSmall_of_mem_lower {text : List Char} {character : Char}
    (member : character ∈ lower text) : IsSmall character :=
  isSmall_of_mem_lowerAfter member

@[simp] theorem lower_lower (text : List Char) : lower (lower text) = lower text :=
  lowerAfter_eq_self fun _ => isSmall_of_mem_lower

@[simp] theorem lowerAscii_lower (text : List Char) : lowerAscii (lower text) = lower text := by
  have same : ∀ character ∈ lower text, asciiLetter character = character :=
    fun _ member => (isSmall_of_mem_lower member).asciiLetter_eq
  rw [lowerAscii, List.map_congr_left same, List.map_id']

/-- Mapping the ASCII capitals first makes no difference. -/
theorem lower_lowerAscii (text : List Char) : lower (lowerAscii text) = lower text :=
  lowerAfter_lowerAscii [] text

/-- A leading full stop comes from a leading full stop. -/
theorem head?_lower_ne {text : List Char} (undotted : text.head? ≠ some '.') :
    (lower text).head? ≠ some '.' := by
  cases text with
  | nil => exact undotted
  | cons character rest =>
    have other : character ≠ '.' := fun same => undotted (congrArg some same)
    rw [lower, lowerAfter]
    split
    · have letters : 'ς' ≠ '.' ∧ 'σ' ≠ '.' := by decide
      unfold sigma
      split
      · exact fun head => letters.1 (Option.some.inj head)
      · exact fun head => letters.2 (Option.some.inj head)
    · cases image : letter character with
      | nil => exact absurd image (letter_ne_nil character)
      | cons first others =>
        intro head
        obtain rfl : first = '.' := Option.some.inj head
        have listed : (0x01, 0x40) ∈ caselessRanges := by decide
        exact other (eq_of_mem_letter listed (by decide) (by decide)
          (image ▸ List.mem_cons_self))
end Text
end MuseumRecord
