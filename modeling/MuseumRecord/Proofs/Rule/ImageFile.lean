import Mathlib.Data.List.Forall2
import MuseumRecord.Proofs.Markup.Tree
import MuseumRecord.Proofs.Text.Caseless
import MuseumRecord.Rule.Group

/-!
# Sound images

An image is sound if it has a file name that is not blank, not too long, and ends as the names of
image files do, whatever the case of its ASCII letters.  The group of media counts the main images
first and then looks for the first image that is not sound.
-/

namespace MuseumRecord
namespace Rule

open Text

/-! ## Soundness -/

/-- A character as it may be written for another: itself, or its ASCII capital. -/
inductive IsWrittenFor : Char → Char → Prop where
  /-- The character itself. -/
  | itself {character : Char} : IsWrittenFor character character
  /-- The capital of a small letter. -/
  | capital {capital small : Char} (first : 'A'.toNat ≤ capital.toNat)
      (last : capital.toNat ≤ 'Z'.toNat) (pair : small.toNat = capital.toNat + 32) :
      IsWrittenFor capital small

/-- A name that ends with one of the endings of image files, in whatever case of its ASCII
letters. -/
def EndsAsImage (name : String) : Prop :=
  ∃ ending ∈ [".jpg", ".jpeg", ".png", ".gif", ".bmp", ".tiff", ".webp"], ∃ stem written,
    name.toList = stem ++ written ∧ List.Forall₂ IsWrittenFor written ending.toList

/-- A file name of an image, with a character that is no blank. -/
def IsNamed (image : Image) (name : String) : Prop :=
  image.fileName = some name ∧ ∃ character ∈ name.toList, isBlank character = false

/-- An image file with a name of bounded length. -/
def IsSound (image : Image) : Prop :=
  ∃ name, IsNamed image name ∧ EndsAsImage name ∧ name.length ≤ 255

/-- What is wrong with an image: its name is missing, or else is not that of an image file, or else
is too long. -/
inductive Flaw (image : Image) : Violation → Prop where
  /-- There is no name. -/
  | nameless (unnamed : ∀ name, ¬ IsNamed image name) :
      Flaw image (.missingField "Image" "FileName")
  /-- The name is not that of an image file. -/
  | foreign {name : String} (named : IsNamed image name) (otherwise : ¬ EndsAsImage name) :
      Flaw image (.notAnImageFile name)
  /-- The name is too long. -/
  | overlong {name : String} (named : IsNamed image name) (ends : EndsAsImage name)
      (long : 255 < name.length) : Flaw image (.tooLong "FileName" name.length)

/-! ## Endings -/

section Endings

variable {written ending : List Char}

theorem isWrittenFor_iff {character small : Char}
    (uncapital : ¬ (0x41 ≤ small.toNat ∧ small.toNat ≤ 0x5A)) :
    IsWrittenFor character small ↔ LowerCase.asciiLetter character = small := by
  constructor
  · intro writes
    cases writes with
    | itself => exact LowerCase.asciiLetter_eq_self uncapital
    | capital first last pair =>
      rw [← Char.toNat_inj, LowerCase.toNat_asciiLetter ⟨first, last⟩, pair]
  · rintro rfl
    by_cases capital : 0x41 ≤ character.toNat ∧ character.toNat ≤ 0x5A
    · exact .capital capital.1 capital.2 (LowerCase.toNat_asciiLetter capital)
    · rw [LowerCase.asciiLetter_eq_self capital]
      exact .itself

theorem forall₂_isWrittenFor_iff
    (uncapital : ∀ small ∈ ending, ¬ (0x41 ≤ small.toNat ∧ small.toNat ≤ 0x5A)) :
    List.Forall₂ IsWrittenFor written ending ↔ lowerAscii written = ending := by
  induction ending generalizing written with
  | nil => simp [lowerAscii]
  | cons small ending inductionHypothesis =>
    obtain ⟨here, others⟩ := List.forall_mem_cons.mp uncapital
    cases written with
    | nil => simp [lowerAscii]
    | cons character written =>
      rw [List.forall₂_cons, isWrittenFor_iff here, inductionHypothesis others]
      simp [lowerAscii]

theorem isSuffixOf_lowerAscii_iff {text : List Char} :
    ending.isSuffixOf (lowerAscii text) = true ↔
      ∃ stem written, text = stem ++ written ∧ lowerAscii written = ending := by
  rw [List.isSuffixOf_iff_suffix]
  constructor
  · rintro ⟨front, whole⟩
    obtain ⟨stem, written, rfl, _, lowered⟩ := List.map_eq_append_iff.mp whole.symm
    exact ⟨stem, written, rfl, lowered⟩
  · rintro ⟨stem, written, rfl, rfl⟩
    exact ⟨lowerAscii stem, (lowerAscii_append stem written).symm⟩

theorem hasImageEnding_iff {name : String} : hasImageEnding name = true ↔ EndsAsImage name := by
  have small : (imageEndings.all fun ending => ending.toList.all fun small =>
      !decide (0x41 ≤ small.toNat ∧ small.toNat ≤ 0x5A)) = true := by
    decide
  simp only [List.all_eq_true, Bool.not_eq_true', decide_eq_false_iff_not] at small
  rw [hasImageEnding, List.any_eq_true]
  refine exists_congr fun ending => and_congr_right fun listed => ?_
  rw [isSuffixOf_lowerAscii_iff]
  simp only [forall₂_isWrittenFor_iff (small ending listed)]

end Endings

/-! ## Single images -/

section Images

variable {image : Image} {violation : Violation}

theorem isBlankString_eq_false_iff {name : String} :
    isBlankString name = false ↔ ∃ character ∈ name.toList, isBlank character = false := by
  rw [isBlankString, allBlank, List.all_eq_false]
  simp only [Bool.not_eq_true]

/-- An image without a name breaks no other rule; of an image with a name, the ending counts first
and the length thereafter. -/
theorem imageViolation_of_isNamed {name : String} (named : IsNamed image name) :
    imageViolation image =
      if hasImageEnding name then
        if 255 < name.length then some (.tooLong "FileName" name.length) else none
      else some (.notAnImageFile name) := by
  obtain ⟨written, filled⟩ := named
  have solid := isBlankString_eq_false_iff.mpr filled
  have unblank : blankField "Image" "FileName" (some name) = none := if_neg (by simp [solid])
  rw [imageViolation, written, unblank]
  cases ended : hasImageEnding name with
  | false =>
    have foreign : endingViolation (some name) = some (.notAnImageFile name) :=
      if_neg (ne_true_of_eq_false ended)
    rw [foreign]
    rfl
  | true =>
    have known : endingViolation (some name) = none := if_pos ended
    rw [known]
    rfl

theorem imageViolation_of_nameless (unnamed : ∀ name, ¬ IsNamed image name) :
    imageViolation image = some (.missingField "Image" "FileName") := by
  have blank : image.fileName.all isBlankString = true := by
    rw [Option.all_eq_true]
    intro name written
    by_contra filled
    exact unnamed name ⟨written, isBlankString_eq_false_iff.mp (eq_false_of_ne_true filled)⟩
  rw [imageViolation, blankField, if_pos blank]
  rfl

/-- The violation of an image is its flaw. -/
theorem imageViolation_eq_some_iff :
    imageViolation image = some violation ↔ Flaw image violation := by
  constructor
  · intro raised
    by_cases named : ∃ name, IsNamed image name
    · obtain ⟨name, named⟩ := named
      rw [imageViolation_of_isNamed named] at raised
      split at raised
      · next ends =>
        split at raised
        · next long =>
          cases raised
          exact .overlong named (hasImageEnding_iff.mp ends) long
        · cases raised
      · next otherwise =>
        cases raised
        exact .foreign named (mt hasImageEnding_iff.mpr otherwise)
    · rw [imageViolation_of_nameless (not_exists.mp named)] at raised
      cases raised
      exact .nameless (not_exists.mp named)
  · intro flaw
    cases flaw with
    | nameless unnamed => exact imageViolation_of_nameless unnamed
    | foreign named otherwise =>
      rw [imageViolation_of_isNamed named, if_neg (mt hasImageEnding_iff.mp otherwise)]
    | overlong named ends long =>
      rw [imageViolation_of_isNamed named, if_pos (hasImageEnding_iff.mpr ends), if_pos long]

/-- A sound image is one without a violation. -/
theorem imageViolation_eq_none_iff : imageViolation image = none ↔ IsSound image := by
  constructor
  · intro quiet
    by_cases named : ∃ name, IsNamed image name
    · obtain ⟨name, named⟩ := named
      rw [imageViolation_of_isNamed named] at quiet
      split at quiet
      · next ends =>
        refine ⟨name, named, hasImageEnding_iff.mp ends, Nat.not_lt.mp fun long => ?_⟩
        rw [if_pos long] at quiet
        cases quiet
      · cases quiet
    · rw [imageViolation_of_nameless (not_exists.mp named)] at quiet
      cases quiet
  · rintro ⟨name, named, ends, short⟩
    rw [imageViolation_of_isNamed named, if_pos (hasImageEnding_iff.mpr ends),
      if_neg (Nat.not_lt.mpr short)]

end Images

/-! ## Rows of images -/

/-- The number of main images. -/
def primaryCount (images : List Image) : Nat :=
  images.countP fun image => image.primary = some "true"

section Rows

variable {images : List Image} {violation : Violation}

theorem primaryViolation_eq (images : List Image) :
    primaryViolation images =
      if 1 < primaryCount images then some (.severalPrimaryImages (primaryCount images))
      else none := by
  have same : primaryCount images = images.countP Image.isPrimary :=
    List.countP_congr fun image _ => by simp [Image.isPrimary]
  rw [same]
  rfl

/-- Of a row of images the first that is not sound is reported. -/
theorem findSome?_imageViolation_eq_some_iff :
    images.findSome? imageViolation = some violation ↔
      ∃ before image after, images = before ++ image :: after ∧
        (∀ earlier ∈ before, IsSound earlier) ∧ Flaw image violation := by
  rw [List.findSome?_eq_some_iff]
  simp only [imageViolation_eq_some_iff, imageViolation_eq_none_iff, and_comm]

theorem findSome?_imageViolation_eq_none_iff :
    images.findSome? imageViolation = none ↔ ∀ image ∈ images, IsSound image := by
  rw [List.findSome?_eq_none_iff]
  simp only [imageViolation_eq_none_iff]

/-- The group of media looks at the main images first and at every image thereafter. -/
theorem mediaViolation_eq_or {now : Calendar.Moment} {exhibit : Exhibit} {media : Media}
    (viewed : exhibit.media = some media) :
    RuleGroup.media.violation? now exhibit =
      (primaryViolation media.images).or (media.images.findSome? imageViolation) := by
  change mediaViolation exhibit = _
  rw [mediaViolation, viewed, Option.bind_some]
  exact Option.orElse_eq_or

theorem mediaViolation_eq_some_iff {now : Calendar.Moment} {exhibit : Exhibit} {media : Media}
    (viewed : exhibit.media = some media) :
    RuleGroup.media.violation? now exhibit = some violation ↔
      (1 < primaryCount media.images ∧
        violation = .severalPrimaryImages (primaryCount media.images)) ∨
      (primaryCount media.images ≤ 1 ∧ ∃ before image after,
        media.images = before ++ image :: after ∧
          (∀ earlier ∈ before, IsSound earlier) ∧ Flaw image violation) := by
  rw [mediaViolation_eq_or viewed, Option.or_eq_some_iff, findSome?_imageViolation_eq_some_iff,
    primaryViolation_eq]
  simp [eq_comm]

end Rows

/-- The group of media is quiet exactly if at most one image is the main one and all are sound, in
whatever order they stand.  Otherwise it counts the main images, if there are several, and names the
flaw of the first image that is not sound, if there are not. -/
theorem images_are_judged_in_order (now : Calendar.Moment) (exhibit : Exhibit) (media : Media) :
    (RuleGroup.media.violation? now { exhibit with media := some media } = none ↔
      primaryCount media.images ≤ 1 ∧ ∀ image ∈ media.images, IsSound image) ∧
    (∀ violation,
      RuleGroup.media.violation? now { exhibit with media := some media } = some violation ↔
        (1 < primaryCount media.images ∧
          violation = .severalPrimaryImages (primaryCount media.images)) ∨
        (primaryCount media.images ≤ 1 ∧ ∃ before image after,
          media.images = before ++ image :: after ∧
            (∀ earlier ∈ before, IsSound earlier) ∧ Flaw image violation)) ∧
    ∀ images, images.Perm media.images →
      (RuleGroup.media.violation? now { exhibit with media := some ⟨images⟩ } = none ↔
        RuleGroup.media.violation? now { exhibit with media := some media } = none) := by
  have quiet : ∀ media : Media,
      RuleGroup.media.violation? now { exhibit with media := some media } = none ↔
        primaryCount media.images ≤ 1 ∧ ∀ image ∈ media.images, IsSound image := by
    intro media
    rw [mediaViolation_eq_or rfl, Option.or_eq_none_iff, findSome?_imageViolation_eq_none_iff,
      primaryViolation_eq]
    simp
  refine ⟨quiet media, fun violation => mediaViolation_eq_some_iff rfl, fun images reordered => ?_⟩
  rw [quiet, quiet, primaryCount, reordered.countP_eq]
  simp only [reordered.mem_iff, primaryCount]

/-! ## Images of a document -/

section Elements

open Markup (Element)

variable {root part : Element}

/-- The elements of main images among the children of an element. -/
def primaryElements (part : Element) : List Element :=
  (part.childrenNamed "Image").filter fun child => child.attribute? "primary" == some "true"

theorem primaryCount_ofElement (part : Element) :
    primaryCount (Media.ofElement part).images = (primaryElements part).length := by
  rw [primaryCount, Media.ofElement, List.countP_map, primaryElements,
    ← List.countP_eq_length_filter]
  apply List.countP_congr
  intro child _
  exact decide_eq_true_iff.trans beq_iff_eq.symm

/-- In a document the group of media counts the elements of main images, if there are several, and
names the flaw of the first element of an image that is not sound, if there are not. -/
theorem image_elements_are_judged_in_order (now : Calendar.Moment)
    (found : root.child? "Media" = some part) (violation : Violation) :
    RuleGroup.media.violation? now (Exhibit.ofElement root) = some violation ↔
      (1 < (primaryElements part).length ∧
        violation = .severalPrimaryImages (primaryElements part).length) ∨
      ((primaryElements part).length ≤ 1 ∧ ∃ before child after,
        part.children = before ++ child :: after ∧ child.name = "Image" ∧
          (∀ earlier ∈ before, earlier.name = "Image" → IsSound (Image.ofElement earlier)) ∧
          Flaw (Image.ofElement child) violation) := by
  have viewed : (Exhibit.ofElement root).media = some (Media.ofElement part) :=
    congrArg (Option.map Media.ofElement) found
  rw [mediaViolation_eq_some_iff viewed, primaryCount_ofElement]
  have divided := @Element.exists_view_division_iff _ Image.ofElement part "Image"
    fun before image => (∀ earlier ∈ before, IsSound earlier) ∧ Flaw image violation
  refine or_congr Iff.rfl (and_congr_right fun _ => divided.trans ?_)
  simp only [List.forall_mem_map, List.mem_filter, beq_iff_eq, and_imp]

end Elements

end Rule
end MuseumRecord
