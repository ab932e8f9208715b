import MuseumRecord.Text.LowerCase.Table

/-!
# Lower case

The full lower-case mapping of Unicode.  A capital sigma at the end of a word becomes the final
form; a capital dotted i becomes two characters; every other capital becomes one.
-/

namespace MuseumRecord
namespace Text
namespace LowerCase

/-- The lower-case letter of an ASCII capital. -/
def asciiLetter (character : Char) : Char :=
  if 'A' ≤ character ∧ character ≤ 'Z' then Char.ofNat (character.toNat + 32) else character

/-- The lower-case form of a character that does not depend on its neighbours. -/
def letter (character : Char) : List Char :=
  if character.toNat < 0x80 then
    [asciiLetter character]
  else if character.toNat = 0x130 then
    ['i', '\u0307']
  else
    match capitalRuns.find? fun run => run.covers character.toNat with
    | some run => [Char.ofNat (character.toNat + run.distance).toNat]
    | none => [character]

/-- Whether the first character that is not ignorable has case. -/
def casedAhead : List Char → Bool
  | [] => false
  | character :: rest =>
    if inRanges ignorableRanges character.toNat then
      casedAhead rest
    else
      inRanges casedRanges character.toNat

/-- A capital sigma: final when a letter with case precedes it and none follows. -/
def sigma (behind ahead : List Char) : Char :=
  if casedAhead behind && !casedAhead ahead then 'ς' else 'σ'

/-- Lower-case a text, given the characters already passed, nearest first. -/
def lowerAfter (behind : List Char) : List Char → List Char
  | [] => []
  | character :: rest =>
    (if character = 'Σ' then [sigma behind rest] else letter character) ++
      lowerAfter (character :: behind) rest

end LowerCase

/-- The text in lower case. -/
def lower (text : List Char) : List Char :=
  LowerCase.lowerAfter [] text

/-- The text with its ASCII capitals in lower case and all else as written. -/
def lowerAscii (text : List Char) : List Char :=
  text.map LowerCase.asciiLetter

end Text
end MuseumRecord
