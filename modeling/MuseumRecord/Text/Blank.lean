/-!
# Blank characters

The characters with the Unicode property `White_Space`, and the text that remains when blanks are
taken from both ends.
-/

namespace MuseumRecord
namespace Text

/-- A character with the Unicode property `White_Space`. -/
def isBlank (character : Char) : Bool :=
  let code := character.toNat
  (9 ≤ code && code ≤ 13) || code == 0x20 || code == 0x85 || code == 0xA0 || code == 0x1680 ||
    (0x2000 ≤ code && code ≤ 0x200A) || code == 0x2028 || code == 0x2029 || code == 0x202F ||
    code == 0x205F || code == 0x3000

/-- The text without the blanks in front. -/
def trimStart (text : List Char) : List Char :=
  text.dropWhile isBlank

/-- The text without the blanks behind. -/
def trimEnd : List Char → List Char
  | [] => []
  | character :: rest =>
    match trimEnd rest with
    | [] => if isBlank character then [] else [character]
    | kept => character :: kept

/-- The text without the blanks at either end. -/
def trim (text : List Char) : List Char :=
  trimEnd (trimStart text)

/-- A text that holds nothing but blanks. -/
def allBlank (text : List Char) : Bool :=
  text.all isBlank

/-- A string that holds nothing but blanks. -/
def isBlankString (text : String) : Bool :=
  allBlank text.toList

/-- The string without the blanks at either end. -/
def trimString (text : String) : String :=
  String.ofList (trim text.toList)

end Text
end MuseumRecord
