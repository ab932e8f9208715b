import MuseumRecord.Number.Digits
import MuseumRecord.Toml.Quotation

/-!
# Writing strings

A string is written in the plainest of five ways that can hold it: between quotes, between
apostrophes, between three of either, and with escapes when nothing else will do.
-/

namespace MuseumRecord
namespace Toml

/-- How a string is written. -/
inductive Style where
  /-- Between quotes. -/
  | basic
  /-- Between apostrophes, as it is. -/
  | literal
  /-- Between three quotes. -/
  | tripleBasic
  /-- Between three apostrophes, as it is. -/
  | tripleLiteral
deriving DecidableEq, Repr

/-- A control character other than a tab and a line feed, which must be escaped. -/
def isControl (character : Char) : Bool :=
  (character.toNat < 32 || character.toNat == 127) && character != '\t' && character != '\n'

/-- The length of the longest run of a character, when `run` of them were just passed. -/
def longestRun (mark : Char) (run : Nat) : List Char → Nat
  | [] => run
  | character :: rest =>
    if character = mark then longestRun mark (run + 1) rest
    else max run (longestRun mark 0 rest)

/-- The plainest style that can hold a string. -/
def Style.of (content : List Char) : Style :=
  let control := content.any isControl
  let escape := control || content.contains '\\'
  let breaks := content.contains '\n'
  let quotes := longestRun '"' 0 content
  let apostrophes := longestRun '\'' 0 content
  if !escape && quotes == 0 && !breaks then .basic
  else if !control && apostrophes == 0 && !breaks then .literal
  else if !escape && quotes ≤ 2 then .tripleBasic
  else if !control && apostrophes ≤ 2 then .tripleLiteral
  else if breaks then .tripleBasic
  else .basic

/-- A hexadecimal digit in upper case. -/
def upperHexDigit (value : Nat) : Char :=
  if value < 10 then Number.digitChar value else Char.ofNat ('A'.toNat + (value - 10))

/-- The escape of a character by its number. -/
def numberEscape (character : Char) : List Char :=
  let code := character.toNat
  ['\\', 'u', upperHexDigit (code / 4096), upperHexDigit (code / 256 % 16),
    upperHexDigit (code / 16 % 16), upperHexDigit (code % 16)]

/-- A character between quotes that is no quote. -/
def writtenCharacter (triple : Bool) (character : Char) : List Char :=
  if character = '\\' then ['\\', '\\']
  else if character = '\t' then ['\\', 't']
  else if character = '\n' then if triple then ['\n'] else ['\\', 'n']
  else if character = '\r' then ['\\', 'r']
  else if character.toNat = 8 then ['\\', 'b']
  else if character.toNat = 12 then ['\\', 'f']
  else if isControl character then numberEscape character
  else [character]

/-- The inside of a string between quotes.  Between three quotes two may stand side by side, when
`run` were just written. -/
def writtenBasic (triple : Bool) (run : Nat) : List Char → List Char
  | [] => []
  | character :: rest =>
    if character = '"' then
      if run < (if triple then 2 else 0) then
        '"' :: writtenBasic triple (run + 1) rest
      else
        '\\' :: '"' :: writtenBasic triple 0 rest
    else
      writtenCharacter triple character ++ writtenBasic triple 0 rest

/-- The line break behind three opening marks, written if the string has one of its own. -/
def openingBreak (content : List Char) : List Char :=
  if content.contains '\n' then ['\n'] else []

/-- A string in a style. -/
def Style.write (content : List Char) : Style → List Char
  | .basic => '"' :: (writtenBasic false 0 content ++ ['"'])
  | .literal => '\'' :: (content ++ ['\''])
  | .tripleBasic =>
    ['"', '"', '"'] ++ openingBreak content ++ writtenBasic true 0 content ++ ['"', '"', '"']
  | .tripleLiteral =>
    ['\'', '\'', '\''] ++ openingBreak content ++ content ++ ['\'', '\'', '\'']

/-- The written form of a string. -/
def writtenString (content : String) : String :=
  String.ofList ((Style.of content.toList).write content.toList)

/-- The written form of a truth value. -/
def writtenTruth (value : Bool) : String :=
  if value then "true" else "false"

/-- The written form of a row of strings: several stand on lines of their own. -/
def writtenStrings : List String → String
  | [] => "[]"
  | [only] => "[" ++ writtenString only ++ "]"
  | several =>
    "[\n" ++ String.join (several.map fun item => "    " ++ writtenString item ++ ",\n") ++ "]"

end Toml
end MuseumRecord
