import MuseumRecord.Number.Digits
import MuseumRecord.Text.Bytes

/-!
# References

An ampersand begins a reference that a semicolon ends.  A reference names one of five characters or
gives the number of a character.
-/

namespace MuseumRecord
namespace Markup

open Number Text

/-- Why a number is no character reference. -/
inductive CharacterFault where
  /-- The number carries a sign. -/
  | signed
  /-- There are no digits. -/
  | noDigits
  /-- A character is no digit. -/
  | badDigit
  /-- The number needs more than 32 bits. -/
  | tooLarge
  /-- No character has the number. -/
  | noCharacter (code : Nat)
  /-- The number is zero. -/
  | zero
deriving DecidableEq, Repr

/-- The wording of a bad number. -/
def CharacterFault.message : CharacterFault → String
  | .signed => "unexpected number sign"
  | .noDigits => "cannot parse integer from empty string"
  | .badDigit => "invalid digit found in string"
  | .tooLarge => "number too large to fit in target type"
  | .noCharacter code => s!"`{code}` is not a valid codepoint"
  | .zero => "0x0 character is not permitted in XML"

/-- Why a text with references cannot be read.  Places are byte offsets in that text. -/
inductive ReferenceFault where
  /-- The name between the places is not one of the five. -/
  | unknownName (start finish : Nat) (name : String)
  /-- The ampersand has no semicolon of its own. -/
  | unterminated (start finish : Nat)
  /-- The number is not the number of a character. -/
  | badNumber (fault : CharacterFault)
deriving DecidableEq, Repr

/-- The wording of a bad reference. -/
def ReferenceFault.message : ReferenceFault → String
  | .unknownName start finish name => s!"at {start}..{finish}: unrecognized entity `{name}`"
  | .unterminated start finish =>
    s!"Error while escaping character at range {start}..{finish}: Cannot find ';' after '&'"
  | .badNumber fault => s!"invalid character reference: {fault.message}"

namespace Reference

/-- The number that digits denote in a base, after those already read. -/
def readDigits (base value : Nat) : List Char → Except CharacterFault Nat
  | [] => .ok value
  | character :: rest =>
    match digitIn? base character with
    | none => .error .badDigit
    | some digit =>
      if value * base + digit < 4294967296 then
        readDigits base (value * base + digit) rest
      else
        .error .tooLarge

/-- An unsigned number in a base. -/
def readNumber (base : Nat) : List Char → Except CharacterFault Nat
  | [] => .error .noDigits
  | character :: rest =>
    if character = '+' ∨ character = '-' then
      .error .signed
    else
      readDigits base 0 (character :: rest)

/-- The number of a character, in decimal or, after an `x`, in hexadecimal. -/
def readCode : List Char → Except CharacterFault Nat
  | 'x' :: digits => readNumber 16 digits
  | digits => readNumber 10 digits

/-- The character with a number. -/
def character (code : Nat) : Except CharacterFault Char :=
  if code = 0 then
    .error .zero
  else if code.isValidChar then
    .ok (Char.ofNat code)
  else
    .error (.noCharacter code)

/-- The characters that references may name. -/
def named : List (List Char × Char) :=
  [("lt".toList, '<'), ("gt".toList, '>'), ("amp".toList, '&'), ("apos".toList, '\''),
    ("quot".toList, '"')]

/-- The character that the inside of a reference stands for; `start` is where the inside begins. -/
def resolve (start : Nat) (inside : List Char) : Except ReferenceFault Char :=
  match inside with
  | '#' :: number =>
    match readCode number with
    | .error fault => .error (.badNumber fault)
    | .ok code =>
      match character code with
      | .error fault => .error (.badNumber fault)
      | .ok found => .ok found
  | _ =>
    match named.lookup inside with
    | some found => .ok found
    | none => .error (.unknownName start (start + byteSize inside) (String.ofList inside))

/-- The inside of a reference: what comes before the next ampersand or semicolon. -/
def inside (text : List Char) : List Char :=
  text.takeWhile fun character => character != '&' && character != ';'

/-- Replace the references of a text that lies at an offset of a whole of the given size. -/
def expandFrom (size offset : Nat) (text : List Char) : Except ReferenceFault (List Char) :=
  match text with
  | [] => .ok []
  | '&' :: rest =>
    match _remainder : rest.drop (inside rest).length with
    | ';' :: after =>
      match resolve (offset + 1) (inside rest) with
      | .error fault => .error fault
      | .ok found =>
        match expandFrom size (offset + 2 + byteSize (inside rest)) after with
        | .error fault => .error fault
        | .ok expanded => .ok (found :: expanded)
    | _ => .error (.unterminated offset size)
  | plain :: rest =>
    match expandFrom size (offset + plain.utf8Size) rest with
    | .error fault => .error fault
    | .ok expanded => .ok (plain :: expanded)
termination_by text.length
decreasing_by
  · have length := congrArg List.length _remainder
    simp only [List.length_drop, List.length_cons] at length ⊢
    omega
  · simp only [List.length_cons]
    omega

/-- Replace the references of a text. -/
def expand (text : List Char) : Except ReferenceFault (List Char) :=
  expandFrom (byteSize text) 0 text

end Reference

end Markup
end MuseumRecord
