import MuseumRecord.Number.Digits

/-!
# Exhibit identifiers

An identifier is a number from 1 to 999, written with three digits after the letters `EXH`.
-/

namespace MuseumRecord

/-- The identifier of an exhibit. -/
structure Identifier where
  /-- The number. -/
  number : Nat
  /-- The number has a written form of three digits and is not zero. -/
  inRange : 1 ≤ number ∧ number ≤ 999
deriving DecidableEq, Repr

/-- Why a text is no identifier. -/
inductive IdentifierError where
  /-- The text is empty. -/
  | empty
  /-- The text does not begin with the letters. -/
  | wrongLetters (text : String)
  /-- The text has more or fewer than six characters. -/
  | wrongLength (text : String)
  /-- What follows the letters is not a positive number. -/
  | notPositive (text : String)
deriving DecidableEq, Repr

/-- The wording of a rejection. -/
def IdentifierError.message : IdentifierError → String
  | .empty => "Exhibit identifier is empty"
  | .wrongLetters text => s!"Exhibit identifier '{text}' must start with 'EXH'"
  | .wrongLength text => s!"Exhibit identifier '{text}' must be exactly 6 characters long"
  | .notPositive text => s!"Exhibit identifier number '{text}' is not a positive integer"

namespace Identifier

/-- The letters every identifier begins with. -/
def letters : List Char := ['E', 'X', 'H']

/-- The number of characters of an identifier. -/
def length : Nat := 6

/-- The identifier with a given number; `written` is the number as it stood in the text. -/
def ofNumber (number : Nat) (written : String) : Except IdentifierError Identifier :=
  if inRange : 1 ≤ number ∧ number ≤ 999 then
    .ok ⟨number, inRange⟩
  else
    .error (.notPositive written)

/-- The written form. -/
def text (identifier : Identifier) : String :=
  String.ofList (letters ++ Number.padded 3 identifier.number)

/-- The number in a suffix, which may carry a plus sign. -/
def suffixNumber? : List Char → Option Nat
  | '+' :: digits => Number.natural? digits
  | digits => Number.natural? digits

/-- Read an identifier. -/
def parse (text : String) : Except IdentifierError Identifier :=
  if text.toList.isEmpty then
    .error .empty
  else
    match letters.isPrefixOf? text.toList with
    | none => .error (.wrongLetters text)
    | some suffix =>
      if text.toList.length ≠ length then
        .error (.wrongLength text)
      else
        match suffixNumber? suffix with
        | none => .error (.notPositive (String.ofList suffix))
        | some number => ofNumber number (String.ofList suffix)

end Identifier

end MuseumRecord
