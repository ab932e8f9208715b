import MuseumRecord.Number.Digits

/-!
# Reading quoted strings

A string stands between quotes or between apostrophes, one or three of each.  Between quotes a
backslash begins an escape; between apostrophes every character stands for itself.  Three marks
allow line breaks.  Each reader is given the text behind the opening marks and returns the string
and the text behind the closing marks.
-/

namespace MuseumRecord
namespace Toml

/-- A character that may stand in a string as it is: a tab, or any but the control characters. -/
def isPlain (character : Char) : Bool :=
  character == '\t' || (32 ≤ character.toNat && character.toNat != 127)

/-- A blank inside a line. -/
def isSpace (character : Char) : Bool :=
  character == ' ' || character == '\t'

/-- The text behind a line break. -/
def afterBreak? : List Char → Option (List Char)
  | '\n' :: rest => some rest
  | '\r' :: '\n' :: rest => some rest
  | _ => none

/-- The number that a row of hexadecimal digits denotes. -/
def hexNumber? (row : List Char) : Option Nat :=
  row.foldlM (fun value character =>
    (Number.digitIn? 16 character).map fun digit => value * 16 + digit) 0

/-- The character numbered by exactly `width` hexadecimal digits, and what follows them. -/
def numbered? (width : Nat) (text : List Char) : Option (Char × List Char) :=
  if text.length < width then
    none
  else
    match hexNumber? (text.take width) with
    | some code => if code.isValidChar then some (Char.ofNat code, text.drop width) else none
    | none => none

/-- The letters of escapes and the characters they stand for. -/
def letterEscapes : List (Char × Char) :=
  [('b', '\x08'), ('t', '\t'), ('n', '\n'), ('f', '\x0c'), ('r', '\r'), ('e', '\x1b'), ('"', '"'),
    ('\\', '\\')]

/-- The letters of escapes that give a character by its number, and how many digits follow. -/
def numberEscapes : List (Char × Nat) :=
  [('x', 2), ('u', 4), ('U', 8)]

/-- The character that an escape stands for, given the text behind the backslash. -/
def escape? : List Char → Option (Char × List Char)
  | [] => none
  | letter :: rest =>
    match letterEscapes.lookup letter with
    | some meant => some (meant, rest)
    | none => (numberEscapes.lookup letter).bind fun width => numbered? width rest

theorem length_of_numbered {width : Nat} {text rest : List Char} {character : Char}
    (read : numbered? width text = some (character, rest)) : rest.length ≤ text.length := by
  unfold numbered? at read
  split at read
  · cases read
  · split at read
    · split at read
      · cases read
        simp
      · cases read
    · cases read

theorem length_of_escape {text rest : List Char} {character : Char}
    (read : escape? text = some (character, rest)) : rest.length < text.length := by
  cases text with
  | nil => cases read
  | cons letter behind =>
    simp only [escape?] at read
    split at read
    · cases read
      simp
    · obtain ⟨width, _, numbered⟩ := Option.bind_eq_some_iff.1 read
      have bound := length_of_numbered numbered
      simp only [List.length_cons]
      omega

/-- A string between quotes. -/
def basicString (text : List Char) : Option (List Char × List Char) :=
  match text with
  | [] => none
  | character :: rest =>
    if character = '"' then
      some ([], rest)
    else if character = '\\' then
      match _escaped : escape? rest with
      | some (meant, behind) =>
        (basicString behind).map fun (content, after) => (meant :: content, after)
      | none => none
    else if isPlain character then
      (basicString rest).map fun (content, after) => (character :: content, after)
    else
      none
termination_by text.length
decreasing_by
  · have bound := length_of_escape _escaped
    simp only [List.length_cons]
    omega
  · simp

/-- A string between apostrophes. -/
def literalString : List Char → Option (List Char × List Char)
  | [] => none
  | character :: rest =>
    if character = '\'' then
      some ([], rest)
    else if isPlain character then
      (literalString rest).map fun (content, after) => (character :: content, after)
    else
      none

/-- Blanks and line breaks in front of a text. -/
def skipFiller : List Char → List Char
  | '\n' :: rest => skipFiller rest
  | '\r' :: '\n' :: rest => skipFiller rest
  | ' ' :: rest => skipFiller rest
  | '\t' :: rest => skipFiller rest
  | text => text

/-- What follows a backslash at the end of a line: all up to the next visible character is passed
over. -/
def joinedLine? (text : List Char) : Option (List Char) :=
  (afterBreak? (text.dropWhile isSpace)).map skipFiller

/-- The end of a string between three marks each: up to two more marks belong to the string. -/
def tripleEnd (mark : Char) (text : List Char) : List Char × List Char :=
  let more := (text.take 2).takeWhile fun character => character == mark
  (more, text.drop more.length)

theorem length_skipFiller (text : List Char) : (skipFiller text).length ≤ text.length := by
  fun_induction skipFiller text <;> simp_all <;> omega

theorem length_of_afterBreak {text rest : List Char} (read : afterBreak? text = some rest) :
    rest.length < text.length := by
  unfold afterBreak? at read
  split at read
  · cases read
    simp
  · cases read
    simp only [List.length_cons]
    omega
  · cases read

theorem length_of_joinedLine {text rest : List Char} (read : joinedLine? text = some rest) :
    rest.length < text.length := by
  obtain ⟨behind, found, rfl⟩ := Option.map_eq_some_iff.1 read
  have inBreak := length_of_afterBreak found
  have inFiller := length_skipFiller behind
  have inBlanks := (List.dropWhile_sublist isSpace (l := text)).length_le
  omega

/-- A string between three quotes, with what follows its first line break. -/
def tripleBasicString (text : List Char) : Option (List Char × List Char) :=
  match text with
  | '"' :: '"' :: '"' :: rest => some (tripleEnd '"' rest)
  | '\\' :: rest =>
    match _joined : joinedLine? rest with
    | some behind => tripleBasicString behind
    | none =>
      match _escaped : escape? rest with
      | some (meant, behind) =>
        (tripleBasicString behind).map fun (content, after) => (meant :: content, after)
      | none => none
  | '\r' :: '\n' :: rest =>
    (tripleBasicString rest).map fun (content, after) => ('\r' :: '\n' :: content, after)
  | character :: rest =>
    if character = '\n' ∨ isPlain character then
      (tripleBasicString rest).map fun (content, after) => (character :: content, after)
    else
      none
  | [] => none
termination_by text.length
decreasing_by
  · have bound := length_of_joinedLine _joined
    simp only [List.length_cons]
    omega
  · have bound := length_of_escape _escaped
    simp only [List.length_cons]
    omega
  · simp only [List.length_cons]
    omega
  · simp

/-- A string between three apostrophes, with what follows its first line break. -/
def tripleLiteralString : List Char → Option (List Char × List Char)
  | '\'' :: '\'' :: '\'' :: rest => some (tripleEnd '\'' rest)
  | '\r' :: '\n' :: rest =>
    (tripleLiteralString rest).map fun (content, after) => ('\r' :: '\n' :: content, after)
  | character :: rest =>
    if character = '\n' ∨ isPlain character then
      (tripleLiteralString rest).map fun (content, after) => (character :: content, after)
    else
      none
  | [] => none

/-- The text without a line break in front, which belongs to the opening marks. -/
def withoutBreak (text : List Char) : List Char :=
  (afterBreak? text).getD text

end Toml
end MuseumRecord
