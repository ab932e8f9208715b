import MuseumRecord.Number.Digits

/-!
# JSON texts

The values that reports hold for other programs, and their indented text.
-/

namespace MuseumRecord

/-- A value of a report for other programs. -/
inductive JsonValue where
  /-- A truth value. -/
  | truth (value : Bool)
  /-- A whole number that is not negative. -/
  | number (value : Nat)
  /-- A text. -/
  | text (value : String)
  /-- A row of values. -/
  | array (items : List JsonValue)
  /-- Named values, in the order in which they are written. -/
  | object (fields : List (String × JsonValue))
deriving Repr

namespace JsonValue

/-- A hexadecimal digit in lower case. -/
def lowerHexDigit (value : Nat) : Char :=
  if value < 10 then Number.digitChar value else Char.ofNat ('a'.toNat + (value - 10))

/-- A character inside a quoted text.  Control characters, the quote and the backslash are
escaped. -/
def escaped (character : Char) : List Char :=
  if character = '"' then ['\\', '"']
  else if character = '\\' then ['\\', '\\']
  else if character = '\n' then ['\\', 'n']
  else if character = '\r' then ['\\', 'r']
  else if character = '\t' then ['\\', 't']
  else if character.toNat = 8 then ['\\', 'b']
  else if character.toNat = 12 then ['\\', 'f']
  else if character.toNat < 32 then
    ['\\', 'u', '0', '0', lowerHexDigit (character.toNat / 16),
      lowerHexDigit (character.toNat % 16)]
  else [character]

/-- A text in quotes. -/
def quoted (text : String) : String :=
  String.ofList ('"' :: (text.toList.flatMap escaped ++ ['"']))

/-- The blanks in front of a line at a depth. -/
def margin (depth : Nat) : String :=
  String.ofList (List.replicate (2 * depth) ' ')

mutual

/-- The text of a value whose lines stand at a depth. -/
def pretty (depth : Nat) : JsonValue → String
  | .truth true => "true"
  | .truth false => "false"
  | .number value => String.ofList (Number.digits value)
  | .text value => quoted value
  | .array [] => "[]"
  | .array (first :: rest) =>
    "[\n" ++ margin (depth + 1) ++ pretty (depth + 1) first ++ prettyItems (depth + 1) rest ++
      "\n" ++ margin depth ++ "]"
  | .object [] => "\x7b\x7d"
  | .object ((name, value) :: rest) =>
    "\x7b\n" ++ margin (depth + 1) ++ quoted name ++ ": " ++ pretty (depth + 1) value ++
      prettyFields (depth + 1) rest ++ "\n" ++ margin depth ++ "\x7d"

/-- The text of further items at a depth. -/
def prettyItems (depth : Nat) : List JsonValue → String
  | [] => ""
  | item :: rest => ",\n" ++ margin depth ++ pretty depth item ++ prettyItems depth rest

/-- The text of further fields at a depth. -/
def prettyFields (depth : Nat) : List (String × JsonValue) → String
  | [] => ""
  | (name, value) :: rest =>
    ",\n" ++ margin depth ++ quoted name ++ ": " ++ pretty depth value ++ prettyFields depth rest

end

end JsonValue

end MuseumRecord
