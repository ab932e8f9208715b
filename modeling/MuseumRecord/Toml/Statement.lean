import MuseumRecord.Toml.Lexeme
import MuseumRecord.Toml.Scalar

/-!
# Statements

A settings file is a row of lines.  A line gives a name its value, opens a table, or says nothing.
-/

namespace MuseumRecord
namespace Toml

/-- A dotted name: the names in front of the last one, and the last one. -/
structure Path where
  /-- The names in front. -/
  front : List String
  /-- The last name. -/
  last : String
deriving DecidableEq, Repr

/-- All names of a dotted name. -/
def Path.names (path : Path) : List String :=
  path.front ++ [path.last]

/-- What a line says. -/
inductive Statement where
  /-- A name gets a value. -/
  | assign (path : Path) (value : Value)
  /-- A table begins. -/
  | openTable (path : Path)
  /-- One more table of a name begins. -/
  | openAnother (path : Path)
deriving Repr

/-- The greatest number of brackets and braces that are open at once. -/
def deepestNesting : Nat := 80

/-- The lexemes without a blank in front. -/
def skipBlank : List Lexeme → List Lexeme
  | .blank _ :: rest => rest
  | lexemes => lexemes

/-- The lexemes without blanks, comments and line breaks in front. -/
def skipLines : List Lexeme → List Lexeme
  | .blank _ :: rest => skipLines rest
  | .comment :: rest => skipLines rest
  | .lineBreak :: rest => skipLines rest
  | lexemes => lexemes

theorem length_skipBlank (lexemes : List Lexeme) :
    (skipBlank lexemes).length ≤ lexemes.length := by
  unfold skipBlank
  split <;> simp

/-- A character of an unquoted name. -/
def inBareName (character : Char) : Bool :=
  character.isAlphanum || character == '-' || character == '_'

/-- The name in a lexeme. -/
def name? : Lexeme → Option String
  | .quoted false content => some (String.ofList content)
  | .word characters =>
    if characters.all inBareName then some (String.ofList characters) else none
  | _ => none

/-- A dotted name, and the lexemes behind it and the blank that follows. -/
def path? (lexemes : List Lexeme) : Option (Path × List Lexeme) :=
  match lexemes with
  | [] => none
  | lexeme :: rest =>
    match name? lexeme with
    | none => none
    | some name =>
      match _behind : skipBlank rest with
      | .dot :: more =>
        (path? (skipBlank more)).map fun (path, after) =>
          (⟨name :: path.front, path.last⟩, after)
      | after => some (⟨[], name⟩, after)
termination_by lexemes.length
decreasing_by
  have inBlank := length_skipBlank rest
  have afterDot := length_skipBlank more
  simp only [_behind, List.length_cons] at inBlank ⊢
  omega

/-- A word with the words that dots join to it. -/
def joinDots (text : List Char) : List Lexeme → List Char × List Lexeme
  | .dot :: .word more :: rest => joinDots (text ++ '.' :: more) rest
  | lexemes => (text, lexemes)

/-- An unquoted text that begins with a word.  A date may be joined to a time by one space. -/
def joinWords (text : List Char) (lexemes : List Lexeme) : List Char × List Lexeme :=
  match joinDots text lexemes with
  | (day, .blank true :: .word time :: rest) =>
    if isDay day then joinDots (day ++ ' ' :: time) rest
    else (day, .blank true :: .word time :: rest)
  | joined => joined

/-- A value without brackets and braces. -/
def readScalar? : List Lexeme → Option (Value × List Lexeme)
  | .quoted _ content :: rest => some (.text (String.ofList content), rest)
  | .word characters :: rest =>
    let (text, after) := joinWords characters rest
    (scalar? text).map fun value => (value, after)
  | _ => none

/-- A reader of values. -/
abbrev ValueReader := List Lexeme → Option (Value × List Lexeme)

/-- The rest of an array, given a reader of its items and the items already read. -/
def readItems? (read : ValueReader) (items : List Value) (lexemes : List Lexeme) :
    Option (Value × List Lexeme) :=
  match skipLines lexemes with
  | .closeBracket :: rest => some (.array items, rest)
  | start =>
    match read start with
    | none => none
    | some (item, behind) =>
      match skipLines behind with
      | .comma :: rest =>
        if rest.length < lexemes.length then readItems? read (items ++ [item]) rest else none
      | .closeBracket :: rest => some (.array (items ++ [item]), rest)
      | _ => none
termination_by lexemes.length

/-- The rest of a table between braces, given a reader of its values and the entries already
read. -/
def readFields? (read : ValueReader) (entries : Entries) (lexemes : List Lexeme) :
    Option (Value × List Lexeme) :=
  match skipLines lexemes with
  | .closeBrace :: rest => some (.table .inline entries, rest)
  | start =>
    match path? start with
    | some (path, .equals :: behindSign) =>
      match read (skipBlank behindSign) with
      | none => none
      | some (value, behind) =>
        match entries.assign? path.front path.last value with
        | none => none
        | some entries =>
          match skipLines behind with
          | .comma :: rest =>
            if rest.length < lexemes.length then readFields? read entries rest else none
          | .closeBrace :: rest => some (.table .inline entries, rest)
          | _ => none
    | _ => none
termination_by lexemes.length

/-- A value in which at most `depth` brackets and braces are open at once. -/
def readValue? : Nat → ValueReader
  | 0 => readScalar?
  | depth + 1 => fun lexemes =>
    match lexemes with
    | .openBracket :: rest => readItems? (readValue? depth) [] rest
    | .openBrace :: rest => readFields? (readValue? depth) [] rest
    | _ => readScalar? lexemes

/-- A header, given the lexemes behind its first bracket. -/
def readHeader? : List Lexeme → Option (Statement × List Lexeme)
  | .openBracket :: rest =>
    match path? (skipBlank rest) with
    | some (path, .closeBracket :: .closeBracket :: after) => some (.openAnother path, after)
    | _ => none
  | lexemes =>
    match path? (skipBlank lexemes) with
    | some (path, .closeBracket :: after) => some (.openTable path, after)
    | _ => none

/-- A name and its value. -/
def readAssignment? (lexemes : List Lexeme) : Option (Statement × List Lexeme) :=
  match path? lexemes with
  | some (path, .equals :: rest) =>
    (readValue? deepestNesting (skipBlank rest)).map fun (value, after) =>
      (.assign path value, after)
  | _ => none

/-- A statement. -/
def readStatement? : List Lexeme → Option (Statement × List Lexeme)
  | .openBracket :: rest => readHeader? rest
  | lexemes => readAssignment? lexemes

/-- The lexemes of the next line, if the current one holds at most a blank and a comment. -/
def nextLine? (lexemes : List Lexeme) : Option (List Lexeme) :=
  match skipBlank lexemes with
  | [] => some []
  | .lineBreak :: rest => some rest
  | [.comment] => some []
  | .comment :: .lineBreak :: rest => some rest
  | _ => none

/-- The statements of a file. -/
def statements? (lexemes : List Lexeme) : Option (List Statement) :=
  match skipLines lexemes with
  | [] => some []
  | start =>
    match readStatement? start with
    | none => none
    | some (statement, behind) =>
      match nextLine? behind with
      | none => none
      | some rest =>
        if rest.length < lexemes.length then
          (statements? rest).map fun others => statement :: others
        else
          none
termination_by lexemes.length

end Toml
end MuseumRecord
