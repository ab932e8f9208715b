import MuseumRecord.Toml.Quotation

/-!
# Lexemes

The smallest parts of a settings file: marks, quoted strings, words, blanks, comments and line
breaks.
-/

namespace MuseumRecord
namespace Toml

/-- A part of a settings file. -/
inductive Lexeme where
  /-- A line break. -/
  | lineBreak
  /-- Blanks inside a line; `single` if it is one space. -/
  | blank (single : Bool)
  /-- A comment up to the end of its line. -/
  | comment
  /-- A dot. -/
  | dot
  /-- An equals sign. -/
  | equals
  /-- A comma. -/
  | comma
  /-- A left bracket. -/
  | openBracket
  /-- A right bracket. -/
  | closeBracket
  /-- A left brace. -/
  | openBrace
  /-- A right brace. -/
  | closeBrace
  /-- A string; `triple` if between three marks each. -/
  | quoted (triple : Bool) (content : List Char)
  /-- Other characters without a blank or a mark between them. -/
  | word (characters : List Char)
deriving DecidableEq, Repr

namespace Lexeme

/-- The marks of one character. -/
def marks : List (Char × Lexeme) :=
  [('.', .dot), ('=', .equals), (',', .comma), ('[', .openBracket), (']', .closeBracket),
    ('\x7b', .openBrace), ('\x7d', .closeBrace)]

/-- A character that does not end a word. -/
def inWord (character : Char) : Bool :=
  !isSpace character && (marks.lookup character).isNone &&
    !(['#', '\r', '\n', '"', '\''].contains character)

/-- The end of a comment. -/
def inComment (character : Char) : Bool :=
  character != '\n' && character != '\r'

/-- The lexeme of a string that was read. -/
def ofString (triple : Bool) (read : Option (List Char × List Char)) :
    Option (Lexeme × List Char) :=
  read.map fun (content, rest) => (.quoted triple content, rest)

/-- A string, given the text at its opening marks. -/
def string? : List Char → Option (Lexeme × List Char)
  | '"' :: '"' :: '"' :: rest => ofString true (tripleBasicString (withoutBreak rest))
  | '"' :: rest => ofString false (basicString rest)
  | '\'' :: '\'' :: '\'' :: rest => ofString true (tripleLiteralString (withoutBreak rest))
  | '\'' :: rest => ofString false (literalString rest)
  | _ => none

/-- A comment, given the text behind its sign. -/
def comment? (text : List Char) : Option (Lexeme × List Char) :=
  if (text.takeWhile inComment).all isPlain then
    some (.comment, text.dropWhile inComment)
  else
    none

/-- The lexeme at the head of a text that is not empty. -/
def head? (character : Char) (rest : List Char) : Option (Lexeme × List Char) :=
  if isSpace character then
    let more := rest.takeWhile isSpace
    some (.blank (character == ' ' && more.isEmpty), rest.dropWhile isSpace)
  else if character = '\n' ∨ character = '\r' then
    (afterBreak? (character :: rest)).map fun after => (.lineBreak, after)
  else if character = '#' then
    comment? rest
  else if character = '"' ∨ character = '\'' then
    string? (character :: rest)
  else
    match marks.lookup character with
    | some mark => some (mark, rest)
    | none => some (.word (character :: rest.takeWhile inWord), rest.dropWhile inWord)

end Lexeme

/-- The lexemes of a text, if every one of them is well formed. -/
def lexemes (text : List Char) : Option (List Lexeme) :=
  match text with
  | [] => some []
  | character :: rest =>
    match Lexeme.head? character rest with
    | some (lexeme, after) =>
      if after.length < rest.length + 1 then
        (lexemes after).map fun others => lexeme :: others
      else
        none
    | none => none
termination_by text.length

end Toml
end MuseumRecord
