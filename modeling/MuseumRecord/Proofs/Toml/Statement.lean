import MuseumRecord.Proofs.Toml.Lexeme
import MuseumRecord.Toml.Document

/-!
# Written lines

A line that gives a bare name a value is read as one assignment, whatever lines follow it.
-/

namespace MuseumRecord
namespace Toml

variable {name rest : List Char} {found more : List Lexeme} {value : Value}

/-! ## Values -/

/-- The lexemes have the value when a line ends behind them. -/
def HasValue (found : List Lexeme) (value : Value) : Prop :=
  ∀ more, readValue? deepestNesting (found ++ .lineBreak :: more) = some (value, .lineBreak :: more)

theorem readValue?_string (depth : Nat) (content : String) (more : List Lexeme) :
    readValue? depth (stringLexeme content :: more) = some (.text content, more) := by
  have scalar : readScalar? (stringLexeme content :: more) = some (.text content, more) := by
    rw [stringLexeme, readScalar?, String.ofList_toList]
  cases depth with
  | zero => exact scalar
  | succ depth => exact scalar

theorem hasValue_string (content : String) : HasValue [stringLexeme content] (.text content) :=
  fun more => readValue?_string deepestNesting content (.lineBreak :: more)

theorem hasValue_truth (truth : Bool) :
    HasValue [.word (writtenTruth truth).toList] (.truth truth) := by
  intro more
  cases truth with
  | false => rfl
  | true => rfl

/-- The lexemes of one of several strings. -/
def itemLexemes (item : String) : List Lexeme :=
  [.blank false, stringLexeme item, .comma, .lineBreak]

/-- The lexemes of a row of strings. -/
def stringsLexemes : List String → List Lexeme
  | [] => [.openBracket, .closeBracket]
  | [only] => [.openBracket, stringLexeme only, .closeBracket]
  | several => .openBracket :: .lineBreak :: (several.flatMap itemLexemes ++ [.closeBracket])

/-- Every item is followed by a comma and a line break. -/
theorem readItems?_several (depth : Nat) (items : List Value) (strings : List String)
    (more : List Lexeme) :
    readItems? (readValue? depth) items
        (.lineBreak :: (strings.flatMap itemLexemes ++ .closeBracket :: more)) =
      some (.array (items ++ strings.map .text), more) := by
  induction strings generalizing items with
  | nil =>
    rw [readItems?]
    simp [skipLines]
  | cons string strings inductionHypothesis =>
    have shape : Lexeme.lineBreak :: ((string :: strings).flatMap itemLexemes ++
        .closeBracket :: more) = .lineBreak :: .blank false :: stringLexeme string :: .comma ::
          .lineBreak :: (strings.flatMap itemLexemes ++ .closeBracket :: more) := rfl
    have first : skipLines (.lineBreak :: .blank false :: stringLexeme string :: .comma ::
        .lineBreak :: (strings.flatMap itemLexemes ++ .closeBracket :: more)) =
          stringLexeme string :: .comma :: .lineBreak ::
            (strings.flatMap itemLexemes ++ .closeBracket :: more) := rfl
    have shorter :
        (Lexeme.lineBreak :: (strings.flatMap itemLexemes ++ .closeBracket :: more)).length <
          (Lexeme.lineBreak :: .blank false :: stringLexeme string :: .comma :: .lineBreak ::
            (strings.flatMap itemLexemes ++ .closeBracket :: more)).length := by
      simp only [List.length_cons]
      omega
    rw [shape, readItems?, first]
    split
    · next closed => cases closed
    · next start notClosed =>
      rw [readValue?_string]
      simp only [skipLines, if_pos shorter, inductionHypothesis]
      simp

theorem readItems?_single (depth : Nat) (only : String) (more : List Lexeme) :
    readItems? (readValue? depth) [] (stringLexeme only :: .closeBracket :: more) =
      some (.array [.text only], more) := by
  have first : skipLines (stringLexeme only :: .closeBracket :: more) =
      stringLexeme only :: .closeBracket :: more := rfl
  rw [readItems?, first]
  split
  · next closed => cases closed
  · rw [readValue?_string]
    rfl

theorem readValue?_bracket (more : List Lexeme) :
    readValue? deepestNesting (.openBracket :: more) = readItems? (readValue? 79) [] more :=
  rfl

theorem hasValue_strings (strings : List String) :
    HasValue (stringsLexemes strings) (.array (strings.map .text)) := by
  intro more
  rcases strings with _ | ⟨first, _ | ⟨second, others⟩⟩
  · change readValue? deepestNesting (.openBracket :: .closeBracket :: .lineBreak :: more) = _
    rw [readValue?_bracket, readItems?]
    rfl
  · exact (readValue?_bracket _).trans (readItems?_single 79 first (.lineBreak :: more))
  · have shape : stringsLexemes (first :: second :: others) ++ .lineBreak :: more =
        .openBracket :: .lineBreak :: ((first :: second :: others).flatMap itemLexemes ++
          .closeBracket :: .lineBreak :: more) := by
      simp [stringsLexemes]
    rw [shape, readValue?_bracket]
    exact readItems?_several 79 [] (first :: second :: others) (.lineBreak :: more)

/-! ## Assignments -/

/-- The lexemes of a line that gives a name a value. -/
def lineLexemes (name : List Char) (found : List Lexeme) : List Lexeme :=
  .word name :: .blank true :: .equals :: .blank true :: (found ++ [.lineBreak])

theorem path?_word (bare : name.all inBareName = true) (more : List Lexeme) :
    path? (.word name :: .blank true :: .equals :: more) =
      some (⟨[], String.ofList name⟩, .equals :: more) := by
  rw [path?]
  simp only [name?, if_pos bare, skipBlank]

theorem readStatement?_line (bare : name.all inBareName = true) (hasValue : HasValue found value)
    (more : List Lexeme) :
    readStatement? (lineLexemes name found ++ more) =
      some (.assign ⟨[], String.ofList name⟩ value, .lineBreak :: more) := by
  have shape : lineLexemes name found ++ more =
      .word name :: .blank true :: .equals :: .blank true :: (found ++ .lineBreak :: more) := by
    simp [lineLexemes]
  rw [shape, readStatement?, readAssignment?, path?_word bare]
  · change (readValue? deepestNesting (found ++ .lineBreak :: more)).map _ = _
    rw [hasValue more]
    rfl
  · exact fun rest header => nomatch header

theorem statements?_line (bare : name.all inBareName = true) (hasValue : HasValue found value)
    (more : List Lexeme) :
    statements? (lineLexemes name found ++ more) =
      (statements? more).map fun others => .assign ⟨[], String.ofList name⟩ value :: others := by
  have start : skipLines (lineLexemes name found ++ more) = lineLexemes name found ++ more := rfl
  have shorter : more.length < (lineLexemes name found ++ more).length := by
    rw [List.length_append, lineLexemes, List.length_cons]
    omega
  rw [statements?, start]
  split
  · next nothing => cases nothing
  · rw [readStatement?_line bare hasValue]
    exact if_pos shorter

end Toml
end MuseumRecord
