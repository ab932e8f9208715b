import MuseumRecord.Proofs.Toml.Quotation
import MuseumRecord.Toml.Lexeme

/-!
# Lexemes of written text

Marks, words, blanks and written strings are taken from the front of a text as one lexeme each,
given that what follows does not join them.
-/

namespace MuseumRecord
namespace Toml

/-! ## What a style can hold -/

theorem not_mem_of_longestRun {mark : Char} {content : List Char}
    (nothing : longestRun mark 0 content = 0) : mark ∉ content := by
  induction content with
  | nil => exact List.not_mem_nil
  | cons character content inductionHypothesis =>
    rw [longestRun] at nothing
    by_cases same : character = mark
    · rw [if_pos same] at nothing
      exact absurd (nothing ▸ le_longestRun mark (0 + 1) content) (by decide)
    · rw [if_neg same] at nothing
      have behind : longestRun mark 0 content = 0 := by omega
      exact List.not_mem_cons_of_ne_of_not_mem (Ne.symm same) (inductionHypothesis behind)

/-- What between apostrophes must hold of a string that is written as it is. -/
def Style.CanHold (content : List Char) : Style → Prop
  | .basic => True
  | .literal => ∀ character ∈ content, character ≠ '\'' ∧ isPlain character = true
  | .tripleBasic => True
  | .tripleLiteral => (∀ character ∈ content, character = '\n' ∨ isPlain character = true) ∧
      longestRun '\'' 0 content ≤ 2

/-- The style of a string can hold it. -/
theorem Style.of_canHold (content : List Char) : (Style.of content).CanHold content := by
  unfold Style.of
  simp only
  split
  · exact trivial
  split
  · next held =>
    simp only [Bool.and_eq_true, Bool.not_eq_true', List.any_eq_false, beq_iff_eq] at held
    obtain ⟨⟨noControl, noMark⟩, noBreak⟩ := held
    intro character member
    refine ⟨?_, isPlain_of_isControl_eq_false (by simpa using noControl character member) ?_⟩
    · rintro rfl
      exact not_mem_of_longestRun noMark member
    · rintro rfl
      simp [member] at noBreak
  split
  · exact trivial
  split
  · next held =>
    simp only [Bool.and_eq_true, Bool.not_eq_true', List.any_eq_false, decide_eq_true_eq] at held
    obtain ⟨noControl, few⟩ := held
    refine ⟨fun character member => ?_, few⟩
    by_cases lineFeed : character = '\n'
    · exact .inl lineFeed
    · exact .inr (isPlain_of_isControl_eq_false (by simpa using noControl character member)
        lineFeed)
  split
  · exact trivial
  · exact trivial

/-! ## Strings -/

/-- Whether a style has three marks on either side. -/
def Style.isTriple : Style → Bool
  | .basic => false
  | .literal => false
  | .tripleBasic => true
  | .tripleLiteral => true

/-- The text does not go on with a mark of a string. -/
def IsUnquoted (rest : List Char) : Prop :=
  rest.head? ≠ some '"' ∧ rest.head? ≠ some '\''

/-- One mark does not begin three. -/
theorem not_three_marks {mark : Char} {body rest after : List Char} (fresh : body.head? ≠ some mark)
    (other : rest.head? ≠ some mark) : body ++ mark :: rest ≠ mark :: mark :: after := by
  intro same
  cases body with
  | nil => exact other (congrArg List.head? (List.cons.inj same).2)
  | cons first body => exact fresh (congrArg some (List.cons.inj same).1)

theorem head?_cons_ne {first other : Char} (different : first ≠ other) (rest : List Char) :
    (first :: rest).head? ≠ some other :=
  fun head => different (Option.some.inj head)

theorem head?_writtenBasic (run : Nat) (content : List Char) :
    (writtenBasic false run content).head? ≠ some '"' := by
  cases content with
  | nil => exact (Option.some_ne_none '"').symm
  | cons character content =>
    obtain ⟨first, others, written, opens, _⟩ :=
      exists_cons_of_writtenBasic false run character content
    rw [written]
    exact head?_cons_ne (fun same => Nat.not_lt_zero run (opens same).2) others

theorem withoutBreak_eq_self {text : List Char} (noFeed : text.head? ≠ some '\n')
    (noReturn : text.head? ≠ some '\r') : withoutBreak text = text := by
  unfold withoutBreak afterBreak?
  split
  · exact absurd rfl noFeed
  · exact absurd rfl noReturn
  · rfl

/-- The break that is written in front of a string with breaks is the one that is taken away. -/
theorem withoutBreak_openingBreak {content text : List Char}
    (noReturn : text.head? ≠ some '\r')
    (noFeed : '\n' ∉ content → text.head? ≠ some '\n') :
    withoutBreak (openingBreak content ++ text) = text := by
  unfold openingBreak
  by_cases breaks : '\n' ∈ content
  · rw [if_pos (List.contains_iff_mem.mpr breaks)]
    rfl
  · rw [if_neg (mt List.contains_iff_mem.mp breaks)]
    exact withoutBreak_eq_self (noFeed breaks) noReturn

theorem head?_writtenBasic_triple (content rest : List Char) :
    (writtenBasic true 0 content ++ '"' :: rest).head? ≠ some '\r' ∧
      ('\n' ∉ content → (writtenBasic true 0 content ++ '"' :: rest).head? ≠ some '\n') := by
  cases content with
  | nil => exact ⟨head?_cons_ne (by decide) _, fun _ => head?_cons_ne (by decide) _⟩
  | cons character content =>
    obtain ⟨first, others, written, _, noReturn, breaks⟩ :=
      exists_cons_of_writtenBasic true 0 character content
    rw [written]
    refine ⟨head?_cons_ne noReturn _, fun absent => head?_cons_ne (fun feed => ?_) _⟩
    exact absent (breaks feed ▸ List.mem_cons_self)

theorem head?_literal {content : List Char}
    (plain : ∀ character ∈ content, character = '\n' ∨ isPlain character = true)
    (rest : List Char) :
    (content ++ '\'' :: rest).head? ≠ some '\r' ∧
      ('\n' ∉ content → (content ++ '\'' :: rest).head? ≠ some '\n') := by
  cases content with
  | nil => exact ⟨head?_cons_ne (by decide) _, fun _ => head?_cons_ne (by decide) _⟩
  | cons character content =>
    have noReturn : character ≠ '\r' := by
      rintro rfl
      exact absurd (plain '\r' List.mem_cons_self) (by decide)
    refine ⟨head?_cons_ne noReturn _, fun absent => head?_cons_ne (fun feed => ?_) _⟩
    exact absent (feed ▸ List.mem_cons_self)

/-- A written string is read back, with the text that follows it. -/
theorem string?_write (content : List Char) {rest : List Char} (unquoted : IsUnquoted rest) :
    Lexeme.string? ((Style.of content).write content ++ rest) =
      some (.quoted (Style.of content).isTriple content, rest) := by
  have canHold := Style.of_canHold content
  cases style : Style.of content with
  | basic =>
    have single (after : List Char) :
        writtenBasic false 0 content ++ '"' :: rest ≠ '"' :: '"' :: after :=
      not_three_marks (head?_writtenBasic 0 content) unquoted.1
    rw [Style.write, List.cons_append, List.append_assoc, List.singleton_append, Lexeme.string?,
      basicString_writtenBasic]
    · rfl
    · exact single
  | literal =>
    rw [style] at canHold
    have fresh : content.head? ≠ some '\'' := fun head =>
      (canHold '\'' (List.mem_of_mem_head? head)).1 rfl
    rw [Style.write, List.cons_append, List.append_assoc, List.singleton_append, Lexeme.string?,
      literalString_append canHold]
    · rfl
    · exact fun _ => not_three_marks fresh unquoted.2
  | tripleBasic =>
    obtain ⟨noReturn, noFeed⟩ := head?_writtenBasic_triple content ('"' :: '"' :: rest)
    have shape : Style.tripleBasic.write content ++ rest = '"' :: '"' :: '"' ::
        (openingBreak content ++ (writtenBasic true 0 content ++ '"' :: '"' :: '"' :: rest)) := by
      simp [Style.write]
    rw [shape, Lexeme.string?, withoutBreak_openingBreak noReturn noFeed,
      tripleBasicString_writtenBasic (Nat.zero_le 2) content unquoted.1]
    rfl
  | tripleLiteral =>
    rw [style] at canHold
    obtain ⟨plain, few⟩ := canHold
    obtain ⟨noReturn, noFeed⟩ := head?_literal plain ('\'' :: '\'' :: rest)
    have shape : Style.tripleLiteral.write content ++ rest = '\'' :: '\'' :: '\'' ::
        (openingBreak content ++ (content ++ '\'' :: '\'' :: '\'' :: rest)) := by
      simp [Style.write]
    rw [shape, Lexeme.string?, withoutBreak_openingBreak noReturn noFeed,
      tripleLiteralString_append plain few unquoted.2]
    rfl

/-! ## Rows of lexemes -/

/-- In front of the rest the written text has the given lexemes. -/
def Lexes (written : List Char) (found : List Lexeme) (rest : List Char) : Prop :=
  lexemes (written ++ rest) = (lexemes rest).map fun others => found ++ others

variable {left right rest : List Char} {found more : List Lexeme}

theorem Lexes.nil (rest : List Char) : Lexes [] [] rest :=
  Option.map_id'.symm

theorem Lexes.append (first : Lexes left found (right ++ rest)) (second : Lexes right more rest) :
    Lexes (left ++ right) (found ++ more) rest := by
  unfold Lexes at first second ⊢
  rw [List.append_assoc, first, second, Option.map_map]
  refine congrFun (congrArg Option.map (funext fun others => ?_)) _
  exact (List.append_assoc found more others).symm

theorem Lexes.whole (lexes : Lexes left found []) : lexemes left = some found := by
  unfold Lexes at lexes
  rw [List.append_nil, lexemes.eq_def []] at lexes
  rw [lexes]
  exact congrArg some (List.append_nil found)

theorem lexes_of_head? {first : Char} {others : List Char} {lexeme : Lexeme}
    (taken : Lexeme.head? first (others ++ rest) = some (lexeme, rest)) :
    Lexes (first :: others) [lexeme] rest := by
  have shorter : rest.length < (others ++ rest).length + 1 := by
    rw [List.length_append]
    omega
  unfold Lexes
  rw [List.cons_append, lexemes, taken]
  exact if_pos shorter

theorem takeWhile_space (solid : ∀ character ∈ rest.head?, isSpace character = false) :
    rest.takeWhile isSpace = [] ∧ rest.dropWhile isSpace = rest := by
  cases rest with
  | nil => exact ⟨rfl, rfl⟩
  | cons first rest =>
    have stops : ¬isSpace first = true := by simp [solid first rfl]
    exact ⟨List.takeWhile_cons_of_neg stops, List.dropWhile_cons_of_neg stops⟩

/-- One space in front of something else. -/
theorem lexes_space (solid : ∀ character ∈ rest.head?, isSpace character = false) :
    Lexes [' '] [.blank true] rest := by
  obtain ⟨taken, dropped⟩ := takeWhile_space solid
  refine lexes_of_head? ?_
  rw [List.nil_append, Lexeme.head?, if_pos (show isSpace ' ' = true from rfl), taken, dropped]
  rfl

/-- Four spaces in front of something else. -/
theorem lexes_indent (solid : ∀ character ∈ rest.head?, isSpace character = false) :
    Lexes [' ', ' ', ' ', ' '] [.blank false] rest := by
  obtain ⟨_, dropped⟩ := takeWhile_space solid
  have behind : List.dropWhile isSpace (' ' :: ' ' :: ' ' :: rest) = rest := dropped
  refine lexes_of_head? ?_
  rw [List.cons_append, List.cons_append, List.cons_append, List.nil_append, Lexeme.head?,
    if_pos (show isSpace ' ' = true from rfl), behind]
  rfl

theorem inWord_iff {character : Char} :
    Lexeme.inWord character = true ↔ isSpace character = false ∧
      Lexeme.marks.lookup character = none ∧ character ≠ '#' ∧ character ≠ '\r' ∧
      character ≠ '\n' ∧ character ≠ '"' ∧ character ≠ '\'' := by
  simp only [Lexeme.inWord, Bool.and_eq_true, Bool.not_eq_true', Option.isNone_iff_eq_none,
    List.contains_eq_mem, decide_eq_false_iff_not, List.mem_cons, List.not_mem_nil, or_false,
    not_or, and_assoc, ne_eq]

/-- A word in front of something that ends it. -/
theorem lexes_word {first : Char} {others : List Char}
    (word : ∀ character ∈ first :: others, Lexeme.inWord character = true)
    (ends : ∀ character ∈ rest.head?, Lexeme.inWord character = false) :
    Lexes (first :: others) [.word (first :: others)] rest := by
  obtain ⟨here, behind⟩ := List.forall_mem_cons.mp word
  obtain ⟨noSpace, noMark, noComment, noReturn, noFeed, noQuote, noApostrophe⟩ := inWord_iff.mp here
  have cut : (others ++ rest).takeWhile Lexeme.inWord = others ∧
      (others ++ rest).dropWhile Lexeme.inWord = rest := by
    rw [List.takeWhile_append_of_pos behind, List.dropWhile_append_of_pos behind]
    cases rest with
    | nil => exact ⟨List.append_nil others, rfl⟩
    | cons second rest =>
      have stops : ¬Lexeme.inWord second = true := by simp [ends second rfl]
      rw [List.takeWhile_cons_of_neg stops, List.dropWhile_cons_of_neg stops, List.append_nil]
      exact ⟨rfl, rfl⟩
  refine lexes_of_head? ?_
  rw [Lexeme.head?, if_neg (by simp [noSpace]), if_neg (by simp [noFeed, noReturn]),
    if_neg noComment, if_neg (by simp [noQuote, noApostrophe]), noMark, cut.1, cut.2]

theorem exists_cons_of_write (style : Style) (content : List Char) :
    ∃ first others, style.write content = first :: others ∧ (first = '"' ∨ first = '\'') := by
  cases style with
  | basic => exact ⟨_, _, rfl, .inl rfl⟩
  | literal => exact ⟨_, _, rfl, .inr rfl⟩
  | tripleBasic => exact ⟨_, _, rfl, .inl rfl⟩
  | tripleLiteral => exact ⟨_, _, rfl, .inr rfl⟩

/-- The lexeme of a written string. -/
def stringLexeme (content : String) : Lexeme :=
  .quoted (Style.of content.toList).isTriple content.toList

theorem lexes_string (content : String) (unquoted : IsUnquoted rest) :
    Lexes (writtenString content).toList [stringLexeme content] rest := by
  obtain ⟨first, others, written, mark⟩ :=
    exists_cons_of_write (Style.of content.toList) content.toList
  have taken := string?_write content.toList unquoted
  rw [written, List.cons_append] at taken
  rw [writtenString, String.toList_ofList, written]
  refine lexes_of_head? ?_
  rcases mark with rfl | rfl
  · exact taken
  · exact taken

end Toml
end MuseumRecord
