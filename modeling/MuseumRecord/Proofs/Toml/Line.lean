import MuseumRecord.Proofs.Toml.Statement

/-!
# Files of written lines

A written line gives a bare name a value, with one space on either side of the sign.  A file of
such lines, no two of one name, is read as the table of their names and values.
-/

namespace MuseumRecord
namespace Toml

variable {rest : List Char}

/-! ## Written values -/

/-- A text that is written for a value, and its lexemes.  When a line ends behind it, the lexemes
have the value. -/
structure Writing (value : Value) where
  /-- The text. -/
  text : List Char
  /-- Its lexemes. -/
  found : List Lexeme
  solid : ∀ rest, ∀ character ∈ (text ++ rest).head?, isSpace character = false
  lexes : ∀ rest, Lexes text found ('\n' :: rest)
  hasValue : HasValue found value

theorem isUnquoted_cons {first : Char} (noQuote : first ≠ '"') (noApostrophe : first ≠ '\'')
    (rest : List Char) : IsUnquoted (first :: rest) :=
  ⟨head?_cons_ne noQuote rest, head?_cons_ne noApostrophe rest⟩

theorem solid_of_writtenString (content : String) (rest : List Char) :
    ∀ character ∈ ((writtenString content).toList ++ rest).head?, isSpace character = false := by
  obtain ⟨first, others, written, mark⟩ :=
    exists_cons_of_write (Style.of content.toList) content.toList
  rw [writtenString, String.toList_ofList, written]
  intro character head
  cases head
  rcases mark with rfl | rfl <;> rfl

/-- A string. -/
def Writing.string (content : String) : Writing (.text content) where
  text := (writtenString content).toList
  found := [stringLexeme content]
  solid := solid_of_writtenString content
  lexes rest := lexes_string content (isUnquoted_cons (by decide) (by decide) rest)
  hasValue := hasValue_string content

theorem lexes_truth (truth : Bool) (rest : List Char) :
    Lexes (writtenTruth truth).toList [.word (writtenTruth truth).toList] ('\n' :: rest) := by
  have ends : ∀ character ∈ ('\n' :: rest).head?, Lexeme.inWord character = false :=
    fun character head => by cases head; rfl
  cases truth with
  | false => exact lexes_word (List.all_eq_true.mp rfl) ends
  | true => exact lexes_word (List.all_eq_true.mp rfl) ends

theorem solid_of_writtenTruth (truth : Bool) (rest : List Char) :
    ∀ character ∈ ((writtenTruth truth).toList ++ rest).head?, isSpace character = false := by
  intro character head
  cases truth with
  | false => cases head; rfl
  | true => cases head; rfl

/-- A truth value. -/
def Writing.truth (truth : Bool) : Writing (.truth truth) where
  text := (writtenTruth truth).toList
  found := [.word (writtenTruth truth).toList]
  solid := solid_of_writtenTruth truth
  lexes := lexes_truth truth
  hasValue := hasValue_truth truth

/-- The text of one of several strings. -/
def writtenItem (item : String) : List Char :=
  [' ', ' ', ' ', ' '] ++ ((writtenString item).toList ++ ([','] ++ ['\n']))

theorem lexes_item (item : String) (rest : List Char) :
    Lexes (writtenItem item) (itemLexemes item) rest := by
  have comma : Lexes [','] [.comma] (['\n'] ++ rest) := lexes_of_head? rfl
  have ending : Lexes ['\n'] [.lineBreak] rest := lexes_of_head? rfl
  have string : Lexes (writtenString item).toList [stringLexeme item] ([','] ++ ['\n'] ++ rest) :=
    lexes_string item (isUnquoted_cons (by decide) (by decide) _)
  refine (lexes_indent ?_).append (string.append (comma.append ending))
  rw [List.append_assoc]
  exact solid_of_writtenString item _

theorem lexes_items (items : List String) (rest : List Char) :
    Lexes (items.flatMap writtenItem) (items.flatMap itemLexemes) rest := by
  induction items with
  | nil => exact Lexes.nil rest
  | cons item items inductionHypothesis =>
    exact (lexes_item item (items.flatMap writtenItem ++ rest)).append inductionHypothesis

theorem toList_join_items (items : List String) :
    (String.join (items.map fun item => "    " ++ writtenString item ++ ",\n")).toList =
      items.flatMap writtenItem := by
  induction items with
  | nil => rfl
  | cons item items inductionHypothesis =>
    rw [List.map_cons, String.join_cons, String.toList_append, inductionHypothesis]
    simp [writtenItem]

theorem lexes_strings (strings : List String) (rest : List Char) :
    Lexes (writtenStrings strings).toList (stringsLexemes strings) rest := by
  have opening (others : List Char) : Lexes ['['] [.openBracket] others := lexes_of_head? rfl
  have closing : Lexes [']'] [.closeBracket] rest := lexes_of_head? rfl
  rcases strings with _ | ⟨first, _ | ⟨second, others⟩⟩
  · exact (opening _).append closing
  · have unquoted : IsUnquoted ([']'] ++ rest) := isUnquoted_cons (by decide) (by decide) rest
    have shape : (writtenStrings [first]).toList =
        ['['] ++ ((writtenString first).toList ++ [']']) := by
      simp [writtenStrings]
    rw [shape]
    exact (opening _).append ((lexes_string first unquoted).append closing)
  · have ending (others : List Char) : Lexes ['\n'] [.lineBreak] others := lexes_of_head? rfl
    have shape : (writtenStrings (first :: second :: others)).toList =
        ['['] ++ (['\n'] ++ ((first :: second :: others).flatMap writtenItem ++ [']'])) := by
      have written : writtenStrings (first :: second :: others) = "[\n" ++
          String.join ((first :: second :: others).map fun item =>
            "    " ++ writtenString item ++ ",\n") ++ "]" := rfl
      rw [written, String.toList_append, String.toList_append, toList_join_items]
      rfl
    rw [shape]
    exact (opening _).append ((ending _).append ((lexes_items _ _).append closing))

theorem solid_of_writtenStrings (strings : List String) (rest : List Char) :
    ∀ character ∈ ((writtenStrings strings).toList ++ rest).head?,
      isSpace character = false := by
  have bracket : (writtenStrings strings).toList.head? = some '[' := by
    rcases strings with _ | ⟨first, _ | ⟨second, others⟩⟩ <;> simp [writtenStrings]
  obtain ⟨others, shape⟩ := List.head?_eq_some_iff.mp bracket
  rw [shape]
  intro character head
  cases head
  rfl

/-- A row of strings. -/
def Writing.strings (strings : List String) : Writing (.array (strings.map .text)) where
  text := (writtenStrings strings).toList
  found := stringsLexemes strings
  solid := solid_of_writtenStrings strings
  lexes rest := lexes_strings strings ('\n' :: rest)
  hasValue := hasValue_strings strings

/-! ## Lines -/

/-- A line that gives a bare name a value. -/
structure Line where
  /-- The name. -/
  name : String
  /-- Its value. -/
  value : Value
  /-- What is written for the value. -/
  writing : Writing value
  nonempty : name.toList ≠ []
  bare : name.toList.all inBareName = true

namespace Line

/-- The text of the line, with the line break behind it. -/
def text (line : Line) : List Char :=
  line.name.toList ++ ([' '] ++ (['='] ++ ([' '] ++ (line.writing.text ++ ['\n']))))

/-- The lexemes of the line. -/
def found (line : Line) : List Lexeme :=
  lineLexemes line.name.toList line.writing.found

/-- What the line says. -/
def statement (line : Line) : Statement :=
  .assign ⟨[], line.name⟩ line.value

/-- What the line adds to the table. -/
def entry (line : Line) : String × Value :=
  (line.name, line.value)

end Line

theorem inWord_of_inBareName {character : Char} (bare : inBareName character = true) :
    Lexeme.inWord character = true := by
  have avoids (other : Char) (stops : inBareName other = false) : character ≠ other := by
    rintro rfl
    exact Bool.false_ne_true (stops.symm.trans bare)
  refine inWord_iff.mpr ⟨?_, ?_, avoids _ rfl, avoids _ rfl, avoids _ rfl, avoids _ rfl,
    avoids _ rfl⟩
  · simp [isSpace, avoids ' ' rfl, avoids '\t' rfl]
  · simp [Lexeme.marks, avoids '.' rfl, avoids '=' rfl, avoids ',' rfl, avoids '[' rfl,
      avoids ']' rfl, avoids '\x7b' rfl, avoids '\x7d' rfl]

theorem Line.lexes (line : Line) (rest : List Char) : Lexes line.text line.found rest := by
  have ending : Lexes ['\n'] [.lineBreak] rest := lexes_of_head? rfl
  have behind : Lexes ([' '] ++ (line.writing.text ++ ['\n']))
      ([.blank true] ++ (line.writing.found ++ [.lineBreak])) rest := by
    refine (lexes_space ?_).append ((line.writing.lexes rest).append ending)
    rw [List.append_assoc]
    exact line.writing.solid _
  have sign : Lexes ['='] [.equals] ([' '] ++ (line.writing.text ++ ['\n']) ++ rest) :=
    lexes_of_head? rfl
  have space : Lexes [' '] [.blank true]
      (['='] ++ ([' '] ++ (line.writing.text ++ ['\n'])) ++ rest) :=
    lexes_space fun character head => by cases head; rfl
  have word : ∀ character ∈ line.name.toList, Lexeme.inWord character = true :=
    fun character member => inWord_of_inBareName (List.all_eq_true.mp line.bare character member)
  obtain ⟨first, others, shape⟩ := List.exists_cons_of_ne_nil line.nonempty
  have name : Lexes line.name.toList [.word line.name.toList]
      ([' '] ++ (['='] ++ ([' '] ++ (line.writing.text ++ ['\n']))) ++ rest) := by
    rw [shape] at word ⊢
    exact lexes_word word fun character head => by cases head; rfl
  exact name.append (space.append (sign.append behind))

/-! ## Files -/

theorem lexes_lines (lines : List Line) (rest : List Char) :
    Lexes (lines.flatMap Line.text) (lines.flatMap Line.found) rest := by
  induction lines with
  | nil => exact Lexes.nil rest
  | cons line lines inductionHypothesis =>
    exact (line.lexes (lines.flatMap Line.text ++ rest)).append inductionHypothesis

theorem statements?_lines (lines : List Line) :
    statements? (lines.flatMap Line.found) = some (lines.map Line.statement) := by
  induction lines with
  | nil =>
    rw [List.flatMap_nil, statements?]
    rfl
  | cons line lines inductionHypothesis =>
    rw [List.flatMap_cons, Line.found, statements?_line line.bare line.writing.hasValue,
      inductionHypothesis, String.ofList_toList]
    rfl

theorem insert?_of_absent {name : String} {entries : Entries}
    (absent : name ∉ entries.map Prod.fst) (value : Value) :
    entries.insert? name value = some (entries ++ [(name, value)]) := by
  induction entries with
  | nil => rfl
  | cons entry entries inductionHypothesis =>
    rw [List.map_cons, List.mem_cons, not_or] at absent
    have behind : Entries.insert? name value entries = _ := inductionHypothesis absent.2
    rw [Entries.insert?] at behind ⊢
    rw [Entries.change?, if_neg (Ne.symm absent.1), behind]
    rfl

/-- Lines of new names are added to the table one by one. -/
theorem run?_lines (lines : List Line) (entries : Entries)
    (distinct : (entries.map Prod.fst ++ lines.map Line.name).Nodup) :
    Builder.run? ⟨entries, []⟩ (lines.map Line.statement) =
      some ⟨entries ++ lines.map Line.entry, []⟩ := by
  induction lines generalizing entries with
  | nil => simp [Builder.run?]
  | cons line lines inductionHypothesis =>
    have absent : line.name ∉ entries.map Prod.fst := by
      intro member
      exact (List.nodup_append.mp distinct).2.2 line.name member line.name List.mem_cons_self rfl
    have step : Builder.step? ⟨entries, []⟩ line.statement =
        some ⟨entries ++ [line.entry], []⟩ := by
      rw [Line.statement, Builder.step?]
      simp only [Entries.throughHeader?, Entries.assign?, Entries.throughDots?,
        insert?_of_absent absent, Option.map_some, Line.entry]
    have later : ((entries ++ [line.entry]).map Prod.fst ++ lines.map Line.name).Nodup := by
      simpa [Line.entry] using distinct
    have run := inductionHypothesis (entries ++ [line.entry]) later
    rw [Builder.run?] at run ⊢
    rw [List.map_cons, List.foldlM_cons, step]
    simpa using run

theorem withoutByteOrderMark_eq_self {text : List Char} (unmarked : text.head? ≠ some '\uFEFF') :
    withoutByteOrderMark text = text := by
  unfold withoutByteOrderMark
  split
  · exact absurd rfl unmarked
  · rfl

theorem withoutByteOrderMark_lines (lines : List Line) :
    withoutByteOrderMark (lines.flatMap Line.text) = lines.flatMap Line.text := by
  refine withoutByteOrderMark_eq_self ?_
  cases lines with
  | nil => exact (Option.some_ne_none _).symm
  | cons line lines =>
    obtain ⟨first, others, shape⟩ := List.exists_cons_of_ne_nil line.nonempty
    have bare := List.all_eq_true.mp line.bare first (shape ▸ List.mem_cons_self)
    rw [List.flatMap_cons, Line.text, shape]
    refine head?_cons_ne ?_ _
    rintro rfl
    exact absurd bare (by decide)

/-- A file of lines with different names is read as the table of their entries. -/
theorem parse?_lines {text : String} {lines : List Line}
    (written : text.toList = lines.flatMap Line.text) (distinct : (lines.map Line.name).Nodup) :
    parse? text = some (lines.map Line.entry) := by
  have run : Builder.run? {} (lines.map Line.statement) = some ⟨lines.map Line.entry, []⟩ :=
    run?_lines lines [] distinct
  simp only [parse?, written, withoutByteOrderMark_lines, (lexes_lines lines []).whole,
    statements?_lines, run, Option.bind_eq_bind, Option.bind_some, Option.pure_def]

end Toml
end MuseumRecord
