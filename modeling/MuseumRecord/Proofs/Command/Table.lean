import MuseumRecord.Command.Outcome
import MuseumRecord.Proofs.Text.Lines

/-!
# The table of documents

The table is written document by document, and the invalid ones are counted on the way.  Every
document has a row that begins with a tick or a cross, an invalid one also a row for each diagnostic
behind it, and the count comes out as that of the documents which are not valid.
-/

namespace MuseumRecord
namespace Command

open Text

/-! ## What is shown first -/

/-- The first character of a text that a terminal shows: the code of a colour is passed over. -/
def firstShown? (text : String) : Option Char :=
  if text.toList.head? = some escapeCharacter then
    (text.toList.dropWhile fun character => character != 'm')[1]?
  else
    text.toList.head?

/-- A painted text shows its first character first. -/
theorem firstShown?_apply (paint : Paint) (color : Bool) {text : String} {first : Char}
    (leads : text.toList.head? = some first) (plain : first ≠ escapeCharacter) :
    firstShown? (paint.apply color text) = some first := by
  obtain ⟨rest, shape⟩ := List.head?_eq_some_iff.mp leads
  cases color with
  | false => simp [Paint.apply, firstShown?, shape, plain]
  | true =>
    have unmarked : ∀ character ∈ escapeCharacter :: '[' :: paint.parameters.toList,
        (character != 'm') = true := by
      cases paint <;> simp [Paint.parameters, escapeCharacter]
    have whole : (paint.apply true text).toList =
        (escapeCharacter :: '[' :: paint.parameters.toList) ++
          'm' :: first :: (rest ++ (terminalCode "0").toList) := by
      simp [Paint.apply, terminalCode, shape]
    rw [firstShown?, whole, List.dropWhile_append_of_pos unmarked]
    exact if_pos rfl

/-- Paint adds no line feed. -/
theorem isSingleLine_apply (paint : Paint) (color : Bool) {text : String}
    (single : IsSingleLine text) : IsSingleLine (paint.apply color text) := by
  have code {parameters : String} (plain : IsSingleLine parameters) :
      IsSingleLine (terminalCode parameters) := by
    rw [terminalCode, isSingleLine_append, isSingleLine_ofList, List.mem_cons, List.mem_cons]
    refine ⟨?_, by decide⟩
    rintro (same | same | inside)
    · cases same
    · cases same
    · exact plain inside
  cases color with
  | false => exact single
  | true =>
    rw [Paint.apply, if_pos rfl, isSingleLine_append, isSingleLine_append]
    exact ⟨⟨code (by cases paint <;> decide), single⟩, code (by decide)⟩

namespace Checked

/-- The rows of a document in the table: the first one is marked, and there is one for each
diagnostic of an invalid document. -/
def rows (host : Host) (checked : Checked) : List String :=
  match checked.outcome with
  | .ok report =>
    if report.isValid then
      [validRow host checked.path report.warnings.length]
    else
      invalidRow host checked.path report.errors.length ::
        report.diagnostics.map (diagnosticRow host)
  | .error cause => [unreadableRow host checked.path cause]

theorem firstShown?_validRow (host : Host) (path : Path) (warnings : Nat) :
    firstShown? (validRow host path warnings) = some '✓' := by
  unfold validRow
  split
  · simp +decide [firstShown?, toString]
  · exact firstShown?_apply .info host.color (by simp [toString]) (by decide)

theorem firstShown?_diagnosticRow (host : Host) (diagnostic : Diagnostic) :
    firstShown? (diagnosticRow host diagnostic) = some ' ' :=
  firstShown?_apply .dim host.color (by simp [toString]) (by decide)

/-- The first row tells whether a document is valid, and no other row is marked. -/
theorem exists_marked_row (host : Host) (checked : Checked) :
    ∃ first others, checked.rows host = first :: others ∧
      firstShown? first = some (if checked.isValid then '✓' else '✗') ∧
      ∀ row ∈ others, firstShown? row = some ' ' := by
  unfold rows isValid
  cases checked.outcome with
  | error cause =>
    have marked : firstShown? (unreadableRow host checked.path cause) = some '✗' :=
      firstShown?_apply .warning host.color (by simp [toString]) (by decide)
    exact ⟨_, [], rfl, marked, List.forall_mem_nil _⟩
  | ok report =>
    by_cases valid : report.isValid = true
    · simp only [valid, if_true]
      exact ⟨_, [], rfl, firstShown?_validRow host _ _, List.forall_mem_nil _⟩
    · simp only [valid, Bool.false_eq_true, if_false]
      have marked : firstShown? (invalidRow host checked.path report.errors.length) = some '✗' :=
        firstShown?_apply .warning host.color (by simp [toString]) (by decide)
      refine ⟨_, _, rfl, marked, fun row member => ?_⟩
      obtain ⟨diagnostic, _, rfl⟩ := List.mem_map.mp member
      exact firstShown?_diagnosticRow host diagnostic

end Checked

/-! ## Writing a table -/

/-- The text of rows, each on a line. -/
def printed (rows : List String) : String :=
  String.join (rows.map Checked.line)

theorem printed_append (rows others : List String) :
    printed (rows ++ others) = printed rows ++ printed others := by
  rw [printed, List.map_append, String.join_append]
  rfl

/-- Rows without line feeds are the lines in front of the end of the text. -/
theorem lines_printed {rows : List String} (single : ∀ row ∈ rows, IsSingleLine row) :
    lines (printed rows) = rows ++ [""] := by
  have whole := lines_join_append rows ""
  rw [flatMap_lines single, String.append_empty] at whole
  exact whole

/-- The rows that documents have in a table, in which the valid ones may be passed over. -/
def shownRows (host : Host) (quiet : Bool) (documents : List Checked) : List String :=
  documents.flatMap fun checked => if quiet && checked.isValid then [] else checked.rows host

variable {host : Host} {quiet : Bool} {documents : List Checked}

/-- A document adds its rows, unless it is valid and passed over, and counts if it is invalid. -/
theorem Table.add_eq (host : Host) (quiet : Bool) (table : Table) (checked : Checked) :
    table.add host quiet checked =
      { text := table.text ++
          printed (if quiet && checked.isValid then [] else checked.rows host)
        invalid := table.invalid + if checked.isValid then 0 else 1 } := by
  unfold Table.add Checked.rows Checked.isValid printed
  cases checked.outcome with
  | error cause => simp [String.join_cons]
  | ok report =>
    by_cases valid : report.isValid = true
    · cases quiet <;> simp [valid, String.join_cons]
    · simp [valid, String.join_cons, String.append_assoc, Function.comp_def]

theorem Table.foldl_add (host : Host) (quiet : Bool) (documents : List Checked) (table : Table) :
    documents.foldl (Table.add host quiet) table =
      { text := table.text ++ printed (shownRows host quiet documents)
        invalid := table.invalid + invalidCount documents } := by
  induction documents generalizing table with
  | nil => simp [printed, shownRows, invalidCount]
  | cons checked documents inductionHypothesis =>
    rw [List.foldl_cons, inductionHypothesis, Table.add_eq, shownRows, shownRows,
      List.flatMap_cons, printed_append, invalidCount, invalidCount, List.countP_cons,
      String.append_assoc, Nat.add_assoc, Nat.add_comm (List.countP _ _)]
    cases checked.isValid <;> rfl

/-- The table has the rows of the documents that are not passed over, and the count that is kept
while it is written is that of the documents which are not valid. -/
theorem Table.ofDocuments_eq (host : Host) (quiet : Bool) (documents : List Checked) :
    Table.ofDocuments host quiet documents =
      { text := printed (shownRows host quiet documents), invalid := invalidCount documents } := by
  rw [Table.ofDocuments, Table.foldl_add, Nat.zero_add, String.empty_append]

theorem table_eq_printed (host : Host) (quiet : Bool) (documents : List Checked) :
    table host quiet documents =
      printed (shownRows host quiet documents ++
        if quiet then [] else ["", verdictRow host (invalidCount documents) documents.length]) := by
  unfold table
  rw [Table.ofDocuments_eq]
  cases quiet with
  | false =>
    rw [printed_append, if_neg Bool.false_ne_true, if_neg Bool.false_ne_true, String.append_assoc]
    simp [printed, String.join_cons]
  | true => simp

/-! ## Counting marks -/

/-- Whether a line is marked as that of an invalid document. -/
def isMarked (row : String) : Bool :=
  firstShown? row == some '✗'

theorem isMarked_apply (paint : Paint) (color : Bool) {text : String} {first : Char}
    (leads : text.toList.head? = some first) (plain : first ≠ escapeCharacter)
    (other : first ≠ '✗') : isMarked (paint.apply color text) = false := by
  rw [isMarked, firstShown?_apply paint color leads plain]
  simp [other]

theorem countP_isMarked_rows (host : Host) (checked : Checked) :
    (checked.rows host).countP isMarked = if checked.isValid then 0 else 1 := by
  obtain ⟨first, others, shape, marked, unmarked⟩ := checked.exists_marked_row host
  have none : others.countP isMarked = 0 := by
    rw [List.countP_eq_zero]
    intro row member
    simp [isMarked, unmarked row member]
  rw [shape, List.countP_cons, none, isMarked, marked]
  cases checked.isValid <;> rfl

theorem countP_isMarked_shownRows (host : Host) (quiet : Bool) (documents : List Checked) :
    (shownRows host quiet documents).countP isMarked = invalidCount documents := by
  induction documents with
  | nil => rfl
  | cons checked documents inductionHypothesis =>
    have first : (if quiet && checked.isValid then [] else checked.rows host).countP isMarked =
        if checked.isValid then 0 else 1 := by
      rw [← countP_isMarked_rows host checked]
      split
      · next passed =>
        rw [countP_isMarked_rows, (Bool.and_eq_true_iff.mp passed).2]
        rfl
      · rfl
    rw [shownRows] at inductionHypothesis ⊢
    rw [List.flatMap_cons, List.countP_append, inductionHypothesis, first, invalidCount,
      invalidCount, List.countP_cons, Nat.add_comm]
    cases checked.isValid <;> rfl

/-- The last row is one line, and not marked. -/
theorem verdictRow_unmarked (host : Host) (invalid all : Nat) :
    IsSingleLine (verdictRow host invalid all) ∧ isMarked (verdictRow host invalid all) = false := by
  unfold verdictRow
  split
  · refine ⟨isSingleLine_apply _ _ ?_, @isMarked_apply _ _ _ 'A' ?_ (by decide) (by decide)⟩
    · simp only [isSingleLine_append, isSingleLine_toString, isSingleLine_number, and_true]
      exact ⟨isSingleLine_ofList.mpr (by decide), isSingleLine_ofList.mpr (by decide)⟩
    · simp [toString]
  · obtain ⟨digit, others, shape, isDigit⟩ := Number.exists_head_digits invalid
    have undigit {character : Char} (other : Number.isDigit character = false) :
        digit ≠ character := by
      rintro rfl
      rw [isDigit] at other
      cases other
    refine ⟨isSingleLine_apply _ _ ?_, isMarked_apply _ _ ?_ (undigit rfl) (undigit rfl)⟩
    · simp only [isSingleLine_append, isSingleLine_toString, isSingleLine_number, true_and,
        and_true]
      exact ⟨isSingleLine_ofList.mpr (by decide), isSingleLine_ofList.mpr (by decide)⟩
    · simp [Number.toDigits_eq_digits, shape]

/-- Where no row holds a line feed, as many lines of the table are marked as documents are not
valid. -/
theorem countP_isMarked_lines_table
    (single : ∀ checked ∈ documents, ∀ row ∈ checked.rows host, IsSingleLine row) (quiet : Bool) :
    (lines (table host quiet documents)).countP isMarked = invalidCount documents := by
  have shown : ∀ row ∈ shownRows host quiet documents, IsSingleLine row := by
    intro row member
    obtain ⟨checked, among, inside⟩ := List.mem_flatMap.mp member
    split at inside
    · cases inside
    · exact single checked among row inside
  obtain ⟨verdictSingle, unmarked⟩ :=
    verdictRow_unmarked host (invalidCount documents) documents.length
  have rows : ∀ row ∈ shownRows host quiet documents ++
      (if quiet then [] else ["", verdictRow host (invalidCount documents) documents.length]),
        IsSingleLine row := by
    intro row member
    rcases List.mem_append.mp member with inside | behind
    · exact shown row inside
    · split at behind
      · cases behind
      · rcases List.mem_cons.mp behind with rfl | last
        · exact List.not_mem_nil
        · exact List.mem_singleton.mp last ▸ verdictSingle
  rw [table_eq_printed, lines_printed rows, List.countP_append, List.countP_append,
    countP_isMarked_shownRows]
  cases quiet with
  | true => rfl
  | false =>
    have blank : isMarked "" = false := by decide
    simp [unmarked, blank]

end Command
end MuseumRecord
