import MuseumRecord.Proofs.Text.Lines
import MuseumRecord.Report.Basic

/-!
# Lines of a report

The text of a report has a header of six lines, the entries of its diagnostics in their order, and
a footer behind a blank line.  The lines of an entry depend on that entry alone.
-/

namespace MuseumRecord

open Text

/-! ## The moment of a report -/

namespace Calendar

theorem feed_not_mem_padded (width value : Nat) : '\n' ∉ Number.padded width value := by
  unfold Number.padded
  split
  · exact Number.not_mem_of_digits (Number.all_isDigit_lastDigits width value) rfl
  · exact Number.not_mem_digits rfl value

theorem feed_not_mem_writeYear (year : Int) : '\n' ∉ writeYear year := by
  unfold writeYear
  split
  · exact feed_not_mem_padded 4 _
  · rw [List.mem_cons, not_or]
    refine ⟨?_, feed_not_mem_padded 4 _⟩
    split <;> decide

/-- A day with its time takes one line. -/
theorem isSingleLine_momentText (moment : Moment) : IsSingleLine (momentText moment) := by
  rw [momentText, isSingleLine_ofList]
  simp [Layout.write, isoMoment, isoDay, yearFirst, clockSeconds, clockMinutes, LayoutItem.write,
    feed_not_mem_padded, feed_not_mem_writeYear]

end Calendar

namespace Report

/-- The entry of a diagnostic. -/
def entry (number : Nat) (diagnostic : Diagnostic) : String :=
  s!"{number}. {diagnostic.text}"

/-- What an entry begins with: its number and its severity. -/
def mark (number : Nat) (severity : Severity) : String :=
  s!"{number}. [{severity.text}] "

/-- The path in front of the message of a diagnostic. -/
def place (diagnostic : Diagnostic) : String :=
  match diagnostic.path with
  | some path => s!"{path}: "
  | none => ""

/-- The entries of the diagnostics, numbered from one. -/
def entries (report : Report) : List String :=
  report.diagnostics.mapIdx fun index diagnostic => entry (index + 1) diagnostic

/-- What stands between the header and the footer: the entries, or a sentence if there are none. -/
def statements (report : Report) : List String :=
  if report.diagnostics.isEmpty then ["Document is valid and conforms to the exhibit schema."]
  else report.entries

/-- The rows in front of them. -/
def headerRows (report : Report) : List String :=
  ["=== EXHIBIT VALIDATION REPORT ===",
    s!"Generated: {Calendar.momentText report.generatedAt}",
    s!"Status: {report.status}",
    s!"Errors: {report.errors.length}",
    s!"Warnings: {report.warnings.length}",
    ""]

/-- The rows behind them. -/
def footerRows : List String :=
  ["", "=== END OF REPORT ==="]

variable {report : Report}

theorem isSingleLine_of_mem_headerRows : ∀ row ∈ report.headerRows, IsSingleLine row := by
  have status : IsSingleLine report.status := by
    unfold Report.status
    split <;> exact isSingleLine_ofList.mpr (by decide)
  simp only [headerRows, List.forall_mem_cons, isSingleLine_append, isSingleLine_toString,
    isSingleLine_number, Calendar.isSingleLine_momentText, status, and_true]
  refine ⟨?_, ?_, ?_, ?_, ?_, ?_, List.forall_mem_nil _⟩ <;>
    exact isSingleLine_ofList.mpr (by decide)

/-! ## Entries -/

theorem entry_eq (number : Nat) (diagnostic : Diagnostic) :
    entry number diagnostic =
      mark number diagnostic.severity ++ place diagnostic ++ diagnostic.message := by
  obtain ⟨severity, stage, path, message⟩ := diagnostic
  apply String.toList_injective
  cases path <;> simp [entry, mark, place, Diagnostic.text, toString]

theorem isSingleLine_mark (number : Nat) (severity : Severity) :
    IsSingleLine (mark number severity) := by
  have word : IsSingleLine severity.text := by
    cases severity <;> exact isSingleLine_ofList.mpr (by decide)
  simp only [mark, isSingleLine_append, isSingleLine_toString, isSingleLine_number, word, and_true,
    true_and]
  and_intros <;> exact isSingleLine_ofList.mpr (by decide)

theorem isSingleLine_place {diagnostic : Diagnostic}
    (single : ∀ path ∈ diagnostic.path, IsSingleLine path) : IsSingleLine (place diagnostic) := by
  unfold place
  split
  · next path present =>
    simp only [isSingleLine_append, isSingleLine_toString, single path present, true_and]
    exact isSingleLine_ofList.mpr (by decide)
  · exact isSingleLine_ofList.mpr (by decide)

/-- An entry begins with its number and its severity and goes on as the message does. -/
theorem lines_entry {diagnostic : Diagnostic}
    (single : ∀ path ∈ diagnostic.path, IsSingleLine path) (number : Nat) :
    ∃ first rest, lines diagnostic.message = first :: rest ∧
      lines (entry number diagnostic) =
        (mark number diagnostic.severity ++ place diagnostic ++ first) :: rest := by
  rw [entry_eq]
  exact lines_append_of_isSingleLine
    (isSingleLine_append.mpr ⟨isSingleLine_mark _ _, isSingleLine_place single⟩) _

theorem isSingleLine_entry_iff {diagnostic : Diagnostic}
    (single : ∀ path ∈ diagnostic.path, IsSingleLine path) (number : Nat) :
    IsSingleLine (entry number diagnostic) ↔ IsSingleLine diagnostic.message := by
  rw [entry_eq, isSingleLine_append, isSingleLine_append]
  simp only [isSingleLine_mark, isSingleLine_place single, true_and]

/-- No entry holds a line feed exactly when no message does. -/
theorem isSingleLine_entries_iff
    (single : ∀ diagnostic ∈ report.diagnostics, ∀ path ∈ diagnostic.path, IsSingleLine path) :
    (∀ row ∈ report.entries, IsSingleLine row) ↔
      ∀ diagnostic ∈ report.diagnostics, IsSingleLine diagnostic.message := by
  rw [entries]
  simp only [List.mem_mapIdx]
  constructor
  · intro each diagnostic member
    obtain ⟨index, inside, rfl⟩ := List.getElem_of_mem member
    exact (isSingleLine_entry_iff (single _ member) (index + 1)).mp (each _ ⟨index, inside, rfl⟩)
  · rintro each row ⟨index, inside, rfl⟩
    have member := List.getElem_mem inside
    exact (isSingleLine_entry_iff (single _ member) (index + 1)).mpr (each _ member)

/-- The entries take one line each exactly when no message holds a line feed. -/
theorem length_lines_entries_iff
    (single : ∀ diagnostic ∈ report.diagnostics, ∀ path ∈ diagnostic.path, IsSingleLine path) :
    (report.entries.flatMap lines).length = report.diagnostics.length ↔
      ∀ diagnostic ∈ report.diagnostics, IsSingleLine diagnostic.message := by
  have count : report.entries.length = report.diagnostics.length := List.length_mapIdx
  rw [← count, length_flatMap_lines_eq_iff, isSingleLine_entries_iff single]

/-- Neither a sentence nor an entry with a message of one line holds a line feed. -/
theorem isSingleLine_of_mem_statements
    (single : ∀ diagnostic ∈ report.diagnostics, ∀ path ∈ diagnostic.path, IsSingleLine path)
    (told : ∀ diagnostic ∈ report.diagnostics, IsSingleLine diagnostic.message) :
    ∀ row ∈ report.statements, IsSingleLine row := by
  unfold statements
  split
  · exact List.forall_mem_singleton.mpr (isSingleLine_ofList.mpr (by decide))
  · exact (isSingleLine_entries_iff single).mpr told

/-- Every diagnostic is an error or a warning. -/
theorem length_errors_add_warnings (report : Report) :
    report.errors.length + report.warnings.length = report.diagnostics.length := by
  rw [errors, warnings, ← List.countP_eq_length_filter, ← List.countP_eq_length_filter,
    List.length_eq_countP_add_countP Diagnostic.isError]
  simp

theorem numbered_eq_join (number : Nat) (diagnostics : List Diagnostic) :
    numbered number diagnostics =
      String.join ((diagnostics.mapIdx fun index diagnostic =>
        entry (number + index) diagnostic).map line) := by
  induction diagnostics generalizing number with
  | nil => rfl
  | cons diagnostic diagnostics inductionHypothesis =>
    rw [numbered, inductionHypothesis, List.mapIdx_cons, List.map_cons, String.join_cons]
    simp only [Nat.add_zero, Nat.add_right_comm, entry, Nat.add_assoc]

theorem body_eq_join (report : Report) :
    report.body = String.join (report.statements.map line) := by
  unfold body statements
  split
  · rw [List.map_singleton, String.join_cons, String.join_nil, String.append_empty]
  · rw [numbered_eq_join]
    simp only [entries, Nat.add_comm]

/-! ## The whole text -/

/-- A report is written row by row. -/
theorem text_eq_join (report : Report) :
    report.text =
      String.join ((report.headerRows ++ report.statements ++ footerRows).map line) := by
  rw [List.map_append, List.map_append, String.join_append, String.join_append, ← body_eq_join]
  simp [text, header, footer, headerRows, footerRows, String.join_cons, String.append_assoc]

/-- The lines of a report: those of the header, of the statements, and of the footer. -/
theorem lines_text (report : Report) :
    lines report.text =
      report.headerRows ++ report.statements.flatMap lines ++ footerRows ++ [""] := by
  have whole := lines_join_append (report.headerRows ++ report.statements ++ footerRows) ""
  rw [List.flatMap_append, List.flatMap_append, flatMap_lines isSingleLine_of_mem_headerRows,
    @flatMap_lines footerRows (by decide), String.append_empty] at whole
  rw [text_eq_join]
  exact whole

end Report
end MuseumRecord
