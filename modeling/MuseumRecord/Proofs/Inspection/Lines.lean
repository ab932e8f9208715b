import MuseumRecord.Proofs.Inspection.Ending
import MuseumRecord.Proofs.Report.Layout
import MuseumRecord.Proofs.Rule.Unbroken

/-!
# Lines of an inspection

A report quotes the document as it is written, so a line feed in what is quoted goes into the
report.  It never goes into a path, and every entry begins on a line of its own; each takes just
that line when what may be quoted of the document holds no line feed.
-/

namespace MuseumRecord

open Markup Text

/-! ## Diagnostics of the schema -/

namespace Schema

variable {schema : Schema} {policy : NamespacePolicy} {root : Element} {diagnostic : Diagnostic}

theorem isSingleLine_path_of_mem (named : root.Everywhere Element.HasUnbrokenNames)
    (member : diagnostic ∈ schema.diagnostics policy root) :
    ∀ path ∈ diagnostic.path, IsSingleLine path := by
  obtain ⟨finding, found, severity, _, rfl⟩ := exists_finding_of_mem member
  rintro path ⟨⟩
  exact isSingleLine_address named found

theorem isSingleLine_message_of_mem (unbroken : root.Everywhere Element.IsUnbroken)
    (member : diagnostic ∈ exhibit.diagnostics policy root) :
    IsSingleLine diagnostic.message := by
  obtain ⟨finding, found, severity, _, rfl⟩ := exists_finding_of_mem member
  have told : IsSingleLine exhibit.namespaceName := isSingleLine_ofList.mpr (by decide)
  exact Problem.isSingleLine_message
    (areUnbroken_findings told exhibit_isUnbroken unbroken finding found)

/-- A document without errors of the schema conforms to it. -/
theorem conforms_of_free (free : ∀ diagnostic ∈ exhibit.diagnostics policy root,
    diagnostic.isError = false) : Conforms exhibit.root root :=
  ((tolerates_findings_iff exhibit_unambiguous (by decide)).mp
    (diagnostics_free_of_errors_iff_tolerates.mp free)).2.1

end Schema

/-! ## Diagnostics of the rules -/

namespace Exhibit

variable {now : Calendar.Moment} {exhibit : Exhibit} {diagnostic : Diagnostic}

theorem exists_violation_of_mem (member : diagnostic ∈ exhibit.diagnostics now) :
    ∃ group : RuleGroup, ∃ violation, group.violation? now exhibit = some violation ∧
      diagnostic = group.failure violation := by
  rw [diagnostics_eq_map_failures] at member
  obtain ⟨⟨group, violation⟩, failed, rfl⟩ := List.mem_map.mp member
  exact ⟨group, violation, mem_failures_iff.mp failed, rfl⟩

theorem isSingleLine_message_of_mem (unbroken : exhibit.IsUnbroken)
    (member : diagnostic ∈ exhibit.diagnostics now) : IsSingleLine diagnostic.message := by
  obtain ⟨group, violation, raised, rfl⟩ := exists_violation_of_mem member
  exact (Rule.isUnbroken_of_violation? unbroken raised).isSingleLine_message

end Exhibit

/-! ## Diagnostics of an inspection -/

namespace Settings

/-- What a report may quote of a text takes one line: of a text that is no document the name in an
end tag or in a reference, of a document its namespaces and some values and texts. -/
def QuotesOneLine (settings : Settings) (text : String) : Prop :=
  ¬IsContentless text →
    match parse (settings.documentText text) with
    | .error fault => ∀ name ∈ fault.quoted, IsSingleLine name
    | .ok root => root.Everywhere Element.HasUnbrokenQuotes

variable {settings : Settings} {now : Calendar.Moment} {text : String} {root : Element}
  {diagnostic : Diagnostic}

/-- A diagnostic of a document is one of the schema or, if the schema finds no error, of the
rules. -/
theorem mem_judge (member : diagnostic ∈ settings.judge now root) :
    diagnostic ∈ settings.structural root ∨
      (∀ other ∈ settings.structural root, other.isError = false) ∧
        diagnostic ∈ (Exhibit.ofElement root).diagnostics now := by
  by_cases error : ∃ other ∈ settings.structural root, other.isError = true
  · rw [judge_of_error error] at member
    exact .inl member
  · have free : ∀ other ∈ settings.structural root, other.isError = false := by
      simpa using error
    rw [judge_of_no_error free] at member
    exact (List.mem_append.mp member).imp_right fun ruled => ⟨free, ruled⟩

theorem isSingleLine_path_of_mem_judge (named : root.Everywhere Element.HasUnbrokenNames)
    (member : diagnostic ∈ settings.judge now root) :
    ∀ path ∈ diagnostic.path, IsSingleLine path := by
  rcases mem_judge member with structural | ⟨_, ruled⟩
  · exact Schema.isSingleLine_path_of_mem named structural
  · obtain ⟨group, violation, _, rfl⟩ := Exhibit.exists_violation_of_mem ruled
    exact fun path absent => absurd absent (Option.not_mem_none path)

theorem isSingleLine_message_of_mem_judge (unbroken : root.Everywhere Element.IsUnbroken)
    (member : diagnostic ∈ settings.judge now root) : IsSingleLine diagnostic.message := by
  rcases mem_judge member with structural | ⟨free, ruled⟩
  · exact Schema.isSingleLine_message_of_mem unbroken structural
  · exact Exhibit.isSingleLine_message_of_mem
      (Schema.Suits.isUnbroken_record ⟨Schema.conforms_of_free free, unbroken⟩) ruled

/-- No path holds a line feed, whatever the document. -/
theorem isSingleLine_path_of_mem_inspect
    (member : diagnostic ∈ (settings.inspect now text).diagnostics) :
    ∀ path ∈ diagnostic.path, IsSingleLine path := by
  by_cases content : IsContentless text
  · obtain ⟨message, only⟩ := shows_blank content
    rw [only, List.mem_singleton] at member
    rw [member]
    exact fun path absent => absurd absent (Option.not_mem_none path)
  · cases parsed : parse (settings.documentText text) with
    | error fault =>
      obtain ⟨message, only⟩ := shows_unreadable ⟨content, fault, parsed⟩
      rw [only, List.mem_singleton] at member
      rw [member]
      exact fun path absent => absurd absent (Option.not_mem_none path)
    | ok root =>
      rw [inspect_diagnostics_of_ok content parsed] at member
      exact isSingleLine_path_of_mem_judge (hasUnbrokenNames_of_parse parsed) member

/-- No message holds a line feed when nothing that may be quoted does. -/
theorem isSingleLine_message_of_mem_inspect (unbroken : settings.QuotesOneLine text)
    (member : diagnostic ∈ (settings.inspect now text).diagnostics) :
    IsSingleLine diagnostic.message := by
  by_cases content : IsContentless text
  · simp only [inspect, diagnose, hasNoContent_iff.mpr content, if_true, List.mem_singleton]
      at member
    rw [member]
    exact isSingleLine_ofList.mpr (by decide)
  · have quotes := unbroken content
    cases parsed : parse (settings.documentText text) with
    | error fault =>
      rw [parsed] at quotes
      have told := (isUnbroken_of_parse parsed).isSingleLine_message quotes
      simp only [inspect, diagnose, mt hasNoContent_iff.mp content, parsed, Bool.false_eq_true,
        if_false, List.mem_singleton] at member
      rw [member]
      change IsSingleLine (_ ++ _)
      simp only [isSingleLine_append, isSingleLine_toString, told, and_true]
      exact isSingleLine_ofList.mpr (by decide)
    | ok root =>
      rw [parsed] at quotes
      rw [inspect_diagnostics_of_ok content parsed] at member
      have both : root.Everywhere Element.IsUnbroken :=
        ((hasUnbrokenNames_of_parse parsed).and quotes).mono fun _ both =>
          { toHasUnbrokenNames := both.1, toHasUnbrokenQuotes := both.2 }
      exact isSingleLine_message_of_mem_judge both member

end Settings

/-! ## Reports -/

/-- A report has the lines of its header, of its entries and of its footer, and as many errors and
warnings as diagnostics.  Without diagnostics there is a sentence in place of the entries.  The
lines of an entry are those of its message, with its number, its severity and its path, if it has
one, in front of the first; so the entries take one line each exactly when no message holds a line
feed.  None does if what may be quoted of the text holds none. -/
theorem entries_begin_lines_of_their_own (settings : Settings) (now : Calendar.Moment)
    (text : String) :
    let report := settings.inspect now text
    lines report.text =
        report.headerRows ++ report.statements.flatMap lines ++ Report.footerRows ++ [""] ∧
      report.errors.length + report.warnings.length = report.diagnostics.length ∧
      (report.diagnostics = [] →
        report.statements = ["Document is valid and conforms to the exhibit schema."]) ∧
      (report.diagnostics ≠ [] →
        report.statements.length = report.diagnostics.length ∧
          (∀ index diagnostic, report.diagnostics[index]? = some diagnostic →
            ∃ statement first rest, report.statements[index]? = some statement ∧
              lines diagnostic.message = first :: rest ∧
              lines statement =
                (Report.mark (index + 1) diagnostic.severity ++ Report.place diagnostic ++
                  first) :: rest) ∧
          ((report.statements.flatMap lines).length = report.diagnostics.length ↔
            ∀ diagnostic ∈ report.diagnostics, IsSingleLine diagnostic.message)) ∧
      (settings.QuotesOneLine text →
        (∀ diagnostic ∈ report.diagnostics, IsSingleLine diagnostic.message) ∧
          lines report.text =
            report.headerRows ++ report.statements ++ Report.footerRows ++ [""]) := by
  intro report
  have paths : ∀ diagnostic ∈ report.diagnostics, ∀ path ∈ diagnostic.path, IsSingleLine path :=
    fun diagnostic member => Settings.isSingleLine_path_of_mem_inspect member
  refine ⟨report.lines_text, report.length_errors_add_warnings, ?_, ?_, ?_⟩
  · intro nothing
    rw [Report.statements, nothing]
    rfl
  · intro something
    have entries : report.statements = report.entries :=
      if_neg (mt List.isEmpty_iff.mp something)
    rw [entries]
    refine ⟨List.length_mapIdx, ?_, Report.length_lines_entries_iff paths⟩
    intro index diagnostic found
    obtain ⟨first, rest, told, begun⟩ :=
      Report.lines_entry (paths diagnostic (List.mem_of_getElem? found)) (index + 1)
    refine ⟨_, first, rest, ?_, told, begun⟩
    rw [Report.entries, List.getElem?_mapIdx, found]
    rfl
  · intro unbroken
    have messages : ∀ diagnostic ∈ report.diagnostics, IsSingleLine diagnostic.message :=
      fun diagnostic member => Settings.isSingleLine_message_of_mem_inspect unbroken member
    refine ⟨messages, ?_⟩
    rw [Report.lines_text, flatMap_lines (Report.isSingleLine_of_mem_statements paths messages)]

/-- A text that is no document, for a reference with a line feed in its name. -/
def forgedText : String :=
  "<a b='&\n2. [error] forged;'/>"

/-- The line feed is quoted with the name, and what follows it looks like a second entry. -/
theorem forgedText_lines :
    let report := ({} : Settings).inspect (.midnight ⟨2024, 6, 1, by decide, by decide⟩) forgedText
    report.diagnostics.length = 1 ∧
      lines report.text =
        ["=== EXHIBIT VALIDATION REPORT ===", "Generated: 2024-06-01 00:00:00",
          "Status: INVALID", "Errors: 1", "Warnings: 0", "",
          "1. [error] Document could not be parsed: invalid value at byte 0: at 1..19: " ++
            "unrecognized entity `",
          "2. [error] forged`", "", "=== END OF REPORT ===", ""] := by
  intro report
  have header : report.headerRows =
      ["=== EXHIBIT VALIDATION REPORT ===", "Generated: 2024-06-01 00:00:00",
        "Status: INVALID", "Errors: 1", "Warnings: 0", ""] := by
    decide +kernel
  have statements : report.statements.flatMap lines =
      ["1. [error] Document could not be parsed: invalid value at byte 0: at 1..19: " ++
          "unrecognized entity `",
        "2. [error] forged`"] := by
    decide +kernel
  refine ⟨by decide +kernel, ?_⟩
  rw [Report.lines_text, header, statements]
  simp only [Report.footerRows, List.cons_append, List.nil_append]

end MuseumRecord
