import MuseumRecord.Command.Run
import MuseumRecord.Proofs.Inspection.Ending
import MuseumRecord.Proofs.Markup.Faithful
import MuseumRecord.Proofs.Markup.Sanitized
import MuseumRecord.Proofs.Text.Trimmed

/-!
# Inspection of sanitized text

To inspect a text and have it sanitized on the way is to inspect its sanitized form, except where
sanitizing takes all content away.  Then the one inspection finds a text that cannot be read and the
other a text without content.
-/

namespace MuseumRecord

/-! ## Blanks behind a document -/

namespace Markup

open Text

theorem Reference.expansion_of_not_mem {text : List Char} (plain : '&' ∉ text) :
    Expansion text text := by
  induction text with
  | nil => exact .done
  | cons character rest inductionHypothesis =>
    have other : character ≠ '&' := fun same => plain (same ▸ List.mem_cons_self)
    exact .plain other (inductionHypothesis fun member => plain (.tail _ member))

theorem Reads.append_blank {frames : List Frame} {builder : Builder} {text blanks : List Char}
    {root : Element} (reads : Reads frames builder text root)
    (blank : ∀ character ∈ blanks, isBlank character = true) :
    Reads frames builder (text ++ blanks) root := by
  induction reads using Reads.pieces with
  | @done frames builder _ finished =>
    have closed := (Builder.finish_eq_ok.mp finished).1
    have added (place : Nat) : builder.addText place blanks = .ok builder := by
      unfold Builder.addText
      rw [closed]
      exact if_pos (List.all_eq_true.mpr blank)
    have reads : Reads frames builder (blanks ++ []) root :=
      .characters (not_mem_of_blank rfl blank)
        (Reference.expansion_of_not_mem (not_mem_of_blank rfl blank)) added (.done finished)
    rw [List.append_nil] at reads
    exact reads
  | @construct frames inner builder next front after found event _ _ again resolved step
      inductionHypothesis =>
    rw [List.append_assoc, List.cons_append]
    exact .step (next_of_read (again _) resolved) step inductionHypothesis
  | @characters frames builder next run after piece _ _ noTag stops expansion added
      inductionHypothesis =>
    rw [List.append_assoc]
    exact .characters noTag expansion added inductionHypothesis

/-- Blanks behind a text are neither here nor there. -/
theorem reads_append_blank_iff {frames : List Frame} {builder : Builder}
    {text blanks : List Char} {root : Element}
    (blank : ∀ character ∈ blanks, isBlank character = true) :
    Reads frames builder (text ++ blanks) root ↔ Reads frames builder text root := by
  refine ⟨fun reads => ?_, fun reads => reads.append_blank blank⟩
  have trimmed := reads.trimEnd
  rw [trimEnd_append_blank text blank] at trimmed
  obtain ⟨back, whole, backBlank⟩ := exists_trimEnd text
  rw [whole]
  exact trimmed.append_blank backBlank

theorem behindMark_append_blank {text blanks : List Char}
    (blank : ∀ character ∈ blanks, isBlank character = true) :
    behindMark (text ++ blanks) = behindMark text ++ blanks := by
  cases text with
  | nil =>
    refine behindMark_eq_self fun character head => ?_
    rintro rfl
    exact not_mem_of_blank rfl blank (List.mem_of_mem_head? head)
  | cons first rest =>
    by_cases mark : first = '\uFEFF'
    · rw [mark]
      rfl
    · rw [behindMark_eq_self (by simpa using mark), behindMark_eq_self (by simpa using mark)]

theorem parse_line_eq_ok_iff {text : String} {root : Element} :
    parse (Command.Checked.line text) = .ok root ↔ parse text = .ok root := by
  have blank : ∀ character ∈ ['\n'], isBlank character = true := by simp [isBlank]
  have shape : (Command.Checked.line text).toList = text.toList ++ ['\n'] := String.toList_append
  rw [parse_eq_ok_iff, parse_eq_ok_iff, shape, behindMark_append_blank blank,
    reads_append_blank_iff blank]

end Markup

/-! ## Content -/

theorem isContentless_line_iff {text : String} :
    IsContentless (Command.Checked.line text) ↔ IsContentless text := by
  have shape : (Command.Checked.line text).toList = text.toList ++ ['\n'] := String.toList_append
  unfold IsContentless
  rw [shape, Text.trim_append_blank _ (by simp [Text.isBlank])]

/-- Nothing is left to trim in a sanitized text. -/
theorem isContentless_sanitize_iff {text : String} :
    IsContentless (Markup.sanitize text) ↔
      Markup.sanitize text = "" ∨ Markup.sanitize text = "<empty>" := by
  have written : (Markup.sanitize text).toList = Markup.sanitized text.toList :=
    String.toList_ofList
  have trimmed : Text.trim (Markup.sanitized text.toList) = Markup.sanitized text.toList :=
    Text.trim_trim _
  rw [← String.toList_inj, ← String.toList_inj, IsContentless, written, trimmed]
  rfl

/-- A text without content holds no mark that cannot stand in the placeholder. -/
theorem isClear_of_contentless {text : String} {first : Char} {tail : List Char}
    (contentless : IsContentless text) (solid : Text.isBlank first = false)
    (single : '>' ∉ first :: tail) (free : ¬first :: tail <:+: "<empty>".toList) :
    Text.IsClear (first :: tail) text.toList := by
  have placeholder : "<empty>".toList = "<empty".toList ++ ['>'] := rfl
  refine Text.isClear_of_trim solid ?_
  rcases contentless with nothing | empty
  · rw [nothing]
    exact Text.isClear_of_not_mem List.not_mem_nil
  · rw [placeholder] at free
    rw [empty, placeholder]
    exact Text.isClear_of_last single free

theorem isContentless_sanitize {text : String} (contentless : IsContentless text) :
    IsContentless (Markup.sanitize text) := by
  have comments : Text.IsClear ('<' :: "!--".toList) text.toList :=
    isClear_of_contentless contentless rfl (by decide) (by decide)
  have instructions : Text.IsClear ('<' :: "?".toList) text.toList :=
    isClear_of_contentless contentless rfl (by decide) (by decide)
  have uncommented : Markup.withoutComments text.toList = text.toList :=
    Text.withoutEnclosed_of_clear (List.cons_ne_nil _ _) comments _
  have unchanged : Markup.withoutInstructions text.toList = text.toList :=
    Text.withoutEnclosed_of_clear (List.cons_ne_nil _ _) instructions _
  unfold IsContentless Markup.sanitize Markup.sanitized
  rw [String.toList_ofList, uncommented, unchanged, Text.trim_trim]
  exact contentless

/-- What is left without content is no document. -/
theorem exists_fault_of_contentless {text : String}
    (contentless : IsContentless (Markup.sanitize text)) :
    ∃ fault, Markup.parse (Markup.sanitize text) = .error fault := by
  have refused : (Markup.parse "").isOk = false ∧ (Markup.parse "<empty>").isOk = false := by
    decide +kernel
  have unread : (Markup.parse (Markup.sanitize text)).isOk = false := by
    rcases isContentless_sanitize_iff.mp contentless with nothing | empty
    · rw [nothing]
      exact refused.1
    · rw [empty]
      exact refused.2
  cases read : Markup.parse (Markup.sanitize text) with
  | error fault => exact ⟨fault, rfl⟩
  | ok root =>
    rw [read] at unread
    cases unread

/-! ## Reports -/

/-- What is said about a text without content. -/
def Diagnostic.contentless : Diagnostic :=
  { severity := .error, stage := .input, message := "Document has no content" }

/-- What is said about a text that is no document. -/
def Diagnostic.unreadable (fault : Markup.ParseError) : Diagnostic :=
  { severity := .error
    stage := .parse
    message := s!"Document could not be parsed: {fault.message}" }

/-- The reports give the same verdict and hold as many diagnostics. -/
def Report.Agrees (left right : Report) : Prop :=
  left.isValid = right.isValid ∧ left.diagnostics.length = right.diagnostics.length

theorem Report.Agrees.trans {left middle right : Report} (agrees : left.Agrees middle)
    (agreesRight : middle.Agrees right) : left.Agrees right :=
  ⟨Eq.trans agrees.1 agreesRight.1, Eq.trans agrees.2 agreesRight.2⟩

theorem Report.agrees_of_errors {left right : Report} {first second : Diagnostic}
    (leftIs : left.diagnostics = [first]) (rightIs : right.diagnostics = [second])
    (error : first.isError = true) (errorRight : second.isError = true) : left.Agrees right := by
  unfold Agrees isValid
  rw [leftIs, rightIs]
  simp [error, errorRight]

/-- Sanitizing takes away the content of the text. -/
def IsEmptied (text : String) : Prop :=
  ¬IsContentless text ∧
    (Markup.sanitize text = "" ∨ Markup.sanitize text = "<empty>")

namespace Settings

/-- The settings that differ at most in whether text is sanitized. -/
def withSanitize (settings : Settings) (sanitize : Bool) : Settings :=
  { settings with sanitize := sanitize }

variable {settings : Settings} {now : Calendar.Moment} {text : String}

theorem documentText_sanitizing :
    (settings.withSanitize true).documentText text = Markup.sanitize text := rfl

theorem documentText_plain : (settings.withSanitize false).documentText text = text := rfl

theorem inspect_of_contentless (contentless : IsContentless text) :
    settings.inspect now text = ⟨[.contentless], now⟩ := by
  simp only [inspect, diagnose, hasNoContent_iff.mpr contentless, if_true]
  rfl

theorem inspect_of_unreadable {document : String} {fault : Markup.ParseError}
    (content : ¬IsContentless text) (reading : settings.documentText text = document)
    (unread : Markup.parse document = .error fault) :
    settings.inspect now text = ⟨[.unreadable fault], now⟩ := by
  simp only [inspect, diagnose, mt hasNoContent_iff.mp content, reading, unread, Bool.false_eq_true,
    if_false]
  rfl

theorem inspect_of_read {document : String} {root : Markup.Element}
    (content : ¬IsContentless text) (reading : settings.documentText text = document)
    (read : Markup.parse document = .ok root) :
    settings.inspect now text = ⟨settings.judge now root, now⟩ := by
  simp only [inspect, diagnose, mt hasNoContent_iff.mp content, reading, read, Bool.false_eq_true,
    if_false]

theorem inspect_sanitized_of_not_emptied (kept : ¬IsEmptied text) :
    (settings.withSanitize true).inspect now text =
      (settings.withSanitize false).inspect now (Markup.sanitize text) := by
  by_cases contentless : IsContentless text
  · rw [inspect_of_contentless contentless,
      inspect_of_contentless (isContentless_sanitize contentless)]
  · have content : ¬IsContentless (Markup.sanitize text) := fun emptied =>
      kept ⟨contentless, isContentless_sanitize_iff.mp emptied⟩
    cases read : Markup.parse (Markup.sanitize text) with
    | error fault =>
      rw [inspect_of_unreadable contentless documentText_sanitizing read,
        inspect_of_unreadable content documentText_plain read]
    | ok root =>
      rw [inspect_of_read contentless documentText_sanitizing read,
        inspect_of_read content documentText_plain read]
      rfl

theorem exists_inspect_of_emptied (emptied : IsEmptied text) :
    ∃ fault, Markup.parse (Markup.sanitize text) = .error fault ∧
      (settings.withSanitize true).inspect now text = ⟨[.unreadable fault], now⟩ ∧
      (settings.withSanitize false).inspect now (Markup.sanitize text) = ⟨[.contentless], now⟩ := by
  have contentless := isContentless_sanitize_iff.mpr emptied.2
  obtain ⟨fault, unread⟩ := exists_fault_of_contentless contentless
  exact ⟨fault, unread, inspect_of_unreadable emptied.1 documentText_sanitizing unread,
    inspect_of_contentless contentless⟩

theorem inspect_sanitized_agrees :
    ((settings.withSanitize true).inspect now text).Agrees
      ((settings.withSanitize false).inspect now (Markup.sanitize text)) := by
  by_cases emptied : IsEmptied text
  · obtain ⟨fault, _, direct, staged⟩ := exists_inspect_of_emptied emptied
    rw [direct, staged]
    exact Report.agrees_of_errors rfl rfl rfl rfl
  · rw [inspect_sanitized_of_not_emptied emptied]
    exact ⟨rfl, rfl⟩

/-- A line end behind a text may change what is said about a fault, but no more. -/
theorem inspect_line_agrees :
    ((settings.withSanitize false).inspect now text).Agrees
      ((settings.withSanitize false).inspect now (Command.Checked.line text)) := by
  by_cases contentless : IsContentless text
  · rw [inspect_of_contentless contentless,
      inspect_of_contentless (isContentless_line_iff.mpr contentless)]
    exact ⟨rfl, rfl⟩
  · have content := mt isContentless_line_iff.mp contentless
    cases read : Markup.parse text with
    | ok root =>
      rw [inspect_of_read contentless documentText_plain read,
        inspect_of_read content documentText_plain (Markup.parse_line_eq_ok_iff.mpr read)]
      exact ⟨rfl, rfl⟩
    | error fault =>
      cases readLine : Markup.parse (Command.Checked.line text) with
      | ok root =>
        rw [Markup.parse_line_eq_ok_iff.mp readLine] at read
        cases read
      | error other =>
        rw [inspect_of_unreadable contentless documentText_plain read,
          inspect_of_unreadable content documentText_plain readLine]
        exact Report.agrees_of_errors rfl rfl rfl rfl

/-- Whether a text is sanitized while it is inspected or before makes no difference, unless nothing
is left of it: then the one report holds the fault of what is left, and the other the lack of
content.  In any case the verdicts and the numbers of diagnostics agree, and they do so too with the
inspection of what the command for sanitizing puts out. -/
theorem sanitizing_commutes_with_inspection (settings : Settings) (now : Calendar.Moment)
    (text : String) :
    (¬IsEmptied text →
      (settings.withSanitize true).inspect now text =
        (settings.withSanitize false).inspect now (Markup.sanitize text)) ∧
    (IsEmptied text → ∃ fault, Markup.parse (Markup.sanitize text) = .error fault ∧
      (settings.withSanitize true).inspect now text = ⟨[.unreadable fault], now⟩ ∧
      (settings.withSanitize false).inspect now (Markup.sanitize text) = ⟨[.contentless], now⟩) ∧
    ((settings.withSanitize true).inspect now text).Agrees
      ((settings.withSanitize false).inspect now (Markup.sanitize text)) ∧
    ∀ surroundings settingsPath path, surroundings.files.readText path = .ok text →
      ((settings.withSanitize true).inspect now text).Agrees
        ((settings.withSanitize false).inspect now
          (Command.perform surroundings settingsPath (.sanitize path)).output) := by
  refine ⟨inspect_sanitized_of_not_emptied, exists_inspect_of_emptied, inspect_sanitized_agrees,
    fun surroundings settingsPath path found => ?_⟩
  have output : (Command.perform surroundings settingsPath (.sanitize path)).output =
      Command.Checked.line (Markup.sanitize text) := by
    rw [Command.perform, Command.withDocument, found]
    rfl
  rw [output]
  exact inspect_sanitized_agrees.trans inspect_line_agrees

/-- Where nothing is left of a text the two reports differ in what they say, and not only in the
stage. -/
theorem emptied_reports_differ_in_message :
    IsEmptied "<!-- -->" ∧
      ((({} : Settings).withSanitize true).inspect
          (.midnight ⟨2024, 6, 1, by decide, by decide⟩) "<!-- -->").diagnostics.map
            (fun diagnostic => { diagnostic with stage := .input }) ≠
        ((({} : Settings).withSanitize false).inspect
          (.midnight ⟨2024, 6, 1, by decide, by decide⟩)
            (Markup.sanitize "<!-- -->")).diagnostics := by
  have content : hasNoContent "<!-- -->" = false := by decide +kernel
  have emptied : Markup.sanitize "<!-- -->" = "" := by decide +kernel
  refine ⟨⟨mt hasNoContent_iff.mpr (Bool.eq_false_iff.mp content), .inl emptied⟩, ?_⟩
  decide +kernel

end Settings
end MuseumRecord
