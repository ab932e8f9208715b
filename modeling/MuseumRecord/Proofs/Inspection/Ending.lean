import Mathlib.Data.List.Nodup
import MuseumRecord.Inspection

/-!
# How an inspection ends

An inspection ends in one of four ways, each at another stage.  What ends it can be told from the
text and the settings, and what it ended with from the diagnostics; the two accounts agree, so that
no stage loses, reorders or mixes in the diagnostics of another.
-/

namespace MuseumRecord

/-! ## Diagnostics of the schema -/

namespace Schema

/-- A warning about the namespace of an element. -/
def IsNamespaceWarning (schema : Schema) (root : Markup.Element) (diagnostic : Diagnostic) : Prop :=
  ∃ finding ∈ schema.findings root, finding.problem.isAboutNamespace = true ∧
    diagnostic =
      { severity := .warning
        stage := .structural
        path := some finding.address.text
        message := finding.problem.message }

variable {schema : Schema} {policy : NamespacePolicy} {root : Markup.Element}
  {diagnostic : Diagnostic}

/-- Every diagnostic of a schema is the one of a finding. -/
theorem exists_finding_of_mem (member : diagnostic ∈ schema.diagnostics policy root) :
    ∃ finding ∈ schema.findings root, ∃ severity,
      severity? policy finding.problem = some severity ∧
        diagnostic =
          { severity := severity
            stage := .structural
            path := some finding.address.text
            message := finding.problem.message } := by
  obtain ⟨finding, found, given⟩ := List.mem_filterMap.mp member
  obtain ⟨severity, decided, rfl⟩ := Option.map_eq_some_iff.mp given
  exact ⟨finding, found, severity, decided, rfl⟩

theorem stage_of_mem_diagnostics (member : diagnostic ∈ schema.diagnostics policy root) :
    diagnostic.stage = .structural := by
  obtain ⟨finding, _, severity, _, rfl⟩ := exists_finding_of_mem member
  rfl

/-- A policy makes a warning only of a namespace, and only if it is the policy that warns. -/
theorem severity?_eq_warning {problem : Problem}
    (warned : severity? policy problem = some .warning) :
    problem.isAboutNamespace = true ∧ policy = .warn := by
  unfold severity? at warned
  split at warned
  · next aboutNamespace =>
    cases policy with
    | require => cases warned
    | warn => exact ⟨aboutNamespace, rfl⟩
    | ignore => cases warned
  · cases warned

/-- What is no error of the schema is a warning about a namespace, under the policy that warns. -/
theorem isNamespaceWarning_of_mem (member : diagnostic ∈ schema.diagnostics policy root)
    (mild : diagnostic.isError = false) :
    schema.IsNamespaceWarning root diagnostic ∧ policy = .warn := by
  obtain ⟨finding, found, severity, decided, rfl⟩ := exists_finding_of_mem member
  cases severity with
  | error => cases mild
  | warning =>
    obtain ⟨aboutNamespace, warning⟩ := severity?_eq_warning decided
    exact ⟨⟨finding, found, aboutNamespace, rfl⟩, warning⟩

theorem IsNamespaceWarning.isError_eq_false (warning : schema.IsNamespaceWarning root diagnostic) :
    diagnostic.isError = false := by
  obtain ⟨finding, _, _, rfl⟩ := warning
  rfl

end Schema

/-! ## Diagnostics of the rules -/

/-- The diagnostic of a group with its violation. -/
def RuleGroup.failure (group : RuleGroup) (violation : Rule.Violation) : Diagnostic :=
  { severity := .error, stage := .rule group, message := violation.message }

/-- The groups that an exhibit breaks, in the order of the groups, with their violations. -/
def Exhibit.failures (now : Calendar.Moment) (exhibit : Exhibit) :
    List (RuleGroup × Rule.Violation) :=
  RuleGroup.all.filterMap fun group => (group.violation? now exhibit).map fun violation =>
    (group, violation)

namespace Exhibit

variable {now : Calendar.Moment} {exhibit : Exhibit}

theorem diagnostics_eq_map_failures :
    exhibit.diagnostics now =
      (exhibit.failures now).map fun failure => failure.1.failure failure.2 := by
  unfold diagnostics failures
  rw [List.map_filterMap]
  congr
  funext group
  simp only [RuleGroup.diagnostic?, Option.map_map]
  rfl

theorem mem_failures_iff {group : RuleGroup} {violation : Rule.Violation} :
    (group, violation) ∈ exhibit.failures now ↔ group.violation? now exhibit = some violation := by
  have every : group ∈ RuleGroup.all := by cases group <;> decide
  unfold failures
  rw [List.mem_filterMap]
  constructor
  · rintro ⟨other, _, given⟩
    obtain ⟨found, raised, equal⟩ := Option.map_eq_some_iff.mp given
    obtain ⟨rfl, rfl⟩ := Prod.mk.inj equal
    exact raised
  · intro raised
    exact ⟨group, every, by rw [raised]; rfl⟩

/-- The broken groups stand in the order of the groups. -/
theorem failures_sublist : ((exhibit.failures now).map Prod.fst).Sublist RuleGroup.all := by
  unfold failures
  generalize RuleGroup.all = groups
  induction groups with
  | nil => exact List.Sublist.refl _
  | cons group rest inductionHypothesis =>
    rw [List.filterMap_cons]
    cases group.violation? now exhibit with
    | none => exact inductionHypothesis.cons group
    | some violation => exact inductionHypothesis.cons_cons group

theorem failures_nodup : ((exhibit.failures now).map Prod.fst).Nodup :=
  failures_sublist.nodup (by decide)

theorem diagnostics_eq_nil_iff :
    exhibit.diagnostics now = [] ↔ ∀ group, RuleGroup.violation? now exhibit group = none := by
  rw [diagnostics_eq_map_failures, List.map_eq_nil_iff, List.eq_nil_iff_forall_not_mem]
  constructor
  · intro nothing group
    rw [Option.eq_none_iff_forall_ne_some]
    intro violation raised
    exact nothing (group, violation) (mem_failures_iff.mpr raised)
  · rintro kept ⟨group, violation⟩ member
    rw [mem_failures_iff, kept group] at member
    cases member

end Exhibit

/-! ## Endings -/

/-- The ways in which an inspection can end. -/
inductive Ending where
  /-- There is no content. -/
  | blank
  /-- The text is no document. -/
  | unreadable
  /-- The document departs from the schema. -/
  | departing
  /-- All rules were applied. -/
  | judged
deriving DecidableEq, Repr

/-- A text that holds nothing but blanks, or the placeholder between blanks. -/
def IsContentless (text : String) : Prop :=
  Text.trim text.toList = [] ∨ Text.trim text.toList = "<empty>".toList

theorem hasNoContent_iff {text : String} : hasNoContent text = true ↔ IsContentless text := by
  unfold hasNoContent IsContentless emptyPlaceholder
  simp only [Bool.or_eq_true, List.isEmpty_iff, beq_iff_eq]

namespace Settings

/-- What the schema says about a document under the settings. -/
def structural (settings : Settings) (root : Markup.Element) : List Diagnostic :=
  Schema.exhibit.diagnostics settings.namespacePolicy root

/-- What of a text and the settings brings about an ending. -/
def Causes (settings : Settings) (text : String) : Ending → Prop
  | .blank => IsContentless text
  | .unreadable =>
    ¬IsContentless text ∧
      ∃ fault,
        Markup.parse (if settings.sanitize then Markup.sanitize text else text) = .error fault
  | .departing =>
    ¬IsContentless text ∧
      ∃ root, Markup.parse (if settings.sanitize then Markup.sanitize text else text) = .ok root ∧
        ∃ diagnostic ∈ settings.structural root, diagnostic.isError = true
  | .judged =>
    ¬IsContentless text ∧
      ∃ root, Markup.parse (if settings.sanitize then Markup.sanitize text else text) = .ok root ∧
        ∀ diagnostic ∈ settings.structural root, diagnostic.isError = false

/-- What the diagnostics of an inspection are after an ending.  A judged document has warnings about
namespaces, if the policy is to warn, and one error for each broken group. -/
def Shows (settings : Settings) (now : Calendar.Moment) (text : String) : Ending → Prop
  | .blank => ∃ message, (settings.inspect now text).diagnostics =
      [{ severity := .error, stage := .input, message := message }]
  | .unreadable => ∃ message, (settings.inspect now text).diagnostics =
      [{ severity := .error, stage := .parse, message := message }]
  | .departing => ∃ root,
      Markup.parse (if settings.sanitize then Markup.sanitize text else text) = .ok root ∧
      (settings.inspect now text).diagnostics = settings.structural root ∧
      ∃ diagnostic ∈ settings.structural root, diagnostic.isError = true
  | .judged => ∃ root, ∃ failures : List (RuleGroup × Rule.Violation),
      Markup.parse (if settings.sanitize then Markup.sanitize text else text) = .ok root ∧
      (settings.inspect now text).diagnostics =
        settings.structural root ++
          failures.map (fun failure => RuleGroup.failure failure.1 failure.2) ∧
      (∀ diagnostic ∈ settings.structural root,
        Schema.exhibit.IsNamespaceWarning root diagnostic) ∧
      (settings.namespacePolicy ≠ .warn → settings.structural root = []) ∧
      (∀ group violation, (group, violation) ∈ failures ↔
        group.violation? now (Exhibit.ofElement root) = some violation) ∧
      (failures.map Prod.fst).Sublist RuleGroup.all ∧ (failures.map Prod.fst).Nodup

variable {settings : Settings} {now : Calendar.Moment} {text : String}

/-! Each cause has its diagnostics. -/

theorem shows_blank (cause : settings.Causes text .blank) : settings.Shows now text .blank := by
  refine ⟨"Document has no content", ?_⟩
  simp only [inspect, diagnose, hasNoContent_iff.mpr cause, if_true]

theorem shows_unreadable (cause : settings.Causes text .unreadable) :
    settings.Shows now text .unreadable := by
  obtain ⟨content, fault, parsed⟩ := cause
  refine ⟨s!"Document could not be parsed: {fault.message}", ?_⟩
  simp only [inspect, diagnose, documentText, mt hasNoContent_iff.mp content, parsed,
    Bool.false_eq_true, if_false]

theorem inspect_diagnostics_of_ok {root : Markup.Element} (content : ¬IsContentless text)
    (parsed : Markup.parse (if settings.sanitize then Markup.sanitize text else text) = .ok root) :
    (settings.inspect now text).diagnostics = settings.judge now root := by
  simp only [inspect, diagnose, documentText, mt hasNoContent_iff.mp content, parsed,
    Bool.false_eq_true, if_false]

theorem judge_of_error {root : Markup.Element}
    (error : ∃ diagnostic ∈ settings.structural root, diagnostic.isError = true) :
    settings.judge now root = settings.structural root := by
  unfold judge
  exact if_pos (List.any_eq_true.mpr error)

theorem judge_of_no_error {root : Markup.Element}
    (free : ∀ diagnostic ∈ settings.structural root, diagnostic.isError = false) :
    settings.judge now root =
      settings.structural root ++ (Exhibit.ofElement root).diagnostics now := by
  have noError : (settings.structural root).any Diagnostic.isError = false := by
    rw [List.any_eq_false]
    intro diagnostic member
    rw [free diagnostic member]
    exact Bool.false_ne_true
  unfold judge
  exact if_neg (Bool.eq_false_iff.mp noError)

theorem shows_departing (cause : settings.Causes text .departing) :
    settings.Shows now text .departing := by
  obtain ⟨content, root, parsed, error⟩ := cause
  refine ⟨root, parsed, ?_, error⟩
  rw [inspect_diagnostics_of_ok content parsed, judge_of_error error]

theorem shows_judged (cause : settings.Causes text .judged) :
    settings.Shows now text .judged := by
  obtain ⟨content, root, parsed, free⟩ := cause
  refine ⟨root, (Exhibit.ofElement root).failures now, parsed, ?_, ?_, ?_, ?_,
    Exhibit.failures_sublist, Exhibit.failures_nodup⟩
  · rw [inspect_diagnostics_of_ok content parsed, judge_of_no_error free,
      Exhibit.diagnostics_eq_map_failures]
  · intro diagnostic member
    exact (Schema.isNamespaceWarning_of_mem member (free diagnostic member)).1
  · intro notWarn
    rw [List.eq_nil_iff_forall_not_mem]
    intro diagnostic member
    exact notWarn (Schema.isNamespaceWarning_of_mem member (free diagnostic member)).2
  · intro group violation
    exact Exhibit.mem_failures_iff

theorem shows_of_causes {ending : Ending} (cause : settings.Causes text ending) :
    settings.Shows now text ending := by
  cases ending with
  | blank => exact shows_blank cause
  | unreadable => exact shows_unreadable cause
  | departing => exact shows_departing cause
  | judged => exact shows_judged cause

/-! Some cause is there, and the diagnostics of two endings differ. -/

theorem exists_cause (settings : Settings) (text : String) :
    ∃ ending, settings.Causes text ending := by
  by_cases content : IsContentless text
  · exact ⟨.blank, content⟩
  · cases parsed : Markup.parse (if settings.sanitize then Markup.sanitize text else text) with
    | error fault => exact ⟨.unreadable, content, fault, parsed⟩
    | ok root =>
      by_cases error : ∃ diagnostic ∈ settings.structural root, diagnostic.isError = true
      · exact ⟨.departing, content, root, parsed, error⟩
      · refine ⟨.judged, content, root, parsed, fun diagnostic member => ?_⟩
        rw [Bool.eq_false_iff]
        intro isError
        exact error ⟨diagnostic, member, isError⟩

/-- The ending that diagnostics tell of. -/
def endingOf (diagnostics : List Diagnostic) : Ending :=
  if diagnostics.any fun diagnostic => diagnostic.stage == .input then .blank
  else if diagnostics.any fun diagnostic => diagnostic.stage == .parse then .unreadable
  else if diagnostics.any fun diagnostic =>
      diagnostic.isError && diagnostic.stage == .structural then .departing
  else .judged

theorem endingOf_structural {diagnostics : List Diagnostic}
    (stages : ∀ diagnostic ∈ diagnostics,
      diagnostic.stage = .structural ∨ ∃ group, diagnostic.stage = .rule group) :
    endingOf diagnostics =
      if diagnostics.any fun diagnostic =>
        diagnostic.isError && diagnostic.stage == .structural then .departing else .judged := by
  have noInput : (diagnostics.any fun diagnostic => diagnostic.stage == .input) = false := by
    rw [List.any_eq_false]
    intro diagnostic member
    rcases stages diagnostic member with stage | ⟨group, stage⟩ <;> simp [stage]
  have noParse : (diagnostics.any fun diagnostic => diagnostic.stage == .parse) = false := by
    rw [List.any_eq_false]
    intro diagnostic member
    rcases stages diagnostic member with stage | ⟨group, stage⟩ <;> simp [stage]
  simp only [endingOf, noInput, noParse, Bool.false_eq_true, if_false]

/-- The diagnostics of an inspection tell how it ended. -/
theorem endingOf_of_shows {ending : Ending} (shown : settings.Shows now text ending) :
    endingOf (settings.inspect now text).diagnostics = ending := by
  cases ending with
  | blank =>
    obtain ⟨message, only⟩ := shown
    rw [only]
    rfl
  | unreadable =>
    obtain ⟨message, only⟩ := shown
    rw [only]
    rfl
  | departing =>
    obtain ⟨root, _, same, diagnostic, member, error⟩ := shown
    have stages : ∀ other ∈ settings.structural root, other.stage = .structural :=
      fun other present => Schema.stage_of_mem_diagnostics present
    rw [same, endingOf_structural fun other present => .inl (stages other present)]
    refine if_pos (List.any_eq_true.mpr ⟨diagnostic, member, ?_⟩)
    simp [error, stages diagnostic member]
  | judged =>
    obtain ⟨root, failures, _, same, warnings, _⟩ := shown
    have ruleStage (diagnostic : Diagnostic)
        (member : diagnostic ∈ failures.map fun failure => failure.1.failure failure.2) :
        ∃ group, diagnostic.stage = .rule group := by
      obtain ⟨failure, _, rfl⟩ := List.mem_map.mp member
      exact ⟨failure.1, rfl⟩
    rw [same, endingOf_structural fun other present => ?_]
    · apply if_neg
      rw [Bool.not_eq_true, List.any_eq_false]
      intro diagnostic present
      rcases List.mem_append.mp present with first | second
      · simp [(warnings diagnostic first).isError_eq_false]
      · obtain ⟨group, stage⟩ := ruleStage diagnostic second
        simp [stage]
    · rcases List.mem_append.mp present with first | second
      · exact .inl (Schema.stage_of_mem_diagnostics first)
      · exact .inr (ruleStage other second)

theorem shows_iff_causes {ending : Ending} :
    settings.Shows now text ending ↔ settings.Causes text ending := by
  constructor
  · intro shown
    obtain ⟨actual, cause⟩ := exists_cause settings text
    have same : actual = ending :=
      (endingOf_of_shows (shows_of_causes cause)).symm.trans (endingOf_of_shows shown)
    exact same ▸ cause
  · exact shows_of_causes

/-- A report is valid when the document was judged and every group of rules is kept. -/
theorem isValid_inspect_iff :
    (settings.inspect now text).isValid = true ↔
      settings.Shows now text .judged ∧
        ∃ root,
          Markup.parse (if settings.sanitize then Markup.sanitize text else text) = .ok root ∧
          ∀ group, RuleGroup.violation? now (Exhibit.ofElement root) group = none := by
  have noError : (settings.inspect now text).isValid = true ↔
      ∀ diagnostic ∈ (settings.inspect now text).diagnostics, diagnostic.isError = false := by
    unfold Report.isValid
    rw [Bool.not_eq_true', List.any_eq_false]
    simp only [Bool.not_eq_true]
  rw [noError, shows_iff_causes]
  constructor
  · intro free
    obtain ⟨ending, cause⟩ := exists_cause settings text
    have shown : settings.Shows now text ending := shows_of_causes cause
    cases ending with
    | blank =>
      obtain ⟨message, only⟩ := shown
      cases free _ (only ▸ List.mem_singleton_self _)
    | unreadable =>
      obtain ⟨message, only⟩ := shown
      cases free _ (only ▸ List.mem_singleton_self _)
    | departing =>
      obtain ⟨root, _, same, diagnostic, member, error⟩ := shown
      exact absurd (free diagnostic (same ▸ member)) (by simp [error])
    | judged =>
      refine ⟨cause, ?_⟩
      obtain ⟨content, root, parsed, mild⟩ := cause
      refine ⟨root, parsed, Exhibit.diagnostics_eq_nil_iff.mp ?_⟩
      rw [inspect_diagnostics_of_ok content parsed, judge_of_no_error mild] at free
      rw [Exhibit.diagnostics_eq_map_failures, List.map_eq_nil_iff, List.eq_nil_iff_forall_not_mem]
      rintro ⟨group, violation⟩ member
      have failed := free (group.failure violation) (List.mem_append_right _ (by
        rw [Exhibit.diagnostics_eq_map_failures]
        exact List.mem_map_of_mem member))
      cases failed
  · rintro ⟨⟨content, root, parsed, mild⟩, other, otherParsed, kept⟩
    cases parsed.symm.trans otherParsed
    rw [inspect_diagnostics_of_ok content parsed, judge_of_no_error mild,
      Exhibit.diagnostics_eq_nil_iff.mpr kept, List.append_nil]
    exact mild

/-- Every inspection ends in exactly one way, its diagnostics show an ending exactly when the text
and the settings cause it, and the report is valid exactly when the document was judged and keeps
the rules of every group. -/
theorem inspection_ends_once (settings : Settings) (now : Calendar.Moment) (text : String) :
    (∀ ending, settings.Shows now text ending ↔ settings.Causes text ending) ∧
      (∃! ending, settings.Shows now text ending) ∧
      ((settings.inspect now text).isValid = true ↔
        settings.Shows now text .judged ∧
          ∃ root,
            Markup.parse (if settings.sanitize then Markup.sanitize text else text) = .ok root ∧
            ∀ group, RuleGroup.violation? now (Exhibit.ofElement root) group = none) := by
  refine ⟨fun ending => shows_iff_causes, ?_, isValid_inspect_iff⟩
  obtain ⟨ending, cause⟩ := exists_cause settings text
  refine ⟨ending, shows_of_causes cause, fun other shown => ?_⟩
  rw [← endingOf_of_shows shown, endingOf_of_shows (shows_of_causes cause)]

/-! The same text in both settings: without its instruction it is a document that departs from the
schema, and with it no document. -/

example :
    (Settings.inspect { sanitize := true } (.midnight ⟨2024, 6, 1, by decide, by decide⟩)
      "<<?x?>a/>").diagnostics.map Diagnostic.text =
        ["[error] /a: root element is 'a', expected 'Exhibit'"] := by
  decide +kernel

example :
    (Settings.inspect { sanitize := false } (.midnight ⟨2024, 6, 1, by decide, by decide⟩)
      "<<?x?>a/>").diagnostics.map Diagnostic.text =
        ["[error] Document could not be parsed: element '<?x?' is never closed"] := by
  decide +kernel

end Settings

end MuseumRecord
