import MuseumRecord.Proofs.HistoricalDate.Passing
import MuseumRecord.Proofs.Inspection.Ending

/-!
# Inspections as time passes

The clock enters an inspection in two rules, and either only asks for dates that are not yet to
come.  A group of rules that is kept is therefore kept at every later moment, even though a group
tells of its first violation alone and may tell of another one later.
-/

namespace MuseumRecord

/-! ## Rules -/

namespace Rule

variable {now later : Calendar.Moment}

/-- Where there is no violation first, there is none second. -/
def StaysKept (first second : Option Violation) : Prop :=
  first = none → second = none

theorem StaysKept.refl (violation : Option Violation) : StaysKept violation violation :=
  id

theorem StaysKept.orElse {first second firstOther secondOther : Option Violation}
    (kept : StaysKept first second) (keptOther : StaysKept firstOther secondOther) :
    StaysKept (first <|> firstOther) (second <|> secondOther) := by
  intro nothing
  cases first with
  | none =>
    rw [kept rfl]
    exact keptOther nothing
  | some violation => cases nothing

theorem StaysKept.bind {α : Type} {value : Option α} {first second : α → Option Violation}
    (kept : ∀ inner, StaysKept (first inner) (second inner)) :
    StaysKept (value.bind first) (value.bind second) := by
  intro nothing
  rw [Option.bind_eq_none_iff] at nothing ⊢
  intro inner found
  exact kept inner (nothing inner found)

theorem creationDate_staysKept (passed : now ≤ later) (date : Option String) :
    StaysKept (creationDateViolation now date) (creationDateViolation later date) := by
  cases date with
  | none => exact .refl none
  | some written =>
    unfold StaysKept creationDateViolation
    dsimp only
    split
    · exact id
    · cases read : HistoricalDate.parse now written with
      | error cause =>
        intro nothing
        cases nothing
      | ok date =>
        have readLater : HistoricalDate.parse later written = .ok date :=
          HistoricalDate.read_later passed read
        intro _
        rw [readLater]

theorem acquisitionDate_staysKept (passed : now ≤ later) (date : String) :
    StaysKept (acquisitionDateViolation now date) (acquisitionDateViolation later date) := by
  unfold StaysKept acquisitionDateViolation
  split
  · exact id
  · next moment _ =>
    by_cases future : later < moment
    · rw [if_pos (Calendar.Moment.lt_of_le_of_lt passed future)]
      intro nothing
      cases nothing
    · rw [if_neg future]
      exact fun _ => rfl

theorem basicInfo_staysKept (passed : now ≤ later) (exhibit : Exhibit) :
    StaysKept (basicInfoViolation now exhibit) (basicInfoViolation later exhibit) := by
  unfold basicInfoViolation
  split
  · exact .refl _
  · exact (StaysKept.refl _).orElse ((StaysKept.refl _).orElse
      ((StaysKept.refl _).orElse (creationDate_staysKept passed _)))

theorem history_staysKept (passed : now ≤ later) (exhibit : Exhibit) :
    StaysKept (historyViolation now exhibit) (historyViolation later exhibit) := by
  refine StaysKept.bind fun history => StaysKept.orElse ?_ (.refl _)
  refine StaysKept.bind fun acquisition => StaysKept.orElse ?_ (.refl _)
  exact StaysKept.bind fun date => acquisitionDate_staysKept passed date

end Rule

/-- A group of rules that is kept stays kept. -/
theorem RuleGroup.violation?_staysKept {now later : Calendar.Moment} (passed : now ≤ later)
    (exhibit : Exhibit) (group : RuleGroup) :
    Rule.StaysKept (group.violation? now exhibit) (group.violation? later exhibit) := by
  cases group with
  | basicInfo => exact Rule.basicInfo_staysKept passed exhibit
  | history => exact Rule.history_staysKept passed exhibit
  | identifier | dimensions | location | media | condition => exact .refl _

/-! ## Inspections -/

/-- A group of rules is among those that the diagnostics tell of. -/
def RuleGroup.FailsIn (group : RuleGroup) (diagnostics : List Diagnostic) : Prop :=
  ∃ diagnostic ∈ diagnostics, diagnostic.stage = .rule group

theorem Exhibit.failsIn_diagnostics_iff {now : Calendar.Moment} {exhibit : Exhibit}
    {group : RuleGroup} :
    group.FailsIn (exhibit.diagnostics now) ↔ group.violation? now exhibit ≠ none := by
  rw [diagnostics_eq_map_failures, Option.ne_none_iff_exists']
  constructor
  · rintro ⟨diagnostic, member, stage⟩
    obtain ⟨⟨other, violation⟩, failed, rfl⟩ := List.mem_map.mp member
    obtain rfl : other = group := Stage.rule.inj stage
    exact ⟨violation, mem_failures_iff.mp failed⟩
  · rintro ⟨violation, raised⟩
    exact ⟨_, List.mem_map_of_mem (mem_failures_iff.mpr raised), rfl⟩

theorem Exhibit.filter_diagnostics (now : Calendar.Moment) (exhibit : Exhibit) :
    (exhibit.diagnostics now).filter (fun diagnostic => diagnostic.stage.group?.isNone) = [] := by
  rw [diagnostics_eq_map_failures, List.filter_eq_nil_iff]
  intro diagnostic member
  obtain ⟨failure, _, rfl⟩ := List.mem_map.mp member
  simp [RuleGroup.failure, Stage.group?]

namespace Settings

variable {settings : Settings} {text : String}

theorem stage_of_mem_structural {root : Markup.Element} {diagnostic : Diagnostic}
    (member : diagnostic ∈ settings.structural root) : diagnostic.stage = .structural :=
  Schema.stage_of_mem_diagnostics member

theorem filter_structural (root : Markup.Element) :
    (settings.structural root).filter (fun diagnostic => diagnostic.stage.group?.isNone) =
      settings.structural root := by
  rw [List.filter_eq_self]
  intro diagnostic member
  rw [stage_of_mem_structural member]
  rfl

/-- Only the rules look at the clock. -/
theorem inspect_diagnostics_eq {ending : Ending} (cause : settings.Causes text ending)
    (early : ending ≠ .judged) (now later : Calendar.Moment) :
    (settings.inspect later text).diagnostics = (settings.inspect now text).diagnostics := by
  cases ending with
  | blank => simp only [inspect, diagnose, hasNoContent_iff.mpr cause, if_true]
  | unreadable =>
    obtain ⟨content, fault, parsed⟩ := cause
    simp only [inspect, diagnose, documentText, mt hasNoContent_iff.mp content, parsed,
      Bool.false_eq_true, if_false]
  | departing =>
    obtain ⟨content, root, parsed, error⟩ := cause
    rw [inspect_diagnostics_of_ok content parsed, inspect_diagnostics_of_ok content parsed,
      judge_of_error error, judge_of_error error]
  | judged => exact absurd rfl early

theorem inspect_diagnostics_of_judged (cause : settings.Causes text .judged) :
    ∃ root, ∀ now, (settings.inspect now text).diagnostics =
      settings.structural root ++ (Exhibit.ofElement root).diagnostics now := by
  obtain ⟨content, root, parsed, free⟩ := cause
  refine ⟨root, fun now => ?_⟩
  rw [inspect_diagnostics_of_ok content parsed, judge_of_no_error free]

/-- The diagnostics at two moments differ in the rules alone, and in the groups that fail. -/
theorem inspect_diagnostics_later (settings : Settings) (text : String)
    {now later : Calendar.Moment} (passed : now ≤ later) :
    (settings.inspect later text).diagnostics.filter
          (fun diagnostic => diagnostic.stage.group?.isNone) =
        (settings.inspect now text).diagnostics.filter
          (fun diagnostic => diagnostic.stage.group?.isNone) ∧
      ∀ group : RuleGroup, group.FailsIn (settings.inspect later text).diagnostics →
        group.FailsIn (settings.inspect now text).diagnostics := by
  obtain ⟨ending, cause⟩ := exists_cause settings text
  by_cases judged : ending = .judged
  · obtain ⟨root, diagnostics⟩ := inspect_diagnostics_of_judged (judged ▸ cause)
    refine ⟨?_, fun group fails => ?_⟩
    · simp only [diagnostics, List.filter_append, filter_structural, Exhibit.filter_diagnostics]
    · rw [diagnostics] at fails ⊢
      obtain ⟨diagnostic, member, stage⟩ := fails
      rcases List.mem_append.mp member with structural | rule
      · cases (stage_of_mem_structural structural).symm.trans stage
      · have failsLater := Exhibit.failsIn_diagnostics_iff.mp ⟨diagnostic, rule, stage⟩
        have failsNow : group.violation? now (Exhibit.ofElement root) ≠ none :=
          mt (group.violation?_staysKept passed _) failsLater
        obtain ⟨other, found, stageNow⟩ := Exhibit.failsIn_diagnostics_iff.mpr failsNow
        exact ⟨other, List.mem_append_right _ found, stageNow⟩
  · rw [inspect_diagnostics_eq cause judged now later]
    exact ⟨rfl, fun _ => id⟩

/-- A valid report stays as it is. -/
theorem isValid_inspect_later {now later : Calendar.Moment} (passed : now ≤ later)
    (valid : (settings.inspect now text).isValid = true) :
    (settings.inspect later text).isValid = true ∧
      (settings.inspect later text).diagnostics = (settings.inspect now text).diagnostics := by
  obtain ⟨shown, root, parsed, kept⟩ := isValid_inspect_iff.mp valid
  have cause : settings.Causes text .judged := shows_iff_causes.mp shown
  have keptLater (group : RuleGroup) : group.violation? later (Exhibit.ofElement root) = none :=
    group.violation?_staysKept passed _ (kept group)
  refine ⟨isValid_inspect_iff.mpr ⟨shows_of_causes cause, root, parsed, keptLater⟩, ?_⟩
  obtain ⟨content, other, otherParsed, free⟩ := cause
  cases parsed.symm.trans otherParsed
  rw [inspect_diagnostics_of_ok content parsed, inspect_diagnostics_of_ok content parsed,
    judge_of_no_error free, judge_of_no_error free, Exhibit.diagnostics_eq_nil_iff.mpr kept,
    Exhibit.diagnostics_eq_nil_iff.mpr keptLater]

/-- Time never makes a record worse: a valid report stays valid with the same diagnostics, the
diagnostics of all stages before the rules stay the same, a group of rules that fails later fails
already, and a date that is read stays the date it is. -/
theorem inspection_never_worsens (settings : Settings) (text : String)
    {now later : Calendar.Moment} (passed : now ≤ later) :
    ((settings.inspect now text).isValid = true →
        (settings.inspect later text).isValid = true ∧
          (settings.inspect later text).diagnostics = (settings.inspect now text).diagnostics) ∧
      (settings.inspect later text).diagnostics.filter
          (fun diagnostic => diagnostic.stage.group?.isNone) =
        (settings.inspect now text).diagnostics.filter
          (fun diagnostic => diagnostic.stage.group?.isNone) ∧
      (∀ group : RuleGroup, group.FailsIn (settings.inspect later text).diagnostics →
        group.FailsIn (settings.inspect now text).diagnostics) ∧
      ∀ expression date, HistoricalDate.parse now expression = .ok date →
        HistoricalDate.parse later expression = .ok date := by
  obtain ⟨earlierStages, groups⟩ := inspect_diagnostics_later settings text passed
  refine ⟨isValid_inspect_later passed, earlierStages, groups, fun expression date read => ?_⟩
  exact HistoricalDate.read_later passed read

/-- The characters of a record that is acquired on the third day of May 2024 and made in a range
that ends in that year. -/
def recentRecord : List Char :=
  ["<Exhibit xmlns='http://museum.example.com/exhibit'", " id='EXH001' status='Active'>",
    "<!-- seen --><BasicInfo><Title>Jar</Title>", "<Category>Pottery</Category>",
    "<DateCreated>1350 - 2024</DateCreated>", "</BasicInfo><Description>",
    "<ShortDescription>A jar</ShortDescription>", "</Description><Technical>",
    "<Dimensions unit='cm'><Height>5</Height>", "</Dimensions><Material>Clay</Material>",
    "<Condition>Good</Condition></Technical>", "<Location onDisplay='false'>",
    "<Building>Main</Building><Room>12</Room>", "</Location><History><Acquisition>",
    "<Date>2024-05-03</Date><Method>Found</Method>", "<Source>Field</Source></Acquisition>",
    "</History></Exhibit>"].flatMap String.toList

/-- The third day of May 2024. -/
def acquisitionDay : Calendar.Moment :=
  .midnight ⟨2024, 5, 3, by decide, by decide⟩

/-- The first day of the year 2030. -/
def yearsAfter : Calendar.Moment :=
  .midnight ⟨2030, 1, 1, by decide, by decide⟩

/-- Settings that require namespaces and take out comments. -/
def strictSettings : Settings :=
  { namespacePolicy := .require, sanitize := true }

theorem isValid_recentRecord :
    (strictSettings.inspect acquisitionDay (String.ofList recentRecord)).isValid = true := by
  have content : hasNoContent (String.ofList recentRecord) = false := by
    rw [hasNoContent, String.toList_ofList]
    decide +kernel
  have document : Markup.parse (strictSettings.documentText (String.ofList recentRecord)) =
      (Markup.Transcript.ofText (Markup.sanitized recentRecord)).document := by
    have sanitizes : strictSettings.sanitize = true := rfl
    rw [Markup.parse, documentText, if_pos sanitizes, Markup.sanitize, String.toList_ofList,
      String.toList_ofList]
  rw [Report.isValid, inspect, diagnose, content, document]
  decide +kernel

/-- A record that is valid on the day of its acquisition stays valid when years have passed, and a
range that ends with the current year is still read. -/
theorem range_up_to_now_stays_read :
    acquisitionDay ≤ yearsAfter ∧
      (strictSettings.inspect acquisitionDay (String.ofList recentRecord)).isValid = true ∧
      (strictSettings.inspect yearsAfter (String.ofList recentRecord)).isValid = true ∧
      HistoricalDate.parse yearsAfter "1350 - 2024" =
        .ok (.range (.year 1350 .common false) (.year 2024 .common false)) := by
  have passed : acquisitionDay ≤ yearsAfter := by decide
  obtain ⟨staysValid, _, _, dates⟩ :=
    inspection_never_worsens strictSettings (String.ofList recentRecord) passed
  exact ⟨passed, isValid_recentRecord, (staysValid isValid_recentRecord).1,
    dates "1350 - 2024" _ (by decide +kernel)⟩

end Settings

end MuseumRecord
