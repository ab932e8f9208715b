import MuseumRecord.Proofs.Command.Creation
import MuseumRecord.Proofs.Command.Table
import MuseumRecord.Proofs.Files.Collection
import MuseumRecord.Proofs.Report.Layout
import MuseumRecord.Proofs.Report.Reading

/-!
# Agreement of outputs

The table, the value for other programs, the line of numbers and the exit code of a validation are
made from the outcomes of the same documents.  A document is at fault if it cannot be read or an
error is found in it; these are the documents that every output shows as invalid.  The report on
one document comes to the same verdict and the same numbers.
-/

namespace MuseumRecord

/-! ## Settings of a validation -/

namespace Settings

variable {settings other : Settings}

/-- Settings that read and judge documents alike. -/
structure JudgesAlike (settings other : Settings) : Prop where
  policy : settings.namespacePolicy = other.namespacePolicy
  sanitize : settings.sanitize = other.sanitize

theorem JudgesAlike.diagnose_eq (alike : JudgesAlike settings other) :
    settings.diagnose = other.diagnose := by
  funext now text
  unfold diagnose judge documentText
  rw [alike.policy, alike.sanitize]

theorem judgesAlike_addExtension (settings : Settings) (extension : String) :
    JudgesAlike (settings.addExtension extension).1 settings := by
  unfold addExtension
  split <;> exact ⟨rfl, rfl⟩

/-- More extensions do not change how a document is judged. -/
theorem judgesAlike_addExtensions (settings : Settings) (extensions : List String) :
    JudgesAlike
      (extensions.foldl (fun known extension => (known.addExtension extension).1) settings)
      settings := by
  induction extensions generalizing settings with
  | nil => exact ⟨rfl, rfl⟩
  | cons extension extensions inductionHypothesis =>
    have first := judgesAlike_addExtension settings extension
    have others := inductionHypothesis (settings.addExtension extension).1
    exact ⟨others.policy.trans first.policy, others.sanitize.trans first.sanitize⟩

end Settings

/-! ## Values for other programs -/

namespace JsonValue

/-- The value that names of fields lead to. -/
def at? : JsonValue → List String → Option JsonValue
  | value, [] => some value
  | .object fields, name :: names => (fields.lookup name).bind fun value => value.at? names
  | _, _ :: _ => none

end JsonValue

namespace Command

/-- Whether the value of a document shows it as invalid: by a report that says so, or by an error
in place of a report. -/
def showsInvalid (item : JsonValue) : Bool :=
  match item.at? ["report", "valid"] with
  | some (.truth valid) => !valid
  | _ => (item.at? ["error"]).isSome

/-! ## Documents at fault -/

/-- A document is at fault: it cannot be read, or an error is found in it. -/
def IsFaulty (files : Files) (settings : Settings) (now : Calendar.Moment) (path : Path) : Prop :=
  ∀ text, files.readText path = .ok text →
    ∃ diagnostic ∈ settings.diagnose now text, diagnostic.severity = .error

variable {files : Files} {settings : Settings} {now : Calendar.Moment} {path : Path}
  {paths : List Path}

theorem isValid_ofPath_eq_false_iff :
    (Checked.ofPath files settings now path).isValid = false ↔
      IsFaulty files settings now path := by
  unfold Checked.ofPath IsFaulty
  cases files.readText path with
  | error cause => simp [Checked.isValid]
  | ok text =>
    simp [Checked.isValid, Report.isValid, Settings.inspect, Diagnostic.isError]

instance : DecidablePred (IsFaulty files settings now) := fun _ =>
  decidable_of_iff _ isValid_ofPath_eq_false_iff

/-- A document is valid exactly when it is not at fault. -/
theorem isValid_ofPath :
    (Checked.ofPath files settings now path).isValid =
      !decide (IsFaulty files settings now path) := by
  cases valid : (Checked.ofPath files settings now path).isValid with
  | false => simp [isValid_ofPath_eq_false_iff.mp valid]
  | true =>
    have sound : ¬ IsFaulty files settings now path := by
      rw [← isValid_ofPath_eq_false_iff, valid]
      decide
    simp [sound]

/-- The outcomes of the documents at paths. -/
def outcomes (files : Files) (settings : Settings) (now : Calendar.Moment) (paths : List Path) :
    List Checked :=
  paths.map (Checked.ofPath files settings now)

/-- The paths of the documents at fault. -/
def faulty (files : Files) (settings : Settings) (now : Calendar.Moment) (paths : List Path) :
    List Path :=
  paths.filter fun path => IsFaulty files settings now path

theorem invalidCount_outcomes :
    invalidCount (outcomes files settings now paths) =
      (faulty files settings now paths).length := by
  rw [invalidCount, outcomes, List.countP_map, faulty, ← List.countP_eq_length_filter]
  apply List.countP_congr
  intro path _
  rw [Function.comp_apply, isValid_ofPath, Bool.not_not]

theorem all_isValid_outcomes_iff :
    (outcomes files settings now paths).all Checked.isValid = true ↔
      faulty files settings now paths = [] := by
  simp only [outcomes, faulty, List.all_map, List.all_eq_true, Function.comp_apply,
    isValid_ofPath, Bool.not_eq_true', List.filter_eq_nil_iff, Bool.not_eq_true]

/-! ## The table -/

/-- The rows about the document at a path. -/
def rowsAt (surroundings : Surroundings) (settings : Settings) (path : Path) : List String :=
  (Checked.ofPath surroundings.files settings surroundings.now path).rows surroundings.host

section Presentations

variable {surroundings : Surroundings}

/-- The first row about a document has a cross exactly when it is at fault. -/
theorem exists_marked_rowAt {listed : List Path} (member : path ∈ listed) :
    ∃ first others, rowsAt surroundings settings path = first :: others ∧
      firstShown? first =
        some (if path ∈ faulty surroundings.files settings surroundings.now listed then '✗'
          else '✓') ∧
      ∀ row ∈ others, firstShown? row = some ' ' := by
  obtain ⟨first, others, shape, marked, unmarked⟩ :=
    (Checked.ofPath surroundings.files settings surroundings.now path).exists_marked_row
      surroundings.host
  refine ⟨first, others, shape, ?_, unmarked⟩
  rw [marked, isValid_ofPath]
  by_cases fault : IsFaulty surroundings.files settings surroundings.now path <;>
    simp [faulty, member, fault]

/-- Without the valid documents the rows are those of the documents at fault. -/
theorem shownRows_outcomes (surroundings : Surroundings) (settings : Settings) (quiet : Bool)
    (paths : List Path) :
    shownRows surroundings.host quiet
        (outcomes surroundings.files settings surroundings.now paths) =
      (if quiet then faulty surroundings.files settings surroundings.now paths
        else paths).flatMap (rowsAt surroundings settings) := by
  induction paths with
  | nil => cases quiet <;> rfl
  | cons path paths inductionHypothesis =>
    rw [shownRows] at inductionHypothesis ⊢
    rw [outcomes, List.map_cons, List.flatMap_cons, ← outcomes, inductionHypothesis,
      isValid_ofPath]
    by_cases fault : IsFaulty surroundings.files settings surroundings.now path <;>
      cases quiet <;> simp [faulty, fault, rowsAt]

theorem table_outcomes (surroundings : Surroundings) (settings : Settings) (quiet : Bool)
    (paths : List Path) :
    table surroundings.host quiet
        (outcomes surroundings.files settings surroundings.now paths) =
      printed ((if quiet then faulty surroundings.files settings surroundings.now paths
          else paths).flatMap (rowsAt surroundings settings) ++
        if quiet then [] else ["", verdictRow surroundings.host
          (faulty surroundings.files settings surroundings.now paths).length paths.length]) := by
  have total : (outcomes surroundings.files settings surroundings.now paths).length =
      paths.length := List.length_map _
  rw [table_eq_printed, shownRows_outcomes, invalidCount_outcomes, total]

end Presentations

/-! ## The value for other programs -/

theorem showsInvalid_json (checked : Checked) : showsInvalid checked.json = !checked.isValid := by
  unfold Checked.json Checked.isValid
  cases checked.outcome with
  | error cause => rfl
  | ok report => rfl

theorem at?_file_json (path : Path) :
    (Checked.ofPath files settings now path).json.at? ["file"] = some (.text path) := by
  unfold Checked.ofPath Checked.json
  cases files.readText path with
  | error cause => rfl
  | ok text => rfl

theorem path_ofPath (path : Path) :
    (Checked.ofPath files settings now path).path = path := by
  unfold Checked.ofPath
  cases files.readText path <;> rfl

/-- The value holds the numbers of the documents, what they come to, and the value of each. -/
theorem at?_json_outcomes (files : Files) (settings : Settings) (now : Calendar.Moment)
    (paths : List Path) :
    let value := json (outcomes files settings now paths)
    let invalid := faulty files settings now paths
    value.at? ["summary", "total"] = some (.number paths.length) ∧
      value.at? ["summary", "valid"] = some (.number (paths.length - invalid.length)) ∧
      value.at? ["summary", "invalid"] = some (.number invalid.length) ∧
      value.at? ["status"] = some (.text (if invalid = [] then "valid" else "invalid")) ∧
      value.at? ["documents"] =
        some (.array (paths.map fun path => (Checked.ofPath files settings now path).json)) := by
  intro value invalid
  have count : invalidCount (outcomes files settings now paths) = invalid.length :=
    invalidCount_outcomes
  have total : (outcomes files settings now paths).length = paths.length := List.length_map _
  refine ⟨?_, ?_, ?_, ?_, ?_⟩
  · rw [← total]
    rfl
  · rw [← count, ← total]
    rfl
  · rw [← count]
    rfl
  · simp only [← List.length_eq_zero_iff, ← count]
    rfl
  · exact congrArg (fun items => some (JsonValue.array items)) List.map_map

theorem summary_outcomes (files : Files) (settings : Settings) (now : Calendar.Moment)
    (paths : List Path) :
    let invalid := faulty files settings now paths
    summary (outcomes files settings now paths) =
      s!"documents={paths.length} valid={paths.length - invalid.length} " ++
        s!"invalid={invalid.length}" ++ "\n" := by
  intro invalid
  have count : invalidCount (outcomes files settings now paths) = invalid.length :=
    invalidCount_outcomes
  have total : (outcomes files settings now paths).length = paths.length := List.length_map _
  rw [← count, ← total]
  rfl

/-- The documents that the value shows as invalid are those at fault. -/
theorem filter_showsInvalid (paths : List Path) :
    paths.filter (fun path => showsInvalid (Checked.ofPath files settings now path).json) =
      faulty files settings now paths := by
  apply List.filter_congr
  intro path _
  rw [showsInvalid_json, isValid_ofPath, Bool.not_not]

/-! ## Runs -/

section Runs

variable {surroundings : Surroundings} {settingsPath : Path} {validation : Validation}
  {listed : List Path}

/-- A validation of documents that are found presents their outcomes. -/
theorem perform_validate
    (loaded : loadSettings surroundings.files settingsPath = .ok settings)
    (found : surroundings.files.documents (validation.settings settings) validation.paths =
      .ok listed)
    (nonempty : listed ≠ []) :
    let checked :=
      outcomes surroundings.files (validation.settings settings) surroundings.now listed
    perform surroundings settingsPath (.validate validation) =
      .presented surroundings.files (checked.all Checked.isValid)
        (present? surroundings.host validation.quiet checked validation.presentation) := by
  obtain ⟨first, rest, rfl⟩ := List.exists_cons_of_ne_nil nonempty
  simp only [perform, withSettings, loaded, validate, found]
  rfl

/-- Documents whose paths are text have a value for other programs. -/
theorem present?_json (quiet : Bool)
    (spelled : ∀ path ∈ listed, surroundings.host.isText path = true) :
    let checked := outcomes surroundings.files settings surroundings.now listed
    present? surroundings.host quiet checked .json =
      some (Checked.line ((json checked).pretty 0)) := by
  refine if_pos (List.all_eq_true.mpr fun checked member => ?_)
  obtain ⟨path, among, rfl⟩ := List.mem_map.mp member
  rw [path_ofPath]
  exact spelled path among

/-- Where a path is no text there is no such value. -/
theorem present?_json_of_misspelt (quiet : Bool)
    (misspelt : ¬∀ path ∈ listed, surroundings.host.isText path = true) :
    present? surroundings.host quiet
      (outcomes surroundings.files settings surroundings.now listed) .json = none := by
  refine if_neg fun all => misspelt fun path member => ?_
  rw [← @path_ofPath surroundings.files settings surroundings.now path]
  exact List.all_eq_true.mp all _ (List.mem_map_of_mem member)

theorem exists_present? {presentation : Presentation} (quiet : Bool)
    (spelled : presentation = .json → ∀ path ∈ listed, surroundings.host.isText path = true) :
    ∃ output, present? surroundings.host quiet
      (outcomes surroundings.files settings surroundings.now listed) presentation =
        some output := by
  cases presentation with
  | table => exact ⟨_, rfl⟩
  | json => exact ⟨_, present?_json quiet (spelled rfl)⟩
  | summary => exact ⟨_, rfl⟩

/-- Where there is a presentation, no error is told of, and the exit code tells whether there are
documents at fault. -/
theorem ends_presented {presentation : Presentation} (quiet : Bool)
    (spelled : presentation = .json → ∀ path ∈ listed, surroundings.host.isText path = true) :
    let checked := outcomes surroundings.files settings surroundings.now listed
    let result := Result.presented surroundings.files (checked.all Checked.isValid)
      (present? surroundings.host quiet checked presentation)
    result.error = none ∧
      result.code =
        if faulty surroundings.files settings surroundings.now listed = [] then 0 else 2 := by
  intro checked result
  obtain ⟨output, shown⟩ : ∃ output,
      present? surroundings.host quiet checked presentation = some output :=
    exists_present? quiet spelled
  simp only [result, shown, Result.presented, Result.verdict, checked, all_isValid_outcomes_iff,
    and_self]

/-- A report on a document that is read comes to the verdict of its inspection. -/
theorem perform_report {text : String}
    (loaded : loadSettings surroundings.files settingsPath = .ok settings)
    (read : surroundings.files.readText path = .ok text) :
    perform surroundings settingsPath (.report path validation.sanitize) =
      let report := (validation.settings settings).inspect surroundings.now text
      .verdict surroundings.files report.isValid report.text := by
  have alike := Settings.judgesAlike_addExtensions
    { settings with sanitize := settings.sanitize || validation.sanitize } validation.extensions
  have same : (validation.settings settings).inspect surroundings.now text =
      Settings.inspect { settings with sanitize := settings.sanitize || validation.sanitize }
        surroundings.now text := by
    rw [Settings.inspect, Validation.settings, alike.diagnose_eq]
    rfl
  simp only [perform, withSettings, loaded, report, withDocument, read, same]

theorem documents_of_readText {text : String} (read : files.readText path = .ok text) :
    files.documents settings [path] = .ok [path] := by
  have found : ∃ content, files.find path = .ok (.file content) := by
    unfold Files.readText Files.readBytes at read
    split at read
    · cases read
    · next content bytes =>
      split at bytes
      · next found => exact ⟨_, found⟩
      · cases bytes
      · cases bytes
  obtain ⟨content, found⟩ := found
  simp [Files.documents, Files.gather, Files.documentsAt?, found, Path.sorted,
    Path.withoutRepeats]

/-- The report on a document prints the numbers that the value for other programs holds. -/
theorem exists_numbers {text : String} (read : files.readText path = .ok text) :
    let item := (Checked.ofPath files settings now path).json
    let rows := Text.lines (settings.inspect now text).text
    ∃ errors warnings,
      item.at? ["report", "errors"] = some (.number errors) ∧
      item.at? ["report", "warnings"] = some (.number warnings) ∧
      rows[3]? = some s!"Errors: {errors}" ∧ rows[4]? = some s!"Warnings: {warnings}" := by
  intro item rows
  have shape : item =
      .object [("file", .text path), ("report", (settings.inspect now text).json)] := by
    simp only [item, Checked.ofPath, read]
    rfl
  rw [shape]
  refine ⟨_, _, rfl, rfl, ?_, ?_⟩ <;>
  · simp only [rows, Report.lines_text]
    rfl

/-- The report on a document that is read ends as the validation of that document alone. -/
theorem code_report {text : String}
    (loaded : loadSettings surroundings.files settingsPath = .ok settings)
    (read : surroundings.files.readText path = .ok text) :
    (perform surroundings settingsPath (.report path validation.sanitize)).code =
      if faulty surroundings.files (validation.settings settings) surroundings.now [path] = []
        then 0 else 2 := by
  have sound :
      ((validation.settings settings).inspect surroundings.now text).isValid = true ↔
        faulty surroundings.files (validation.settings settings) surroundings.now [path] = [] := by
    rw [← all_isValid_outcomes_iff]
    simp [outcomes, Checked.ofPath, read, Checked.isValid]
  rw [perform_report loaded read]
  simp only [← sound]
  rfl

/-- All outputs of a validation tell of the same invalid documents, those that cannot be read or in
which an error is found.  The exit code is two if there are any and zero otherwise, in every
presentation and whether or not valid documents are passed over.  The numbers of the summary add up,
and other programs read them and the invalid documents from the value that is printed for them.  The
table has rows for every listed document, the first with a cross for an invalid one and with a tick
for another, or for the invalid ones alone; where no row holds a line feed, as many of its lines
begin with a cross as documents are invalid.  For a single document that can be read the report
comes to the same exit code, and to the numbers of errors and warnings in the value.  A path that is
no text has no place in the value for other programs: then there is none, and the run crashes. -/
theorem outputs_tell_of_same_documents
    (loaded : loadSettings surroundings.files settingsPath = .ok settings)
    (found : surroundings.files.documents (validation.settings settings) validation.paths =
      .ok listed)
    (nonempty : listed ≠ []) :
    let known := validation.settings settings
    let result := fun presentation quiet =>
      perform surroundings settingsPath (.validate { validation with presentation, quiet })
    let invalid := faulty surroundings.files known surroundings.now listed
    let all := listed.length
    let item := fun path =>
      (Checked.ofPath surroundings.files known surroundings.now path).json
    let rows := rowsAt surroundings known
    let spelled := ∀ path ∈ listed, surroundings.host.isText path = true
    (∀ presentation quiet, (presentation = .json → spelled) →
      (result presentation quiet).error = none ∧
      (result presentation quiet).code = if invalid = [] then 0 else 2) ∧
    (¬spelled → ∀ quiet,
      (result .json quiet).code = 101 ∧ (result .json quiet).output = "") ∧
    (∃ valid, valid + invalid.length = all ∧
      (∀ quiet, (result .summary quiet).output =
        s!"documents={all} valid={valid} " ++ s!"invalid={invalid.length}" ++ "\n") ∧
      (spelled → ∀ quiet, ∃ value,
        JsonValue.read? (result .json quiet).output = some value ∧
        value.at? ["summary", "total"] = some (.number all) ∧
        value.at? ["summary", "valid"] = some (.number valid) ∧
        value.at? ["summary", "invalid"] = some (.number invalid.length) ∧
        value.at? ["status"] = some (.text (if invalid = [] then "valid" else "invalid")) ∧
        value.at? ["documents"] = some (.array (listed.map item)))) ∧
    (∀ path ∈ listed, (item path).at? ["file"] = some (.text path)) ∧
    listed.filter (fun path => showsInvalid (item path)) = invalid ∧
    (result .table false).output =
      printed (listed.flatMap rows ++ ["", verdictRow surroundings.host invalid.length all]) ∧
    (result .table true).output = printed (invalid.flatMap rows) ∧
    (∀ path ∈ listed, ∃ first others, rows path = first :: others ∧
      firstShown? first = some (if path ∈ invalid then '✗' else '✓') ∧
      ∀ row ∈ others, firstShown? row = some ' ') ∧
    ((∀ path ∈ listed, ∀ row ∈ rows path, Text.IsSingleLine row) → ∀ quiet,
      (Text.lines (result .table quiet).output).countP isMarked = invalid.length) ∧
    ∀ path text, validation.paths = [path] → surroundings.files.readText path = .ok text →
      let report := perform surroundings settingsPath (.report path validation.sanitize)
      (∀ presentation quiet, (presentation = .json → spelled) →
        report.code = (result presentation quiet).code) ∧
      ∃ errors warnings,
        (item path).at? ["report", "errors"] = some (.number errors) ∧
        (item path).at? ["report", "warnings"] = some (.number warnings) ∧
        (Text.lines report.output)[3]? = some s!"Errors: {errors}" ∧
        (Text.lines report.output)[4]? = some s!"Warnings: {warnings}" := by
  intro known result invalid all item rows spelled
  let checked := outcomes surroundings.files known surroundings.now listed
  have run : ∀ presentation quiet, result presentation quiet =
      .presented surroundings.files (checked.all Checked.isValid)
        (present? surroundings.host quiet checked presentation) :=
    fun presentation quiet => perform_validate loaded found nonempty
  have ends : ∀ presentation quiet, (presentation = .json → spelled) →
      (result presentation quiet).error = none ∧
      (result presentation quiet).code = if invalid = [] then 0 else 2 := by
    intro presentation quiet text
    rw [run]
    exact ends_presented quiet text
  have table : ∀ quiet, (result .table quiet).output =
      Command.table surroundings.host quiet checked := by
    intro quiet
    rw [run]
    rfl
  refine ⟨ends, fun misspelt quiet => ?_, ⟨all - invalid.length,
      Nat.sub_add_cancel (List.length_filter_le _ _), fun quiet => ?_, fun text quiet => ?_⟩,
    fun path _ => at?_file_json path, filter_showsInvalid listed, ?_, ?_,
    fun path member => exists_marked_rowAt member, fun single quiet => ?_, ?_⟩
  · rw [run, present?_json_of_misspelt quiet misspelt]
    exact ⟨rfl, rfl⟩
  · rw [run]
    exact summary_outcomes surroundings.files known surroundings.now listed
  · rw [run, present?_json quiet text]
    exact ⟨json checked, JsonValue.read?_pretty (json checked) 0 rfl,
      at?_json_outcomes surroundings.files known surroundings.now listed⟩
  · rw [table]
    exact table_outcomes surroundings known false listed
  · rw [table]
    refine (table_outcomes surroundings known true listed).trans ?_
    rw [if_pos rfl, if_pos rfl, List.append_nil]
  · rw [table, ← invalidCount_outcomes]
    refine countP_isMarked_lines_table (fun document member => ?_) quiet
    obtain ⟨path, among, rfl⟩ := List.mem_map.mp member
    exact single path among
  · intro path text alone read report
    have single : listed = [path] := by
      rw [alone, documents_of_readText read] at found
      exact (Except.ok.inj found).symm
    refine ⟨fun presentation quiet named => ?_, ?_⟩
    · rw [(ends presentation quiet named).2]
      simp only [invalid, single]
      exact code_report loaded read
    · have verdict : report.output = (known.inspect surroundings.now text).text :=
        congrArg Result.output (perform_report loaded read)
      rw [verdict]
      exact exists_numbers read

end Runs

/-- The second day of July 2024. -/
def inspectionDay : Calendar.Moment :=
  .midnight ⟨2024, 7, 2, by decide, by decide⟩

/-- A record without content, beside nothing else. -/
def blankRecord : Files :=
  ⟨.directory [("jar.xml", .file "".toUTF8)], []⟩

theorem blankRecord_outputs :
    let surroundings : Surroundings := ⟨blankRecord, inspectionDay, false⟩
    let result := fun presentation => perform surroundings defaultSettingsPath
      (.validate { paths := ["jar.xml"], presentation })
    loadSettings blankRecord defaultSettingsPath = .ok {} ∧
      blankRecord.documents {} ["jar.xml"] = .ok ["jar.xml"] ∧
      (perform surroundings defaultSettingsPath (.report "jar.xml" false)).code = 2 ∧
      (result .summary).output = "documents=1 valid=0 invalid=1\n" ∧
      ∃ value, JsonValue.read? (result .json).output = some value ∧
        value.at? ["summary", "invalid"] = some (.number 1) := by
  intro surroundings result
  have read : blankRecord.readText "jar.xml" = .ok "" := by decide +kernel
  have loaded : loadSettings blankRecord defaultSettingsPath = .ok {} := by decide +kernel
  have found : blankRecord.documents {} ["jar.xml"] = .ok ["jar.xml"] :=
    documents_of_readText read
  have invalid : faulty blankRecord {} surroundings.now ["jar.xml"] = ["jar.xml"] := by
    refine List.filter_eq_self.mpr fun path member => decide_eq_true ?_
    rw [List.mem_singleton] at member
    intro text other
    rw [member, read] at other
    cases other
    exact ⟨_, List.mem_singleton_self _, rfl⟩
  have count : (faulty surroundings.files {} surroundings.now ["jar.xml"]).length = 1 :=
    congrArg List.length invalid
  have plain : ({ paths := ["jar.xml"] } : Validation).settings {} = {} := rfl
  obtain ⟨codes, _, ⟨valid, total, summary, values⟩, _, _, _, _, _, _, report⟩ :=
    @outputs_tell_of_same_documents _ surroundings defaultSettingsPath { paths := ["jar.xml"] }
      ["jar.xml"] loaded found (List.cons_ne_nil _ _)
  refine ⟨loaded, found, ?_, ?_, ?_⟩
  · rw [(report "jar.xml" "" rfl read).1 .table false (fun other => nomatch other),
      (codes .table false (fun other => nomatch other)).2]
    exact if_neg (invalid ▸ List.cons_ne_nil _ _)
  · change valid + (faulty blankRecord {} surroundings.now ["jar.xml"]).length = 1 at total
    rw [invalid, List.length_singleton, Nat.add_eq_right] at total
    refine (summary false).trans ?_
    rw [total, plain, count]
    rfl
  · obtain ⟨value, reads, _, _, invalids, _⟩ := values (fun _ _ => rfl) false
    rw [plain, count] at invalids
    exact ⟨value, reads, invalids⟩

/-- A record whose content holds the row of another invalid record. -/
def forgedRecord : Files :=
  ⟨.directory [("jar.xml", .file "<a b='&\n✗ urn.xml;'/>".toUTF8)], []⟩

/-- A machine on which the name of one record is no text. -/
def misspeltHost : Host :=
  { color := false, isText := fun path => path != "./jar.xml" }

/-- Two crosses are in the table of one document that quotes a row; and an invalid document whose
name is no text is told of in the table and in the summary, but not to other programs. -/
theorem outputs_differ_on_forged_and_misspelt :
    let forged := fun presentation =>
      perform ⟨forgedRecord, inspectionDay, false⟩ defaultSettingsPath
        (.validate { paths := ["jar.xml"], presentation })
    let misspelt := fun presentation =>
      perform ⟨blankRecord, inspectionDay, misspeltHost⟩ defaultSettingsPath
        (.validate { paths := ["."], presentation })
    ((Text.lines (forged .table).output).countP isMarked = 2 ∧
        (forged .summary).output = "documents=1 valid=0 invalid=1\n") ∧
      (Text.lines (misspelt .table).output).countP isMarked = 1 ∧
        (misspelt .summary).output = "documents=1 valid=0 invalid=1\n" ∧
        (misspelt .table).code = 2 ∧ (misspelt .summary).code = 2 ∧
        (misspelt .json).code = 101 ∧ (misspelt .json).output = "" := by
  decide +kernel

end Command
end MuseumRecord
