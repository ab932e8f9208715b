import MuseumRecord.Proofs.Files.Listing
import MuseumRecord.Proofs.Settings.RoundTrip

/-!
# Creation of a settings file

A run leaves the files as they are or creates one file, that of the default settings.  Default
settings in a file are loaded as if there were no file, so the new file changes the outcome of no
other run, unless the file is among the documents that the run asks for.
-/

namespace MuseumRecord
namespace Command

/-- The program called with arguments. -/
structure Invocation where
  /-- The arguments. -/
  arguments : List String
  /-- The moment of the call. -/
  now : Calendar.Moment
  /-- The machine. -/
  host : Host

/-- What a call comes to in a file tree. -/
def Invocation.run (files : Files) (invocation : Invocation) : Result :=
  Command.run ⟨files, invocation.now, invocation.host⟩ invocation.arguments

/-- The files after calls, one after the other. -/
def filesAfter (files : Files) (invocations : List Invocation) : Files :=
  invocations.foldl (fun files invocation => (invocation.run files).files) files

/-- The bytes of the file of default settings. -/
def defaultContent : ByteArray :=
  (Settings.fileText {}).toUTF8

/-- Whether an action inspects documents. -/
def Action.isInspection : Action → Bool
  | .validate _ => true
  | .report _ _ => true
  | _ => false

/-- The paths of the documents that an action inspects: those it names and those it collects from
directories. -/
def Action.inspected (files : Files) (settings : Settings) : Action → List Path
  | .validate validation => validation.paths.flatMap fun path =>
      (files.documentsAt? (validation.settings settings) path).getD []
  | .report path _ => [path]
  | _ => []

/-- The results have the same exit code and the same output. -/
structure Result.Agrees (left right : Result) : Prop where
  code : left.code = right.code
  output : left.output = right.output

/-! ## What a run does to the files -/

section Run

variable {files : Files} {surroundings : Surroundings}

/-- A result leaves the files as they are. -/
def Result.Leaves (result : Result) (files : Files) : Prop :=
  result.files = files ∧ result.created = none

/-- A result adds the file of the default settings at a path where there was nothing. -/
structure Result.Creates (result : Result) (files : Files) (path : Path) : Prop where
  code : result.code = 0
  absent : files.isThere path = false
  created : result.created = some (path, Settings.fileText {})
  adds : ∃ place name, Files.AddsFile files result.files place name defaultContent ∧
    result.files.namesOf path = .ok (place ++ [name])

theorem withSettings_leaves {path : Path} {use : Settings → Result}
    (leaves : ∀ settings, (use settings).Leaves files) :
    (withSettings files path use).Leaves files := by
  unfold withSettings
  split
  · exact leaves _
  · exact ⟨rfl, rfl⟩

theorem withDocument_leaves {path : Path} {use : String → Result}
    (leaves : ∀ text, (use text).Leaves files) : (withDocument files path use).Leaves files := by
  unfold withDocument
  split
  · exact leaves _
  · exact ⟨rfl, rfl⟩

theorem presented_leaves (good : Bool) (output : Option String) :
    (Result.presented files good output).Leaves files := by
  cases output <;> exact ⟨rfl, rfl⟩

theorem validate_leaves (validation : Validation) (settings : Settings) :
    (validate surroundings validation settings).Leaves surroundings.files := by
  unfold validate
  dsimp only
  split
  · exact ⟨rfl, rfl⟩
  · exact ⟨rfl, rfl⟩
  · exact presented_leaves _ _

theorem report_leaves (path : Path) (sanitize : Bool) (settings : Settings) :
    (report surroundings path sanitize settings).Leaves surroundings.files :=
  withDocument_leaves fun _ => ⟨rfl, rfl⟩

/-- Only the creation of a settings file changes the files. -/
theorem perform_leaves {settingsPath : Path} {action : Action} (other : action ≠ .create) :
    (perform surroundings settingsPath action).Leaves surroundings.files := by
  cases action with
  | validate validation => exact withSettings_leaves (validate_leaves validation)
  | report path sanitize => exact withSettings_leaves (report_leaves path sanitize)
  | date expressions => exact ⟨rfl, rfl⟩
  | schema => exact ⟨rfl, rfl⟩
  | sanitize path => exact withDocument_leaves fun _ => ⟨rfl, rfl⟩
  | create => exact absurd rfl other

theorem create_cases (files : Files) (path : Path) :
    (create files path).Leaves files ∧ (create files path).code = 1 ∨
      (create files path).Creates files path := by
  unfold create
  split
  · exact .inl ⟨⟨rfl, rfl⟩, rfl⟩
  · next absent =>
    rw [Bool.not_eq_true] at absent
    split
    · next after saved =>
      have created := Files.create_of_write (Settings.write_of_save saved) absent
      exact .inr ⟨rfl, absent, rfl, Files.exists_addsFile created absent⟩
    · exact .inl ⟨⟨rfl, rfl⟩, rfl⟩

/-- A run leaves the files as they are, unless it creates the file of the default settings.  A
creation that leaves them fails. -/
theorem run_cases (files : Files) (invocation : Invocation) :
    (invocation.run files).Leaves files ∧
        (∀ path, Request.ofArguments invocation.arguments = .perform path .create →
          (invocation.run files).code = 1) ∨
      ∃ path, Request.ofArguments invocation.arguments = .perform path .create ∧
        (invocation.run files).Creates files path := by
  unfold Invocation.run run
  cases request : Request.ofArguments invocation.arguments with
  | misuse => exact .inl ⟨⟨rfl, rfl⟩, fun path asked => by cases asked⟩
  | help => exact .inl ⟨⟨rfl, rfl⟩, fun path asked => by cases asked⟩
  | version => exact .inl ⟨⟨rfl, rfl⟩, fun path asked => by cases asked⟩
  | perform path action =>
    by_cases other : action = .create
    · subst other
      rcases create_cases files path with ⟨leaves, failed⟩ | creates
      · exact .inl ⟨leaves, fun _ _ => failed⟩
      · exact .inr ⟨path, rfl, creates⟩
    · refine .inl ⟨perform_leaves other, fun path asked => ?_⟩
      cases asked
      exact absurd rfl other

/-- The creation of a settings file fails where there is something, and changes nothing. -/
theorem run_create_of_isThere {invocation : Invocation} {path : Path}
    (request : Request.ofArguments invocation.arguments = .perform path .create)
    (there : files.isThere path = true) :
    (invocation.run files).code = 1 ∧ (invocation.run files).Leaves files := by
  unfold Invocation.run run
  rw [request]
  dsimp only [perform, create]
  rw [if_pos there]
  exact ⟨rfl, rfl, rfl⟩

end Run

/-! ## What a new file of default settings changes -/

section Neutral

variable {before after : Files} {names : List String} {path : Path}

theorem readText_of_not_isThere {files : Files} (absent : files.isThere path = false) :
    ∃ cause, files.readText path = .error cause := by
  unfold Files.isThere at absent
  unfold Files.readText Files.readBytes
  cases found : files.find path with
  | error cause => exact ⟨cause, rfl⟩
  | ok node =>
    rw [found] at absent
    cases absent

/-- Default settings are loaded from their file. -/
theorem loadSettings_of_namesOf (gains : Files.Gains before after names defaultContent)
    (leads : after.namesOf path = .ok names) : loadSettings after path = .ok {} :=
  Settings.loadSettings_of_readBytes (gains.readBytes_self leads)

/-- A new file of default settings changes the settings at no path. -/
theorem loadSettings_eq (gains : Files.Gains before after names defaultContent) :
    loadSettings after path = loadSettings before path := by
  by_cases there : before.isThere path = true
  · unfold loadSettings Settings.load
    rw [if_pos there, if_pos (gains.isThere_of_isThere there), Files.readText, Files.readText,
      gains.readBytes_of_isThere there]
  · have default : loadSettings before path = .ok {} := if_neg there
    rw [default]
    by_cases thereAfter : after.isThere path = true
    · exact loadSettings_of_namesOf gains
        ((gains.isThere_cases thereAfter).resolve_left there)
    · exact if_neg thereAfter

/-- A document that is not the new file is read as before, or cannot be read before and after. -/
theorem withDocument_agrees (gains : Files.Gains before after names defaultContent)
    (apart : after.namesOf path ≠ .ok names) {use useAfter : String → Result}
    (agrees : ∀ text, (useAfter text).Agrees (use text)) :
    (withDocument after path useAfter).Agrees (withDocument before path use) := by
  unfold withDocument
  by_cases there : before.isThere path = true
  · rw [Files.readText, Files.readText, gains.readBytes_of_isThere there]
    split
    · exact agrees _
    · exact ⟨rfl, rfl⟩
  · have nothing : ¬after.isThere path = true := fun thereAfter =>
      apart ((gains.isThere_cases thereAfter).resolve_left there)
    obtain ⟨cause, unreadable⟩ := readText_of_not_isThere (Bool.not_eq_true _ ▸ there)
    obtain ⟨causeAfter, unreadableAfter⟩ := readText_of_not_isThere (Bool.not_eq_true _ ▸ nothing)
    rw [unreadable, unreadableAfter]
    exact ⟨rfl, rfl⟩

theorem ofPath_eq (gains : Files.Gains before after names defaultContent) (settings : Settings)
    (now : Calendar.Moment) (there : before.isThere path = true) :
    Checked.ofPath after settings now path = Checked.ofPath before settings now path := by
  unfold Checked.ofPath
  rw [Files.readText, Files.readText, gains.readBytes_of_isThere there]

theorem presented_agrees (good : Bool) (output : Option String) :
    (Result.presented after good output).Agrees (Result.presented before good output) := by
  cases output <;> exact ⟨rfl, rfl⟩

/-- The same documents are validated with the same outcome. -/
theorem validate_agrees {place : List String} {name : String}
    (adds : Files.AddsFile before after place name defaultContent) (proper : before.root.IsProper)
    {now : Calendar.Moment} {host : Host} {validation : Validation} {settings : Settings}
    (apart : ∀ asked ∈ (Action.validate validation).inspected after settings,
      after.namesOf asked ≠ .ok (place ++ [name])) :
    (validate ⟨after, now, host⟩ validation settings).Agrees
      (validate ⟨before, now, host⟩ validation settings) := by
  have gathered : after.documents (validation.settings settings) validation.paths =
      before.documents (validation.settings settings) validation.paths := by
    unfold Files.documents
    rw [Files.gather_congr]
    intro path asked
    apply adds.documentsAt?_eq proper
    intro found documents listed member
    apply apart
    unfold Action.inspected
    rw [List.mem_flatMap]
    exact ⟨path, asked, by rw [documents]; exact member⟩
  unfold validate
  dsimp only
  rw [gathered]
  cases documents : before.documents (validation.settings settings) validation.paths with
  | error missing => exact ⟨rfl, rfl⟩
  | ok paths =>
    cases paths with
    | nil => exact ⟨rfl, rfl⟩
    | cons first rest =>
      have same : (first :: rest).map
            (Checked.ofPath after (validation.settings settings) now) =
          (first :: rest).map (Checked.ofPath before (validation.settings settings) now) := by
        apply List.map_congr_left
        intro path member
        exact ofPath_eq adds.gains _ now
          (Files.isThere_of_mem_documents proper documents member)
      dsimp only
      rw [same]
      exact presented_agrees _ _

theorem withSettings_agrees (gains : Files.Gains before after names defaultContent)
    {use useAfter : Settings → Result}
    (agrees : ∀ settings, loadSettings before path = .ok settings →
      (useAfter settings).Agrees (use settings)) :
    (withSettings after path useAfter).Agrees (withSettings before path use) := by
  unfold withSettings
  rw [loadSettings_eq gains]
  split
  · next settings loaded => exact agrees settings loaded
  · exact ⟨rfl, rfl⟩

/-- An inspection comes to the same when a file of default settings is new that it does not
inspect. -/
theorem perform_agrees {place : List String} {name : String}
    (adds : Files.AddsFile before after place name defaultContent) (proper : before.root.IsProper)
    {now : Calendar.Moment} {host : Host} {settingsPath : Path} {action : Action}
    (inspection : action.isInspection = true)
    (apart : ∀ settings, loadSettings before settingsPath = .ok settings →
      ∀ listed ∈ action.inspected after settings, after.namesOf listed ≠ .ok (place ++ [name])) :
    (perform ⟨after, now, host⟩ settingsPath action).Agrees
      (perform ⟨before, now, host⟩ settingsPath action) := by
  cases action with
  | validate validation =>
    apply withSettings_agrees adds.gains
    intro settings loaded
    exact validate_agrees adds proper (apart settings loaded)
  | report path sanitize =>
    apply withSettings_agrees adds.gains
    intro settings loaded
    apply withDocument_agrees adds.gains
    · exact apart settings loaded path List.mem_cons_self
    · intro text
      exact ⟨rfl, rfl⟩
  | date expressions => cases inspection
  | schema => cases inspection
  | sanitize path => cases inspection
  | create => cases inspection

end Neutral

/-! ## Histories -/

section History

variable {files : Files} {invocation : Invocation}

/-- A run keeps every file with its content. -/
theorem run_keeps_files {names : List String} {content : ByteArray}
    (there : files.root.at? names = some (.file content)) :
    (invocation.run files).files.root.at? names = some (.file content) := by
  rcases run_cases files invocation with ⟨⟨same, _⟩, _⟩ | ⟨path, _, creates⟩
  · rw [same]
    exact there
  · obtain ⟨place, name, adds, _⟩ := creates.adds
    have shown := Node.shows_eq_file_iff.mpr there
    rw [← Node.shows_eq_file_iff] at there ⊢
    exact (adds.gains.shows_of_isSome (by rw [shown]; rfl)).trans there

/-- A history of runs keeps every file with its content. -/
theorem filesAfter_keeps_files (history : List Invocation) {names : List String}
    {content : ByteArray} (there : files.root.at? names = some (.file content)) :
    (filesAfter files history).root.at? names = some (.file content) := by
  induction history generalizing files with
  | nil => exact there
  | cons invocation history inductionHypothesis =>
    exact inductionHypothesis (run_keeps_files there)

/-- Creating the file of default settings changes no file and no verdict.  In every history of runs
the files keep their content; a run leaves the tree as it is or, as the successful creation of a
settings file where there was nothing, adds that one file, from which the default settings are
loaded; a creation fails if it adds nothing, as it does where there is something.  After a creation
every inspection that does not inspect the new file has the same output and the same exit code as
before. -/
theorem creation_is_neutral (start : Files) (history : List Invocation) :
    (∀ names content, start.root.at? names = some (.file content) →
      (filesAfter start history).root.at? names = some (.file content)) ∧
    (∀ invocation : Invocation,
      let files := filesAfter start history
      let result := invocation.run files
      (∀ names content, files.root.at? names = some (.file content) →
        result.files.root.at? names = some (.file content)) ∧
      (result.files = files ∧ result.created = none ∧
          (∀ path, Request.ofArguments invocation.arguments = .perform path .create →
            result.code = 1) ∨
        ∃ path names, Request.ofArguments invocation.arguments = .perform path .create ∧
          result.code = 0 ∧ files.isThere path = false ∧
          result.created = some (path, Settings.fileText {}) ∧
          result.files.namesOf path = .ok names ∧
          (∀ other content, result.files.root.at? other = some (.file content) →
            files.root.at? other = some (.file content) ∨
              other = names ∧ content = defaultContent) ∧
          loadSettings result.files path = .ok {}) ∧
      ∀ path, Request.ofArguments invocation.arguments = .perform path .create →
        files.isThere path = true →
          result.code = 1 ∧ result.files = files ∧ result.created = none) ∧
    (start.root.IsProper → ∀ (initial later : Invocation) (path settingsPath : Path)
      (action : Action),
      Request.ofArguments initial.arguments = .perform path .create →
      Request.ofArguments later.arguments = .perform settingsPath action →
      action.isInspection = true →
      let files := (initial.run start).files
      (∀ settings, loadSettings start settingsPath = .ok settings →
        ∀ listed ∈ action.inspected files settings, ∀ names, files.namesOf path = .ok names →
          files.namesOf listed ≠ .ok names) →
      (later.run files).Agrees (later.run start)) := by
  refine ⟨fun names content there => filesAfter_keeps_files history there, ?_, ?_⟩
  · intro invocation files result
    refine ⟨fun names content there => run_keeps_files there, ?_, ?_⟩
    · rcases run_cases files invocation with ⟨⟨same, nothing⟩, failed⟩ | ⟨path, request, creates⟩
      · exact .inl ⟨same, nothing, failed⟩
      · obtain ⟨place, name, adds, leads⟩ := creates.adds
        refine .inr ⟨path, place ++ [name], request, creates.code, creates.absent,
          creates.created, leads, ?_, loadSettings_of_namesOf adds.gains leads⟩
        intro other content there
        have shown := adds.gains.shows other
        rw [Node.shows_eq_file_iff.mpr there] at shown
        split at shown
        · next new => exact .inr ⟨new, Option.some.inj (Option.some.inj shown)⟩
        · exact .inl (Node.shows_eq_file_iff.mp shown.symm)
    · intro path request there
      exact run_create_of_isThere request there
  · intro proper initial later path settingsPath action creates asks inspection files apart
    rcases run_cases start initial with ⟨leaves, _⟩ | ⟨created, request, result⟩
    · have same : files = start := leaves.1
      rw [same]
      exact ⟨rfl, rfl⟩
    · rw [creates] at request
      cases request
      obtain ⟨place, name, adds, leads⟩ := result.adds
      unfold Invocation.run run
      rw [asks]
      apply perform_agrees adds proper inspection
      intro settings loaded listed member
      exact apart settings loaded listed member _ leads

end History

/-- A record in a directory. -/
def hallFiles : Files :=
  ⟨.directory [("hall", .directory [("jar.xml", .file "<Exhibit/>".toUTF8)])], []⟩

/-- The creation of the default settings file. -/
def creationCall : Invocation :=
  ⟨["init"], .midnight ⟨2024, 6, 1, by decide, by decide⟩, false⟩

/-- The validation of everything in the working directory, which then holds the settings file. -/
def validationCall : Invocation :=
  ⟨["validate", "."], .midnight ⟨2024, 6, 1, by decide, by decide⟩, false⟩

theorem hallFiles_validation_after_creation :
    hallFiles.root.IsProper ∧
      Request.ofArguments creationCall.arguments = .perform defaultSettingsPath .create ∧
      Request.ofArguments validationCall.arguments =
        .perform defaultSettingsPath (.validate { paths := ["."] }) ∧
      (creationCall.run hallFiles).files.isThere defaultSettingsPath = true ∧
      (validationCall.run (creationCall.run hallFiles).files).Agrees
        (validationCall.run hallFiles) := by
  have proper : hallFiles.root.IsProper := by
    refine .directory (by decide) (fun entry member => ?_) fun entry member => ?_
    · rw [List.mem_singleton.mp member]
      exact ⟨by decide, by decide, by decide, by decide⟩
    · rw [List.mem_singleton.mp member]
      refine .directory (by decide) (fun entry member => ?_) fun entry member => ?_
      · rw [List.mem_singleton.mp member]
        exact ⟨by decide, by decide, by decide, by decide⟩
      · rw [List.mem_singleton.mp member]
        exact .file _
  have creates : Request.ofArguments creationCall.arguments =
      .perform defaultSettingsPath .create := by
    decide +kernel
  have validates : Request.ofArguments validationCall.arguments =
      .perform defaultSettingsPath (.validate { paths := ["."] }) := by
    decide +kernel
  have there : (creationCall.run hallFiles).files.isThere defaultSettingsPath = true := by
    decide +kernel
  refine ⟨proper, creates, validates, there, ?_⟩
  apply (creation_is_neutral hallFiles []).2.2 proper creationCall validationCall
    defaultSettingsPath defaultSettingsPath _ creates validates rfl
  intro settings loaded listed member names leads
  have default : settings = {} := by
    rw [show loadSettings hallFiles defaultSettingsPath = .ok {} by decide +kernel] at loaded
    exact (Except.ok.inj loaded).symm
  subst default
  have inspected : (Action.validate { paths := ["."] }).inspected
      (creationCall.run hallFiles).files {} = ["./hall/jar.xml"] := by
    decide +kernel
  rw [inspected, List.mem_singleton] at member
  rw [show (creationCall.run hallFiles).files.namesOf defaultSettingsPath = .ok ["exval.toml"] by
    decide +kernel] at leads
  rw [member, ← Except.ok.inj leads]
  decide +kernel

end Command
end MuseumRecord
