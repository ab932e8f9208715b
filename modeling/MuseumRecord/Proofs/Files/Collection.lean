import MuseumRecord.Proofs.Files.Listing
import MuseumRecord.Proofs.Files.Order

/-!
# Collected files

The files that paths ask for are those given and those of documents below given directories.  They
are collected in the order of paths, each once, unless there is nothing at one of the given paths.
-/

namespace MuseumRecord

/-! ## Files below a node -/

namespace Node

/-- Names lead from a node down to a file. -/
inductive HasFile : Node → List String → Prop
  /-- The node is the file. -/
  | here (content : ByteArray) : HasFile (.file content) []
  /-- The file is that of an entry or stands below it. -/
  | entry {entries : List (String × Node)} {name : String} {node : Node} {names : List String}
      (listed : (name, node) ∈ entries) (inside : HasFile node names) :
      HasFile (.directory entries) (name :: names)

variable {node : Node} {names : List String} {path listed : Path}

/-- The listed paths go on with the names that lead to a file. -/
theorem mem_filePaths_iff :
    listed ∈ node.filePaths path ↔
      ∃ names, node.HasFile names ∧ listed = names.foldl Path.child path := by
  induction node using inductionOnEntries generalizing path with
  | ofFile content =>
    rw [filePaths, List.mem_singleton]
    constructor
    · intro same
      exact ⟨[], .here content, same⟩
    · rintro ⟨names, holds, rfl⟩
      cases holds
      rfl
  | ofDirectory entries inductionHypothesis =>
    rw [filePaths_directory, List.mem_flatMap]
    constructor
    · rintro ⟨⟨name, child⟩, member, inside⟩
      obtain ⟨names, holds, rfl⟩ := (inductionHypothesis _ member).mp inside
      exact ⟨name :: names, .entry member holds, rfl⟩
    · rintro ⟨names, holds, rfl⟩
      cases holds with
      | entry member inside =>
        exact ⟨_, member, (inductionHypothesis _ member).mpr ⟨_, inside, rfl⟩⟩

/-- In a proper tree no other entry hides a file. -/
theorem HasFile.exists_at? (holds : node.HasFile names) (proper : node.IsProper) :
    ∃ content, node.at? names = some (.file content) := by
  induction holds with
  | here content => exact ⟨content, by rw [at?]⟩
  | entry member inside inductionHypothesis =>
    cases proper with
    | directory distinct namesProper entriesProper =>
      obtain ⟨content, found⟩ := inductionHypothesis (entriesProper _ member)
      refine ⟨content, ?_⟩
      rw [at?_directory_cons, lookup_of_mem distinct member, Option.bind_some, found]

end Node

/-! ## What paths ask for -/

namespace Files

/-- A file is given, or it stands below a given directory and has an extension that the settings
accept. -/
inductive Asks (files : Files) (settings : Settings) (paths : List Path) : Path → Prop
  /-- The path of the file is given, whatever its extension. -/
  | given {path : Path} {content : ByteArray} (member : path ∈ paths)
      (found : files.find path = .ok (.file content)) : Asks files settings paths path
  /-- The path of a directory is given, and names lead from it to the file. -/
  | collected {path : Path} {entries : List (String × Node)} {names : List String}
      {extension : String} (member : path ∈ paths)
      (found : files.find path = .ok (.directory entries))
      (holds : (Node.directory entries).HasFile names)
      (extended : (names.foldl Path.child path).extension? = some extension)
      (accepted : settings.accepts extension = true) :
      Asks files settings paths (names.foldl Path.child path)

variable {files : Files} {settings : Settings} {path listed missing : Path}
  {paths found : List Path}

theorem acceptsPath_iff :
    settings.acceptsPath path = true ↔
      ∃ extension, path.extension? = some extension ∧ settings.accepts extension = true := by
  rw [Settings.acceptsPath, Option.any_eq_true]

theorem isThere_eq_false_iff :
    files.isThere path = false ↔ ∃ cause, files.find path = .error cause := by
  unfold isThere
  cases files.find path <;> simp [Except.toBool]

theorem documentsAt?_eq_none_iff :
    files.documentsAt? settings path = none ↔ files.isThere path = false := by
  rw [isThere_eq_false_iff]
  unfold documentsAt?
  split <;> simp_all

theorem documentsAt?_eq_some (there : files.isThere path = true) :
    files.documentsAt? settings path = some ((files.documentsAt? settings path).getD []) := by
  cases asked : files.documentsAt? settings path with
  | none =>
    rw [documentsAt?_eq_none_iff.mp asked] at there
    cases there
  | some row => rfl

theorem gather_cons_of_there (there : files.isThere path = true) :
    files.gather settings (path :: paths) =
      (files.gather settings paths).map ((files.documentsAt? settings path).getD [] ++ ·) := by
  rw [gather, documentsAt?_eq_some there]
  cases files.gather settings paths <;> rfl

theorem gather_cons_of_absent (absent : files.isThere path = false) :
    files.gather settings (path :: paths) = .error path := by
  rw [gather, documentsAt?_eq_none_iff.mpr absent]

/-- The first path with nothing at it is the error. -/
theorem gather_eq_error_iff :
    files.gather settings paths = .error missing ↔
      paths.find? (fun path => !files.isThere path) = some missing := by
  induction paths with
  | nil => simp [gather]
  | cons path paths inductionHypothesis =>
    cases there : files.isThere path with
    | false => simp [gather_cons_of_absent there, there]
    | true =>
      rw [gather_cons_of_there there, List.find?_cons_of_neg (by simp [there]),
        ← inductionHypothesis]
      cases files.gather settings paths <;> simp [Except.map]

/-- All that the paths ask for is gathered, if there is something at every path. -/
theorem gather_eq_ok_iff :
    files.gather settings paths = .ok found ↔
      (∀ path ∈ paths, files.isThere path = true) ∧
        found = paths.flatMap fun path => (files.documentsAt? settings path).getD [] := by
  induction paths generalizing found with
  | nil =>
    constructor
    · rintro ⟨⟩
      exact ⟨List.forall_mem_nil _, rfl⟩
    · rintro ⟨_, rfl⟩
      rfl
  | cons path paths inductionHypothesis =>
    rw [List.forall_mem_cons, List.flatMap_cons]
    cases there : files.isThere path with
    | false => simp [gather_cons_of_absent there]
    | true =>
      rw [gather_cons_of_there there]
      constructor
      · intro gathered
        cases others : files.gather settings paths with
        | error missing =>
          rw [others] at gathered
          cases gathered
        | ok row =>
          rw [others] at gathered
          obtain ⟨all, rfl⟩ := inductionHypothesis.mp others
          cases gathered
          exact ⟨⟨rfl, all⟩, rfl⟩
      · rintro ⟨⟨_, all⟩, rfl⟩
        rw [inductionHypothesis.mpr ⟨all, rfl⟩]
        rfl

theorem mem_documentsAt?_iff :
    listed ∈ (files.documentsAt? settings path).getD [] ↔
      (∃ content, files.find path = .ok (.file content) ∧ listed = path) ∨
        ∃ entries names, files.find path = .ok (.directory entries) ∧
          (Node.directory entries).HasFile names ∧ listed = names.foldl Path.child path ∧
          settings.acceptsPath listed = true := by
  unfold documentsAt?
  cases files.find path with
  | error cause => simp
  | ok node =>
    cases node with
    | file content => simp
    | directory entries =>
      have below := @Node.mem_filePaths_iff (.directory entries) path listed
      rw [Node.filePaths] at below
      simp only [Option.getD_some, List.mem_filter, below]
      constructor
      · rintro ⟨⟨names, holds, same⟩, accepted⟩
        exact .inr ⟨entries, names, rfl, holds, same, accepted⟩
      · rintro (⟨content, file, _⟩ | ⟨_, names, ⟨⟩, holds, same, accepted⟩)
        · cases file
        · exact ⟨⟨names, holds, same⟩, accepted⟩

/-- A path is gathered exactly when it is asked for. -/
theorem mem_gather_iff (gathered : files.gather settings paths = .ok found) :
    listed ∈ found ↔ files.Asks settings paths listed := by
  rw [(gather_eq_ok_iff.mp gathered).2, List.mem_flatMap]
  constructor
  · rintro ⟨path, member, inside⟩
    rcases mem_documentsAt?_iff.mp inside with ⟨content, file, rfl⟩ |
      ⟨entries, names, directory, holds, rfl, accepts⟩
    · exact .given member file
    · obtain ⟨extension, extended, accepted⟩ := acceptsPath_iff.mp accepts
      exact .collected member directory holds extended accepted
  · intro asked
    cases asked with
    | given member file =>
      exact ⟨listed, member, mem_documentsAt?_iff.mpr (.inl ⟨_, file, rfl⟩)⟩
    | collected member directory holds extended accepted =>
      have accepts := acceptsPath_iff.mpr ⟨_, extended, accepted⟩
      exact ⟨_, member,
        mem_documentsAt?_iff.mpr (.inr ⟨_, _, directory, holds, rfl, accepts⟩)⟩

/-! ## Where they lead -/

theorem exists_namesOf_of_find {node : Node} (there : files.find path = .ok node) :
    ∃ names, files.namesOf path = .ok names ∧ files.root.at? names = some node := by
  cases leads : files.namesOf path with
  | error cause =>
    rw [find_of_namesOf_error leads] at there
    cases there
  | ok names =>
    rw [find_of_namesOf leads] at there
    cases found : files.root.at? names with
    | none =>
      rw [found] at there
      cases there
    | some other =>
      rw [found] at there
      cases there
      exact ⟨names, rfl, found⟩

/-- In a proper tree every path that is asked for leads to a file. -/
theorem Asks.exists_file (asked : files.Asks settings paths listed)
    (proper : files.root.IsProper) : ∃ content, files.find listed = .ok (.file content) := by
  cases asked with
  | given member file => exact ⟨_, file⟩
  | @collected path entries names extension member directory holds extended accepted =>
    obtain ⟨place, leads, there⟩ := exists_namesOf_of_find directory
    have nodeProper := proper.at? there
    obtain ⟨content, inside⟩ := holds.exists_at? nodeProper
    have found : files.root.at? (place ++ names) = some (.file content) := by
      rw [Node.at?_append, there, Option.bind_some, inside]
    have leads : files.namesOf (names.foldl Path.child path) = .ok (place ++ names) := by
      refine namesOf_foldl_child leads (fun name member => nodeProper.isEntryName inside member) ?_
      rw [Node.shows, found]
      rfl
    exact ⟨content, by rw [find_of_namesOf leads, found]; rfl⟩

/-! ## Documents -/

theorem documents_eq_error_iff :
    files.documents settings paths = .error missing ↔
      paths.find? (fun path => !files.isThere path) = some missing := by
  have absent : files.gather settings paths = .error missing ↔ _ := gather_eq_error_iff
  rw [← absent, documents]
  cases files.gather settings paths <;> simp

theorem exists_documents (settings : Settings) (there : ∀ path ∈ paths, files.isThere path = true) :
    ∃ gathered, files.gather settings paths = .ok gathered ∧
      files.documents settings paths = .ok (Path.sorted gathered) := by
  have gathered : files.gather settings paths = .ok _ := gather_eq_ok_iff.mpr ⟨there, rfl⟩
  exact ⟨_, gathered, by rw [documents, gathered]⟩

theorem exists_gather (documents : files.documents settings paths = .ok found) :
    ∃ gathered, files.gather settings paths = .ok gathered ∧ found = Path.sorted gathered := by
  unfold Files.documents at documents
  split at documents
  · cases documents
  · next gathered collected => exact ⟨gathered, collected, (Except.ok.inj documents).symm⟩

/-- More paths ask for no less. -/
theorem Asks.mono {others : List Path} (asked : files.Asks settings paths listed)
    (among : paths ⊆ others) : files.Asks settings others listed := by
  cases asked with
  | given member file => exact .given (among member) file
  | collected member directory holds extended accepted =>
    exact .collected (among member) directory holds extended accepted

/-- Collecting files fails exactly when there is neither a file nor a directory at one of the given
paths, and names the first such path.  Otherwise the collected paths are strictly increasing in the
order of paths, they are the given files, whatever their extension, and the files below the given
directories that have the extension of a document, one path for each that is asked for, and in a
proper tree all of them lead to files.  The same paths in another order or repeated come to the same
collection, up to the spelling of its paths. -/
theorem collected_files_are_sorted_set (files : Files) (settings : Settings) (paths : List Path) :
    (∀ missing, files.documents settings paths = .error missing ↔
        paths.find? (fun path => !files.isThere path) = some missing) ∧
      ((∃ found, files.documents settings paths = .ok found) ↔
        ∀ path ∈ paths, files.isThere path = true) ∧
      ∀ found, files.documents settings paths = .ok found →
        (found.map Path.keys).SortedLT ∧
          (∀ listed ∈ found, files.Asks settings paths listed) ∧
          (∀ listed, files.Asks settings paths listed → ∃ kept ∈ found, kept.steps = listed.steps) ∧
          (files.root.IsProper →
            ∀ listed ∈ found, ∃ content, files.find listed = .ok (.file content)) ∧
          ∀ others : List Path, (∀ path, path ∈ others ↔ path ∈ paths) →
            ∃ foundOthers, files.documents settings others = .ok foundOthers ∧
              foundOthers.map Path.steps = found.map Path.steps := by
  refine ⟨fun missing => documents_eq_error_iff, ⟨?_, fun there => ?_⟩, ?_⟩
  · rintro ⟨found, documents⟩
    obtain ⟨gathered, collected, _⟩ := exists_gather documents
    exact (gather_eq_ok_iff.mp collected).1
  · obtain ⟨gathered, _, documents⟩ := exists_documents settings there
    exact ⟨_, documents⟩
  · intro found documents
    obtain ⟨gathered, collected, rfl⟩ := exists_gather documents
    have asked : ∀ listed ∈ Path.sorted gathered, files.Asks settings paths listed :=
      fun listed member => (mem_gather_iff collected).mp (mem_of_mem_sorted member)
    refine ⟨Path.sortedLT_sorted gathered, asked, fun listed wanted => ?_,
      fun proper listed member => (asked listed member).exists_file proper, fun others same => ?_⟩
    · have member := (mem_gather_iff collected).mpr wanted
      have kept := (Path.mem_keys_sorted listed.keys).mpr (List.mem_map_of_mem member)
      obtain ⟨path, inside, equal⟩ := List.mem_map.mp kept
      exact ⟨path, inside, Path.keys_eq_iff.mp equal⟩
    · have there : ∀ path ∈ others, files.isThere path = true := fun path member =>
        (gather_eq_ok_iff.mp collected).1 path ((same path).mp member)
      obtain ⟨gatheredOthers, collectedOthers, documentsOthers⟩ :=
        exists_documents settings there
      refine ⟨_, documentsOthers, Path.map_steps_sorted_congr fun listed => ?_⟩
      rw [mem_gather_iff collectedOthers, mem_gather_iff collected]
      exact ⟨fun asked => asked.mono fun path => (same path).mp,
        fun asked => asked.mono fun path => (same path).mpr⟩

/-- A hall with a record, and below it a room with a record and notes. -/
def twoRooms : Files :=
  ⟨.directory [("hall", .directory [("b.xml", .file .empty),
    ("wing", .directory [("a.XML", .file .empty), ("notes.txt", .file .empty)])])], []⟩

example :
    twoRooms.documents {} ["hall", "hall/wing", "hall/wing/notes.txt"] =
      .ok ["hall/b.xml", "hall/wing/a.XML", "hall/wing/notes.txt"] := by
  have gathered : twoRooms.gather {} ["hall", "hall/wing", "hall/wing/notes.txt"] =
      .ok ["hall/b.xml", "hall/wing/a.XML", "hall/wing/a.XML", "hall/wing/notes.txt"] := by
    decide +kernel
  have ordered : ["hall/b.xml", "hall/wing/a.XML", "hall/wing/a.XML",
      "hall/wing/notes.txt"].mergeSort Path.noLater =
        ["hall/b.xml", "hall/wing/a.XML", "hall/wing/a.XML", "hall/wing/notes.txt"] :=
    List.mergeSort_of_pairwise (by decide +kernel)
  rw [documents, gathered]
  simp only [Path.sorted, ordered]
  decide +kernel

end Files
end MuseumRecord
