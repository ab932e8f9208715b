import Mathlib.Data.List.DropRight
import MuseumRecord.Files.Tree

/-!
# Growth of file trees

What a path comes to depends only on what a tree shows in the places along the path: nothing, a
directory, or a file with its content.  A tree that gains a file shows the same as before in every
other place, so whatever was there is read as before.
-/

namespace MuseumRecord

namespace Node

/-- The content of a file, and nothing of a directory. -/
def content? : Node → Option ByteArray
  | .file content => some content
  | .directory _ => none

/-- What is in the place that names lead to: nothing, a directory, or a file with its content. -/
def shows (node : Node) (names : List String) : Option (Option ByteArray) :=
  (node.at? names).map content?

section Node

variable {node : Node} {name : String} {names : List String} {entries : List (String × Node)}
  {content : ByteArray}

theorem at?_directory_cons :
    (directory entries).at? (name :: names) =
      (entries.lookup name).bind fun node => node.at? names := by
  rw [at?]

theorem at?_append (front behind : List String) :
    node.at? (front ++ behind) = (node.at? front).bind fun found => found.at? behind := by
  induction front generalizing node with
  | nil =>
    rw [List.nil_append, at?]
    rfl
  | cons name front inductionHypothesis =>
    cases node with
    | file content =>
      rw [List.cons_append, at?, at?]
      rfl
    | directory entries =>
      rw [List.cons_append, at?_directory_cons, at?_directory_cons, Option.bind_assoc]
      simp only [inductionHypothesis]

theorem shows_eq_directory_iff :
    node.shows names = some none ↔ ∃ entries, node.at? names = some (directory entries) := by
  unfold shows
  rw [Option.map_eq_some_iff]
  constructor
  · rintro ⟨found, there, shown⟩
    cases found with
    | file content => cases shown
    | directory entries => exact ⟨entries, there⟩
  · rintro ⟨entries, there⟩
    exact ⟨directory entries, there, rfl⟩

theorem shows_eq_file_iff :
    node.shows names = some (some content) ↔ node.at? names = some (file content) := by
  unfold shows
  rw [Option.map_eq_some_iff]
  constructor
  · rintro ⟨found, there, shown⟩
    cases found with
    | file other =>
      cases shown
      exact there
    | directory entries => cases shown
  · intro there
    exact ⟨file content, there, rfl⟩

/-- An entry of a directory is shown when its name is listed. -/
theorem isSome_shows_concat (found : node.at? names = some (directory entries)) :
    (node.shows (names ++ [name])).isSome = (entries.lookup name).isSome := by
  unfold shows
  rw [at?_append, found, Option.bind_some, at?_directory_cons, Option.isSome_map]
  cases entries.lookup name with
  | none => rfl
  | some entry => rw [Option.bind_some, at?]

/-- Whatever stands in front of a place that shows something is shown. -/
theorem isSome_shows_of_append {front behind : List String}
    (shown : (node.shows (front ++ behind)).isSome) : (node.shows front).isSome := by
  unfold shows at shown ⊢
  rw [Option.isSome_map, at?_append] at shown
  rw [Option.isSome_map]
  exact Option.isSome_of_isSome_bind shown

theorem lookup_map_entry (change : Node → Node) (key : String) :
    (entries.map fun (other, node) =>
        if other = key then (other, change node) else (other, node)).lookup name =
      if name = key then (entries.lookup name).map change else entries.lookup name := by
  induction entries with
  | nil => simp
  | cons entry entries inductionHypothesis =>
    obtain ⟨other, node⟩ := entry
    by_cases same : name = other
    · subst same
      by_cases here : name = key
      · simp [here]
      · simp [here]
    · have differs : (name == other) = false := beq_eq_false_iff_ne.mpr same
      by_cases changed : other = key
      · simp only [List.map_cons, if_pos changed, List.lookup_cons, differs]
        exact inductionHypothesis
      · simp only [List.map_cons, if_neg changed, List.lookup_cons, differs]
        exact inductionHypothesis

/-- A new file in a directory changes nothing that the tree shows elsewhere. -/
theorem shows_changeDirectory_addFile {place : List String}
    (found : node.at? place = some (directory entries)) (fresh : entries.lookup name = none)
    (names : List String) :
    (node.changeDirectory (addFile name content) place).shows names =
      if names = place ++ [name] then some (some content) else node.shows names := by
  induction place generalizing node names with
  | nil =>
    obtain rfl : node = directory entries := by
      rw [at?] at found
      exact Option.some.inj found
    rw [changeDirectory, addFile, List.nil_append]
    cases names with
    | nil => simp [shows, at?, content?]
    | cons first rest =>
      unfold shows
      rw [at?_directory_cons, at?_directory_cons, List.lookup_append]
      by_cases new : first = name
      · subst new
        rw [fresh, List.lookup_cons_self]
        cases rest with
        | nil => simp [at?, content?]
        | cons second rest => simp [at?]
      · have differs : (first == name) = false := beq_eq_false_iff_ne.mpr new
        rw [List.lookup_cons, differs, if_neg (by simp [new])]
        simp
  | cons key place inductionHypothesis =>
    cases node with
    | file other => simp [at?] at found
    | directory all =>
      rw [at?_directory_cons, Option.bind_eq_some_iff] at found
      obtain ⟨child, listed, found⟩ := found
      rw [changeDirectory]
      cases names with
      | nil => simp [shows, at?, content?]
      | cons first rest =>
        have below := inductionHypothesis found rest
        unfold shows at below ⊢
        rw [at?_directory_cons, at?_directory_cons, lookup_map_entry]
        by_cases here : first = key
        · subst here
          rw [if_pos rfl, listed, Option.map_some, Option.bind_some, Option.bind_some, below]
          simp
        · rw [if_neg here, if_neg (by simp [here])]

end Node

end Node

/-- A name that an entry of a directory can have. -/
structure IsEntryName (name : String) : Prop where
  notEmpty : name ≠ ""
  notHere : name ≠ "."
  notAbove : name ≠ ".."
  noSlash : '/' ∉ name.toList

namespace Path

/-- No stretch between slashes holds a slash. -/
theorem not_mem_of_mem_split {characters piece : List Char} (member : piece ∈ split characters) :
    '/' ∉ piece := by
  induction characters generalizing piece with
  | nil =>
    rw [split, List.mem_singleton] at member
    rw [member]
    exact List.not_mem_nil
  | cons character rest inductionHypothesis =>
    rw [split] at member
    split at member
    · rcases List.mem_cons.mp member with rfl | later
      · exact List.not_mem_nil
      · exact inductionHypothesis later
    · next other =>
      split at member
      · rw [List.mem_singleton] at member
        rw [member, List.mem_singleton]
        exact Ne.symm other
      · next first others division =>
        rcases List.mem_cons.mp member with rfl | later
        · rw [List.mem_cons, not_or]
          exact ⟨Ne.symm other, inductionHypothesis (division ▸ List.mem_cons_self)⟩
        · exact inductionHypothesis (division ▸ List.mem_cons_of_mem _ later)

theorem noSlash_of_mem_segments {path : Path} {name : String} (member : name ∈ path.segments) :
    '/' ∉ name.toList := by
  obtain ⟨piece, inside, rfl⟩ := List.mem_map.mp member
  rw [String.toList_ofList]
  exact not_mem_of_mem_split inside

end Path

namespace Files

/-- What reading gives in a place, by what the place shows. -/
def contentOf : Option (Option ByteArray) → Except FileError ByteArray
  | some (some content) => .ok content
  | some none => .error .isADirectory
  | none => .error .notFound

section Reading

variable {files : Files} {path : Path} {names next : List String} {segment : String}

/-- One segment is taken in a directory: to stay, to go up, or to enter what is listed. -/
theorem enter_eq_ok_iff :
    files.enter names segment = .ok next ↔
      files.root.shows names = some none ∧
        ((segment = "" ∨ segment = ".") ∧ next = names ∨
          segment = ".." ∧ next = names.dropLast ∨
          segment ≠ "" ∧ segment ≠ "." ∧ segment ≠ ".." ∧ next = names ++ [segment] ∧
            (files.root.shows next).isSome) := by
  unfold enter
  split
  · next entries found =>
    rw [Node.shows_eq_directory_iff]
    have directory : ∃ entries, files.root.at? names = some (.directory entries) := ⟨_, found⟩
    have listed := @Node.isSome_shows_concat files.root segment names entries found
    by_cases stay : segment = "" ∨ segment = "."
    · rw [if_pos stay]
      have notUp : segment ≠ ".." := by
        rintro rfl
        simp at stay
      grind
    · rw [if_neg stay]
      rw [not_or] at stay
      by_cases up : segment = ".."
      · rw [if_pos up]
        grind
      · rw [if_neg up]
        grind
  · next content found =>
    have shown : files.root.shows names = some (some content) := Node.shows_eq_file_iff.mpr found
    simp [shown]
  · next missing =>
    have shown : files.root.shows names = none := by rw [Node.shows, missing]; rfl
    simp [shown]

/-- What a segment leads to is there. -/
theorem isSome_shows_of_enter (entered : files.enter names segment = .ok next) :
    (files.root.shows next).isSome := by
  obtain ⟨directory, ⟨_, rfl⟩ | ⟨_, rfl⟩ | ⟨_, _, _, _, shown⟩⟩ := enter_eq_ok_iff.mp entered
  · rw [directory]
    rfl
  · obtain ⟨rest, whole⟩ := List.dropLast_prefix names
    apply @Node.isSome_shows_of_append files.root names.dropLast rest
    rw [whole, directory]
    rfl
  · exact shown

theorem find_of_namesOf (leads : files.namesOf path = .ok names) :
    files.find path = (files.root.at? names).elim (.error .notFound) .ok := by
  unfold namesOf at leads
  unfold find
  split at leads
  · cases leads
  · next notEmpty =>
    rw [if_neg notEmpty]
    simp only [leads]
    cases files.root.at? names with
    | none => rfl
    | some node => rfl

theorem find_of_namesOf_error {cause : FileError} (fails : files.namesOf path = .error cause) :
    files.find path = .error cause := by
  unfold namesOf at fails
  unfold find
  split at fails
  · next empty =>
    rw [if_pos empty, Except.error.inj fails]
  · next notEmpty =>
    rw [if_neg notEmpty]
    simp only [fails]

theorem readBytes_of_namesOf (leads : files.namesOf path = .ok names) :
    files.readBytes path = contentOf (files.root.shows names) := by
  unfold readBytes Node.shows
  simp only [find_of_namesOf leads]
  cases files.root.at? names with
  | none => rfl
  | some node => cases node <;> rfl

theorem isThere_iff :
    files.isThere path = true ↔
      ∃ names, files.namesOf path = .ok names ∧ (files.root.shows names).isSome := by
  unfold isThere
  cases leads : files.namesOf path with
  | error cause => simp [find_of_namesOf_error leads, Except.toBool]
  | ok names =>
    rw [find_of_namesOf leads]
    simp only [Except.ok.injEq, exists_eq_left', Node.shows, Option.isSome_map]
    cases files.root.at? names <;> simp [Except.toBool]

end Reading

/-- A tree has a directory wherever another has one, and something wherever that has something. -/
structure Keeps (before after : Files) : Prop where
  place : after.place = before.place
  directory : ∀ names, before.root.shows names = some none → after.root.shows names = some none
  shown : ∀ names, (before.root.shows names).isSome → (after.root.shows names).isSome

namespace Keeps

variable {before after : Files} {other next : List String} {path : Path} {segment : String}

/-- What could be entered can be entered. -/
theorem enter_ok (keeps : Keeps before after)
    (entered : before.enter other segment = .ok next) : after.enter other segment = .ok next := by
  rw [enter_eq_ok_iff] at entered ⊢
  obtain ⟨directory, kinds⟩ := entered
  refine ⟨keeps.directory other directory, ?_⟩
  rcases kinds with stay | up | ⟨notEmpty, notHere, notAbove, rfl, shown⟩
  · exact .inl stay
  · exact .inr (.inl up)
  · exact .inr (.inr ⟨notEmpty, notHere, notAbove, rfl, keeps.shown _ shown⟩)

theorem foldlM_ok (keeps : Keeps before after) {segments : List String}
    (followed : segments.foldlM before.enter other = .ok next) :
    segments.foldlM after.enter other = .ok next := by
  induction segments generalizing other with
  | nil => exact followed
  | cons segment segments inductionHypothesis =>
    rw [List.foldlM_cons] at followed ⊢
    cases entered : before.enter other segment with
    | error cause =>
      rw [entered] at followed
      cases followed
    | ok middle =>
      rw [entered] at followed
      rw [keeps.enter_ok entered]
      exact inductionHypothesis followed

/-- A path that led somewhere leads there. -/
theorem namesOf_ok (keeps : Keeps before after)
    (leads : before.namesOf path = .ok other) : after.namesOf path = .ok other := by
  unfold namesOf at leads ⊢
  split at leads
  · cases leads
  · next notEmpty =>
    rw [if_neg notEmpty]
    unfold follow at leads ⊢
    rw [keeps.place]
    exact keeps.foldlM_ok leads

end Keeps

/-- A tree has another file than before in a place where there was nothing, and is the same
otherwise. -/
structure Gains (before after : Files) (names : List String) (content : ByteArray) : Prop where
  place : after.place = before.place
  fresh : before.root.shows names = none
  shows : ∀ other, after.root.shows other =
    if other = names then some (some content) else before.root.shows other

namespace Gains

variable {before after : Files} {names other next : List String} {content : ByteArray}
  {path : Path} {segment : String}

theorem shows_of_isSome (gains : Gains before after names content)
    (shown : (before.root.shows other).isSome) :
    after.root.shows other = before.root.shows other := by
  rw [gains.shows, if_neg]
  rintro rfl
  rw [gains.fresh] at shown
  cases shown

theorem shows_self (gains : Gains before after names content) :
    after.root.shows names = some (some content) := by
  rw [gains.shows, if_pos rfl]

theorem keeps (gains : Gains before after names content) : Keeps before after where
  place := gains.place
  directory other directory := by
    rw [gains.shows_of_isSome (by rw [directory]; rfl), directory]
  shown other shown := by
    rw [gains.shows_of_isSome shown]
    exact shown

/-- What can be entered could be entered before or is the new file. -/
theorem enter_cases (gains : Gains before after names content)
    (entered : after.enter other segment = .ok next) :
    before.enter other segment = .ok next ∨ next = names := by
  rw [enter_eq_ok_iff] at entered ⊢
  obtain ⟨directory, kinds⟩ := entered
  have otherPlace : other ≠ names := by
    rintro rfl
    rw [gains.shows_self] at directory
    cases directory
  rw [gains.shows, if_neg otherPlace] at directory
  rcases kinds with stay | up | ⟨notEmpty, notHere, notAbove, rfl, shown⟩
  · exact .inl ⟨directory, .inl stay⟩
  · exact .inl ⟨directory, .inr (.inl up)⟩
  · by_cases new : other ++ [segment] = names
    · exact .inr new
    · rw [gains.shows, if_neg new] at shown
      exact .inl ⟨directory, .inr (.inr ⟨notEmpty, notHere, notAbove, rfl, shown⟩)⟩

/-- Nothing can be entered from the new file. -/
theorem enter_self (gains : Gains before after names content) :
    after.enter names segment ≠ .ok next := by
  rw [Ne, enter_eq_ok_iff, gains.shows_self]
  rintro ⟨directory, _⟩
  cases directory

theorem foldlM_cases (gains : Gains before after names content) {segments : List String}
    (followed : segments.foldlM after.enter other = .ok next) :
    segments.foldlM before.enter other = .ok next ∨ next = names := by
  induction segments generalizing other with
  | nil => exact .inl followed
  | cons segment segments inductionHypothesis =>
    rw [List.foldlM_cons] at followed ⊢
    cases entered : after.enter other segment with
    | error cause =>
      rw [entered] at followed
      cases followed
    | ok middle =>
      rw [entered] at followed
      rcases gains.enter_cases entered with old | rfl
      · rw [old]
        exact inductionHypothesis followed
      · -- The new file is a file, so it ends the path.
        cases segments with
        | nil => exact .inr (Except.ok.inj followed).symm
        | cons second segments =>
          change (second :: segments).foldlM after.enter middle = .ok next at followed
          rw [List.foldlM_cons] at followed
          cases further : after.enter middle second with
          | error cause =>
            rw [further] at followed
            cases followed
          | ok last => exact absurd further gains.enter_self

/-- A path leads where it led before or to the new file. -/
theorem namesOf_cases (gains : Gains before after names content)
    (leads : after.namesOf path = .ok other) : before.namesOf path = .ok other ∨ other = names := by
  unfold namesOf at leads ⊢
  split at leads
  · cases leads
  · next notEmpty =>
    rw [if_neg notEmpty]
    unfold follow at leads ⊢
    rw [gains.place] at leads
    exact gains.foldlM_cases leads

/-- Whatever was there is read as before. -/
theorem readBytes_of_isThere (gains : Gains before after names content)
    (there : before.isThere path = true) : after.readBytes path = before.readBytes path := by
  obtain ⟨other, leads, shown⟩ := isThere_iff.mp there
  rw [readBytes_of_namesOf leads, readBytes_of_namesOf (gains.keeps.namesOf_ok leads),
    gains.shows_of_isSome shown]

theorem readBytes_self (gains : Gains before after names content)
    (leads : after.namesOf path = .ok names) : after.readBytes path = .ok content := by
  rw [readBytes_of_namesOf leads, gains.shows_self]
  rfl

theorem isThere_of_isThere (gains : Gains before after names content)
    (there : before.isThere path = true) : after.isThere path = true := by
  obtain ⟨other, leads, shown⟩ := isThere_iff.mp there
  exact isThere_iff.mpr ⟨other, gains.keeps.namesOf_ok leads, by rwa [gains.shows_of_isSome shown]⟩

/-- Whatever is there was there or is the new file. -/
theorem isThere_cases (gains : Gains before after names content)
    (there : after.isThere path = true) :
    before.isThere path = true ∨ after.namesOf path = .ok names := by
  obtain ⟨other, leads, shown⟩ := isThere_iff.mp there
  by_cases new : other = names
  · exact .inr (new ▸ leads)
  · rcases gains.namesOf_cases leads with old | same
    · rw [gains.shows, if_neg new] at shown
      exact .inl (isThere_iff.mpr ⟨other, old, shown⟩)
    · exact absurd same new

end Gains

/-- A tree has a new file of a name in a directory that names lead to. -/
structure AddsFile (before after : Files) (place : List String) (name : String)
    (content : ByteArray) : Prop where
  isEntryName : IsEntryName name
  fresh : ∃ entries, before.root.at? place = some (.directory entries) ∧ entries.lookup name = none
  result : after =
    { before with root := before.root.changeDirectory (Node.addFile name content) place }

theorem AddsFile.gains {before after : Files} {place : List String} {name : String}
    {content : ByteArray} (adds : AddsFile before after place name content) :
    Gains before after (place ++ [name]) content := by
  obtain ⟨entries, found, fresh⟩ := adds.fresh
  rw [adds.result]
  refine ⟨rfl, ?_, ?_⟩
  · have unlisted := @Node.isSome_shows_concat before.root name place entries found
    rw [fresh] at unlisted
    exact Option.not_isSome_iff_eq_none.mp (by rw [unlisted]; exact Bool.false_ne_true)
  · exact Node.shows_changeDirectory_addFile found fresh

section Create

variable {files after : Files} {path : Path} {content : ByteArray}

/-- The segments of a path that does not end with a slash are a last name and the others. -/
theorem segments_of_last {segments : List String} {name : String}
    (last : (withoutEndingSlashes segments).1.getLast? = some name)
    (noSlash : ¬(withoutEndingSlashes segments).2 = true) :
    name ≠ "" ∧ (withoutEndingSlashes segments).1 = segments ∧
      segments = segments.dropLast ++ [name] := by
  have whole : (withoutEndingSlashes segments).1 = segments := by
    apply List.IsPrefix.eq_of_length_le
    · exact List.rdropWhile_prefix String.isEmpty segments
    · unfold withoutEndingSlashes at noSlash ⊢
      rw [decide_eq_true_iff] at noSlash
      exact Nat.le_of_not_lt noSlash
  rw [whole] at last
  obtain ⟨others, rfl⟩ := List.getLast?_eq_some_iff.mp last
  refine ⟨?_, whole, by rw [List.dropLast_concat]⟩
  have notEmpty := List.rdropWhile_eq_self_iff.mp whole (List.concat_ne_nil name others)
  rw [List.getLast_append_singleton] at notEmpty
  rintro rfl
  exact notEmpty rfl

/-- A file is created in the directory that all but the last segment lead to. -/
theorem create_eq_ok (created : files.create path content = .ok after) :
    ∃ place name entries, name ≠ "" ∧ path.segments = path.segments.dropLast ++ [name] ∧
      files.follow path.isAbsolute path.segments.dropLast = .ok place ∧
      files.root.at? place = some (.directory entries) ∧
      after = { files with root := files.root.changeDirectory (Node.addFile name content) place } := by
  unfold create at created
  dsimp only at created
  split at created
  · cases created
  · next name last =>
    split at created
    · cases created
    · next place followed =>
      split at created
      · next entries found =>
        split at created
        · cases created
        · next noSlash =>
          obtain ⟨notEmpty, whole, division⟩ := segments_of_last last noSlash
          rw [whole] at followed
          exact ⟨place, name, entries, notEmpty, division, followed, found,
            (Except.ok.inj created).symm⟩
      · cases created
      · cases created

/-- A path with a last name is not empty. -/
theorem isEmpty_of_segments {front : List String} {name : String}
    (division : path.segments = front ++ [name]) (notEmpty : name ≠ "") :
    path.isEmpty = false := by
  rw [Bool.eq_false_iff]
  intro empty
  rw [String.isEmpty_iff.mp empty] at division
  have only : [] ++ [""] = front ++ [name] := division
  have same := List.append_inj_right' only rfl
  exact notEmpty (List.singleton_inj.mp same).symm

/-- A path leads from where all but its last segment lead to where the last one leads. -/
theorem namesOf_of_segments {front place : List String} {name : String}
    (named : path.isEmpty = false) (division : path.segments = front ++ [name])
    (followed : files.follow path.isAbsolute front = .ok place) :
    files.namesOf path = files.enter place name := by
  unfold namesOf
  unfold follow at followed ⊢
  rw [named, if_neg Bool.false_ne_true, division, List.foldlM_append, followed]
  exact bind_pure (files.enter place name)

/-- Where nothing is, the last segment is a name that the directory does not list. -/
theorem fresh_of_not_isThere {front place : List String} {name : String}
    {entries : List (String × Node)} (named : path.isEmpty = false)
    (division : path.segments = front ++ [name])
    (followed : files.follow path.isAbsolute front = .ok place)
    (found : files.root.at? place = some (.directory entries)) (notEmpty : name ≠ "")
    (absent : files.isThere path = false) :
    IsEntryName name ∧ entries.lookup name = none := by
  have directory : files.root.shows place = some none :=
    Node.shows_eq_directory_iff.mpr ⟨entries, found⟩
  -- Where the last segment leads somewhere, the path leads to something.
  have nowhere {next : List String} : files.enter place name ≠ .ok next := by
    intro entered
    have there : files.isThere path = true :=
      isThere_iff.mpr ⟨next, (namesOf_of_segments named division followed).trans entered,
        isSome_shows_of_enter entered⟩
    rw [absent] at there
    cases there
  have notHere : name ≠ "." := by
    rintro rfl
    exact nowhere (enter_eq_ok_iff.mpr ⟨directory, .inl ⟨.inr rfl, rfl⟩⟩)
  have notAbove : name ≠ ".." := by
    rintro rfl
    exact nowhere (enter_eq_ok_iff.mpr ⟨directory, .inr (.inl ⟨rfl, rfl⟩)⟩)
  have noSlash : '/' ∉ name.toList := by
    apply @Path.noSlash_of_mem_segments path
    rw [division]
    exact List.mem_append_right _ List.mem_cons_self
  refine ⟨⟨notEmpty, notHere, notAbove, noSlash⟩, ?_⟩
  have listed := @Node.isSome_shows_concat files.root name place entries found
  cases entry : entries.lookup name with
  | none => rfl
  | some node =>
    rw [entry] at listed
    exact absurd (enter_eq_ok_iff.mpr ⟨directory, .inr (.inr
      ⟨notEmpty, notHere, notAbove, rfl, listed⟩)⟩) nowhere

/-- Where nothing was, a created file is a new entry of a directory, and its path leads there. -/
theorem exists_addsFile (created : files.create path content = .ok after)
    (absent : files.isThere path = false) :
    ∃ place name, AddsFile files after place name content ∧
      after.namesOf path = .ok (place ++ [name]) := by
  obtain ⟨place, name, entries, notEmpty, division, followed, found, result⟩ :=
    create_eq_ok created
  have named := isEmpty_of_segments division notEmpty
  obtain ⟨isEntryName, unlisted⟩ :=
    fresh_of_not_isThere named division followed found notEmpty absent
  have adds : AddsFile files after place name content :=
    ⟨isEntryName, ⟨entries, found, unlisted⟩, result⟩
  have gains := adds.gains
  refine ⟨place, name, adds, ?_⟩
  have followedAfter : after.follow path.isAbsolute path.segments.dropLast = .ok place := by
    unfold follow at followed ⊢
    rw [gains.place]
    exact gains.keeps.foldlM_ok followed
  have directory : files.root.shows place = some none :=
    Node.shows_eq_directory_iff.mpr ⟨entries, found⟩
  rw [namesOf_of_segments named division followedAfter, enter_eq_ok_iff]
  refine ⟨?_, .inr (.inr ⟨notEmpty, isEntryName.notHere, isEntryName.notAbove, rfl, ?_⟩)⟩
  · rw [gains.shows_of_isSome (by rw [directory]; rfl), directory]
  · rw [gains.shows_self]
    rfl

end Create

end Files
end MuseumRecord
