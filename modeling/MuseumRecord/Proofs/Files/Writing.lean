import MuseumRecord.Proofs.Files.Growth

/-!
# Writing to files

Bytes that are written to a path are read from it again, and every other file keeps its own.  It
does not matter whether the path led to a file before or the file is new.
-/

namespace MuseumRecord

namespace Node

variable {node : Node} {entries : List (String × Node)} {content old : ByteArray}

theorem lookup_setEntry (name key : String) (change : Option Node → Node) :
    (setEntry name change entries).lookup key =
      if key = name then some (change (entries.lookup name)) else entries.lookup key := by
  induction entries with
  | nil =>
    rw [setEntry]
    by_cases same : key = name
    · simp [same]
    · simp [same, List.lookup_cons, beq_eq_false_iff_ne.mpr same]
  | cons entry entries inductionHypothesis =>
    obtain ⟨other, node⟩ := entry
    rw [setEntry]
    by_cases here : other = name
    · subst here
      rw [if_pos rfl, List.lookup_cons_self]
      by_cases same : key = other
      · simp [same]
      · simp [same, List.lookup_cons, beq_eq_false_iff_ne.mpr same]
    · rw [if_neg here]
      by_cases same : key = other
      · subst same
        simp [here]
      · have apart : (key == other) = false := beq_eq_false_iff_ne.mpr same
        have differs : (name == other) = false := beq_eq_false_iff_ne.mpr (Ne.symm here)
        simp only [List.lookup_cons, apart, differs, inductionHypothesis]

/-- Other bytes in a file change nothing that the tree shows elsewhere. -/
theorem shows_graft_file {place : List String} (found : node.at? place = some (file old))
    (names : List String) :
    (graft (file content) place (some node)).shows names =
      if names = place then some (some content) else node.shows names := by
  induction place generalizing node names with
  | nil =>
    obtain rfl : node = file old := by
      rw [at?] at found
      exact Option.some.inj found
    rw [graft]
    cases names with
    | nil => simp [shows, at?, content?]
    | cons first rest => simp [shows, at?]
  | cons key place inductionHypothesis =>
    cases node with
    | file other => simp [at?] at found
    | directory entries =>
      rw [at?_directory_cons, Option.bind_eq_some_iff] at found
      obtain ⟨child, listed, found⟩ := found
      rw [graft]
      cases names with
      | nil => simp [shows, at?, content?]
      | cons first rest =>
        have below := inductionHypothesis found rest
        unfold shows at below ⊢
        rw [at?_directory_cons, at?_directory_cons, lookup_setEntry]
        by_cases here : first = key
        · subst here
          rw [if_pos rfl, listed, Option.bind_some, Option.bind_some, below]
          simp
        · rw [if_neg here, if_neg (by simp [here])]

end Node

namespace Files

/-- A tree has a file of some content in a place where another tree has no directory, and is the
same otherwise. -/
structure DiffersAt (before after : Files) (names : List String) (content : ByteArray) : Prop where
  place : after.place = before.place
  notDirectory : before.root.shows names ≠ some none
  shows : ∀ other, after.root.shows other =
    if other = names then some (some content) else before.root.shows other

variable {before after files : Files} {names : List String} {content : ByteArray} {path : Path}

theorem Gains.differsAt (gains : Gains before after names content) :
    DiffersAt before after names content where
  place := gains.place
  notDirectory := by
    rw [gains.fresh]
    exact fun same => nomatch same
  shows := gains.shows

namespace DiffersAt

theorem shows_self (differs : DiffersAt before after names content) :
    after.root.shows names = some (some content) := by
  rw [differs.shows, if_pos rfl]

theorem keeps (differs : DiffersAt before after names content) : Keeps before after where
  place := differs.place
  directory other directory := by
    rw [differs.shows, if_neg, directory]
    rintro rfl
    exact differs.notDirectory directory
  shown other shown := by
    rw [differs.shows]
    split
    · rfl
    · exact shown

/-- What is read from another place is read from it as before. -/
theorem readBytes_ok (differs : DiffersAt before after names content) {kept : ByteArray}
    (read : before.readBytes path = .ok kept) (apart : after.namesOf path ≠ .ok names) :
    after.readBytes path = .ok kept := by
  cases leads : before.namesOf path with
  | error cause =>
    rw [readBytes, find_of_namesOf_error leads] at read
    cases read
  | ok other =>
    have leadsAfter := differs.keeps.namesOf_ok leads
    have elsewhere : other ≠ names := fun same => apart (same ▸ leadsAfter)
    rw [readBytes_of_namesOf leads] at read
    rw [readBytes_of_namesOf leadsAfter, differs.shows, if_neg elsewhere, read]

end DiffersAt

/-- Where nothing is, writing creates a file. -/
theorem create_of_write (written : files.write path content = .ok after)
    (absent : files.isThere path = false) : files.create path content = .ok after := by
  unfold write at written
  split at written
  · exact written
  · next names leads =>
    split at written
    · next old found =>
      rw [isThere, find_of_namesOf leads, found] at absent
      cases absent
    · cases written
    · cases written

/-- A tree that is written to has the bytes where the path leads, and is the same elsewhere. -/
theorem exists_differsAt (written : files.write path content = .ok after) :
    ∃ names, after.namesOf path = .ok names ∧ DiffersAt files after names content := by
  by_cases there : files.isThere path = true
  · obtain ⟨names, leads, shown⟩ := isThere_iff.mp there
    unfold write at written
    simp only [leads] at written
    split at written
    · next old found =>
      obtain rfl : files.graft names (.file content) = after := Except.ok.inj written
      have differs : DiffersAt files (files.graft names (.file content)) names content := by
        refine ⟨rfl, ?_, Node.shows_graft_file found⟩
        rw [Node.shows_eq_file_iff.mpr found]
        exact fun same => nomatch Option.some.inj same
      exact ⟨names, differs.keeps.namesOf_ok leads, differs⟩
    · cases written
    · cases written
  · rw [Bool.not_eq_true] at there
    obtain ⟨place, name, adds, leads⟩ := exists_addsFile (create_of_write written there) there
    exact ⟨place ++ [name], leads, adds.gains.differsAt⟩

/-- Bytes that are written to a path are read from it. -/
theorem readBytes_of_write (written : files.write path content = .ok after) :
    after.readBytes path = .ok content := by
  obtain ⟨names, leads, differs⟩ := exists_differsAt written
  rw [readBytes_of_namesOf leads, differs.shows_self]
  rfl

/-- Files at other places are read as before. -/
theorem readBytes_of_write_of_ne {other : Path} {kept : ByteArray}
    (written : files.write path content = .ok after) (read : files.readBytes other = .ok kept)
    (apart : after.namesOf other ≠ after.namesOf path) : after.readBytes other = .ok kept := by
  obtain ⟨names, leads, differs⟩ := exists_differsAt written
  exact differs.readBytes_ok read (leads ▸ apart)

/-- A path can be written to if it leads to a file. -/
theorem exists_write_of_readBytes {old : ByteArray} (content : ByteArray)
    (read : files.readBytes path = .ok old) : ∃ after, files.write path content = .ok after := by
  unfold write
  cases leads : files.namesOf path with
  | error cause =>
    rw [readBytes, find_of_namesOf_error leads] at read
    cases read
  | ok names =>
    rw [readBytes, find_of_namesOf leads] at read
    dsimp only
    cases found : files.root.at? names with
    | none =>
      rw [found] at read
      cases read
    | some node =>
      cases node with
      | file other => exact ⟨_, rfl⟩
      | directory entries =>
        rw [found] at read
        cases read

/-- A path can be written to if it leads nowhere, but all but its last segment to a directory. -/
theorem exists_write_of_directory {front place : List String} {name : String}
    (content : ByteArray) (absent : files.isThere path = false)
    (division : path.segments = front ++ [name]) (notEmpty : name ≠ "")
    (followed : files.follow path.isAbsolute front = .ok place)
    (directory : files.root.shows place = some none) :
    ∃ after, files.write path content = .ok after := by
  have named := isEmpty_of_segments division notEmpty
  have nowhere : ∃ cause, files.namesOf path = .error cause := by
    cases leads : files.namesOf path with
    | error cause => exact ⟨cause, rfl⟩
    | ok names =>
      have shown : (files.root.shows names).isSome :=
        isSome_shows_of_enter ((namesOf_of_segments named division followed).symm.trans leads)
      rw [isThere_iff.mpr ⟨names, leads, shown⟩] at absent
      cases absent
  obtain ⟨cause, nowhere⟩ := nowhere
  obtain ⟨entries, found⟩ := Node.shows_eq_directory_iff.mp directory
  have whole : withoutEndingSlashes (front ++ [name]) = (front ++ [name], false) := by
    simp [withoutEndingSlashes, notEmpty]
  unfold write create
  simp only [nowhere, division, whole, List.getLast?_concat, List.dropLast_concat, followed, found]
  exact ⟨_, rfl⟩

end Files
end MuseumRecord
