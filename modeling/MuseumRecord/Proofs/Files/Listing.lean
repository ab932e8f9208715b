import Mathlib.Data.List.Nodup
import MuseumRecord.Files.Document
import MuseumRecord.Proofs.Files.Growth

/-!
# Listings

In a tree whose directories have entries of proper and distinct names, every listed path leads to
the file that it is listed for.  A new file in such a tree is one more path in the listings of the
directories above it, so the documents that a path asks for stay the same unless the new file is one
of them.
-/

namespace MuseumRecord

/-! ## Paths of entries -/

namespace Path

section Segments

variable {front behind : List Char} {path : Path} {name : String}

theorem split_ne_nil (characters : List Char) : split characters ≠ [] := by
  cases characters with
  | nil => exact List.cons_ne_nil _ _
  | cons character rest =>
    rw [split]
    split
    · exact List.cons_ne_nil _ _
    · split
      · exact List.cons_ne_nil _ _
      · exact List.cons_ne_nil _ _

theorem split_of_noSlash (noSlash : '/' ∉ front) : split front = [front] := by
  induction front with
  | nil => rfl
  | cons character rest inductionHypothesis =>
    rw [List.mem_cons, not_or] at noSlash
    rw [split, if_neg (Ne.symm noSlash.1), inductionHypothesis noSlash.2]

theorem split_append_slash : split (front ++ '/' :: behind) = split front ++ split behind := by
  induction front with
  | nil => simp [split]
  | cons character rest inductionHypothesis =>
    rw [List.cons_append, split, split]
    by_cases slash : character = '/'
    · rw [if_pos slash, if_pos slash, inductionHypothesis]
      rfl
    · rw [if_neg slash, if_neg slash, inductionHypothesis]
      cases division : split rest with
      | nil => exact absurd division (split_ne_nil rest)
      | cons first others => rfl

/-- The path of an entry has the name of the entry behind the segments of the directory.  An empty
segment at the end of these is left out. -/
theorem segments_child (noSlash : '/' ∉ name.toList) :
    ∃ front, (path.child name).segments = front ++ [name] ∧
      (path.segments = front ∨ path.segments = front ++ [""]) := by
  unfold child segments
  split
  · next slash =>
    obtain ⟨front, division⟩ := List.getLast?_eq_some_iff.mp slash
    refine ⟨(split front).map String.ofList, ?_, .inr ?_⟩
    · rw [String.toList_append, division, List.append_assoc, List.singleton_append,
        split_append_slash, split_of_noSlash noSlash]
      simp
    · rw [division, split_append_slash]
      simp [split]
  · next noSlashBehind =>
    refine ⟨(split path.toList).map String.ofList, ?_, .inl rfl⟩
    rw [String.toList_append, String.toList_append, List.append_assoc]
    have slash : "/".toList ++ name.toList = '/' :: name.toList := rfl
    rw [slash, split_append_slash, split_of_noSlash noSlash]
    simp

/-- The text of the path of an entry begins with the path of the directory. -/
theorem toList_child : ∃ behind, (path.child name).toList = path.toList ++ behind := by
  unfold child
  split
  · exact ⟨name.toList, String.toList_append⟩
  · exact ⟨"/".toList ++ name.toList, by simp⟩

theorem isEmpty_child (named : path.isEmpty = false) : (path.child name).isEmpty = false := by
  rw [← Bool.not_eq_true, String.isEmpty_iff, ← String.toList_eq_nil_iff] at named ⊢
  obtain ⟨behind, text⟩ := @toList_child path name
  rw [text, List.append_eq_nil_iff]
  exact fun both => named both.1

theorem isAbsolute_child (named : path.isEmpty = false) :
    (path.child name).isAbsolute = path.isAbsolute := by
  rw [← Bool.not_eq_true, String.isEmpty_iff, ← String.toList_eq_nil_iff] at named
  obtain ⟨behind, text⟩ := @toList_child path name
  unfold isAbsolute
  rw [text, List.head?_append_of_ne_nil _ named]

end Segments

end Path

/-! ## Proper trees -/

namespace Node

/-- The entries of every directory have proper and distinct names. -/
inductive IsProper : Node → Prop
  | file (content : ByteArray) : IsProper (.file content)
  | directory {entries : List (String × Node)} :
      (entries.map Prod.fst).Nodup →
      (∀ entry ∈ entries, IsEntryName entry.1) →
      (∀ entry ∈ entries, IsProper entry.2) →
      IsProper (.directory entries)

section Proper

variable {node found : Node} {name key : String} {names : List String}
  {entries : List (String × Node)}

theorem mem_of_lookup (listed : entries.lookup name = some found) : (name, found) ∈ entries := by
  obtain ⟨front, behind, rfl, _⟩ := List.lookup_eq_some_iff.mp listed
  exact List.mem_append_right _ List.mem_cons_self

theorem lookup_of_mem (distinct : (entries.map Prod.fst).Nodup)
    (member : (name, found) ∈ entries) : entries.lookup name = some found := by
  obtain ⟨front, behind, rfl⟩ := List.append_of_mem member
  rw [List.lookup_eq_some_iff]
  refine ⟨front, behind, rfl, fun entry inside => ?_⟩
  rw [List.map_append, List.map_cons] at distinct
  have apart := (List.nodup_append.mp distinct).2.2
  rw [bne_iff_ne]
  exact Ne.symm (apart _ (List.mem_map_of_mem inside) _ List.mem_cons_self)

/-- Names that lead somewhere in a proper tree are names of entries. -/
theorem IsProper.isEntryName (proper : node.IsProper) (there : node.at? names = some found)
    (member : name ∈ names) : IsEntryName name := by
  induction names generalizing node with
  | nil => cases member
  | cons first names inductionHypothesis =>
    cases proper with
    | file content => simp [at?] at there
    | directory distinct namesProper entriesProper =>
      rw [at?_directory_cons, Option.bind_eq_some_iff] at there
      obtain ⟨child, listed, there⟩ := there
      have inside := mem_of_lookup listed
      rcases List.mem_cons.mp member with rfl | later
      · exact namesProper _ inside
      · exact inductionHypothesis (entriesProper _ inside) there later

theorem IsProper.at? (proper : node.IsProper) (there : node.at? names = some found) :
    found.IsProper := by
  induction names generalizing node with
  | nil =>
    rw [Node.at?] at there
    exact Option.some.inj there ▸ proper
  | cons first names inductionHypothesis =>
    cases proper with
    | file content => simp [Node.at?] at there
    | directory distinct namesProper entriesProper =>
      rw [at?_directory_cons, Option.bind_eq_some_iff] at there
      obtain ⟨child, listed, there⟩ := there
      exact inductionHypothesis (entriesProper _ (mem_of_lookup listed)) there

end Proper

/-! ## Listed paths -/

section Listing

variable {node : Node} {path listed : Path} {name : String} {entries : List (String × Node)}
  {content : ByteArray}

theorem entryPaths_eq_flatMap (path : Path) (entries : List (String × Node)) :
    entryPaths path entries =
      entries.flatMap fun entry => entry.2.filePaths (path.child entry.1) := by
  induction entries with
  | nil => rw [entryPaths]; rfl
  | cons entry entries inductionHypothesis =>
    rw [entryPaths, inductionHypothesis, List.flatMap_cons]

theorem filePaths_directory :
    (directory entries).filePaths path =
      entries.flatMap fun entry => entry.2.filePaths (path.child entry.1) := by
  rw [filePaths, entryPaths_eq_flatMap]

/-- A change under a name leaves entries alone that do not have the name. -/
theorem map_entry_of_not_mem {change : Node → Node} {key : String}
    (unnamed : key ∉ entries.map Prod.fst) :
    (entries.map fun (other, node) =>
      if other = key then (other, change node) else (other, node)) = entries := by
  have same : ∀ entry ∈ entries,
      (if entry.1 = key then (entry.1, change entry.2) else (entry.1, entry.2)) = id entry := by
    intro entry member
    have differs : entry.1 ≠ key := by
      rintro rfl
      exact unnamed (List.mem_map_of_mem member)
    exact if_neg differs
  exact (List.map_congr_left same).trans (List.map_id entries)

/-- In a proper tree a new file is one more listed path. -/
theorem filePaths_changeDirectory {place : List String} (proper : node.IsProper)
    (found : node.at? place = some (directory entries)) :
    ∃ front behind, node.filePaths path = front ++ behind ∧
      (node.changeDirectory (addFile name content) place).filePaths path =
        front ++ (place ++ [name]).foldl Path.child path :: behind := by
  induction place generalizing node path with
  | nil =>
    obtain rfl : node = directory entries := by
      rw [at?] at found
      exact Option.some.inj found
    refine ⟨(directory entries).filePaths path, [], (List.append_nil _).symm, ?_⟩
    rw [changeDirectory, filePaths_directory, filePaths_directory, addFile, List.flatMap_append]
    rfl
  | cons key place inductionHypothesis =>
    cases proper with
    | file other => simp [at?] at found
    | @directory all distinct namesProper entriesProper =>
      rw [at?_directory_cons, Option.bind_eq_some_iff] at found
      obtain ⟨child, listed, found⟩ := found
      have childProper := entriesProper _ (mem_of_lookup listed)
      obtain ⟨left, right, rfl, _⟩ := List.lookup_eq_some_iff.mp listed
      rw [List.map_append, List.map_cons] at distinct
      obtain ⟨_, rightDistinct, apart⟩ := List.nodup_append.mp distinct
      have leftUnnamed : key ∉ left.map Prod.fst := fun member =>
        apart _ member _ List.mem_cons_self rfl
      have rightUnnamed : key ∉ right.map Prod.fst := (List.nodup_cons.mp rightDistinct).1
      obtain ⟨front, behind, before, after⟩ :=
        @inductionHypothesis child (path.child key) childProper found
      rw [changeDirectory, filePaths_directory, filePaths_directory, List.map_append, List.map_cons,
        map_entry_of_not_mem leftUnnamed, map_entry_of_not_mem rightUnnamed]
      simp only [if_true, List.flatMap_append, List.flatMap_cons, before, after]
      refine ⟨left.flatMap (fun entry => entry.2.filePaths (path.child entry.1)) ++ front,
        behind ++ right.flatMap (fun entry => entry.2.filePaths (path.child entry.1)), ?_, ?_⟩
      · simp only [List.append_assoc]
      · simp only [List.append_assoc, List.cons_append, List.foldl_cons]

/-- What holds of a node whenever it holds of its entries holds of every node. -/
theorem inductionOnEntries {motive : Node → Prop} (ofFile : ∀ content, motive (.file content))
    (ofDirectory : ∀ entries, (∀ entry ∈ entries, motive entry.2) → motive (.directory entries))
    (node : Node) : motive node := by
  cases node with
  | file content => exact ofFile content
  | directory entries =>
    apply ofDirectory
    intro entry member
    have smaller : sizeOf entry.2 < 1 + sizeOf entries := by
      have inside := List.sizeOf_lt_of_mem member
      obtain ⟨name, node⟩ := entry
      simp only [Prod.mk.sizeOf_spec] at inside ⊢
      omega
    exact inductionOnEntries ofFile ofDirectory entry.2
termination_by sizeOf node

end Listing

/-! ### Changes elsewhere -/

section Change

variable {node found : Node} {names place front behind : List String} {name : String}
  {content : ByteArray}

theorem at?_changeDirectory_append
    (change : List (String × Node) → List (String × Node)) :
    (node.changeDirectory change (front ++ behind)).at? front =
      (node.at? front).map (changeDirectory change behind) := by
  induction front generalizing node with
  | nil => simp [at?]
  | cons key front inductionHypothesis =>
    cases node with
    | file content => simp [changeDirectory, at?]
    | directory entries =>
      rw [List.cons_append, changeDirectory, at?_directory_cons, at?_directory_cons,
        lookup_map_entry, if_pos rfl]
      cases entries.lookup key with
      | none => rfl
      | some child => exact inductionHypothesis

/-- A new file changes no node but those above it. -/
theorem at?_changeDirectory_addFile (there : node.at? names = some found)
    (aside : ¬names <+: place) :
    (node.changeDirectory (addFile name content) place).at? names = some found := by
  induction place generalizing node names with
  | nil =>
    cases node with
    | file other => exact there
    | directory entries =>
      cases names with
      | nil => exact absurd List.prefix_rfl aside
      | cons first names =>
        rw [at?_directory_cons, Option.bind_eq_some_iff] at there
        obtain ⟨child, listed, there⟩ := there
        rw [changeDirectory, at?_directory_cons, addFile, List.lookup_append, listed]
        exact there
  | cons key place inductionHypothesis =>
    cases node with
    | file other => exact there
    | directory entries =>
      cases names with
      | nil => exact absurd List.nil_prefix aside
      | cons first names =>
        rw [at?_directory_cons, Option.bind_eq_some_iff] at there
        obtain ⟨child, listed, there⟩ := there
        rw [changeDirectory, at?_directory_cons, lookup_map_entry, listed]
        by_cases same : first = key
        · subst same
          rw [if_pos rfl, Option.map_some, Option.bind_some]
          apply inductionHypothesis there
          rintro ⟨rest, rfl⟩
          exact aside ⟨rest, rfl⟩
        · rw [if_neg same]
          exact there

end Change

end Node

/-! ## Documents -/

namespace Files

section Leading

variable {files : Files} {path listed : Path} {names rest : List String} {name : String}
  {node : Node}

/-- The path of an entry leads to the entry. -/
theorem namesOf_child (leads : files.namesOf path = .ok names) (isEntryName : IsEntryName name)
    (directory : files.root.shows names = some none)
    (shown : (files.root.shows (names ++ [name])).isSome) :
    files.namesOf (path.child name) = .ok (names ++ [name]) := by
  have named : path.isEmpty = false := by
    cases empty : path.isEmpty with
    | false => rfl
    | true =>
      rw [namesOf, if_pos empty] at leads
      cases leads
  have entered : files.enter names name = .ok (names ++ [name]) :=
    enter_eq_ok_iff.mpr ⟨directory, .inr (.inr
      ⟨isEntryName.notEmpty, isEntryName.notHere, isEntryName.notAbove, rfl, shown⟩)⟩
  obtain ⟨front, division, ending⟩ := @Path.segments_child path name isEntryName.noSlash
  have followed : files.follow (path.child name).isAbsolute front = .ok names := by
    rw [Path.isAbsolute_child named]
    rw [namesOf, named, if_neg Bool.false_ne_true] at leads
    rcases ending with whole | slash
    · rw [← whole]
      exact leads
    · -- The slash at the end only asks for a directory.
      rw [slash, follow, List.foldlM_append] at leads
      rw [follow]
      cases reached : front.foldlM files.enter (if path.isAbsolute then [] else files.place) with
      | error cause =>
        rw [reached] at leads
        cases leads
      | ok place =>
        rw [reached] at leads
        have stayed : files.enter place "" = .ok names :=
          (bind_pure (files.enter place "")).symm.trans leads
        rcases (enter_eq_ok_iff.mp stayed).2 with ⟨_, same⟩ | ⟨up, _⟩ | ⟨notEmpty, _⟩
        · rw [same]
        · exact absurd up (by decide)
        · exact absurd rfl notEmpty
  rw [namesOf_of_segments (Path.isEmpty_child named) division followed]
  exact entered

/-- A row of names of entries leads on from where a path leads. -/
theorem namesOf_foldl_child (leads : files.namesOf path = .ok names)
    (areEntryNames : ∀ name ∈ rest, IsEntryName name)
    (shown : (files.root.shows (names ++ rest)).isSome) :
    files.namesOf (rest.foldl Path.child path) = .ok (names ++ rest) := by
  induction rest generalizing path names with
  | nil =>
    rw [List.append_nil]
    exact leads
  | cons name rest inductionHypothesis =>
    have step : names ++ name :: rest = names ++ [name] ++ rest := by simp
    rw [step] at shown ⊢
    have entryShown := Node.isSome_shows_of_append shown
    have directory : files.root.shows names = some none := by
      unfold Node.shows at entryShown ⊢
      rw [Option.isSome_map, Node.at?_append] at entryShown
      cases found : files.root.at? names with
      | none => simp [found] at entryShown
      | some node =>
        cases node with
        | file content => simp [found, Node.at?] at entryShown
        | directory entries => rfl
    rw [List.forall_mem_cons] at areEntryNames
    exact inductionHypothesis (namesOf_child leads areEntryNames.1 directory entryShown)
      areEntryNames.2 shown

/-- In a proper tree there is something at every listed path. -/
theorem isThere_of_mem_filePaths (leads : files.namesOf path = .ok names)
    (found : files.root.at? names = some node) (proper : node.IsProper)
    (member : listed ∈ node.filePaths path) : files.isThere listed = true := by
  induction node using Node.inductionOnEntries generalizing path names with
  | ofFile content =>
    rw [Node.filePaths, List.mem_singleton] at member
    rw [member, isThere_iff]
    exact ⟨names, leads, by rw [Node.shows_eq_file_iff.mpr found]; rfl⟩
  | ofDirectory entries inductionHypothesis =>
    rw [Node.filePaths_directory] at member
    obtain ⟨⟨name, child⟩, inside, member⟩ := List.mem_flatMap.mp member
    cases proper with
    | directory distinct namesProper entriesProper =>
      have below : files.root.at? (names ++ [name]) = some child := by
        rw [Node.at?_append, found, Option.bind_some, Node.at?_directory_cons,
          Node.lookup_of_mem distinct inside, Option.bind_some, Node.at?]
      have shown : (files.root.shows (names ++ [name])).isSome := by
        rw [Node.shows, below]
        rfl
      have childLeads := namesOf_child leads (namesProper _ inside)
        (Node.shows_eq_directory_iff.mpr ⟨entries, found⟩) shown
      exact inductionHypothesis (name, child) inside childLeads below (entriesProper _ inside)
        member

end Leading

section Documents

variable {before after files : Files} {settings : Settings} {path : Path} {paths found : List Path}
  {place : List String} {name : String} {content : ByteArray}

theorem documentsAt?_of_file {names : List String} {content : ByteArray}
    (leads : files.namesOf path = .ok names)
    (shown : files.root.shows names = some (some content)) :
    files.documentsAt? settings path = some [path] := by
  unfold documentsAt?
  rw [find_of_namesOf leads, Node.shows_eq_file_iff.mp shown]
  rfl

theorem documentsAt?_of_directory {names : List String} {entries : List (String × Node)}
    (leads : files.namesOf path = .ok names)
    (there : files.root.at? names = some (.directory entries)) :
    files.documentsAt? settings path =
      some (((Node.directory entries).filePaths path).filter settings.acceptsPath) := by
  unfold documentsAt?
  rw [find_of_namesOf leads, there, Node.filePaths]
  rfl

theorem documentsAt?_of_nothing {names : List String}
    (leads : files.namesOf path = .ok names) (nothing : files.root.at? names = none) :
    files.documentsAt? settings path = none := by
  unfold documentsAt?
  rw [find_of_namesOf leads, nothing]
  rfl

theorem documentsAt?_of_error {cause : FileError} (fails : files.namesOf path = .error cause) :
    files.documentsAt? settings path = none := by
  unfold documentsAt?
  rw [find_of_namesOf_error fails]

/-- A directory with a new file below it lists one more path, which leads to the file. -/
theorem AddsFile.filePaths_of_append (adds : AddsFile before after place name content)
    (proper : before.root.IsProper) {names rest : List String} {entries : List (String × Node)}
    (division : place = names ++ rest) (leads : before.namesOf path = .ok names)
    (there : before.root.at? names = some (.directory entries)) :
    ∃ entriesAfter new front behind,
      after.root.at? names = some (.directory entriesAfter) ∧
        after.namesOf new = .ok (place ++ [name]) ∧
        (Node.directory entries).filePaths path = front ++ behind ∧
        (Node.directory entriesAfter).filePaths path = front ++ new :: behind := by
  have gains := adds.gains
  obtain ⟨inner, found, _⟩ := adds.fresh
  rw [division, Node.at?_append, there, Option.bind_some] at found
  have nodeProper := proper.at? there
  obtain ⟨front, behind, listing, listingAfter⟩ :=
    @Node.filePaths_changeDirectory _ path name inner content rest nodeProper found
  obtain ⟨entriesAfter, isDirectory⟩ : ∃ entriesAfter,
      (Node.directory entries).changeDirectory (Node.addFile name content) rest =
        .directory entriesAfter := by
    cases rest with
    | nil => exact ⟨_, by rw [Node.changeDirectory]⟩
    | cons key rest => exact ⟨_, by rw [Node.changeDirectory]⟩
  rw [isDirectory] at listingAfter
  refine ⟨entriesAfter, _, front, behind, ?_, ?_, listing, listingAfter⟩
  · rw [adds.result, division]
    dsimp only
    rw [Node.at?_changeDirectory_append, there, Option.map_some, isDirectory]
  · have whole : names ++ (rest ++ [name]) = place ++ [name] := by
      rw [division, List.append_assoc]
    rw [← whole]
    apply namesOf_foldl_child (gains.keeps.namesOf_ok leads)
    · intro other member
      rcases List.mem_append.mp member with above | last
      · exact nodeProper.isEntryName found above
      · exact List.mem_singleton.mp last ▸ adds.isEntryName
    · rw [whole, gains.shows_self]
      rfl

/-- The documents below a directory stay the same when a new file is not one of them. -/
theorem AddsFile.documentsAt?_eq_of_directory (adds : AddsFile before after place name content)
    (proper : before.root.IsProper) {names : List String} {entries : List (String × Node)}
    (leads : before.namesOf path = .ok names)
    (there : before.root.at? names = some (.directory entries))
    (apart : ∀ found, after.documentsAt? settings path = some found →
      ∀ listed ∈ found, after.namesOf listed ≠ .ok (place ++ [name])) :
    after.documentsAt? settings path = before.documentsAt? settings path := by
  have leadsAfter := adds.gains.keeps.namesOf_ok leads
  rw [documentsAt?_of_directory leads there]
  by_cases above : names <+: place
  · obtain ⟨rest, division⟩ := above
    obtain ⟨entriesAfter, new, front, behind, thereAfter, leadsNew, listing, listingAfter⟩ :=
      adds.filePaths_of_append proper division.symm leads there
    have documents := @documentsAt?_of_directory after settings path _ _ leadsAfter thereAfter
    have refused : settings.acceptsPath new = false := by
      rw [← Bool.not_eq_true]
      intro accepted
      apply apart _ documents new _ leadsNew
      rw [listingAfter, List.mem_filter]
      exact ⟨by simp, accepted⟩
    rw [documents, listing, listingAfter, List.filter_append, List.filter_append,
      List.filter_cons_of_neg (by rw [refused]; exact Bool.false_ne_true)]
  · have thereAfter : after.root.at? names = some (.directory entries) := by
      rw [adds.result]
      exact Node.at?_changeDirectory_addFile there above
    exact documentsAt?_of_directory leadsAfter thereAfter

/-- The documents that a path asks for stay the same when a new file is not one of them. -/
theorem AddsFile.documentsAt?_eq (adds : AddsFile before after place name content)
    (proper : before.root.IsProper)
    (apart : ∀ found, after.documentsAt? settings path = some found →
      ∀ listed ∈ found, after.namesOf listed ≠ .ok (place ++ [name])) :
    after.documentsAt? settings path = before.documentsAt? settings path := by
  have gains := adds.gains
  have elsewhere : after.namesOf path ≠ .ok (place ++ [name]) := by
    intro leads
    have only : after.documentsAt? settings path = some [path] :=
      documentsAt?_of_file leads gains.shows_self
    exact apart [path] only path List.mem_cons_self leads
  cases leads : before.namesOf path with
  | error cause =>
    rw [documentsAt?_of_error leads]
    cases leadsAfter : after.namesOf path with
    | error causeAfter => exact documentsAt?_of_error leadsAfter
    | ok names =>
      rcases gains.namesOf_cases leadsAfter with old | new
      · rw [leads] at old
        cases old
      · exact absurd (new ▸ leadsAfter) elsewhere
  | ok names =>
    have leadsAfter := gains.keeps.namesOf_ok leads
    have other : names ≠ place ++ [name] := fun same => elsewhere (same ▸ leadsAfter)
    have shown := gains.shows names
    rw [if_neg other] at shown
    cases found : before.root.at? names with
    | none =>
      have nothing : after.root.at? names = none := by
        rw [Node.shows, Node.shows, found] at shown
        exact Option.map_eq_none_iff.mp shown
      rw [documentsAt?_of_nothing leads found, documentsAt?_of_nothing leadsAfter nothing]
    | some node =>
      cases node with
      | file bytes =>
        have file : before.root.shows names = some (some bytes) :=
          Node.shows_eq_file_iff.mpr found
        rw [documentsAt?_of_file leads file, documentsAt?_of_file leadsAfter (shown.trans file)]
      | directory entries => exact adds.documentsAt?_eq_of_directory proper leads found apart

theorem gather_congr
    (same : ∀ path ∈ paths, after.documentsAt? settings path = before.documentsAt? settings path) :
    after.gather settings paths = before.gather settings paths := by
  induction paths with
  | nil => rfl
  | cons path paths inductionHypothesis =>
    rw [List.forall_mem_cons] at same
    rw [gather, gather, same.1, inductionHypothesis same.2]

/-- There is something at every document of a proper tree. -/
theorem isThere_of_mem_documentsAt? (proper : files.root.IsProper)
    (asked : files.documentsAt? settings path = some found) {listed : Path}
    (member : listed ∈ found) : files.isThere listed = true := by
  cases leads : files.namesOf path with
  | error cause =>
    rw [documentsAt?_of_error leads] at asked
    cases asked
  | ok names =>
    cases there : files.root.at? names with
    | none =>
      rw [documentsAt?_of_nothing leads there] at asked
      cases asked
    | some node =>
      cases node with
      | file bytes =>
        have shown : files.root.shows names = some (some bytes) := Node.shows_eq_file_iff.mpr there
        rw [documentsAt?_of_file leads shown] at asked
        obtain rfl := Option.some.inj asked
        rw [List.mem_singleton.mp member, isThere_iff]
        exact ⟨names, leads, by rw [shown]; rfl⟩
      | directory entries =>
        rw [documentsAt?_of_directory leads there] at asked
        obtain rfl := Option.some.inj asked
        exact isThere_of_mem_filePaths leads there (proper.at? there) (List.mem_filter.mp member).1

theorem isThere_of_mem_gather (proper : files.root.IsProper)
    (gathered : files.gather settings paths = .ok found) {listed : Path}
    (member : listed ∈ found) : files.isThere listed = true := by
  induction paths generalizing found with
  | nil =>
    cases gathered
    cases member
  | cons path paths inductionHypothesis =>
    rw [gather] at gathered
    split at gathered
    · cases gathered
    · next first asked =>
      split at gathered
      · cases gathered
      · next others gatheredOthers =>
        obtain rfl := Except.ok.inj gathered
        rcases List.mem_append.mp member with here | later
        · exact isThere_of_mem_documentsAt? proper asked here
        · exact inductionHypothesis gatheredOthers later

end Documents

/-- Sorting adds no path. -/
theorem mem_of_mem_sorted {paths : List Path} {path : Path} (member : path ∈ Path.sorted paths) :
    path ∈ paths := by
  have kept (row : List Path) : (Path.withoutRepeats row).Sublist row := by
    induction row with
    | nil => exact List.Sublist.refl []
    | cons first row inductionHypothesis =>
      rw [Path.withoutRepeats]
      split
      · exact (List.nil_sublist row).cons_cons first
      · next second others division =>
        rw [division] at inductionHypothesis
        split
        · exact ((List.sublist_cons_self second others).trans inductionHypothesis).cons_cons first
        · exact inductionHypothesis.cons_cons first
  exact List.mem_mergeSort.mp ((kept _).subset member)

/-- There is something at every document that is gathered in a proper tree. -/
theorem isThere_of_mem_documents {files : Files} {settings : Settings} {paths found : List Path}
    (proper : files.root.IsProper) (documents : files.documents settings paths = .ok found)
    {listed : Path} (member : listed ∈ found) : files.isThere listed = true := by
  unfold Files.documents at documents
  split at documents
  · cases documents
  · next gathered collected =>
    obtain rfl := Except.ok.inj documents
    exact isThere_of_mem_gather proper collected (mem_of_mem_sorted member)

end Files
end MuseumRecord
