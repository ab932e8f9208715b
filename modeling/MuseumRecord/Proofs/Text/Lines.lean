import MuseumRecord.Proofs.Number.Digits

/-!
# Lines

A text is divided into lines at its line feeds.  A text without line feeds is a single line, and
what follows a line feed does not change the lines in front of it.
-/

namespace MuseumRecord
namespace Text

/-- The lines of a text: what stands between its line feeds. -/
def lines (text : String) : List String :=
  (text.toList.splitOn '\n').map String.ofList

/-- A text without line feeds. -/
def IsSingleLine (text : String) : Prop :=
  '\n' ∉ text.toList

instance (text : String) : Decidable (IsSingleLine text) :=
  inferInstanceAs (Decidable ('\n' ∉ text.toList))

variable {front back : String}

/-- The lines around a line feed. -/
theorem lines_append_feed (front back : String) :
    lines (front ++ "\n" ++ back) = lines front ++ lines back := by
  have shape : (front ++ "\n" ++ back).toList = front.toList ++ '\n' :: back.toList := by simp
  rw [lines, shape, List.splitOn_append_cons_self, List.map_append]
  rfl

theorem lines_of_isSingleLine (single : IsSingleLine front) : lines front = [front] := by
  rw [lines, List.splitOn_eq_singleton single, List.map_singleton, String.ofList_toList]

/-- The lines of rows that are each ended by a line feed, and of what follows them. -/
theorem lines_join_append (rows : List String) (back : String) :
    lines (String.join (rows.map (· ++ "\n")) ++ back) = rows.flatMap lines ++ lines back := by
  induction rows with
  | nil => rw [List.map_nil, String.join_nil, String.empty_append]; rfl
  | cons row rows inductionHypothesis =>
    rw [List.map_cons, String.join_cons, String.append_assoc, lines_append_feed,
      inductionHypothesis, List.flatMap_cons, List.append_assoc]

/-- Rows without line feeds are the lines. -/
theorem flatMap_lines {rows : List String} (single : ∀ row ∈ rows, IsSingleLine row) :
    rows.flatMap lines = rows := by
  induction rows with
  | nil => rfl
  | cons row rows inductionHypothesis =>
    rw [List.forall_mem_cons] at single
    rw [List.flatMap_cons, lines_of_isSingleLine single.1, inductionHypothesis single.2,
      List.singleton_append]

theorem length_lines (text : String) :
    (lines text).length = text.toList.count '\n' + 1 := by
  rw [lines, List.length_map]
  induction text.toList with
  | nil => rfl
  | cons first rest inductionHypothesis =>
    rw [List.splitOn_cons_eq_if_modifyHead, List.count_cons]
    split
    · rw [List.length_cons, inductionHypothesis]
    · rw [List.length_modifyHead, inductionHypothesis, Nat.add_zero]

theorem splitOn_append_of_not_mem {mark : Char} {front : List Char} (fresh : mark ∉ front)
    (back : List Char) :
    (front ++ back).splitOn mark = (back.splitOn mark).modifyHead (front ++ ·) := by
  induction front with
  | nil => exact (congrFun List.modifyHead_id _).symm
  | cons first front inductionHypothesis =>
    rw [List.mem_cons, not_or] at fresh
    rw [List.cons_append, List.splitOn_cons_eq_if_modifyHead,
      if_neg (by simpa using Ne.symm fresh.1), inductionHypothesis fresh.2,
      List.modifyHead_modifyHead]
    rfl

/-- What stands in front of a text without a line feed goes into the first line. -/
theorem lines_append_of_isSingleLine (single : IsSingleLine front) (back : String) :
    ∃ first rest, lines back = first :: rest ∧
      lines (front ++ back) = (front ++ first) :: rest := by
  obtain ⟨first, rest, divided⟩ := List.exists_cons_of_ne_nil (List.splitOn_ne_nil '\n' back.toList)
  refine ⟨String.ofList first, rest.map String.ofList, ?_, ?_⟩
  · rw [lines, divided, List.map_cons]
  · rw [lines, String.toList_append, splitOn_append_of_not_mem single, divided,
      List.modifyHead_cons, List.map_cons, String.ofList_append, String.ofList_toList]

theorem length_le_length_flatMap_lines (rows : List String) :
    rows.length ≤ (rows.flatMap lines).length := by
  induction rows with
  | nil => exact Nat.le_refl 0
  | cons row rows inductionHypothesis =>
    rw [List.flatMap_cons, List.length_append, length_lines, List.length_cons]
    omega

/-- Rows take as many lines as they are exactly when none holds a line feed. -/
theorem length_flatMap_lines_eq_iff {rows : List String} :
    (rows.flatMap lines).length = rows.length ↔ ∀ row ∈ rows, IsSingleLine row := by
  induction rows with
  | nil => exact iff_of_true rfl (List.forall_mem_nil _)
  | cons row rows inductionHypothesis =>
    have others := length_le_length_flatMap_lines rows
    rw [List.forall_mem_cons, ← inductionHypothesis, IsSingleLine, ← List.count_eq_zero,
      List.flatMap_cons, List.length_append, length_lines, List.length_cons]
    omega

/-! ## Texts without line feeds -/

@[simp] theorem isSingleLine_append :
    IsSingleLine (front ++ back) ↔ IsSingleLine front ∧ IsSingleLine back := by
  simp [IsSingleLine, not_or]

@[simp] theorem isSingleLine_toString (text : String) :
    IsSingleLine (toString text) ↔ IsSingleLine text :=
  Iff.rfl

theorem isSingleLine_intercalate {separator : String} {rows : List String}
    (between : IsSingleLine separator) (single : ∀ row ∈ rows, IsSingleLine row) :
    IsSingleLine (separator.intercalate rows) := by
  induction rows with
  | nil => exact List.not_mem_nil
  | cons row rows inductionHypothesis =>
    rw [List.forall_mem_cons] at single
    cases rows with
    | nil => exact single.1
    | cons next rows =>
      rw [String.intercalate_cons_cons, isSingleLine_append, isSingleLine_append]
      exact ⟨⟨single.1, between⟩, inductionHypothesis single.2⟩

theorem isSingleLine_ofList {characters : List Char} :
    IsSingleLine (String.ofList characters) ↔ '\n' ∉ characters := by
  rw [IsSingleLine, String.toList_ofList]

theorem isSingleLine_singleton {character : Char} :
    IsSingleLine (String.singleton character) ↔ character ≠ '\n' := by
  rw [IsSingleLine, String.toList_singleton, List.mem_singleton, ne_comm]

/-- A number takes one line. -/
theorem isSingleLine_number (number : Nat) : IsSingleLine (toString number) := by
  rw [IsSingleLine, Number.toList_toString]
  exact Number.not_mem_digits rfl number

theorem isSingleLine_integer (number : Int) : IsSingleLine (toString number) := by
  cases number with
  | ofNat magnitude => exact isSingleLine_number magnitude
  | negSucc less =>
    change IsSingleLine (_ ++ _)
    rw [isSingleLine_append]
    exact ⟨isSingleLine_ofList.mpr (by decide), isSingleLine_number (less + 1)⟩

end Text
end MuseumRecord
