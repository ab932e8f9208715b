import MuseumRecord.Proofs.Text.Stretches

/-!
# Leftmost divisions

A separator divides a text where it first stands, then where it first stands behind that place, and
so on.  What such a division leaves is said here without the scan that makes it: every text has
exactly one such row of pieces.  Separators in a row leave pieces without characters between them.
-/

namespace MuseumRecord
namespace Text

/-- The row is what leftmost separators that do not overlap leave of the text. -/
structure ArePieces (separator text : List Char) (row : List (List Char)) : Prop where
  /-- There is a piece in front of the first separator. -/
  filled : row ≠ []
  /-- The pieces with a separator between any two are the text. -/
  whole : separator.intercalate row = text
  /-- The separator behind a piece is the first one that begins no earlier than the piece. -/
  leftmost : ∀ piece ∈ row.dropLast, ∀ front back,
    piece ++ separator = front ++ separator ++ back → back = []
  /-- No separator stands in the last piece. -/
  last : ∀ piece ∈ row.getLast?, ¬ separator <:+: piece

/-- A text written a number of times. -/
def copies (text : List Char) (count : Nat) : List Char :=
  (List.replicate count text).flatten

variable {separator text : List Char} {row : List (List Char)}

/-- Behind the first piece the rest of the text is divided in the same way. -/
theorem ArePieces.tail {piece next : List Char} {rest : List (List Char)}
    (pieces : ArePieces separator text (piece :: next :: rest)) :
    ArePieces separator (separator.intercalate (next :: rest)) (next :: rest) where
  filled := List.cons_ne_nil _ _
  whole := rfl
  leftmost other member := pieces.leftmost other (List.mem_cons_of_mem _ member)
  last other ending := pieces.last other (by rwa [List.getLast?_cons_cons])

theorem ArePieces.pieces_eq (nonempty : separator ≠ []) (divided : ArePieces separator text row) :
    pieces separator text = row := by
  induction row generalizing text with
  | nil => exact absurd rfl divided.filled
  | cons piece row inductionHypothesis =>
    rw [← divided.whole]
    cases row with
    | nil =>
      rw [List.intercalate_singleton]
      exact pieces_of_uncut (divided.last piece rfl)
    | cons next rest =>
      have found := cut_of_shortest (divided.leftmost piece List.mem_cons_self)
        (separator.intercalate (next :: rest))
      rw [List.intercalate_cons_cons, pieces_of_cut nonempty found,
        inductionHypothesis divided.tail]

theorem arePieces_pieces (nonempty : separator ≠ []) (text : List Char) :
    ArePieces separator text (pieces separator text) := by
  refine ⟨pieces_ne_nil nonempty text, intercalate_pieces nonempty text, ?_, ?_⟩
  · induction text using inductionOnCuts nonempty with
    | free text free =>
      rw [pieces_of_uncut free]
      exact List.forall_mem_nil _
    | first text before after found inductionHypothesis =>
      rw [pieces_of_cut nonempty found, List.dropLast_cons_of_ne_nil (pieces_ne_nil nonempty after)]
      refine List.forall_mem_cons.mpr ⟨fun front back other => ?_, inductionHypothesis⟩
      -- Another place in the piece and its separator would be a place in the text.
      have place : text = front ++ separator ++ (back ++ after) := by
        rw [cut_eq_some found, other, List.append_assoc]
      have first := length_le_of_cut found place
      have lengths := congrArg List.length other
      simp only [List.length_append] at lengths
      exact List.length_eq_zero_iff.mp (by omega)
  · intro piece ending
    exact (infix_and_free_of_mem_pieces nonempty (List.mem_of_getLast? ending)).2

/-- A text has one row of pieces. -/
theorem arePieces_iff (nonempty : separator ≠ []) :
    ArePieces separator text row ↔ pieces separator text = row :=
  ⟨fun divided => divided.pieces_eq nonempty,
    fun same => same ▸ arePieces_pieces nonempty text⟩

/-! ## Separators in a row -/

/-- The first piece that is not empty stands behind empty ones. -/
theorem filter_filled_eq_cons_iff {piece : List Char} {rest : List (List Char)} :
    (row.filter fun piece => !piece.isEmpty) = piece :: rest ↔
      piece ≠ [] ∧ ∃ count behind, row = List.replicate count [] ++ piece :: behind ∧
        (behind.filter fun piece => !piece.isEmpty) = rest := by
  rw [List.filter_eq_cons_iff]
  constructor
  · rintro ⟨front, behind, rfl, empty, filled, rest⟩
    have allEmpty : front = List.replicate front.length [] :=
      List.eq_replicate_iff.mpr ⟨rfl, fun other member => by simpa using empty other member⟩
    exact ⟨by simpa using filled, front.length, behind, by rw [← allEmpty], rest⟩
  · rintro ⟨filled, count, behind, rfl, rest⟩
    refine ⟨List.replicate count [], behind, rfl, fun other member => ?_, by simpa using filled,
      rest⟩
    rw [List.eq_of_mem_replicate member]
    simp

theorem filter_filled_eq_nil_iff :
    (row.filter fun piece => !piece.isEmpty) = [] ↔ ∃ count, row = List.replicate count [] := by
  constructor
  · intro empty
    refine ⟨row.length, List.eq_replicate_iff.mpr ⟨rfl, fun piece member => ?_⟩⟩
    simpa using List.filter_eq_nil_iff.mp empty piece member
  · rintro ⟨count, rfl⟩
    simp

theorem copies_succ (text : List Char) (count : Nat) :
    copies text (count + 1) = text ++ copies text count :=
  rfl

theorem intercalate_replicate_append (filled : row ≠ []) (count : Nat) :
    separator.intercalate (List.replicate count [] ++ row) =
      copies separator count ++ separator.intercalate row := by
  induction count with
  | zero => rfl
  | succ count inductionHypothesis =>
    rw [List.replicate_succ, List.cons_append,
      List.intercalate_cons_of_ne_nil (List.append_ne_nil_of_right_ne_nil _ filled),
      inductionHypothesis, copies_succ, List.nil_append, List.append_assoc]

theorem intercalate_cons_replicate (piece : List Char) (count : Nat) :
    separator.intercalate (piece :: List.replicate count []) = piece ++ copies separator count := by
  induction count generalizing piece with
  | zero => simp [copies]
  | succ count inductionHypothesis =>
    rw [List.replicate_succ, List.intercalate_cons_cons, inductionHypothesis, copies_succ,
      List.nil_append, List.append_assoc]

end Text
end MuseumRecord
