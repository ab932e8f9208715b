import MuseumRecord.Proofs.HistoricalDate.Nesting
import MuseumRecord.Proofs.Text.Leftmost

/-!
# Halved expressions

A separator halves an expression when it leaves two pieces of it that are not empty, however many
separators stand in front of them, between them and behind them.  An expression is a range exactly
when one of the separators halves it, and the first that does decides where it ends.
-/

namespace MuseumRecord
namespace HistoricalDate

open Text

/-- The pieces that a separator leaves of a text are a start, a finish and empty ones in front of
them, between them and behind them. -/
structure Halves (separator text start finish : List Char) : Prop where
  /-- The start is not empty. -/
  startFilled : start ≠ []
  /-- The finish is not empty. -/
  finishFilled : finish ≠ []
  /-- All other pieces are empty, so that nothing but separators stands around the two. -/
  around : ∃ leading between trailing, 1 ≤ between ∧
    text = copies separator leading ++ start ++ copies separator between ++ finish ++
      copies separator trailing ∧
    ArePieces separator text (List.replicate leading [] ++
      start :: (List.replicate (between - 1) [] ++ finish :: List.replicate trailing []))

/-- A separator leaves exactly two pieces that are not empty. -/
def LeavesTwo (separator text : List Char) : Prop :=
  ∃ row, ArePieces separator text row ∧ (row.filter fun piece => !piece.isEmpty).length = 2

variable {separator text start finish : List Char}

/-- A text is divided into two ends where the separator halves it. -/
theorem divide?_eq_some_iff (nonempty : separator ≠ []) :
    divide? text separator = some (start, finish) ↔ Halves separator text start finish := by
  rw [divide?_eq_some_iff_filter]
  simp only [filter_filled_eq_cons_iff, filter_filled_eq_nil_iff]
  constructor
  · rintro ⟨startFilled, leading, _, shape, finishFilled, inner, _, rfl, trailing, rfl⟩
    have divided := (arePieces_iff nonempty).mpr shape
    refine ⟨startFilled, finishFilled, leading, inner + 1, trailing, Nat.le_add_left 1 inner, ?_,
      divided⟩
    rw [← divided.whole, intercalate_replicate_append (List.cons_ne_nil _ _),
      List.intercalate_cons_of_ne_nil (by simp), intercalate_replicate_append (by simp),
      intercalate_cons_replicate, copies_succ]
    simp only [List.append_assoc]
  · rintro ⟨startFilled, finishFilled, leading, between, trailing, _, _, divided⟩
    exact ⟨startFilled, leading, _, divided.pieces_eq nonempty, finishFilled, between - 1, _, rfl,
      trailing, rfl⟩

theorem divide?_eq_none_iff (nonempty : separator ≠ []) :
    divide? text separator = none ↔ ¬ LeavesTwo separator text := by
  rw [← not_iff_not, not_not, ← ne_eq]
  simp only [LeavesTwo, arePieces_iff nonempty, exists_eq_left', List.length_eq_two,
    ← divide?_eq_some_iff_filter, Option.ne_none_iff_exists', Prod.exists]

/-- Each half is shorter than the text and holds no separator. -/
theorem Halves.free_and_shorter (nonempty : separator ≠ [])
    (halves : Halves separator text start finish) :
    (¬ separator <:+: start ∧ start.length < text.length) ∧
      (¬ separator <:+: finish ∧ finish.length < text.length) := by
  obtain ⟨startMember, finishMember⟩ :=
    mem_pieces_of_divide? ((divide?_eq_some_iff nonempty).mpr halves)
  obtain ⟨startFilled, finishFilled, leading, between, trailing, _, whole, _⟩ := halves
  have startPositive := List.length_pos_iff.mpr startFilled
  have finishPositive := List.length_pos_iff.mpr finishFilled
  have lengths := congrArg List.length whole
  simp only [List.length_append] at lengths
  exact ⟨⟨(infix_and_free_of_mem_pieces nonempty startMember).2, by omega⟩,
    ⟨(infix_and_free_of_mem_pieces nonempty finishMember).2, by omega⟩⟩

theorem split_eq_range_iff_halves :
    Expression.split text = .range start finish ↔
      ∃ separator tried untried, separators = tried ++ separator :: untried ∧
        Halves separator text start finish ∧ ∀ other ∈ tried, ¬ LeavesTwo other text := by
  rw [split_eq_range_iff]
  refine exists_congr fun separator => exists_congr fun tried => exists_congr fun untried =>
    and_congr_right fun listed => ?_
  have nonempty : ∀ other ∈ tried ++ separator :: untried, other ≠ [] :=
    fun other member => separators_nonempty (listed ▸ member)
  refine and_congr (divide?_eq_some_iff (nonempty separator (by simp))) ?_
  exact forall₂_congr fun other earlier =>
    divide?_eq_none_iff (nonempty other (List.mem_append_left _ earlier))

theorem split_range_or_single (text : List Char) :
    (∃ start finish, Expression.split text = .range start finish) ∨
      (Expression.split text = .single text ∧
        ∀ separator ∈ separators, ¬ LeavesTwo separator text) := by
  rw [Expression.split]
  cases found : separators.findSome? (divide? text) with
  | some ends => exact .inl ⟨ends.1, ends.2, rfl⟩
  | none =>
    exact .inr ⟨rfl, fun separator listed => (divide?_eq_none_iff (separators_nonempty listed)).mp
      (List.findSome?_eq_none_iff.mp found separator listed)⟩

/-- The division of an expression loses nothing but separators.  It is a range exactly when a
separator halves it and none that is tried before leaves two pieces that are not empty; the halves
are shorter and hold that separator no more.  Otherwise it stays whole. -/
theorem ranges_lose_only_separators :
    (∀ separator ∈ separators, ∀ text, ∃! row, ArePieces separator text row) ∧
      (∀ text start finish, Expression.split text = .range start finish ↔
        ∃ separator tried untried, separators = tried ++ separator :: untried ∧
          Halves separator text start finish ∧ ∀ other ∈ tried, ¬ LeavesTwo other text) ∧
      (∀ separator ∈ separators, ∀ text start finish, Halves separator text start finish →
        (¬ separator <:+: start ∧ start.length < text.length) ∧
          (¬ separator <:+: finish ∧ finish.length < text.length)) ∧
      ∀ text, (∃ start finish, Expression.split text = .range start finish) ∨
        (Expression.split text = .single text ∧
          ∀ separator ∈ separators, ¬ LeavesTwo separator text) := by
  refine ⟨fun separator listed text => ?_, fun _ _ _ => split_eq_range_iff_halves, ?_,
    split_range_or_single⟩
  · have nonempty := separators_nonempty listed
    exact ⟨_, arePieces_pieces nonempty text, fun row divided => (divided.pieces_eq nonempty).symm⟩
  · intro separator listed text start finish halves
    exact halves.free_and_shorter (separators_nonempty listed)

/-- A separator that leaves three pieces is passed over for a later one, and of two separators that
share a space the first one counts. -/
example :
    Expression.split "1 - 2 – 3 - 4".toList = .range "1 - 2".toList "3 - 4".toList ∧
      Expression.split " - 1 - - 2".toList = .range "1".toList "- 2".toList := by
  decide +kernel

end HistoricalDate
end MuseumRecord
