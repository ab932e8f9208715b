import MuseumRecord.Proofs.Text.Enclosed

/-!
# Divided texts

The pieces that a separator leaves are stretches of the text and hold no separator.  With the
separator between them they are the text again.
-/

namespace MuseumRecord
namespace Text

variable {separator text before after piece left right : List Char}

theorem cut_eq_none_iff : cut separator text = none ↔ ¬ separator <:+: text := by
  rw [← contains_iff, contains, Option.not_isSome_iff_eq_none]

/-- The first separator is not preceded by another. -/
theorem not_infix_of_cut (nonempty : separator ≠ [])
    (found : cut separator text = some (before, after)) : ¬ separator <:+: before := by
  intro inside
  obtain ⟨⟨front, middle⟩, earlier⟩ := Option.isSome_iff_exists.mp (contains_iff.mpr inside)
  have whole := cut_eq_some earlier
  -- The cut in front of the separator is the cut of the whole text, so the two have one length.
  have again := cut_append_right earlier (middle ++ separator ++ after)
  have same : front ++ separator ++ (middle ++ separator ++ after) = text := by
    rw [cut_eq_some found, whole]
    simp
  rw [same, found] at again
  have lengths := congrArg List.length whole
  have shorter : before = front := (Prod.mk.inj (Option.some.inj again)).1
  have positive := List.length_pos_iff.mpr nonempty
  simp only [List.length_append, shorter] at lengths
  omega

theorem pieces_of_uncut (free : ¬ separator <:+: text) : pieces separator text = [text] := by
  rw [pieces, cut_eq_none_iff.mpr free]

theorem pieces_of_cut (nonempty : separator ≠ [])
    (found : cut separator text = some (before, after)) :
    pieces separator text = before :: pieces separator after := by
  have length := length_of_cut found
  have positive := List.length_pos_iff.mpr nonempty
  have shorter : after.length < text.length := by omega
  rw [pieces, found]
  simp only [dif_pos shorter]

/-- A text is divided at its only separator. -/
theorem pieces_of_single (nonempty : separator ≠ [])
    (found : cut separator text = some (left, right)) (free : ¬ separator <:+: right) :
    pieces separator text = [left, right] := by
  rw [pieces_of_cut nonempty found, pieces_of_uncut free]

/-- What holds of texts without a separator, and of a text with one if it holds of what follows the
first one, holds of all texts. -/
@[elab_as_elim] theorem inductionOnCuts (nonempty : separator ≠ []) {motive : List Char → Prop}
    (free : ∀ text, ¬ separator <:+: text → motive text)
    (first : ∀ text before after, cut separator text = some (before, after) → motive after →
      motive text)
    (text : List Char) : motive text := by
  induction text using pieces.induct separator with
  | case1 text uncut => exact free text (cut_eq_none_iff.mp uncut)
  | case2 text before after found _ inductionHypothesis =>
    exact first text before after found inductionHypothesis
  | case3 text before after found notShorter =>
    have length := length_of_cut found
    have positive := List.length_pos_iff.mpr nonempty
    omega

/-- Every piece is a stretch of the text without a separator. -/
theorem infix_and_free_of_mem_pieces (nonempty : separator ≠ [])
    (member : piece ∈ pieces separator text) : piece <:+: text ∧ ¬ separator <:+: piece := by
  induction text using inductionOnCuts nonempty with
  | free text free =>
    rw [pieces_of_uncut free, List.mem_singleton] at member
    rw [member]
    exact ⟨List.infix_refl text, free⟩
  | first text before after found inductionHypothesis =>
    rw [pieces_of_cut nonempty found, List.mem_cons] at member
    have whole := cut_eq_some found
    rcases member with rfl | later
    · exact ⟨⟨[], separator ++ after, by simp [whole]⟩, not_infix_of_cut nonempty found⟩
    · obtain ⟨inside, free⟩ := inductionHypothesis later
      exact ⟨inside.trans ⟨before ++ separator, [], by simp [whole]⟩, free⟩

/-! ## Pieces put together -/

theorem pieces_ne_nil (nonempty : separator ≠ []) (text : List Char) :
    pieces separator text ≠ [] := by
  cases found : cut separator text with
  | none => simp [pieces_of_uncut (cut_eq_none_iff.mp found)]
  | some division => simp [pieces_of_cut nonempty found]

theorem intercalate_pieces (nonempty : separator ≠ []) (text : List Char) :
    separator.intercalate (pieces separator text) = text := by
  induction text using inductionOnCuts nonempty with
  | free text free => rw [pieces_of_uncut free, List.intercalate_singleton]
  | first text before after found inductionHypothesis =>
    rw [pieces_of_cut nonempty found, List.intercalate_cons_of_ne_nil (pieces_ne_nil nonempty _),
      inductionHypothesis, cut_eq_some found]

/-- A character of a joined row stands in the separator or in a piece. -/
theorem mem_or_mem_of_mem_intercalate {mark : List Char} {row : List (List Char)} {character : Char}
    (member : character ∈ mark.intercalate row) :
    character ∈ mark ∨ character ∈ row.flatten := by
  induction row with
  | nil => cases member
  | cons piece row inductionHypothesis =>
    by_cases last : row = []
    · subst last
      rw [List.intercalate_singleton] at member
      exact .inr (by simpa using member)
    · rw [List.intercalate_cons_of_ne_nil last, List.append_assoc, List.mem_append,
        List.mem_append] at member
      rw [List.flatten_cons, List.mem_append]
      rcases member with here | between | later
      · exact .inr (.inl here)
      · exact .inl between
      · exact (inductionHypothesis later).imp_right .inr

theorem two_le_length_pieces (nonempty : separator ≠ [])
    (divided : contains separator text = true) : 2 ≤ (pieces separator text).length := by
  obtain ⟨⟨before, after⟩, found⟩ := Option.isSome_iff_exists.mp divided
  rw [pieces_of_cut nonempty found, List.length_cons]
  exact Nat.succ_le_succ (List.length_pos_iff.mpr (pieces_ne_nil nonempty after))

/-- Pieces without the first character of the separator are found again. -/
theorem pieces_intercalate {first : Char} {tail : List Char} {row : List (List Char)}
    (filled : row ≠ []) (fresh : ∀ piece ∈ row, first ∉ piece) :
    pieces (first :: tail) ((first :: tail).intercalate row) = row := by
  induction row with
  | nil => exact absurd rfl filled
  | cons piece row inductionHypothesis =>
    rw [List.forall_mem_cons] at fresh
    cases row with
    | nil =>
      rw [List.intercalate_singleton]
      exact pieces_of_uncut fun inside => fresh.1 (inside.subset List.mem_cons_self)
    | cons next row =>
      have found : cut (first :: tail)
          (piece ++ ((first :: tail) ++ (first :: tail).intercalate (next :: row))) =
            some (piece, (first :: tail).intercalate (next :: row)) := by
        rw [isClear_of_not_mem fresh.1, cut_leading]
        simp
      rw [List.intercalate_cons_cons, List.append_assoc,
        pieces_of_cut (List.cons_ne_nil _ _) found,
        inductionHypothesis (List.cons_ne_nil _ _) fresh.2]

end Text
end MuseumRecord
