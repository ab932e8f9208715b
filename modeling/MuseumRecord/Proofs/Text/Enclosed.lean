import MuseumRecord.Proofs.Text.Cut
import MuseumRecord.Text.Blank

/-!
# Enclosed stretches

Taking the enclosed stretches out of a text passes over a piece in which no opening mark begins, and
drops a stretch that leads.
-/

namespace MuseumRecord
namespace Text

/-! ## Cuts and what follows them -/

theorem isPrefixOf?_eq_none {mark text : List Char} (other : ¬ mark <+: text) :
    mark.isPrefixOf? text = none := by
  cases found : mark.isPrefixOf? text with
  | none => rfl
  | some after => exact absurd ⟨after, (append_of_isPrefixOf? found).symm⟩ other

/-- A mark that leads cuts off nothing. -/
theorem cut_leading (mark after : List Char) : cut mark (mark ++ after) = some ([], after) := by
  have leading := isPrefixOf?_append mark after
  cases whole : mark ++ after with
  | nil =>
    obtain ⟨rfl, rfl⟩ := List.append_eq_nil_iff.mp whole
    rfl
  | cons first rest =>
    rw [whole] at leading
    simp only [cut, leading]

theorem cut_cons_of_other {mark rest : List Char} {character : Char}
    (other : ¬ mark <+: character :: rest) :
    cut mark (character :: rest) =
      (cut mark rest).map fun (before, after) => (character :: before, after) := by
  rw [cut, isPrefixOf?_eq_none other]

/-- A cut is made at the same place whatever follows the mark. -/
theorem cut_append_right {mark text before after : List Char}
    (found : cut mark text = some (before, after)) (other : List Char) :
    cut mark (before ++ mark ++ other) = some (before, other) := by
  induction text generalizing before with
  | nil =>
    unfold cut at found
    split at found
    · cases found
      exact cut_leading mark other
    · cases found
  | cons character rest inductionHypothesis =>
    by_cases leading : mark <+: character :: rest
    · obtain ⟨behind, whole⟩ := leading
      rw [← whole, cut_leading] at found
      cases found
      exact cut_leading mark other
    · rw [cut_cons_of_other leading] at found
      obtain ⟨⟨front, behind⟩, inner, equal⟩ := Option.map_eq_some_iff.mp found
      cases equal
      have shape := cut_eq_some inner
      have still : ¬ mark <+: character :: (front ++ mark ++ other) := by
        intro begins
        -- The mark that begins in front of the first one ends in front of what follows.
        have short : mark <+: character :: front ++ mark :=
          List.prefix_of_prefix_length_le begins ⟨other, by simp⟩ (by simp; omega)
        exact leading (short.trans ⟨after, by simp [shape]⟩)
      rw [List.cons_append, List.cons_append, cut_cons_of_other still,
        inductionHypothesis inner]
      rfl

theorem contains_iff {mark text : List Char} : contains mark text = true ↔ mark <:+: text := by
  constructor
  · intro held
    obtain ⟨⟨before, after⟩, found⟩ := Option.isSome_iff_exists.mp held
    exact ⟨before, after, (cut_eq_some found).symm⟩
  · intro inside
    induction text with
    | nil =>
      obtain rfl := List.infix_nil.mp inside
      rfl
    | cons character rest inductionHypothesis =>
      by_cases leading : mark <+: character :: rest
      · obtain ⟨after, whole⟩ := leading
        rw [contains, ← whole, cut_leading]
        rfl
      · have later := inductionHypothesis ((List.infix_cons_iff.mp inside).resolve_left leading)
        rw [contains, cut_cons_of_other leading, Option.isSome_map]
        exact later

/-- No mark begins in the piece, whatever follows it. -/
def IsClear (mark piece : List Char) : Prop :=
  ∀ after, cut mark (piece ++ after) =
    (cut mark after).map fun (before, rest) => (piece ++ before, rest)

theorem isClear_of_not_mem {first : Char} {tail piece : List Char} (fresh : first ∉ piece) :
    IsClear (first :: tail) piece := by
  intro after
  induction piece with
  | nil => simp
  | cons character piece inductionHypothesis =>
    obtain ⟨different, others⟩ := not_or.mp (List.mem_cons.not.mp fresh)
    have leads : ¬ first :: tail <+: character :: (piece ++ after) :=
      fun begins => different (List.cons_prefix_cons.mp begins).1
    rw [List.cons_append, cut_cons_of_other leads, inductionHypothesis others,
      Option.map_map]
    rfl

/-- A mark that does not stand in a piece cannot reach over its end when the last character of the
piece is none of the mark. -/
theorem not_prefix_of_last {mark front : List Char} {last : Char} (single : last ∉ mark)
    (free : ¬ mark <:+: front ++ [last]) (after : List Char) :
    ¬ mark <+: front ++ [last] ++ after := by
  intro begins
  rcases List.prefix_or_prefix_of_prefix begins (List.prefix_append _ after) with short | long
  · exact free short.isInfix
  · exact single (long.subset (by simp))

theorem isClear_of_last {mark front : List Char} {last : Char} (single : last ∉ mark)
    (free : ¬ mark <:+: front ++ [last]) : IsClear mark (front ++ [last]) := by
  intro after
  induction front with
  | nil =>
    have leads : ¬ mark <+: last :: after := not_prefix_of_last single free after
    rw [List.nil_append, List.cons_append, List.nil_append, cut_cons_of_other leads]
    rfl
  | cons character front inductionHypothesis =>
    have leads := not_prefix_of_last single free after
    have tailFree : ¬ mark <:+: front ++ [last] := fun inside =>
      free (inside.trans (List.suffix_cons character _).isInfix)
    rw [List.cons_append, List.cons_append] at leads ⊢
    rw [cut_cons_of_other leads, inductionHypothesis tailFree, Option.map_map]
    rfl

/-! ## Taking stretches out -/

theorem withoutEnclosed_of_uncut {opening text : List Char} (uncut : cut opening text = none)
    (closing : List Char) : withoutEnclosed opening closing text = text := by
  rw [withoutEnclosed, uncut]

theorem withoutEnclosed_of_cut {opening closing text before inside within after : List Char}
    (nonempty : opening ≠ []) (opened : cut opening text = some (before, inside))
    (closed : cut closing inside = some (within, after)) :
    withoutEnclosed opening closing text = before ++ withoutEnclosed opening closing after := by
  have first := length_of_cut opened
  have second := length_of_cut closed
  have positive := List.length_pos_iff.mpr nonempty
  have shorter : after.length < text.length := by omega
  rw [withoutEnclosed, opened]
  simp only [closed, dif_pos shorter]

theorem withoutEnclosed_of_unclosed {opening closing text before inside : List Char}
    (opened : cut opening text = some (before, inside)) (unclosed : cut closing inside = none) :
    withoutEnclosed opening closing text = text := by
  rw [withoutEnclosed, opened]
  simp only [unclosed]

/-- A piece in which no opening mark begins stays as it is. -/
theorem withoutEnclosed_append {opening closing piece : List Char} (nonempty : opening ≠ [])
    (clear : IsClear opening piece) (text : List Char) :
    withoutEnclosed opening closing (piece ++ text) =
      piece ++ withoutEnclosed opening closing text := by
  have moved := clear text
  cases opened : cut opening text with
  | none =>
    rw [opened] at moved
    rw [withoutEnclosed_of_uncut opened, withoutEnclosed_of_uncut moved]
  | some found =>
    obtain ⟨before, inside⟩ := found
    rw [opened] at moved
    cases closed : cut closing inside with
    | none =>
      rw [withoutEnclosed_of_unclosed opened closed, withoutEnclosed_of_unclosed moved closed]
    | some rest =>
      rw [withoutEnclosed_of_cut nonempty opened closed,
        withoutEnclosed_of_cut nonempty moved closed, List.append_assoc]

/-- A stretch that leads is taken out. -/
theorem withoutEnclosed_leading {opening closing inside within after : List Char}
    (nonempty : opening ≠ []) (closed : cut closing inside = some (within, after)) :
    withoutEnclosed opening closing (opening ++ inside) =
      withoutEnclosed opening closing after :=
  withoutEnclosed_of_cut nonempty (cut_leading opening inside) closed

/-! ## Blanks at the ends -/

theorem exists_trimEnd (text : List Char) :
    ∃ blanks, text = trimEnd text ++ blanks ∧ ∀ character ∈ blanks, isBlank character = true := by
  induction text with
  | nil => exact ⟨[], rfl, by simp⟩
  | cons character rest inductionHypothesis =>
    obtain ⟨blanks, whole, blank⟩ := inductionHypothesis
    cases kept : trimEnd rest with
    | nil =>
      rw [kept, List.nil_append] at whole
      subst whole
      by_cases here : isBlank character = true
      · refine ⟨character :: rest, ?_, ?_⟩
        · simp [trimEnd, kept, here]
        · simpa [here] using blank
      · refine ⟨rest, ?_, blank⟩
        simp [trimEnd, kept, here]
    | cons first others =>
      refine ⟨blanks, ?_, blank⟩
      rw [trimEnd, kept]
      rw [kept] at whole
      rw [List.cons_append, ← whole]

theorem trimEnd_cons_of_solid {first : Char} (solid : isBlank first = false) (rest : List Char) :
    trimEnd (first :: rest) = first :: trimEnd rest := by
  rw [trimEnd]
  cases kept : trimEnd rest with
  | nil => simp [solid]
  | cons second others => rfl

/-- Trimming stops at the last character that is not blank. -/
theorem trimEnd_append_of_solid (front : List Char) {first : Char} (solid : isBlank first = false)
    (rest : List Char) : trimEnd (front ++ first :: rest) = front ++ first :: trimEnd rest := by
  induction front with
  | nil => exact trimEnd_cons_of_solid solid rest
  | cons character front inductionHypothesis =>
    rw [List.cons_append, trimEnd, inductionHypothesis]
    cases front <;> rfl

end Text
end MuseumRecord
