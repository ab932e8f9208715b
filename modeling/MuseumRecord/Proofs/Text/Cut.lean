import MuseumRecord.Text.Piece
import Mathlib.Data.List.TakeWhile

/-!
# The first place of a mark

A mark whose last character stands nowhere else in it cannot begin inside a text that does not
hold it and end behind that text.
-/

namespace MuseumRecord
namespace Text

/-- A scan takes all in front of the first thing that it does not accept. -/
theorem takeWhile_append_stop {α : Type} {accepts : α → Bool} {text after : List α}
    (accepted : ∀ character ∈ text, accepts character)
    (stopped : ∀ character ∈ after.head?, accepts character = false) :
    (text ++ after).takeWhile accepts = text := by
  rw [List.takeWhile_append_of_pos accepted]
  cases after with
  | nil => simp
  | cons stop rest =>
    rw [List.takeWhile_cons_of_neg (by simp [stopped stop rfl]), List.append_nil]

/-- What a scan takes and what it leaves are determined by the whole. -/
theorem eq_of_append_scan {α : Type} {accepts : α → Bool} {left right after other : List α}
    (acceptedLeft : ∀ character ∈ left, accepts character)
    (acceptedRight : ∀ character ∈ right, accepts character)
    (stopped : ∀ character ∈ after.head?, accepts character = false)
    (stoppedOther : ∀ character ∈ other.head?, accepts character = false)
    (equal : left ++ after = right ++ other) : left = right ∧ after = other := by
  have front : left = right := by
    rw [← takeWhile_append_stop acceptedLeft stopped, equal,
      takeWhile_append_stop acceptedRight stoppedOther]
  exact ⟨front, List.append_cancel_left (front ▸ equal)⟩

/-- What follows the longest accepted front begins with a character that is not accepted. -/
theorem not_accepts_of_drop_takeWhile {accepts : Char → Bool} {text rest : List Char} {first : Char}
    (behind : text.drop (text.takeWhile accepts).length = first :: rest) :
    accepts first = false := by
  induction text with
  | nil => cases behind
  | cons character text inductionHypothesis =>
    cases accepted : accepts character with
    | true =>
      rw [List.takeWhile_cons_of_pos accepted] at behind
      exact inductionHypothesis behind
    | false =>
      rw [List.takeWhile_cons_of_neg (by simp [accepted])] at behind
      cases behind
      exact accepted

theorem bne_of_not_mem {text : List Char} {stop : Char} (fresh : stop ∉ text) :
    ∀ character ∈ text, (character != stop) = true := by
  intro character member
  have different : character ≠ stop := fun same => fresh (same ▸ member)
  simpa using different

/-- A scan for a character takes all in front of its first place. -/
theorem takeWhile_ne_append {text : List Char} {stop : Char} (fresh : stop ∉ text)
    (after : List Char) :
    (text ++ stop :: after).takeWhile (fun character => character != stop) = text :=
  takeWhile_append_stop (bne_of_not_mem fresh) (by simp)

/-- A text is determined by the first place of a character behind it. -/
theorem eq_of_append_stop {left right after other : List Char} {stop : Char}
    (freshLeft : stop ∉ left) (freshRight : stop ∉ right)
    (equal : left ++ stop :: after = right ++ stop :: other) : left = right := by
  rw [← takeWhile_ne_append freshLeft after, ← takeWhile_ne_append freshRight other, equal]

theorem isPrefixOf?_append (mark after : List Char) :
    mark.isPrefixOf? (mark ++ after) = some after := by
  induction mark with
  | nil => rfl
  | cons character mark inductionHypothesis =>
    exact (if_pos (beq_self_eq_true character)).trans inductionHypothesis

/-- A mark that begins in front of its next occurrence ends in front of it, too. -/
theorem prefix_of_append_eq {front text after other : List Char} {last : Char}
    (single : last ∉ front) (nonempty : text ≠ [])
    (equal : text ++ (front ++ last :: after) = front ++ last :: other) :
    front ++ [last] <+: text := by
  by_cases ends : last ∈ text
  · obtain ⟨before, behind, rfl, fresh⟩ := List.eq_append_cons_of_mem ends
    rw [List.append_assoc, List.cons_append] at equal
    obtain rfl := eq_of_append_stop fresh single equal
    exact ⟨behind, by simp⟩
  · have fresh : last ∉ text ++ front := by simp [ends, single]
    rw [← List.append_assoc] at equal
    have same := eq_of_append_stop fresh single equal
    exact absurd (List.append_left_eq_self.mp same) nonempty

/-- A text that does not hold a mark is all that stands in front of it. -/
theorem cut_append {mark text : List Char} (front : List Char) (last : Char)
    (shape : mark = front ++ [last]) (single : last ∉ front) (free : ¬ mark <:+: text)
    (after : List Char) : cut mark (text ++ mark ++ after) = some (text, after) := by
  induction text with
  | nil =>
    have leading := isPrefixOf?_append mark after
    cases whole : mark ++ after with
    | nil => simp [shape] at whole
    | cons first rest =>
      rw [whole] at leading
      rw [List.nil_append, whole]
      simp only [cut, leading]
  | cons character text inductionHypothesis =>
    have tailFree : ¬ mark <:+: text := fun inside =>
      free (inside.trans (List.suffix_cons character text).isInfix)
    rw [List.cons_append, List.cons_append, cut]
    cases found : mark.isPrefixOf? (character :: (text ++ mark ++ after)) with
    | none => simp only [inductionHypothesis tailFree, Option.map_some]
    | some other =>
      -- An earlier mark would lie in the text, whether or not it ran into the mark behind.
      have equal := append_of_isPrefixOf? found
      have leading : mark <+: character :: text := by
        rw [shape] at equal ⊢
        exact prefix_of_append_eq single (List.cons_ne_nil _ _) (by simpa using equal)
      exact absurd leading.isInfix free

end Text
end MuseumRecord
