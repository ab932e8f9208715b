/-!
# Pieces of a text

Where a mark first stands in a text, the division of a text by a separator into its leftmost
non-overlapping pieces, and the removal of enclosed stretches.
-/

namespace MuseumRecord
namespace Text

/-- The text before and the text after the first place where the mark stands. -/
def cut (mark : List Char) : List Char → Option (List Char × List Char)
  | [] => if mark.isEmpty then some ([], []) else none
  | character :: rest =>
    match mark.isPrefixOf? (character :: rest) with
    | some after => some ([], after)
    | none => (cut mark rest).map fun (before, after) => (character :: before, after)

/-- Whether the mark stands anywhere in the text. -/
def contains (mark text : List Char) : Bool :=
  (cut mark text).isSome

/-- What follows a leading mark is the text without it. -/
theorem append_of_isPrefixOf? {mark text after : List Char}
    (found : mark.isPrefixOf? text = some after) : text = mark ++ after := by
  induction mark generalizing text with
  | nil => exact Option.some.inj found
  | cons character mark inductionHypothesis =>
    cases text with
    | nil => cases found
    | cons head rest =>
      change (if character == head then mark.isPrefixOf? rest else none) = some after at found
      split at found
      · next same =>
        have equal : character = head := by simpa using same
        rw [inductionHypothesis found, equal]
        rfl
      · cases found

/-- A cut loses nothing but the mark it was made at. -/
theorem cut_eq_some {mark text before after : List Char}
    (found : cut mark text = some (before, after)) : text = before ++ mark ++ after := by
  induction text generalizing before with
  | nil =>
    unfold cut at found
    split at found
    · next empty =>
      have markEmpty : mark = [] := by simpa using empty
      cases found
      simp [markEmpty]
    · cases found
  | cons character rest inductionHypothesis =>
    unfold cut at found
    split at found
    · next leading =>
      cases found
      simpa using append_of_isPrefixOf? leading
    · obtain ⟨⟨tailBefore, tailAfter⟩, tailFound, equal⟩ := Option.map_eq_some_iff.mp found
      cases equal
      simp [inductionHypothesis tailFound]

theorem length_of_cut {mark text before after : List Char}
    (found : cut mark text = some (before, after)) :
    text.length = before.length + mark.length + after.length := by
  rw [cut_eq_some found]
  simp only [List.length_append]

/-- The pieces that the leftmost non-overlapping separators leave of a text.  An empty separator
divides nothing. -/
def pieces (separator text : List Char) : List (List Char) :=
  match cut separator text with
  | none => [text]
  | some (before, after) =>
    if _shorter : after.length < text.length then
      before :: pieces separator after
    else
      [text]
termination_by text.length

/-- The text with every occurrence of the mark taken out. -/
def without (mark text : List Char) : List Char :=
  (pieces mark text).flatten

/-- The text with every shortest stretch from an opening mark to the next closing mark taken out.
An opening mark that is never closed stays. -/
def withoutEnclosed (opening closing text : List Char) : List Char :=
  match cut opening text with
  | none => text
  | some (before, inside) =>
    match cut closing inside with
    | none => text
    | some (_, after) =>
      if _shorter : after.length < text.length then
        before ++ withoutEnclosed opening closing after
      else
        text
termination_by text.length

end Text
end MuseumRecord
