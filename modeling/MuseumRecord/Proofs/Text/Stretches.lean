import MuseumRecord.Proofs.Text.Division

/-!
# Stretches of a text

A stretch reaches from an opening mark to a later closing mark.  Every text has exactly one division
into shortest leftmost stretches and what is kept between them, and taking the enclosed stretches
out of the text leaves what is kept.
-/

namespace MuseumRecord
namespace Text

/-- The text has an opening mark with a closing mark behind it that does not overlap it. -/
def HasStretch (opening closing text : List Char) : Prop :=
  ∃ before inside after, text = before ++ opening ++ inside ++ closing ++ after

/-- What is kept in front of a stretch, and what the stretch encloses. -/
structure Part where
  /-- What stands in front of the opening mark. -/
  kept : List Char
  /-- What stands between the marks. -/
  inside : List Char
deriving DecidableEq, Repr

/-- A text divided at stretches. -/
structure Division where
  /-- Every stretch with what is kept in front of it. -/
  parts : List Part
  /-- What is kept behind the last stretch. -/
  last : List Char
deriving DecidableEq, Repr

namespace Division

/-- The text that is divided. -/
def whole (opening closing : List Char) (division : Division) : List Char :=
  division.parts.flatMap (fun part => part.kept ++ opening ++ part.inside ++ closing) ++
    division.last

/-- The pieces that are kept. -/
def pieces (division : Division) : List (List Char) :=
  division.parts.map Part.kept ++ [division.last]

/-- The text without the stretches. -/
def kept (division : Division) : List Char :=
  division.pieces.flatten

/-- A division of the text at its leftmost stretches, each as short as it can be. -/
structure IsLeftmost (opening closing text : List Char) (division : Division) : Prop where
  /-- Nothing of the text is lost. -/
  whole : text = division.whole opening closing
  /-- No opening mark stands in front of the one that begins a stretch. -/
  fresh : ∀ part ∈ division.parts, ¬ opening <:+: part.kept
  /-- The first closing mark behind an opening mark ends the stretch. -/
  shortest : ∀ part ∈ division.parts, ∀ before after,
    part.inside ++ closing = before ++ closing ++ after → after = []
  /-- No stretch stands behind the last one. -/
  last : ¬ HasStretch opening closing division.last

end Division

/-- The division of a text at its stretches. -/
def divided (opening closing text : List Char) : Division :=
  match cut opening text with
  | none => ⟨[], text⟩
  | some (before, inside) =>
    match cut closing inside with
    | none => ⟨[], text⟩
    | some (within, after) =>
      if _shorter : after.length < text.length then
        let rest := divided opening closing after
        ⟨⟨before, within⟩ :: rest.parts, rest.last⟩
      else
        ⟨[], text⟩
termination_by text.length

variable {opening closing mark text before inside within after : List Char}

/-! ## First places of marks -/

/-- A cut is made at the first place of its mark. -/
theorem length_le_of_cut {front back : List Char} (found : cut mark text = some (before, after))
    (other : text = front ++ mark ++ back) : before.length ≤ front.length := by
  induction text generalizing before front with
  | nil =>
    unfold cut at found
    split at found
    · cases found
      exact Nat.zero_le _
    · cases found
  | cons character rest inductionHypothesis =>
    by_cases leading : mark <+: character :: rest
    · obtain ⟨behind, whole⟩ := leading
      rw [← whole, cut_leading] at found
      cases found
      exact Nat.zero_le _
    · rw [cut_cons_of_other leading] at found
      obtain ⟨⟨inner, behind⟩, innerFound, equal⟩ := Option.map_eq_some_iff.mp found
      cases equal
      cases front with
      | nil => exact absurd ⟨back, other.symm⟩ leading
      | cons head front =>
        obtain ⟨_, tail⟩ := List.cons.inj other
        exact Nat.succ_le_succ (inductionHypothesis innerFound tail)

/-- Two marks in a row are found one after the other. -/
theorem hasStretch_iff_exists_cut :
    HasStretch opening closing text ↔ ∃ before inside within after,
      cut opening text = some (before, inside) ∧ cut closing inside = some (within, after) := by
  constructor
  · rintro ⟨front, middle, back, whole⟩
    have shape : text = front ++ opening ++ (middle ++ closing ++ back) := by
      rw [whole]
      simp only [List.append_assoc]
    obtain ⟨⟨before, inside⟩, opened⟩ := Option.isSome_iff_exists.mp
      (contains_iff.mpr ⟨front, middle ++ closing ++ back, shape.symm⟩)
    have lengths := congrArg List.length ((cut_eq_some opened).symm.trans shape)
    have first := length_le_of_cut opened shape
    -- The cut is made no later than in front of this stretch, so that its end lies behind the cut.
    have ofText : middle ++ closing ++ back <:+ text := ⟨front ++ opening, shape.symm⟩
    have behind : middle ++ closing ++ back <:+ inside := by
      refine List.suffix_of_suffix_length_le ofText
        ⟨before ++ opening, (cut_eq_some opened).symm⟩ ?_
      simp only [List.length_append] at lengths ⊢
      omega
    have closes : closing <:+: inside := List.IsInfix.trans ⟨middle, back, rfl⟩ behind.isInfix
    obtain ⟨⟨within, after⟩, closed⟩ := Option.isSome_iff_exists.mp (contains_iff.mpr closes)
    exact ⟨before, inside, within, after, opened, closed⟩
  · rintro ⟨before, inside, within, after, opened, closed⟩
    refine ⟨before, within, after, ?_⟩
    rw [cut_eq_some opened, cut_eq_some closed]
    simp only [List.append_assoc]

theorem HasStretch.widen {part : List Char} (stretch : HasStretch opening closing part)
    (inner : part <:+: text) : HasStretch opening closing text := by
  obtain ⟨before, inside, after, rfl⟩ := stretch
  obtain ⟨front, back, rfl⟩ := inner
  exact ⟨front ++ before, inside, after ++ back, by simp only [List.append_assoc]⟩

/-- A mark whose first character stands nowhere else in it is found behind a text that does not hold
it. -/
theorem cut_of_fresh {first : Char} {tail kept : List Char} (single : first ∉ tail)
    (fresh : ¬ first :: tail <:+: kept) (after : List Char) :
    cut (first :: tail) (kept ++ first :: tail ++ after) = some (kept, after) := by
  induction kept with
  | nil => exact cut_leading (first :: tail) after
  | cons character kept inductionHypothesis =>
    have tailFresh : ¬ first :: tail <:+: kept := fun inner =>
      fresh (inner.trans (List.suffix_cons character kept).isInfix)
    have other : ¬ first :: tail <+: character :: (kept ++ first :: tail ++ after) := by
      intro begins
      have front : character :: kept <+: character :: (kept ++ first :: tail ++ after) :=
        ⟨first :: tail ++ after, by simp⟩
      rcases List.prefix_or_prefix_of_prefix begins front with short | ⟨more, long⟩
      · exact fresh short.isInfix
      · -- The mark would reach into the one behind, whose first character it holds once.
        cases more with
        | nil =>
          rw [List.append_nil] at long
          exact fresh (long ▸ List.infix_refl _)
        | cons next more =>
          obtain ⟨behind, whole⟩ := begins
          have joined := (congrArg (· ++ behind) long).trans whole
          have same : next :: more ++ behind = first :: tail ++ after := by
            simpa only [List.cons_append, List.append_assoc, List.cons.injEq, true_and,
              List.append_cancel_left_eq] using joined
          obtain ⟨rfl, _⟩ := List.cons.inj same
          obtain ⟨_, rest⟩ := List.cons.inj long
          exact single (rest ▸ List.mem_append_right _ List.mem_cons_self)
    rw [List.cons_append, List.cons_append, cut_cons_of_other other, inductionHypothesis tailFresh]
    rfl

/-- A closing mark that ends what is enclosed, and stands nowhere before, is found there. -/
theorem cut_of_shortest
    (shortest : ∀ before after, inside ++ closing = before ++ closing ++ after → after = [])
    (rest : List Char) : cut closing (inside ++ closing ++ rest) = some (inside, rest) := by
  obtain ⟨⟨before, after⟩, found⟩ := Option.isSome_iff_exists.mp
    (contains_iff.mpr (List.suffix_append inside closing).isInfix)
  have whole := cut_eq_some found
  obtain rfl := shortest before after whole
  rw [List.append_nil] at whole
  obtain rfl := List.append_cancel_right whole
  exact cut_append_right found rest

/-! ## The division of a text -/

theorem divided_of_not_hasStretch (free : ¬ HasStretch opening closing text) :
    divided opening closing text = ⟨[], text⟩ := by
  rw [divided]
  cases opened : cut opening text with
  | none => rfl
  | some found =>
    obtain ⟨before, inside⟩ := found
    cases closed : cut closing inside with
    | none => simp only [closed]
    | some rest =>
      exact absurd (hasStretch_iff_exists_cut.mpr ⟨_, _, _, _, opened, closed⟩) free

theorem divided_of_cut (nonempty : opening ≠ [])
    (opened : cut opening text = some (before, inside))
    (closed : cut closing inside = some (within, after)) :
    divided opening closing text =
      ⟨⟨before, within⟩ :: (divided opening closing after).parts,
        (divided opening closing after).last⟩ := by
  have first := length_of_cut opened
  have second := length_of_cut closed
  have positive := List.length_pos_iff.mpr nonempty
  have shorter : after.length < text.length := by omega
  rw [divided, opened]
  simp only [closed, dif_pos shorter]

/-- What holds of texts without a stretch, and of a text with a stretch if it holds of what follows
the first one, holds of all texts. -/
@[elab_as_elim] theorem inductionOnStretches {opening : List Char} (nonempty : opening ≠ [])
    (closing : List Char) {motive : List Char → Prop}
    (none : ∀ text, ¬ HasStretch opening closing text → motive text)
    (first : ∀ text before inside within after, cut opening text = some (before, inside) →
      cut closing inside = some (within, after) → motive after → motive text)
    (text : List Char) : motive text := by
  induction length : text.length using Nat.strongRecOn generalizing text with
  | ind size inductionHypothesis =>
    by_cases stretch : HasStretch opening closing text
    · obtain ⟨before, inside, within, after, opened, closed⟩ :=
        hasStretch_iff_exists_cut.mp stretch
      have whole := length_of_cut opened
      have rest := length_of_cut closed
      have positive := List.length_pos_iff.mpr nonempty
      exact first text before inside within after opened closed
        (inductionHypothesis after.length (by omega) after rfl)
    · exact none text stretch

theorem withoutEnclosed_of_not_hasStretch (free : ¬ HasStretch opening closing text) :
    withoutEnclosed opening closing text = text := by
  cases opened : cut opening text with
  | none => exact withoutEnclosed_of_uncut opened closing
  | some found =>
    cases closed : cut closing found.2 with
    | none => exact withoutEnclosed_of_unclosed opened closed
    | some rest =>
      exact absurd (hasStretch_iff_exists_cut.mpr ⟨_, _, _, _, opened, closed⟩) free

/-- Taking the enclosed stretches out leaves what the division keeps. -/
theorem withoutEnclosed_eq_kept (nonempty : opening ≠ []) (text : List Char) :
    withoutEnclosed opening closing text = (divided opening closing text).kept := by
  induction text using inductionOnStretches nonempty closing with
  | none text free =>
    rw [withoutEnclosed_of_not_hasStretch free, divided_of_not_hasStretch free]
    exact (List.append_nil text).symm
  | first text before inside within after opened closed inductionHypothesis =>
    rw [withoutEnclosed_of_cut nonempty opened closed, divided_of_cut nonempty opened closed,
      inductionHypothesis]
    rfl

namespace Division

theorem whole_cons (part : Part) (parts : List Part) (last : List Char) :
    whole opening closing ⟨part :: parts, last⟩ =
      part.kept ++ opening ++ (part.inside ++ closing ++ whole opening closing ⟨parts, last⟩) := by
  simp only [whole, List.flatMap_cons, List.append_assoc]

/-- A division at leftmost stretches is one of what follows the first stretch. -/
theorem IsLeftmost.tail {part : Part} {parts : List Part} {last : List Char}
    (leftmost : IsLeftmost opening closing text ⟨part :: parts, last⟩) :
    IsLeftmost opening closing (Division.whole opening closing ⟨parts, last⟩) ⟨parts, last⟩ where
  whole := rfl
  fresh other member := leftmost.fresh other (List.mem_cons_of_mem _ member)
  shortest other member := leftmost.shortest other (List.mem_cons_of_mem _ member)
  last := leftmost.last

/-- A text is divided at leftmost stretches. -/
theorem isLeftmost_divided (nonempty : opening ≠ []) (text : List Char) :
    IsLeftmost opening closing text (divided opening closing text) := by
  induction text using inductionOnStretches nonempty closing with
  | none text free =>
    rw [divided_of_not_hasStretch free]
    exact ⟨rfl, List.forall_mem_nil _, List.forall_mem_nil _, free⟩
  | first text before inside within after opened closed inductionHypothesis =>
    rw [divided_of_cut nonempty opened closed]
    refine ⟨?_, ?_, ?_, inductionHypothesis.last⟩
    · rw [whole_cons, ← inductionHypothesis.whole, ← cut_eq_some closed]
      exact cut_eq_some opened
    · exact List.forall_mem_cons.mpr
        ⟨not_infix_of_cut nonempty opened, inductionHypothesis.fresh⟩
    · refine List.forall_mem_cons.mpr ⟨fun front back other => ?_, inductionHypothesis.shortest⟩
      have ends := cut_append_right closed []
      rw [List.append_nil] at ends
      have first := length_le_of_cut ends other
      have lengths := congrArg List.length other
      simp only [List.length_append] at lengths
      exact List.length_eq_zero_iff.mp (by omega)

/-- A text has one division at leftmost stretches. -/
theorem IsLeftmost.eq_divided {first : Char} {tail : List Char} {division : Division}
    (single : first ∉ tail) (leftmost : IsLeftmost (first :: tail) closing text division) :
    division = divided (first :: tail) closing text := by
  obtain ⟨parts, last⟩ := division
  induction parts generalizing text with
  | nil =>
    have whole : text = last := leftmost.whole
    rw [whole, divided_of_not_hasStretch leftmost.last]
  | cons part parts inductionHypothesis =>
    obtain ⟨fresh, _⟩ := List.forall_mem_cons.mp leftmost.fresh
    obtain ⟨shortest, _⟩ := List.forall_mem_cons.mp leftmost.shortest
    have opened := cut_of_fresh single fresh
      (part.inside ++ closing ++ Division.whole (first :: tail) closing ⟨parts, last⟩)
    have closed := cut_of_shortest shortest (Division.whole (first :: tail) closing ⟨parts, last⟩)
    rw [leftmost.whole, whole_cons, divided_of_cut (List.cons_ne_nil _ _) opened closed,
      ← inductionHypothesis leftmost.tail]

/-- What is kept stands in the text in its order. -/
theorem kept_sublist_whole (opening closing : List Char) (division : Division) :
    division.kept.Sublist (division.whole opening closing) := by
  obtain ⟨parts, last⟩ := division
  induction parts with
  | nil =>
    have same : kept ⟨[], last⟩ = last := List.append_nil last
    rw [same]
    exact List.Sublist.refl last
  | cons part parts inductionHypothesis =>
    rw [whole_cons, List.append_assoc]
    refine (List.Sublist.refl part.kept).append ?_
    exact (inductionHypothesis.trans (List.sublist_append_right _ _)).trans
      (List.sublist_append_right _ _)

/-- What stands behind the last stretch stands behind a closing mark, if there is a stretch. -/
theorem exists_front (opening closing : List Char) (division : Division) :
    ∃ front, division.whole opening closing = front ++ division.last ∧
      (front = [] ∨ closing <:+ front) := by
  obtain ⟨parts, last⟩ := division
  refine ⟨_, rfl, ?_⟩
  rcases List.eq_nil_or_concat parts with rfl | ⟨others, part, rfl⟩
  · exact .inl rfl
  · right
    rw [List.concat_eq_append, List.flatMap_append, List.flatMap_singleton]
    exact (List.suffix_append _ closing).trans (List.suffix_append _ _)

/-- An opening mark with no closing mark behind it is kept with all that follows it. -/
theorem IsLeftmost.suffix_of_unclosed {first : Char} {tail rest : List Char} {division : Division}
    (apart : first ∉ closing) (leftmost : IsLeftmost (first :: tail) closing text division)
    (unclosed : ¬ closing <:+: first :: tail ++ rest) (stands : first :: tail ++ rest <:+ text) :
    first :: tail ++ rest <:+ division.last := by
  obtain ⟨front, whole, behind⟩ := division.exists_front (first :: tail) closing
  obtain ⟨before, shape⟩ := stands
  rw [leftmost.whole, whole] at shape
  rcases List.append_eq_append_iff.mp shape with ⟨more, divided, reaches⟩ | ⟨more, _, inside⟩
  · cases more with
    | nil => exact ⟨[], reaches⟩
    | cons next more =>
      obtain ⟨rfl, _⟩ := List.cons.inj reaches
      have ends : first :: more <:+ front := ⟨before, divided.symm⟩
      rcases behind with rfl | closes
      · exact absurd (List.suffix_nil.mp ends) (List.cons_ne_nil _ _)
      · -- The closing mark in front of the last piece holds no opening mark, nor is it held by one.
        rcases List.suffix_or_suffix_of_suffix closes ends with short | long
        · exact absurd (short.isInfix.trans ⟨[], division.last, reaches.symm⟩) unclosed
        · exact absurd (long.subset List.mem_cons_self) apart
  · exact ⟨more, inside.symm⟩

end Division
end Text
end MuseumRecord
