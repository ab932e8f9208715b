import MuseumRecord.Proofs.Text.Stretches

/-!
# Seams

Where a stretch is taken out of a text, what stood in front of it joins what stood behind it.  A
mark that stands in what is kept either stood in one of the pieces or was formed across such a seam,
and only marks of the second kind can make up a stretch that was not there before.
-/

namespace MuseumRecord
namespace Text

/-- A mark stands across the place where two texts are joined. -/
def StandsAcross (mark left right : List Char) : Prop :=
  ∃ width < mark.length, 0 < width ∧ mark.take width <:+ left ∧ mark.drop width <+: right

instance (mark left right : List Char) : Decidable (StandsAcross mark left right) :=
  inferInstanceAs (Decidable (∃ width < mark.length, _))

/-- No mark is formed where pieces of a text are joined. -/
def IsSeamless (mark : List Char) (pieces : List (List Char)) : Prop :=
  ∀ number < pieces.length,
    ¬ StandsAcross mark (pieces.take number).flatten (pieces.drop number).flatten

instance (mark : List Char) (pieces : List (List Char)) : Decidable (IsSeamless mark pieces) :=
  inferInstanceAs (Decidable (∀ number < pieces.length, _))

variable {opening closing mark before after piece text : List Char}
  {pieces left right : List (List Char)}

theorem standsAcross_of_append {front back left right : List Char} (shape : mark = front ++ back)
    (frontNonempty : front ≠ []) (backNonempty : back ≠ []) (ends : front <:+ left)
    (begins : back <+: right) : StandsAcross mark left right := by
  have frontPositive := List.length_pos_iff.mpr frontNonempty
  have backPositive := List.length_pos_iff.mpr backNonempty
  refine ⟨front.length, ?_, frontPositive, ?_, ?_⟩
  · rw [shape, List.length_append]
    omega
  · rw [shape, List.take_left]
    exact ends
  · rw [shape, List.drop_left]
    exact begins

/-- A seam with less in front of it is a seam all the same. -/
theorem StandsAcross.of_suffix {left right longer : List Char}
    (across : StandsAcross mark left right)
    (suffix : left <:+ longer) : StandsAcross mark longer right := by
  obtain ⟨width, bound, positive, ends, begins⟩ := across
  exact ⟨width, bound, positive, ends.trans suffix, begins⟩

/-- What stands behind the beginning of a piece has no seams but those of the whole. -/
theorem IsSeamless.behind {front back : List Char}
    (seamless : IsSeamless mark (left ++ piece :: right))
    (shape : piece = front ++ back) : IsSeamless mark (back :: right) := by
  intro number bound across
  cases number with
  | zero =>
    obtain ⟨width, bound, positive, ends, _⟩ := across
    rcases List.take_eq_nil_iff.mp (List.suffix_nil.mp ends) with none | rfl
    · omega
    · exact Nat.not_lt_zero _ bound
  | succ number =>
    refine seamless (left.length + (number + 1)) (by simpa using bound) ?_
    rw [List.take_length_add_append, List.drop_length_add_append, List.take_succ_cons,
      List.drop_succ_cons, List.flatten_append]
    rw [List.take_succ_cons, List.drop_succ_cons] at across
    refine across.of_suffix ?_
    rw [List.flatten_cons, List.flatten_cons, shape]
    exact ⟨left.flatten ++ front, by simp only [List.append_assoc]⟩

/-- A mark in joined pieces that is not formed across a seam stands in one of the pieces. -/
theorem exists_piece (nonempty : mark ≠ []) (seamless : IsSeamless mark pieces)
    (whole : pieces.flatten = before ++ mark ++ after) :
    ∃ left piece right front back, pieces = left ++ piece :: right ∧ piece = front ++ mark ++ back ∧
      before = left.flatten ++ front ∧ after = back ++ right.flatten := by
  induction pieces generalizing before with
  | nil => simp [nonempty] at whole
  | cons first pieces inductionHypothesis =>
    have inOthers (more : List Char) (later : before = first ++ more)
        (rest : pieces.flatten = more ++ mark ++ after) :
        ∃ left piece right front back, first :: pieces = left ++ piece :: right ∧
          piece = front ++ mark ++ back ∧ before = left.flatten ++ front ∧
          after = back ++ right.flatten := by
      have others : IsSeamless mark pieces := by
        intro number bound across
        refine seamless (number + 1) (Nat.succ_lt_succ bound) ?_
        rw [List.take_succ_cons, List.drop_succ_cons, List.flatten_cons]
        exact across.of_suffix (List.suffix_append _ _)
      obtain ⟨left, piece, right, front, back, division, shape, start, ending⟩ :=
        inductionHypothesis others rest
      refine ⟨first :: left, piece, right, front, back, ?_, shape, ?_, ending⟩
      · rw [division, List.cons_append]
      · rw [later, start, List.flatten_cons, List.append_assoc]
    rw [List.flatten_cons, List.append_assoc] at whole
    rcases List.append_eq_append_iff.mp whole with ⟨more, later, rest⟩ | ⟨more, here, rest⟩
    · exact inOthers more later (by rw [rest, List.append_assoc])
    · rcases List.append_eq_append_iff.mp rest with ⟨back, inside, behind⟩ | ⟨back, reaches, behind⟩
      · refine ⟨[], first, pieces, before, back, rfl, ?_, rfl, behind⟩
        rw [here, inside, List.append_assoc]
      · by_cases moreEmpty : more = []
        · rw [moreEmpty, List.append_nil] at here
          rw [moreEmpty, List.nil_append] at reaches
          exact inOthers [] (by rw [here, List.append_nil])
            (by rw [reaches, behind, List.nil_append])
        · by_cases backEmpty : back = []
          · rw [backEmpty, List.append_nil] at reaches
            rw [backEmpty, List.nil_append] at behind
            exact ⟨[], first, pieces, before, [], rfl, by rw [here, reaches, List.append_nil], rfl,
              by rw [behind, List.nil_append]⟩
          · -- Part of the mark ends the first piece, and the rest of it begins what is behind.
            have nonemptyPieces : 0 < pieces.length := by
              rw [List.length_pos_iff]
              rintro rfl
              exact backEmpty (List.append_eq_nil_iff.mp behind.symm).1
            refine absurd ?_ (seamless 1 (Nat.succ_lt_succ nonemptyPieces))
            rw [List.take_succ_cons, List.take_zero, List.drop_succ_cons, List.drop_zero,
              List.flatten_singleton]
            exact standsAcross_of_append reaches moreEmpty backEmpty ⟨before, here.symm⟩
              ⟨after, behind.symm⟩

namespace Division

variable {division : Division}

theorem infix_whole_of_mem_pieces (opening closing : List Char)
    (member : piece ∈ division.pieces) :
    piece <:+: division.whole opening closing := by
  obtain ⟨parts, last⟩ := division
  rcases List.mem_append.mp member with inParts | atEnd
  · obtain ⟨part, inside, rfl⟩ := List.mem_map.mp inParts
    obtain ⟨front, back, rfl⟩ := List.append_of_mem inside
    refine ⟨front.flatMap (fun part => part.kept ++ opening ++ part.inside ++ closing),
      opening ++ part.inside ++ closing ++
        back.flatMap (fun part => part.kept ++ opening ++ part.inside ++ closing) ++ last, ?_⟩
    simp only [whole, List.flatMap_append, List.flatMap_cons, List.append_assoc]
  · rw [List.mem_singleton.mp atEnd]
    exact (List.suffix_append _ last).isInfix

/-- The pieces behind a piece stand behind it in the text, too. -/
theorem exists_behind (opening closing : List Char)
    (shape : division.pieces = left ++ piece :: right) :
    ∃ front back, division.whole opening closing = front ++ piece ++ back ∧
      ∀ other ∈ right, other <:+: back := by
  obtain ⟨parts, last⟩ := division
  induction parts generalizing left with
  | nil =>
    have single : [last] = left ++ piece :: right := shape
    rcases List.append_eq_singleton_iff.mp single.symm with ⟨_, same⟩ | ⟨_, none⟩
    · obtain ⟨rfl, rfl⟩ := List.cons.inj same
      exact ⟨[], [], (List.append_nil _).symm, List.forall_mem_nil _⟩
    · cases none
  | cons part parts inductionHypothesis =>
    have division : part.kept :: pieces ⟨parts, last⟩ = left ++ piece :: right := shape
    rw [whole_cons]
    cases left with
    | nil =>
      obtain ⟨rfl, rfl⟩ := List.cons.inj division
      refine ⟨[], opening ++ (part.inside ++ closing ++ whole opening closing ⟨parts, last⟩),
        ?_, ?_⟩
      · simp only [List.nil_append, List.append_assoc]
      · intro other member
        refine (infix_whole_of_mem_pieces opening closing member).trans ?_
        exact ((List.suffix_append _ _).trans (List.suffix_append _ _)).isInfix
    | cons first left =>
      obtain ⟨_, rest⟩ := List.cons.inj division
      obtain ⟨front, back, shape, behind⟩ := inductionHypothesis rest
      refine ⟨part.kept ++ opening ++ (part.inside ++ closing ++ front), back, ?_, behind⟩
      rw [shape]
      simp only [List.append_assoc]

/-- Where no opening mark is formed, what is kept holds no stretch. -/
theorem IsLeftmost.not_hasStretch_kept (nonempty : opening ≠ [])
    (leftmost : IsLeftmost opening closing text division)
    (seamless : IsSeamless opening division.pieces) :
    ¬ HasStretch opening closing division.kept := by
  rintro ⟨before, inside, after, whole⟩
  rw [List.append_assoc, List.append_assoc] at whole
  obtain ⟨left, piece, right, front, back, shape, opens, _, ends⟩ :=
    exists_piece nonempty seamless whole
  rcases List.eq_nil_or_concat right with rfl | ⟨others, final, rfl⟩
  · -- The mark stands in the last piece, and so does the rest of the stretch.
    obtain ⟨_, same⟩ := List.append_inj' shape rfl
    obtain ⟨last, _⟩ := List.cons.inj same
    rw [List.flatten_nil, List.append_nil] at ends
    refine leftmost.last ⟨front, inside, after, ?_⟩
    rw [last, opens, ← ends]
    simp only [List.append_assoc]
  · rw [List.concat_eq_append, ← List.cons_append, ← List.append_assoc] at shape
    obtain ⟨inParts, _⟩ := List.append_inj' shape rfl
    have member : piece ∈ division.parts.map Part.kept := by
      rw [inParts]
      exact List.mem_append_right _ List.mem_cons_self
    obtain ⟨part, inside, rfl⟩ := List.mem_map.mp member
    exact leftmost.fresh part inside ⟨front, back, opens.symm⟩

/-- Where no mark is formed, what is kept of a text without stretches of some other marks has none
either. -/
theorem not_hasStretch_kept_of_whole {opening' closing' : List Char}
    (openingNonempty : opening' ≠ [])
    (closingNonempty : closing' ≠ [])
    (free : ¬ HasStretch opening' closing' (division.whole opening closing))
    (openingSeamless : IsSeamless opening' division.pieces)
    (closingSeamless : IsSeamless closing' division.pieces) :
    ¬ HasStretch opening' closing' division.kept := by
  rintro ⟨before, inside, after, whole⟩
  rw [List.append_assoc, List.append_assoc] at whole
  obtain ⟨left, piece, right, front, back, shape, opens, _, ends⟩ :=
    exists_piece openingNonempty openingSeamless whole
  obtain ⟨start, rest, position, behind⟩ := exists_behind opening closing shape
  rw [shape] at closingSeamless
  have later : (back :: right).flatten = inside ++ closing' ++ after := by
    rw [List.flatten_cons, ← ends, List.append_assoc]
  obtain ⟨_, other, _, _, _, others, closes, _, _⟩ := exists_piece closingNonempty
    (closingSeamless.behind opens) later
  -- The closing mark stands in the rest of the piece or in one of those behind it.
  have closed : closing' <:+: back ++ rest := by
    have member : other ∈ back :: right := by
      rw [others]
      exact List.mem_append_right _ List.mem_cons_self
    have within : closing' <:+: other := ⟨_, _, closes.symm⟩
    rcases List.mem_cons.mp member with rfl | member
    · exact within.trans (List.prefix_append _ rest).isInfix
    · exact within.trans ((behind other member).trans (List.suffix_append back rest).isInfix)
  obtain ⟨middle, remaining, found⟩ := closed
  refine free ⟨start ++ front, middle, remaining, ?_⟩
  rw [position, opens]
  simp only [List.append_assoc] at found ⊢
  rw [found]

end Division

end Text
end MuseumRecord
