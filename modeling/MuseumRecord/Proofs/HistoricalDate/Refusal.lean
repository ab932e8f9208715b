import MuseumRecord.Proofs.HistoricalDate.Nesting
import MuseumRecord.Proofs.Text.Lines

/-!
# Refused date expressions

What is quoted of a refused expression is made of it by trimming, lower-casing, division and the
removal of markers.  None of these makes a character without case, a line feed for instance.
-/

namespace MuseumRecord

open Text

namespace DateError

/-- What a refusal quotes of the expression. -/
def quoted : DateError → List String
  | .notAYear text => [text]
  | .future text => [text]
  | .unrecognised text => [text]
  | _ => []

/-- A character does not stand in what is quoted. -/
def IsFreeOf (cause : DateError) (character : Char) : Prop :=
  ∀ text ∈ cause.quoted, character ∉ text.toList

/-- What is said about a refusal takes one line if what it quotes does. -/
theorem isSingleLine_message {cause : DateError} (free : cause.IsFreeOf '\n') :
    IsSingleLine cause.message := by
  cases cause with
  | empty => exact isSingleLine_ofList.mpr (by decide)
  | nonPositiveYear year =>
    change IsSingleLine (_ ++ _)
    simp only [isSingleLine_append, isSingleLine_toString, isSingleLine_integer, and_true]
    and_intros <;> exact isSingleLine_ofList.mpr (by decide)
  | yearOutOfRange year current =>
    change IsSingleLine (_ ++ _)
    simp only [isSingleLine_append, isSingleLine_toString, isSingleLine_integer, and_true]
    and_intros <;> exact isSingleLine_ofList.mpr (by decide)
  | _ text =>
    have single : IsSingleLine text := List.forall_mem_singleton.mp free
    change IsSingleLine (_ ++ _)
    simp only [isSingleLine_append, isSingleLine_toString, single, and_true]
    and_intros <;> exact isSingleLine_ofList.mpr (by decide)

end DateError

namespace HistoricalDate

variable {now : Calendar.Moment} {character : Char} {text : List Char} {cause : DateError}

/-! ## What is made of an expression -/

theorem not_mem_trim (fresh : character ∉ text) : character ∉ trim text := fun member =>
  fresh (((trimEnd_sublist _).trans (List.dropWhile_sublist _)).subset member)

theorem not_mem_normalise (caseless : LowerCase.IsCaseless character) (fresh : character ∉ text) :
    character ∉ normalise text := by
  intro member
  obtain ⟨before, after, whole⟩ := List.append_of_mem member
  have inside : [character] <:+: LowerCase.lowerAfter [] (trim text) :=
    ⟨before, after, by rw [List.append_assoc, List.singleton_append]; exact whole.symm⟩
  have stands := LowerCase.infix_of_infix_lowerAfter (List.forall_mem_singleton.mpr caseless) inside
  exact not_mem_trim fresh (stands.subset List.mem_cons_self)

theorem not_mem_without {mark : List Char} (nonempty : mark ≠ []) (fresh : character ∉ text) :
    character ∉ without mark text := by
  intro member
  obtain ⟨piece, listed, inside⟩ := List.mem_flatten.mp member
  exact fresh ((infix_and_free_of_mem_pieces nonempty listed).1.subset inside)

/-- The ends of a range hold no other characters than the range. -/
theorem not_mem_of_split {start finish : List Char} (fresh : character ∉ text)
    (divided : Expression.split text = .range start finish) :
    character ∉ start ∧ character ∉ finish := by
  obtain ⟨separator, divides⟩ := split_eq_range_iff.mp divided
  have nonempty := separators_nonempty divides.mem
  obtain ⟨_, _, _, division, _⟩ := divides
  obtain ⟨startPiece, finishPiece⟩ := mem_pieces_of_divide? division
  constructor
  · exact fun member =>
      fresh ((infix_and_free_of_mem_pieces nonempty startPiece).1.subset member)
  · exact fun member =>
      fresh ((infix_and_free_of_mem_pieces nonempty finishPiece).1.subset member)

/-! ## Refusals -/

theorem isFreeOf_of_readYear (fresh : character ∉ text) (refused : readYear text = .error cause) :
    cause.IsFreeOf character := by
  unfold readYear at refused
  split at refused
  · cases refused
  · cases refused
    exact List.forall_mem_singleton.mpr (String.toList_ofList ▸ not_mem_trim fresh)

theorem isFreeOf_of_yearBefore {year : Int} (refused : yearBefore year = .error cause) :
    cause.IsFreeOf character := by
  unfold yearBefore at refused
  split at refused
  · cases refused
  · cases refused
    exact List.forall_mem_nil _

theorem isFreeOf_of_commonYear {year : Int} {explicit : Bool}
    (refused : commonYear now year explicit = .error cause) : cause.IsFreeOf character := by
  unfold commonYear at refused
  split at refused
  · cases refused
  · cases refused
    exact List.forall_mem_nil _

theorem isFreeOf_of_readCalendar (fresh : character ∉ text)
    (refused : readCalendar now text = .error cause) : cause.IsFreeOf character := by
  have quoted : ∀ quoted ∈ [String.ofList text], character ∉ quoted.toList :=
    List.forall_mem_singleton.mpr (String.toList_ofList ▸ fresh)
  unfold readCalendar at refused
  split at refused
  · split at refused
    · cases refused
    · cases refused
      exact quoted
  · cases refused
    exact quoted

theorem isFreeOf_of_readSingle (fresh : character ∉ text)
    (refused : readSingle now text = .error cause) : cause.IsFreeOf character := by
  unfold readSingle at refused
  split at refused
  · split at refused
    · exact isFreeOf_of_yearBefore refused
    · next unread =>
      cases refused
      exact isFreeOf_of_readYear (not_mem_without (by decide) fresh) unread
  · split at refused
    · split at refused
      · exact isFreeOf_of_commonYear refused
      · next unread =>
        cases refused
        exact isFreeOf_of_readYear (not_mem_without (by decide) fresh) unread
    · split at refused
      · exact isFreeOf_of_commonYear refused
      · exact isFreeOf_of_readCalendar fresh refused

/-- A refusal quotes no character without case that the expression does not hold.  The induction is
on the nested ranges, the first refused end of which gives the refusal. -/
theorem isFreeOf_of_read (caseless : LowerCase.IsCaseless character) (fresh : character ∉ text)
    (refused : read now text = .error cause) : cause.IsFreeOf character := by
  fun_induction read now text generalizing cause with
  | case1 text empty =>
    cases refused
    exact List.forall_mem_nil _
  | case2 text content single divided =>
    refine isFreeOf_of_readSingle ?_ refused
    rw [eq_of_split_single divided]
    exact not_mem_normalise caseless fresh
  | case3 text content start finish divided other failed startHypothesis =>
    cases refused
    exact startHypothesis (not_mem_of_split (not_mem_normalise caseless fresh) divided).1 failed
  | case4 text content start finish divided first readStart other failed startHypothesis
      finishHypothesis =>
    cases refused
    exact finishHypothesis (not_mem_of_split (not_mem_normalise caseless fresh) divided).2 failed
  | case5 => cases refused

/-- What is said about a refused expression of one line takes one line. -/
theorem isSingleLine_of_refused {written : String} (single : IsSingleLine written)
    (refused : parse now written = .error cause) : IsSingleLine cause.message :=
  DateError.isSingleLine_message
    (isFreeOf_of_read (LowerCase.isCaseless_of_isBlank rfl) single refused)

end HistoricalDate
end MuseumRecord
