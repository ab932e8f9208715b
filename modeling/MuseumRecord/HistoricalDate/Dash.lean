import MuseumRecord.Text.Blank
import MuseumRecord.Text.LowerCase
import MuseumRecord.Text.Piece

/-!
# Dashes in a date expression

Every separator of a range holds one dash.  Trimming and lower-casing create no dash, so each half
of a range holds fewer dashes than the whole.
-/

namespace MuseumRecord
namespace HistoricalDate

open Text

/-- A hyphen, an en dash or an em dash. -/
def isDash (character : Char) : Bool :=
  character.toNat == 0x2D || character.toNat == 0x2013 || character.toNat == 0x2014

/-- How many dashes a text holds. -/
def dashCount (text : List Char) : Nat :=
  text.countP isDash

theorem dashCount_append (left right : List Char) :
    dashCount (left ++ right) = dashCount left + dashCount right :=
  List.countP_append

theorem trimEnd_sublist (text : List Char) : (trimEnd text).Sublist text := by
  induction text with
  | nil => exact List.Sublist.slnil
  | cons character rest inductionHypothesis =>
    unfold trimEnd
    split
    · split
      · exact List.nil_sublist _
      · exact List.Sublist.cons_cons _ (List.nil_sublist _)
    · exact List.Sublist.cons_cons _ inductionHypothesis

theorem dashCount_trim_le (text : List Char) : dashCount (trim text) ≤ dashCount text :=
  List.Sublist.countP_le ((trimEnd_sublist _).trans (List.dropWhile_sublist _))

/-- No capital letter is a dash, and no capital letter has a dash for its lower-case form. -/
theorem capitalRuns_avoid_dashes :
    (LowerCase.capitalRuns.all fun run =>
      [0x2D, 0x2013, 0x2014].all fun dash =>
        !((run.first : Int) + run.distance ≤ dash && dash ≤ (run.last : Int) + run.distance)) =
      true := by
  decide +kernel

theorem toNat_ofNat_eq_or_zero (code : Nat) :
    (Char.ofNat code).toNat = code ∨ (Char.ofNat code).toNat = 0 := by
  by_cases valid : code.isValidChar
  · have same : Char.ofNat code = Char.ofNatAux code valid := dif_pos valid
    exact .inl (same ▸ rfl)
  · have same : Char.ofNat code = '\x00' := dif_neg valid
    exact .inr (same ▸ rfl)

theorem dashCount_asciiLetter_le (character : Char) :
    dashCount [LowerCase.asciiLetter character] ≤ dashCount [character] := by
  unfold LowerCase.asciiLetter
  split
  · next capital =>
    have lower : 0x41 ≤ character.toNat := capital.1
    have upper : character.toNat ≤ 0x5A := capital.2
    have image : isDash (Char.ofNat (character.toNat + 32)) = false := by
      rcases toNat_ofNat_eq_or_zero (character.toNat + 32) with code | code <;>
        simp only [isDash, code, Bool.or_eq_false_iff, beq_eq_false_iff_ne] <;> omega
    simp [dashCount, image]
  · exact Nat.le_refl _

/-- Lower-casing one character creates no dash. -/
theorem dashCount_letter_le (character : Char) :
    dashCount (LowerCase.letter character) ≤ dashCount [character] := by
  unfold LowerCase.letter
  split
  · exact dashCount_asciiLetter_le character
  · split
    · exact Nat.le_trans (Nat.le_of_eq (by decide)) (Nat.zero_le _)
    · split
      · next run found =>
        have member := List.mem_of_find?_eq_some found
        have covered : run.covers character.toNat = true := by simpa using List.find?_some found
        have avoided := List.all_eq_true.mp
          (List.all_eq_true.mp capitalRuns_avoid_dashes run member)
        have firstBound : run.first ≤ character.toNat := by
          simp only [LowerCase.CapitalRun.covers, Bool.and_eq_true, decide_eq_true_eq] at covered
          exact covered.1.1
        have lastBound : character.toNat ≤ run.last := by
          simp only [LowerCase.CapitalRun.covers, Bool.and_eq_true, decide_eq_true_eq] at covered
          exact covered.1.2
        have image : isDash (Char.ofNat (character.toNat + run.distance).toNat) = false := by
          have hyphen := avoided 0x2D (by decide)
          have enDash := avoided 0x2013 (by decide)
          have emDash := avoided 0x2014 (by decide)
          simp only [Bool.not_eq_true', Bool.and_eq_false_iff, decide_eq_false_iff_not]
            at hyphen enDash emDash
          rcases toNat_ofNat_eq_or_zero (character.toNat + run.distance).toNat with code | code <;>
            simp only [isDash, code, Bool.or_eq_false_iff, beq_eq_false_iff_ne] <;> omega
        simp [dashCount, image]
      · exact Nat.le_refl _

theorem dashCount_lowerAfter_le (behind text : List Char) :
    dashCount (LowerCase.lowerAfter behind text) ≤ dashCount text := by
  induction text generalizing behind with
  | nil => exact Nat.le_refl _
  | cons character rest inductionHypothesis =>
    have restBound := inductionHypothesis (character :: behind)
    have whole : dashCount (character :: rest) = dashCount [character] + dashCount rest :=
      dashCount_append [character] rest
    unfold LowerCase.lowerAfter
    rw [dashCount_append, whole]
    split
    · have sigma : dashCount [LowerCase.sigma behind rest] = 0 := by
        unfold LowerCase.sigma
        split <;> decide
      omega
    · have letter := dashCount_letter_le character
      omega

/-- Lower-casing creates no dash, even where it lengthens the text. -/
theorem dashCount_lower_le (text : List Char) : dashCount (lower text) ≤ dashCount text :=
  dashCount_lowerAfter_le [] text

theorem dashCount_le_of_mem_pieces {separator text piece : List Char}
    (member : piece ∈ pieces separator text) : dashCount piece ≤ dashCount text := by
  induction text using pieces.induct separator with
  | case1 text uncut =>
    rw [pieces, uncut] at member
    exact Nat.le_of_eq (congrArg dashCount (List.mem_singleton.mp member))
  | case2 text before after found shorter inductionHypothesis =>
    rw [pieces, found] at member
    simp only [shorter, dite_true, List.mem_cons] at member
    have whole : dashCount text = dashCount before + dashCount separator + dashCount after := by
      rw [cut_eq_some found, dashCount_append, dashCount_append]
    rcases member with first | later
    · rw [first]
      omega
    · have := inductionHypothesis later
      omega
  | case3 text before after found notShorter =>
    rw [pieces, found] at member
    simp only [notShorter, dite_false, List.mem_singleton] at member
    exact Nat.le_of_eq (congrArg dashCount member)

/-- A separator that holds a dash and divides a text leaves fewer dashes in every piece. -/
theorem dashCount_lt_of_mem_pieces {separator text piece : List Char}
    (dashed : 0 < dashCount separator) (divided : contains separator text = true)
    (member : piece ∈ pieces separator text) : dashCount piece < dashCount text := by
  obtain ⟨⟨before, after⟩, found⟩ := Option.isSome_iff_exists.mp divided
  have length := length_of_cut found
  have separatorLength : 0 < separator.length :=
    Nat.lt_of_lt_of_le dashed List.countP_le_length
  have shorter : after.length < text.length := by omega
  have whole : dashCount text = dashCount before + dashCount separator + dashCount after := by
    rw [cut_eq_some found, dashCount_append, dashCount_append]
  rw [pieces, found] at member
  simp only [shorter, dite_true, List.mem_cons] at member
  rcases member with first | later
  · rw [first]
    omega
  · have := dashCount_le_of_mem_pieces later
    omega

end HistoricalDate
end MuseumRecord
