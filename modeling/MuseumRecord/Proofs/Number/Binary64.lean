import MuseumRecord.Number.Binary64
import MuseumRecord.Proofs.Number.Literal

/-!
# Spellings of a binary number

A binary number is read from the spellings of a decimal literal, and from the words for what is no
finite number.  The exponents of all literals but enormous ones are counted in full.
-/

namespace MuseumRecord
namespace Number

/-- The words for what is no finite number. -/
def numberWords : List (List Char) :=
  ["inf".toList, "infinity".toList, "nan".toList]

/-- A decimal literal, or a sign and a word in any case of its letters. -/
inductive SpellsBinary64 : List Char → Prop where
  /-- A decimal literal. -/
  | literal {literal : Literal} {text : List Char} (spells : literal.Spells text) :
      SpellsBinary64 text
  /-- A word. -/
  | word {negative : Bool} {sign word : List Char} (signed : SpellsSign negative sign)
      (named : word.map Char.toLower ∈ numberWords) : SpellsBinary64 (sign ++ word)

namespace Binary64

section Words

variable {word : List Char}

theorem isSome_ofWord?_iff (negative : Bool) :
    (ofWord? negative word).isSome = true ↔ word.map Char.toLower ∈ numberWords := by
  have same (known : String) :
      String.ofList (word.map Char.toLower) = known ↔ word.map Char.toLower = known.toList := by
    rw [← String.toList_inj, String.toList_ofList]
  unfold ofWord? numberWords
  simp only [same, List.mem_cons, List.not_mem_nil, or_false]
  split
  · next infinite => exact iff_of_true rfl (or_assoc.mp (.inl infinite))
  · next finite =>
    split
    · next undefined => exact iff_of_true rfl (.inr (.inr undefined))
    · next unknown =>
      refine iff_of_false Bool.false_ne_true ?_
      rw [← or_assoc]
      exact not_or.mpr ⟨finite, unknown⟩

/-- No word begins with a sign. -/
theorem unsigned_of_named (named : word.map Char.toLower ∈ numberWords) :
    ∀ character ∈ word.head?, character ≠ '+' ∧ character ≠ '-' := by
  intro character head
  obtain ⟨rest, rfl⟩ := List.head?_eq_some_iff.mp head
  rw [List.map_cons] at named
  have plus : ∀ rest, '+' :: rest ∉ numberWords := by simp [numberWords]
  have minus : ∀ rest, '-' :: rest ∉ numberWords := by simp [numberWords]
  constructor
  · rintro rfl
    exact plus _ named
  · rintro rfl
    exact minus _ named

end Words

/-- A binary number is read from its spellings and from nothing else. -/
theorem isSome_read?_iff {text : List Char} :
    (read? text).isSome = true ↔ SpellsBinary64 text := by
  unfold read?
  constructor
  · intro read
    split at read
    · next literal spelled => exact .literal (Literal.read?_eq_some_iff.mp spelled)
    · obtain ⟨sign, signed, division⟩ := exists_spellsSign text
      rw [division]
      exact .word signed ((isSome_ofWord?_iff _).mp read)
  · intro spells
    split
    · rfl
    · next unspelled =>
      cases spells with
      | literal spells =>
        rw [Literal.read?_eq_some_iff.mpr spells] at unspelled
        cases unspelled
      | word signed named =>
        rw [signed.splitSign_append (unsigned_of_named named)]
        exact (isSome_ofWord?_iff _).mpr named

/-! ## Exponents -/

theorem foldl_counted_digits {value : Nat} (bound : value < 655360) :
    (digits value).foldl
        (fun counted digit => if counted < 65536 then 10 * counted + digitValue digit else counted)
        0 = value := by
  fun_induction digits value with
  | case1 value small =>
    change 10 * 0 + digitValue (digitChar value) = value
    rw [digitValue_digitChar]
    omega
  | case2 value large inductionHypothesis =>
    rw [List.foldl_append, inductionHypothesis (by omega), List.foldl_cons, List.foldl_nil,
      if_pos (by omega), digitValue_digitChar]
    omega

/-- An exponent below ten times two to the sixteenth is counted in full. -/
theorem countedExponent_eq_self {exponent : Int} (bound : exponent.natAbs < 655360) :
    countedExponent exponent = exponent := by
  rw [countedExponent, foldl_counted_digits bound]
  split <;> omega

end Binary64

end Number
end MuseumRecord
