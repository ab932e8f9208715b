import MuseumRecord.Markup.Reference
import MuseumRecord.Proofs.Markup.Writing
import MuseumRecord.Proofs.Text.Cut

/-!
# Expansion of escaped text

Replacing the references of an escaped text gives the text back.  The places that the expansion
counts show in its faults only, so that a text expands alike wherever it stands.
-/

namespace MuseumRecord
namespace Markup
namespace Reference

/-- The text expands without a fault wherever it stands. -/
def Expands (written text : List Char) : Prop :=
  ∀ size offset, expandFrom size offset written = .ok text

theorem expands_nil : Expands [] [] := by
  intro size offset
  rw [expandFrom]

theorem expands_cons {plain : Char} {written text : List Char} (noReference : plain ≠ '&')
    (expanded : Expands written text) : Expands (plain :: written) (plain :: text) := by
  intro size offset
  rw [expandFrom, expanded]
  exact noReference

theorem inside_append {name : List Char} (noReference : '&' ∉ name) (noEnd : ';' ∉ name)
    (after : List Char) : inside (name ++ ';' :: after) = name := by
  refine Text.takeWhile_append_stop ?_ (by simp)
  intro letter member
  have first : letter ≠ '&' := fun same => noReference (same ▸ member)
  have second : letter ≠ ';' := fun same => noEnd (same ▸ member)
  simp [first, second]

theorem expands_reference {name written text : List Char} {character : Char}
    (noReference : '&' ∉ name) (noEnd : ';' ∉ name)
    (resolved : ∀ start, resolve start name = .ok character) (expanded : Expands written text) :
    Expands ('&' :: name ++ ';' :: written) (character :: text) := by
  intro size offset
  have same := inside_append noReference noEnd written
  have remainder : (name ++ ';' :: written).drop (inside (name ++ ';' :: written)).length =
      ';' :: written := by
    rw [same, List.drop_left]
  rw [List.cons_append, expandFrom]
  split
  · next found =>
    rw [remainder] at found
    cases found
    simp only [same, resolved]
    rw [expanded]
  · next other => exact absurd remainder (other written)

theorem resolve_ok {start : Nat} {inside : List Char} {character : Char}
    (resolved : resolve start inside = .ok character) (place : Nat) :
    resolve place inside = .ok character := by
  unfold resolve at resolved ⊢
  split at resolved
  · exact resolved
  · split at resolved
    · exact resolved
    · cases resolved

/-- A text with references and the text it stands for. -/
inductive Expansion : List Char → List Char → Prop
  | done : Expansion [] []
  | reference {name written text : List Char} {character : Char} :
      '&' ∉ name → ';' ∉ name → (∀ start, resolve start name = .ok character) →
      Expansion written text → Expansion ('&' :: name ++ ';' :: written) (character :: text)
  | plain {character : Char} {written text : List Char} :
      character ≠ '&' → Expansion written text →
      Expansion (character :: written) (character :: text)

theorem inside_free (rest : List Char) : '&' ∉ inside rest ∧ ';' ∉ inside rest := by
  refine ⟨fun member => ?_, fun member => ?_⟩
  · simpa using List.mem_takeWhile_imp member
  · simpa using List.mem_takeWhile_imp member

/-- What expands in one place is a text with references. -/
theorem expansion_of_expandFrom {size offset : Nat} {written text : List Char}
    (expanded : expandFrom size offset written = .ok text) : Expansion written text := by
  fun_induction expandFrom size offset written generalizing text with
  | case1 =>
    cases expanded
    exact .done
  | case4 offset rest after remainder character resolved others tail inductionHypothesis =>
    cases expanded
    have whole : rest = inside rest ++ ';' :: after := by
      rw [← remainder]
      exact (List.prefix_iff_eq_append.mp (List.takeWhile_prefix _)).symm
    have shape := Expansion.reference (inside_free rest).1 (inside_free rest).2
      (resolve_ok resolved) (inductionHypothesis tail)
    rw [List.cons_append, ← whole] at shape
    exact shape
  | case7 offset plain rest noReference others tail inductionHypothesis =>
    cases expanded
    exact .plain noReference (inductionHypothesis tail)
  | _ => cases expanded

namespace Expansion

variable {written text : List Char}

/-- Places show in faults only. -/
theorem expands (expansion : Expansion written text) : Expands written text := by
  induction expansion with
  | done => exact expands_nil
  | reference noReference noEnd resolved _ inductionHypothesis =>
    exact expands_reference noReference noEnd resolved inductionHypothesis
  | plain noReference _ inductionHypothesis =>
    exact expands_cons noReference inductionHypothesis

theorem expand (expansion : Expansion written text) : expand written = .ok text :=
  expansion.expands _ _

/-- A text in front of another expands in front of what the other expands to. -/
theorem append {rest restText : List Char} (first : Expansion written text)
    (second : Expansion rest restText) : Expansion (written ++ rest) (text ++ restText) := by
  induction first with
  | done => exact second
  | reference noReference noEnd resolved _ inductionHypothesis =>
    have shape := Expansion.reference noReference noEnd resolved inductionHypothesis
    simpa using shape
  | plain noReference _ inductionHypothesis => exact .plain noReference inductionHypothesis

/-- A text without references stands for itself. -/
theorem eq_of_not_mem (expansion : Expansion written text) (plain : '&' ∉ written) :
    text = written := by
  induction expansion with
  | done => rfl
  | reference => exact absurd List.mem_cons_self plain
  | plain _ _ inductionHypothesis =>
    rw [inductionHypothesis fun member => plain (.tail _ member)]

/-- What stands behind a text and belongs to no reference stands for itself. -/
theorem exists_of_append {left right : List Char} (expansion : Expansion (left ++ right) text)
    (noReference : '&' ∉ right) (noEnd : ';' ∉ right) :
    ∃ front, text = front ++ right ∧ Expansion left front := by
  generalize whole : left ++ right = written at expansion
  induction expansion generalizing left with
  | done =>
    obtain ⟨rfl, rfl⟩ := List.append_eq_nil_iff.mp whole
    exact ⟨[], rfl, .done⟩
  | @reference name written text character freeOfReference freeOfEnd resolved _
      inductionHypothesis =>
    cases left with
    | nil =>
      rw [List.nil_append] at whole
      exact absurd (whole ▸ List.mem_cons_self) noReference
    | cons first left =>
      obtain ⟨rfl, split⟩ := List.cons.inj whole
      rcases List.append_eq_append_iff.mp split with ⟨behind, _, rightIs⟩ | ⟨behind, rfl, rest⟩
      · exact absurd (by simp [rightIs]) noEnd
      · cases behind with
        | nil =>
          rw [List.nil_append] at rest
          exact absurd (rest ▸ List.mem_cons_self) noEnd
        | cons head behind =>
          obtain ⟨rfl, writtenIs⟩ := List.cons.inj rest
          obtain ⟨front, rfl, expansion⟩ := inductionHypothesis writtenIs.symm
          have shape := Expansion.reference freeOfReference freeOfEnd resolved expansion
          exact ⟨character :: front, rfl, by simpa using shape⟩
  | @plain character written text other inner inductionHypothesis =>
    cases left with
    | nil =>
      rw [List.nil_append] at whole
      refine ⟨[], ?_, .done⟩
      rw [whole, List.nil_append]
      exact (Expansion.plain other inner).eq_of_not_mem (whole ▸ noReference)
    | cons first left =>
      obtain ⟨rfl, rest⟩ := List.cons.inj whole
      obtain ⟨front, rfl, expansion⟩ := inductionHypothesis rest
      exact ⟨first :: front, rfl, .plain other expansion⟩

end Expansion

theorem resolve_of_mem {name : List Char} {character : Char}
    (member : (name, character) ∈ markupCharacters) :
    '&' ∉ name ∧ ';' ∉ name ∧ '<' ∉ name ∧ ∀ start, resolve start name = .ok character := by
  simp only [markupCharacters, List.mem_cons, Prod.mk.injEq, List.not_mem_nil, or_false] at member
  rcases member with ⟨rfl, rfl⟩ | ⟨rfl, rfl⟩ | ⟨rfl, rfl⟩ | ⟨rfl, rfl⟩ | ⟨rfl, rfl⟩ <;>
    exact ⟨by decide, by decide, by decide, fun _ => by rfl⟩

/-- An escaped text stands for what was escaped. -/
theorem expansion_of_escapes {text written : List Char} (escaped : Escapes text written) :
    Expansion written text := by
  induction escaped with
  | done => exact .done
  | named member _ inductionHypothesis =>
    obtain ⟨noReference, noEnd, _, resolved⟩ := resolve_of_mem member
    exact .reference noReference noEnd resolved inductionHypothesis
  | plain noReference _ _ inductionHypothesis => exact .plain noReference inductionHypothesis

/-- Expanding undoes escaping. -/
theorem expand_of_escapes {text written : List Char} (escaped : Escapes text written) :
    expand written = .ok text :=
  (expansion_of_escapes escaped).expand

/-- No tag begins inside an escaped text. -/
theorem tag_not_mem_of_escapes {text written : List Char} (escaped : Escapes text written) :
    '<' ∉ written := by
  induction escaped with
  | done => exact List.not_mem_nil
  | @named name character text written member _ inductionHypothesis =>
    obtain ⟨_, _, noTag, _⟩ := resolve_of_mem member
    simp [noTag, inductionHypothesis]
  | plain _ noTag _ inductionHypothesis =>
    simp [noTag.symm, inductionHypothesis]

end Reference
end Markup
end MuseumRecord
