import MuseumRecord.Proofs.Schema.TypeText
import MuseumRecord.Schema.Outline

/-!
# Rows of an outline

Behind its indentation a row of an outline shows an element or an attribute.  The indentation tells
the depth, and what follows it tells the row.
-/

namespace MuseumRecord
namespace Schema

open Text

/-- What a row of an outline shows. -/
inductive OutlineRow where
  /-- An element, with the type of its text if it holds text alone. -/
  | ofElement (name : String) (occurrence : Occurrence) (type? : Option ValueType)
  /-- An attribute. -/
  | ofAttribute (declared : AttributeDeclaration)

namespace OutlineRow

/-- Whether a row shows an attribute. -/
def isAttribute : OutlineRow → Bool
  | .ofElement _ _ _ => false
  | .ofAttribute _ => true

/-- The text of a row behind its indentation. -/
def text : OutlineRow → String
  | .ofElement name occurrence none => s!"{name} [{occurrence.text}]"
  | .ofElement name occurrence (some type) => s!"{name} [{occurrence.text}]: {type.text}"
  | .ofAttribute declared =>
    s!"@{declared.name}: {declared.type.text}{requirement declared.required}"

/-- The names in a row are words, and its type is plain. -/
def IsPlain : OutlineRow → Prop
  | .ofElement name _ type? => IsName name ∧ ∀ type ∈ type?, type.IsPlain
  | .ofAttribute declared => declared.IsPlain

/-- A row with its indentation. -/
def line (row : Nat × OutlineRow) : String :=
  indent row.1 ++ row.2.text

/-- What stands behind the sign of an occurrence. -/
def typing : Option ValueType → List Char
  | none => []
  | some type => ':' :: ' ' :: type.text.toList

theorem toList_ofElement (name : String) (occurrence : Occurrence) (type? : Option ValueType) :
    (ofElement name occurrence type?).text.toList =
      name.toList ++ ' ' :: '[' :: (occurrence.text.toList ++ ']' :: typing type?) := by
  cases type? <;> simp [text, typing, toString]

theorem toList_ofAttribute (declared : AttributeDeclaration) :
    (ofAttribute declared).text.toList =
      '@' :: (declared.name.toList ++
        ':' :: ' ' :: (declared.type.text.toList ++ (requirement declared.required).toList)) := by
  simp [text, toString]

variable {row other : OutlineRow}

/-- A row begins with a name or with the sign of an attribute, and never with a blank. -/
theorem IsPlain.solid (plain : row.IsPlain) :
    ∀ character ∈ row.text.toList.head?, (character == ' ') = false := by
  intro character head
  cases row with
  | ofElement name occurrence type? =>
    rw [toList_ofElement] at head
    refine beq_eq_false_iff_ne.mpr fun space => ?_
    exact absurd (plain.1.head _ character head) (by rw [space]; decide)
  | ofAttribute declared =>
    rw [toList_ofAttribute] at head
    cases head
    rfl

theorem typing_injective {left right : Option ValueType}
    (leftPlain : ∀ type ∈ left, type.IsPlain) (rightPlain : ∀ type ∈ right, type.IsPlain)
    (same : typing left = typing right) : left = right := by
  cases left with
  | none =>
    cases right with
    | none => rfl
    | some type => cases same
  | some type =>
    cases right with
    | none => cases same
    | some other =>
      have texts : type.text.toList ++ (requirement false).toList =
          other.text.toList ++ (requirement false).toList := by
        simpa [typing] using same
      rw [(ValueType.eq_of_text_append (leftPlain type rfl) (rightPlain other rfl) texts).1]

/-- The row of an element does not begin as that of an attribute does. -/
theorem text_ofElement_ne {name : String} (named : IsName name) (occurrence : Occurrence)
    (type? : Option ValueType) (declared : AttributeDeclaration) :
    (ofElement name occurrence type?).text ≠ (ofAttribute declared).text := by
  intro same
  have characters := congrArg String.toList same
  rw [toList_ofElement, toList_ofAttribute] at characters
  have sign : '@' ∈ (name.toList ++ ' ' :: '[' :: (occurrence.text.toList ++
      ']' :: typing type?)).head? := characters ▸ rfl
  exact absurd (named.head _ '@' sign) (by decide)

/-- A row is determined by its text. -/
theorem eq_of_text (plain : row.IsPlain) (otherPlain : other.IsPlain)
    (same : row.text = other.text) : row = other := by
  have characters := congrArg String.toList same
  cases row with
  | ofElement name occurrence type? =>
    cases other with
    | ofElement otherName otherOccurrence otherType? =>
      rw [toList_ofElement, toList_ofElement] at characters
      obtain ⟨rfl, rest⟩ := plain.1.eq_of_append otherPlain.1 (by simp [isNameCharacter])
        (by simp [isNameCharacter]) characters
      simp only [List.cons.injEq, true_and] at rest
      obtain ⟨rfl, behind⟩ := Occurrence.eq_of_text_append rest
      rw [typing_injective plain.2 otherPlain.2 (List.cons.inj behind).2]
    | ofAttribute declared => exact absurd same (text_ofElement_ne plain.1 _ _ _)
  | ofAttribute declared =>
    cases other with
    | ofElement name occurrence type? =>
      exact absurd same.symm (text_ofElement_ne otherPlain.1 _ _ _)
    | ofAttribute otherDeclared =>
      rw [toList_ofAttribute, toList_ofAttribute] at characters
      obtain ⟨names, rest⟩ := plain.1.eq_of_append otherPlain.1 (by simp [isNameCharacter])
        (by simp [isNameCharacter]) (List.cons.inj characters).2
      simp only [List.cons.injEq, true_and] at rest
      obtain ⟨types, requirements⟩ := ValueType.eq_of_text_append plain.2 otherPlain.2 rest
      have whole : declared = otherDeclared := by
        cases declared
        cases otherDeclared
        rw [AttributeDeclaration.mk.injEq]
        exact ⟨names, types, requirements⟩
      rw [whole]

theorem IsPlain.isSingleLine (plain : row.IsPlain) : IsSingleLine row.text := by
  rw [IsSingleLine]
  cases row with
  | ofElement name occurrence type? =>
    have named : '\n' ∉ name.toList := plain.1.isSingleLine
    have sign : '\n' ∉ occurrence.text.toList := by cases occurrence <;> decide
    have behind : '\n' ∉ typing type? := by
      cases type? with
      | none => exact List.not_mem_nil
      | some type =>
        have typed : '\n' ∉ type.text.toList := (plain.2 type rfl).isSingleLine
        simp [typing, typed]
    simp [toList_ofElement, named, sign, behind]
  | ofAttribute declared =>
    have named : '\n' ∉ declared.name.toList := plain.1.isSingleLine
    have typed : '\n' ∉ declared.type.text.toList := plain.2.isSingleLine
    have required : '\n' ∉ (requirement declared.required).toList := by
      cases declared.required <;> decide
    simp [toList_ofAttribute, named, typed, required]

theorem isSingleLine_line {depth : Nat} (plain : row.IsPlain) : IsSingleLine (line (depth, row)) :=
  isSingleLine_append.mpr ⟨isSingleLine_ofList.mpr (by simp), plain.isSingleLine⟩

/-- A row and its depth are determined by its line. -/
theorem line_injective {depth otherDepth : Nat} (plain : row.IsPlain) (otherPlain : other.IsPlain)
    (same : line (depth, row) = line (otherDepth, other)) : depth = otherDepth ∧ row = other := by
  have characters := congrArg String.toList same
  simp only [line, indent, String.toList_append, String.toList_ofList] at characters
  obtain ⟨blanks, texts⟩ := eq_of_append_scan (by simp) (by simp) plain.solid otherPlain.solid
    characters
  have width := List.replicate_left_inj.mp blanks
  exact ⟨by omega, eq_of_text plain otherPlain (String.toList_injective texts)⟩

end OutlineRow

end Schema
end MuseumRecord
