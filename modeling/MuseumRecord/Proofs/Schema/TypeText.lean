import MuseumRecord.Proofs.Schema.Unbroken
import MuseumRecord.Proofs.Text.Division

/-!
# Words and types

Where names and values are words of a few characters, what is written around them begins with
another character.  A word then ends where it is seen to end, and no type is written as another one:
a type of one word has no brace behind it, and the values of an enumeration stand between commas.
-/

namespace MuseumRecord
namespace Schema

open Text

/-! ## Words -/

/-- A letter or a digit of ASCII, an underscore, a hyphen or a point. -/
def isNameCharacter (character : Char) : Bool :=
  character.isAlphanum || character == '_' || character == '-' || character == '.'

/-- A text that an outline can show as one word. -/
def IsName (text : String) : Prop :=
  text ≠ "" ∧ ∀ character ∈ text.toList, isNameCharacter character = true

-- The instance that is found for the form above may try all characters there are.
instance (text : String) : Decidable (IsName text) :=
  decidable_of_iff (text ≠ "" ∧ text.toList.all isNameCharacter = true)
    (and_congr_right' List.all_eq_true)

/-- The name of an enumeration and its values are words. -/
def Enumeration.IsPlain (set : Enumeration) : Prop :=
  IsName set.name ∧ ∀ value ∈ set.values, IsName value

/-- A type without a name of its own, or a plain enumeration. -/
def ValueType.IsPlain : ValueType → Prop
  | .enumeration set => set.IsPlain
  | _ => True

/-- The name of an attribute is a word, and its type is plain. -/
def AttributeDeclaration.IsPlain (declared : AttributeDeclaration) : Prop :=
  IsName declared.name ∧ declared.type.IsPlain

instance (set : Enumeration) : Decidable set.IsPlain :=
  inferInstanceAs (Decidable (_ ∧ _))

instance : (type : ValueType) → Decidable type.IsPlain
  | .enumeration set => inferInstanceAs (Decidable set.IsPlain)
  | .string | .double | .decimal | .date | .boolean => isTrue trivial

instance (declared : AttributeDeclaration) : Decidable declared.IsPlain :=
  inferInstanceAs (Decidable (_ ∧ _))

theorem IsName.toList_ne_nil {text : String} (named : IsName text) : text.toList ≠ [] :=
  fun empty => named.1 (String.toList_eq_nil_iff.mp empty)

/-- A character that no word holds does not stand in a word. -/
theorem IsName.not_mem {text : String} (named : IsName text) {character : Char}
    (other : isNameCharacter character = false) : character ∉ text.toList := by
  intro member
  rw [named.2 character member] at other
  cases other

/-- A text that begins with a word begins with one of its characters. -/
theorem IsName.head {text : String} (named : IsName text) (behind : List Char) :
    ∀ character ∈ (text.toList ++ behind).head?, isNameCharacter character = true := by
  intro character head
  obtain ⟨first, rest, shape⟩ := List.exists_cons_of_ne_nil named.toList_ne_nil
  rw [shape] at head
  obtain rfl : first = character := Option.some.inj head
  exact named.2 first (shape ▸ List.mem_cons_self)

theorem IsName.isSingleLine {text : String} (named : IsName text) : IsSingleLine text :=
  named.not_mem rfl

/-- A word ends in front of the first character that no word holds. -/
theorem IsName.eq_of_append {left right : String} {after other : List Char}
    (leftNamed : IsName left) (rightNamed : IsName right)
    (stopped : ∀ character ∈ after.head?, isNameCharacter character = false)
    (stoppedOther : ∀ character ∈ other.head?, isNameCharacter character = false)
    (equal : left.toList ++ after = right.toList ++ other) : left = right ∧ after = other := by
  obtain ⟨words, rest⟩ := eq_of_append_scan leftNamed.2 rightNamed.2 stopped stoppedOther equal
  exact ⟨String.toList_injective words, rest⟩

/-! ## Types -/

/-- What stands behind the type of an attribute. -/
def requirement (required : Bool) : String :=
  if required then " (required)" else ""

/-- The types that are written as one word. -/
def oneWordTypes : List ValueType :=
  [.string, .double, .decimal, .date, .boolean]

namespace ValueType

theorem mem_oneWordTypes_or (type : ValueType) :
    type ∈ oneWordTypes ∨ ∃ set, type = .enumeration set := by
  cases type with
  | enumeration set => exact .inr ⟨set, rfl⟩
  | _ => exact .inl (by decide)

theorem isName_of_mem_oneWordTypes : ∀ type ∈ oneWordTypes, IsName type.text := by
  decide

theorem eq_of_mem_oneWordTypes :
    ∀ left ∈ oneWordTypes, ∀ right ∈ oneWordTypes, left.text = right.text → left = right := by
  decide

end ValueType

theorem requirement_stops (required : Bool) :
    ∀ character ∈ (requirement required).toList.head?, isNameCharacter character = false := by
  cases required <;> simp [requirement, isNameCharacter]

theorem requirement_injective {required needed : Bool}
    (equal : requirement required = requirement needed) : required = needed := by
  revert required needed
  decide

namespace Enumeration

/-- The values of an enumeration as they stand between its braces. -/
def inside (set : Enumeration) : List Char :=
  [',', ' '].intercalate (set.values.map String.toList)

theorem toList_text (set : Enumeration) :
    set.text.toList = set.name.toList ++ ' ' :: '\x7b' :: (set.inside ++ ['\x7d']) := by
  simp [text, inside]

variable {set other : Enumeration}

theorem IsPlain.brace_not_mem_inside (plain : set.IsPlain) : '\x7d' ∉ set.inside := by
  intro member
  rcases mem_or_mem_of_mem_intercalate member with between | held
  · exact absurd between (by decide)
  · obtain ⟨word, listed, held⟩ := List.mem_flatten.mp held
    obtain ⟨value, member, rfl⟩ := List.mem_map.mp listed
    exact (plain.2 value member).not_mem rfl held

/-- The values are the pieces between the commas. -/
theorem IsPlain.pieces_inside (plain : set.IsPlain) (filled : set.values ≠ []) :
    pieces [',', ' '] set.inside = set.values.map String.toList := by
  refine pieces_intercalate (by simpa using filled) fun word listed => ?_
  obtain ⟨value, member, rfl⟩ := List.mem_map.mp listed
  exact (plain.2 value member).not_mem rfl

theorem IsPlain.inside_eq_nil_iff (plain : set.IsPlain) : set.inside = [] ↔ set.values = [] := by
  constructor
  · intro empty
    by_contra filled
    have listed : [] ∈ set.values.map String.toList := by
      rw [← plain.pieces_inside filled, empty, pieces_of_uncut (by decide)]
      exact List.mem_singleton_self []
    obtain ⟨value, member, nothing⟩ := List.mem_map.mp listed
    exact (plain.2 value member).toList_ne_nil nothing
  · intro empty
    rw [inside, empty]
    rfl

theorem IsPlain.values_eq (plain : set.IsPlain) (otherPlain : other.IsPlain)
    (same : set.inside = other.inside) : set.values = other.values := by
  by_cases empty : set.values = []
  · rw [empty, otherPlain.inside_eq_nil_iff.mp (same ▸ plain.inside_eq_nil_iff.mpr empty)]
  · have filled : other.values ≠ [] := fun nothing =>
      empty (plain.inside_eq_nil_iff.mp (same.trans (otherPlain.inside_eq_nil_iff.mpr nothing)))
    have words := plain.pieces_inside empty
    rw [same, otherPlain.pieces_inside filled] at words
    exact List.map_injective_iff.mpr (fun _ _ => String.toList_injective) words.symm

/-- An enumeration ends at its closing brace. -/
theorem IsPlain.eq_of_append (plain : set.IsPlain) (otherPlain : other.IsPlain)
    {after behind : List Char} (equal : set.text.toList ++ after = other.text.toList ++ behind) :
    set = other ∧ after = behind := by
  simp only [toList_text, List.append_assoc, List.cons_append, List.nil_append] at equal
  obtain ⟨names, rest⟩ := plain.1.eq_of_append otherPlain.1 (by simp [isNameCharacter])
    (by simp [isNameCharacter]) equal
  simp only [List.cons.injEq, true_and] at rest
  have values := eq_of_append_stop plain.brace_not_mem_inside otherPlain.brace_not_mem_inside rest
  rw [values, List.append_cancel_left_eq, List.cons.injEq] at rest
  exact ⟨congrArg₂ mk names (plain.values_eq otherPlain values), rest.2⟩

end Enumeration

namespace ValueType

/-- What stands behind a type of one word opens no brace, as an enumeration does. -/
theorem oneWord_ne_enumeration {type : ValueType} {set : Enumeration}
    (listed : type ∈ oneWordTypes) (plain : set.IsPlain) (required : Bool) (behind : List Char) :
    type.text.toList ++ (requirement required).toList ≠ set.text.toList ++ behind := by
  intro equal
  rw [Enumeration.toList_text, List.append_assoc] at equal
  obtain ⟨_, rest⟩ := (isName_of_mem_oneWordTypes type listed).eq_of_append plain.1
    (requirement_stops required) (by simp [isNameCharacter]) equal
  cases required <;> simp [requirement] at rest

/-- No type is written as another one, with or without the mark of a required attribute. -/
theorem eq_of_text_append {left right : ValueType} {required needed : Bool}
    (leftPlain : left.IsPlain) (rightPlain : right.IsPlain)
    (equal : left.text.toList ++ (requirement required).toList =
      right.text.toList ++ (requirement needed).toList) : left = right ∧ required = needed := by
  rcases left.mem_oneWordTypes_or with leftWord | ⟨set, rfl⟩ <;>
    rcases right.mem_oneWordTypes_or with rightWord | ⟨other, rfl⟩
  · obtain ⟨words, rest⟩ := (isName_of_mem_oneWordTypes _ leftWord).eq_of_append
      (isName_of_mem_oneWordTypes _ rightWord) (requirement_stops _) (requirement_stops _) equal
    exact ⟨eq_of_mem_oneWordTypes _ leftWord _ rightWord words,
      requirement_injective (String.toList_injective rest)⟩
  · exact absurd equal (oneWord_ne_enumeration leftWord rightPlain required _)
  · exact absurd equal.symm (oneWord_ne_enumeration rightWord leftPlain needed _)
  · obtain ⟨sets, rest⟩ := Enumeration.IsPlain.eq_of_append leftPlain rightPlain equal
    exact ⟨congrArg enumeration sets, requirement_injective (String.toList_injective rest)⟩

theorem IsPlain.isSingleLine {type : ValueType} (plain : type.IsPlain) :
    IsSingleLine type.text := by
  rcases type.mem_oneWordTypes_or with word | ⟨set, rfl⟩
  · exact (isName_of_mem_oneWordTypes type word).isSingleLine
  · exact isSingleLine_enumeration
      ⟨plain.1.isSingleLine, fun value member => (plain.2 value member).isSingleLine⟩

end ValueType

theorem Occurrence.eq_of_text_append {left right : Occurrence} {after behind : List Char}
    (equal : left.text.toList ++ after = right.text.toList ++ behind) :
    left = right ∧ after = behind := by
  cases left <;> cases right <;> simp_all [Occurrence.text]

end Schema
end MuseumRecord
