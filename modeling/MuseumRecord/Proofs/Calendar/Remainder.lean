import MuseumRecord.Proofs.Calendar.LetterCase
import MuseumRecord.Proofs.Text.Trimmed

/-!
# What a layout leaves

A layout of numbers and marks takes a stretch from the front of a text.  It takes the same stretch,
with the same numbers, whatever follows, provided that no digit follows which did not before.
-/

namespace MuseumRecord
namespace Calendar

open Number

/-- A text that begins with a digit only if the other does. -/
def Continues (after rest : List Char) : Prop :=
  ∀ character ∈ after.head?, isDigit character = true →
    ∃ other ∈ rest.head?, isDigit other = true

/-- A reader takes something from the front of a text, and the same in front of any other text that
may take the place of the rest. -/
def IsLocal {α : Type} (reader : List Char → Option (α × List Char)) : Prop :=
  ∀ text value rest, reader text = some (value, rest) →
    ∃ front, text = front ++ rest ∧ front ≠ [] ∧
      ∀ after, Continues after rest → reader (front ++ after) = some (value, after)

section Local

variable {text rest after : List Char}

theorem Continues.append (continues : Continues after rest) (front : List Char) :
    Continues (front ++ after) (front ++ rest) := by
  cases front with
  | nil => exact continues
  | cons first front => exact fun character head digit => ⟨character, head, digit⟩

/-- What is continued without a digit is continued so by its replacement. -/
theorem Continues.stops (continues : Continues after rest)
    (stops : ∀ character ∈ rest.head?, isDigit character = false) :
    ∀ character ∈ after.head?, isDigit character = false := by
  intro character head
  rw [Bool.eq_false_iff]
  intro digit
  obtain ⟨other, otherHead, otherDigit⟩ := continues character head digit
  rw [stops other otherHead] at otherDigit
  cases otherDigit

theorem isLocal_leadingDigits? (most : Nat) : IsLocal (leadingDigits? most) := by
  intro text value rest read
  obtain ⟨row, rfl, digits, filled, room, rfl, ends⟩ := exists_row_of_leadingDigits? read
  exact ⟨row, rfl, filled, fun after continues =>
    leadingDigits?_of_ends digits filled room (ends.imp_right continues.stops)⟩

/-- A sign is followed by any number of digits. -/
theorem isLocal_allDigits : IsLocal fun text => leadingDigits? text.length text := by
  intro text value rest read
  obtain ⟨row, rfl, digits, filled, room, rfl, ends⟩ := exists_row_of_leadingDigits? read
  refine ⟨row, rfl, filled, fun after continues => ?_⟩
  refine leadingDigits?_of_ends digits filled (by simp) (.inr (continues.stops ?_))
  rcases ends with full | stops
  · have nothing : rest = [] := by simpa using full
    simp [nothing]
  · exact stops

theorem IsLocal.map {α β : Type} {reader : List Char → Option (α × List Char)}
    (isLocal : IsLocal reader) (change : α → β) :
    IsLocal fun text => (reader text).map fun (value, after) => (change value, after) := by
  intro text value rest read
  obtain ⟨⟨found, left⟩, read, equal⟩ := Option.map_eq_some_iff.mp read
  cases equal
  obtain ⟨front, whole, filled, again⟩ := isLocal _ _ _ read
  refine ⟨front, whole, filled, fun after continues => ?_⟩
  simp only [again after continues, Option.map_some]

theorem isLocal_readYear? : IsLocal readYear? := by
  intro text value rest read
  have signed {sign : Char} {tail : List Char} (change : Nat → Int) (step : ∀ tail,
      readYear? (sign :: tail) =
        (leadingDigits? tail.length tail).map fun read => (change read.1, read.2))
      (read : readYear? (sign :: tail) = some (value, rest)) :
      ∃ front, sign :: tail = front ++ rest ∧ front ≠ [] ∧
        ∀ after, Continues after rest → readYear? (front ++ after) = some (value, after) := by
    rw [step] at read
    obtain ⟨front, rfl, _, again⟩ := isLocal_allDigits.map change _ _ _ read
    refine ⟨sign :: front, rfl, List.cons_ne_nil _ _, fun after continues => ?_⟩
    rw [List.cons_append, step]
    exact again after continues
  cases text with
  | nil => cases read
  | cons head tail =>
    by_cases negative : head = '-'
    · subst negative
      exact signed (fun value => -(value : Int)) (fun _ => rfl) read
    · by_cases positive : head = '+'
      · subst positive
        exact signed (fun value => (value : Int)) (fun _ => rfl) read
      · rw [readYear?_of_unsigned negative positive] at read
        obtain ⟨front, whole, filled, again⟩ := (isLocal_leadingDigits? 4).map _ _ _ _ read
        refine ⟨front, whole, filled, fun after continues => ?_⟩
        obtain ⟨first, others, rfl⟩ := List.exists_cons_of_ne_nil filled
        obtain ⟨rfl, _⟩ := List.cons.inj whole
        rw [List.cons_append, readYear?_of_unsigned negative positive]
        exact again after continues

/-- Blanks may lead what a reader takes. -/
theorem IsLocal.trimStart {α : Type} {reader : List Char → Option (α × List Char)}
    (isLocal : IsLocal reader) : IsLocal fun text => reader (Text.trimStart text) := by
  intro text value rest read
  obtain ⟨front, whole, filled, again⟩ := isLocal _ _ _ read
  obtain ⟨blanks, split, blank⟩ := Text.trimStart_append_trimStart text
  refine ⟨blanks ++ front, by rw [split, whole, List.append_assoc], by simp [filled], ?_⟩
  intro after continues
  have solid := Text.solid_of_mem_head?_trimStart text
  have trimmed : Text.trimStart (blanks ++ front ++ after) = front ++ after := by
    rw [List.append_assoc, Text.trimStart, List.dropWhile_append_of_pos blank]
    refine Text.trimStart_eq_self fun character head => solid character ?_
    rw [whole]
    cases front with
    | nil => exact absurd rfl filled
    | cons first front => exact head
  change reader (Text.trimStart (blanks ++ front ++ after)) = some (value, after)
  rw [trimmed]
  exact again after continues

theorem Field.isLocal (field : Field) (reading : Reading) :
    IsLocal fun text => field.read? reading text := by
  have pair := (isLocal_leadingDigits? 2).trimStart
  cases field with
  | year => exact isLocal_readYear?.trimStart.map fun value => { reading with year := some value }
  | month => exact pair.map fun value => { reading with month := some value }
  | day => exact pair.map fun value => { reading with day := some value }
  | hour => exact pair.map fun value => { reading with hour := some value }
  | minute => exact pair.map fun value => { reading with minute := some value }
  | second => exact pair.map fun value => { reading with second := some value }

/-- An item that takes something. -/
def LayoutItem.isRigid : LayoutItem → Bool
  | .number _ => true
  | .mark _ => true
  | _ => false

theorem LayoutItem.isLocal {item : LayoutItem} (rigid : item.isRigid = true) (reading : Reading) :
    IsLocal fun text => item.read? reading text := by
  cases item with
  | number field => exact field.isLocal reading
  | mark character =>
    intro text value rest read
    cases text with
    | nil => cases read
    | cons head tail =>
      obtain ⟨rfl, found⟩ := Option.ite_none_right_eq_some.mp read
      cases found
      exact ⟨[head], rfl, List.cons_ne_nil _ _, fun after _ => if_pos rfl⟩
  | monthName full => cases rigid
  | gap => cases rigid

/-- The stretch that a layout takes from a text is taken in front of every continuation of it.  The
induction is on the items, each of which is continued by what the next ones take. -/
theorem Layout.exists_front {layout : Layout} (rigid : layout.all LayoutItem.isRigid = true)
    {reading found : Reading} (read : Layout.read? layout reading text = some (found, rest)) :
    ∃ front, text = front ++ rest ∧
      ∀ after, Continues after rest →
        Layout.read? layout reading (front ++ after) = some (found, after) := by
  induction layout generalizing reading text with
  | nil =>
    cases read
    exact ⟨[], rfl, fun after _ => rfl⟩
  | cons item layout inductionHypothesis =>
    rw [List.all_cons, Bool.and_eq_true] at rigid
    rw [Layout.read?_cons] at read
    obtain ⟨⟨next, behind⟩, itemRead, layoutRead⟩ := Option.bind_eq_some_iff.mp read
    obtain ⟨itemFront, rfl, _, itemAgain⟩ := LayoutItem.isLocal rigid.1 reading _ _ _ itemRead
    obtain ⟨front, rfl, again⟩ := inductionHypothesis rigid.2 layoutRead
    refine ⟨itemFront ++ front, by rw [List.append_assoc], fun after continues => ?_⟩
    have itemRead := itemAgain (front ++ after) (continues.append front)
    rw [List.append_assoc, Layout.read?_cons]
    exact (bind_of_some itemRead _).trans (again after continues)

end Local

end Calendar
end MuseumRecord
