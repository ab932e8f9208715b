import MuseumRecord.Markup.Element

/-!
# Places in a tree

A place tells at every step down a tree which child is taken.  The element at a place can be
replaced by another, which leaves everything outside of it as it was.
-/

namespace MuseumRecord
namespace Markup

/-- The way down a tree: at every step the number of elder siblings of the child taken. -/
abbrev Place := List Nat

namespace Element

/-- The element at a place. -/
def elementAt? (element : Element) : Place → Option Element
  | [] => some element
  | number :: rest => element.children[number]?.bind fun child => child.elementAt? rest

/-- The tree with another element at a place. -/
def replaced (element : Element) : Place → Element → Element
  | [], new => new
  | number :: rest, new =>
    { element with
      children := element.children.modify number fun child => child.replaced rest new }

variable {element met new child : Element} {earlier later : List Element} {place : Place}

/-! ## Going down -/

/-- A child is taken by the number of its elder siblings. -/
theorem elementAt?_cons_of_division (division : element.children = earlier ++ child :: later)
    (rest : Place) : element.elementAt? (earlier.length :: rest) = child.elementAt? rest := by
  rw [elementAt?, division]
  simp

/-- The first step of a place takes a child, with the rest of the place below it. -/
theorem exists_child {number : Nat} {rest : Place}
    (found : element.elementAt? (number :: rest) = some met) :
    ∃ earlier child later, element.children = earlier ++ child :: later ∧
      earlier.length = number ∧ child.elementAt? rest = some met := by
  rw [elementAt?, Option.bind_eq_some_iff] at found
  obtain ⟨child, taken, below⟩ := found
  obtain ⟨inside, rfl⟩ := List.getElem?_eq_some_iff.mp taken
  refine ⟨element.children.take number, _, element.children.drop (number + 1), ?_, ?_, below⟩
  · rw [← List.drop_eq_getElem_cons inside, List.take_append_drop]
  · exact List.length_take_of_le (Nat.le_of_lt inside)

theorem elementAt?_append (place more : Place) :
    element.elementAt? (place ++ more) =
      (element.elementAt? place).bind fun met => met.elementAt? more := by
  induction place generalizing element with
  | nil => rfl
  | cons number rest inductionHypothesis =>
    rw [List.cons_append, elementAt?, elementAt?, Option.bind_assoc]
    congr 1
    funext child
    exact inductionHypothesis

/-- The element one step below a place is a child of the element at the place. -/
theorem exists_parent {number : Nat} (found : element.elementAt? (place ++ [number]) = some met) :
    ∃ parent earlier later, element.elementAt? place = some parent ∧
      parent.children = earlier ++ met :: later ∧ earlier.length = number := by
  rw [elementAt?_append, Option.bind_eq_some_iff] at found
  obtain ⟨parent, atParent, below⟩ := found
  obtain ⟨earlier, child, later, division, counted, same⟩ := exists_child below
  cases same
  exact ⟨parent, earlier, later, atParent, division, counted⟩

theorem elementAt?_append_of_division (found : element.elementAt? place = some met)
    (division : met.children = earlier ++ child :: later) :
    element.elementAt? (place ++ [earlier.length]) = some child := by
  rw [elementAt?_append, found, Option.bind_some, elementAt?_cons_of_division division]
  rfl

/-! ## Replacing -/

/-- Below a child only the child is replaced. -/
theorem replaced_cons_of_division (division : element.children = earlier ++ child :: later)
    (rest : Place) (new : Element) :
    element.replaced (earlier.length :: rest) new =
      { element with children := earlier ++ child.replaced rest new :: later } := by
  rw [replaced, division, List.modify_eq_take_cons_drop (by simp)]
  simp

theorem replaced_append (found : element.elementAt? place = some met) (more : Place)
    (new : Element) :
    element.replaced (place ++ more) new = element.replaced place (met.replaced more new) := by
  induction place generalizing element with
  | nil =>
    cases found
    rfl
  | cons number rest inductionHypothesis =>
    obtain ⟨earlier, child, later, division, rfl, below⟩ := exists_child found
    rw [List.cons_append, replaced_cons_of_division division, replaced_cons_of_division division,
      inductionHypothesis below]

/-- An element replaced by itself leaves the tree as it was. -/
theorem replaced_self (found : element.elementAt? place = some met) :
    element.replaced place met = element := by
  induction place generalizing element with
  | nil =>
    cases found
    rfl
  | cons number rest inductionHypothesis =>
    obtain ⟨earlier, child, later, division, rfl, below⟩ := exists_child found
    rw [replaced_cons_of_division division, inductionHypothesis below, ← division]
    cases element
    rfl

theorem elementAt?_replaced (found : element.elementAt? place = some met) (new : Element) :
    (element.replaced place new).elementAt? place = some new := by
  induction place generalizing element with
  | nil => rfl
  | cons number rest inductionHypothesis =>
    obtain ⟨earlier, child, later, division, rfl, below⟩ := exists_child found
    rw [replaced_cons_of_division division, elementAt?_cons_of_division rfl,
      inductionHypothesis below]

end Element
end Markup
end MuseumRecord
