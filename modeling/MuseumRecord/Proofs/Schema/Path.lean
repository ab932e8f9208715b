import Mathlib.Data.List.Count
import MuseumRecord.Proofs.Markup.Place
import MuseumRecord.Proofs.Number.Digits
import MuseumRecord.Proofs.Schema.Walk

/-!
# Paths

The text of an address is a path through the document.  It can be read back as long as no name has
a slash or an opening bracket in it, and followed from the root: at every step to the only child of
a name, or to the child of a name and a number.
-/

namespace MuseumRecord
namespace Schema

open Markup (Element Place)

/-! ## Addresses of places -/

/-- The steps down from an element to a place. -/
def stepsTo (element : Element) : Place → Address
  | [] => []
  | number :: rest =>
    match element.children[number]? with
    | none => []
    | some child =>
      stepTo (element.children.take number) child (element.children.drop (number + 1)) ::
        stepsTo child rest

/-- The address of a place in a document. -/
def addressOf (root : Element) (place : Place) : Address :=
  ⟨root.name, none⟩ :: stepsTo root place

section Addresses

variable {root element met child : Element} {earlier later : List Element} {place : Place}

theorem stepsTo_cons_of_division (division : element.children = earlier ++ child :: later)
    (rest : Place) :
    stepsTo element (earlier.length :: rest) =
      stepTo earlier child later :: stepsTo child rest := by
  have taken : element.children[earlier.length]? = some child := by
    rw [division]
    simp
  have behind : element.children.drop (earlier.length + 1) = later := by
    rw [division]
    simp
  rw [stepsTo, taken, behind, division, List.take_left]

/-- The steps to a child of the element at a place are one more than those to the place. -/
theorem stepsTo_append_of_division (found : element.elementAt? place = some met)
    (division : met.children = earlier ++ child :: later) :
    stepsTo element (place ++ [earlier.length]) =
      stepsTo element place ++ [stepTo earlier child later] := by
  induction place generalizing element with
  | nil =>
    cases found
    exact stepsTo_cons_of_division division []
  | cons number rest inductionHypothesis =>
    obtain ⟨front, next, behind, upper, rfl, below⟩ := Element.exists_child found
    rw [List.cons_append, stepsTo_cons_of_division upper, stepsTo_cons_of_division upper,
      inductionHypothesis below, List.cons_append]

theorem addressOf_append_of_division (found : root.elementAt? place = some met)
    (division : met.children = earlier ++ child :: later) :
    addressOf root (place ++ [earlier.length]) =
      addressOf root place ++ [stepTo earlier child later] := by
  rw [addressOf, stepsTo_append_of_division found division]
  rfl

end Addresses

/-! ## Following an address -/

/-- The number of elder siblings of the child that a step leads to, if it leads to one: without a
number the only child of its name, with a number the child of its name with that number. -/
def childNumber? (names : List String) (step : AddressStep) : Option Nat :=
  match step.number with
  | none =>
    match names.idxsOf step.name with
    | [only] => some only
    | _ => none
  | some 0 => none
  | some (number + 1) => (names.idxsOf step.name)[number]?

/-- The place that some steps down from an element lead to. -/
def follow? (element : Element) : Address → Option Place
  | [] => some []
  | step :: rest =>
    (childNumber? (element.children.map Element.name) step).bind fun number =>
      element.children[number]?.bind fun child => (follow? child rest).map fun more =>
        number :: more

/-- The place that an address leads to, which starts at the root. -/
def placeOf? (root : Element) : Address → Option Place
  | [] => none
  | first :: rest => if first = ⟨root.name, none⟩ then follow? root rest else none

section Following

variable {root element met child : Element} {earlier later : List Element} {place : Place}

theorem name_toChild (name : String) (front behind : List String) :
    (AddressStep.toChild name front behind).name = name := by
  unfold AddressStep.toChild
  dsimp only
  split <;> rfl

/-- The step to a child leads to it. -/
theorem childNumber?_toChild (name : String) (front behind : List String) :
    childNumber? (front ++ name :: behind) (.toChild name front behind) = some front.length := by
  have numbers : (front ++ name :: behind).idxsOf name =
      front.idxsOf name ++ front.length :: behind.idxsOf name (front.length + 1) := by
    rw [List.idxsOf_append, List.idxsOf_cons, if_pos BEq.rfl, Nat.zero_add]
  unfold AddressStep.toChild
  dsimp only
  split
  · next single =>
    have noneInFront : front.idxsOf name = [] := by
      rw [← List.length_eq_zero_iff, List.length_idxsOf]
      omega
    have noneBehind : behind.idxsOf name (front.length + 1) = [] := by
      rw [← List.length_eq_zero_iff, List.length_idxsOf]
      omega
    unfold childNumber?
    dsimp only
    rw [numbers, noneInFront, noneBehind]
    rfl
  · unfold childNumber?
    dsimp only
    rw [numbers, List.getElem?_append_right (by simp), List.length_idxsOf, Nat.sub_self]
    rfl

/-- The steps to a place lead to it. -/
theorem follow?_stepsTo (found : element.elementAt? place = some met) :
    follow? element (stepsTo element place) = some place := by
  induction place generalizing element with
  | nil => rfl
  | cons number rest inductionHypothesis =>
    obtain ⟨earlier, child, later, division, rfl, below⟩ := Element.exists_child found
    have taken : element.children[earlier.length]? = some child := by
      rw [division]
      simp
    have names : element.children.map Element.name =
        earlier.map Element.name ++ child.name :: later.map Element.name := by
      rw [division, List.map_append, List.map_cons]
    rw [stepsTo_cons_of_division division, follow?, names, stepTo, childNumber?_toChild,
      List.length_map, Option.bind_some, taken, Option.bind_some, inductionHypothesis below]
    rfl

/-- The address of a place leads to it. -/
theorem placeOf?_addressOf (found : root.elementAt? place = some met) :
    placeOf? root (addressOf root place) = some place := by
  rw [addressOf, placeOf?, if_pos rfl, follow?_stepsTo found]

/-- Different places have different addresses. -/
theorem addressOf_injective {other : Place} {met' : Element}
    (found : root.elementAt? place = some met) (found' : root.elementAt? other = some met')
    (same : addressOf root place = addressOf root other) : place = other := by
  have led := placeOf?_addressOf found
  rw [same, placeOf?_addressOf found'] at led
  exact (Option.some.inj led).symm

end Following

/-! ## Reading a path -/

/-- A name that can stand in a path without being taken for something else. -/
def IsPlainName (name : String) : Prop :=
  '/' ∉ name.toList ∧ '[' ∉ name.toList

instance (name : String) : Decidable (IsPlainName name) :=
  inferInstanceAs (Decidable (_ ∧ _))

/-- The step with a text: a name, or a name and a number in brackets. -/
def AddressStep.ofText? (text : List Char) : Option AddressStep :=
  match text.splitOn '[' with
  | [name] => some ⟨String.ofList name, none⟩
  | [name, bracketed] =>
    if bracketed.getLast? = some ']' then
      (Number.natural? bracketed.dropLast).map fun number => ⟨String.ofList name, some number⟩
    else
      none
  | _ => none

/-- The address with a text: a slash in front of every step. -/
def Address.ofText? (text : String) : Option Address :=
  match text.toList.splitOn '/' with
  | [] :: steps => steps.mapM AddressStep.ofText?
  | _ => none

/-- The place in a document that a path leads to. -/
def placeOfPath? (root : Element) (path : String) : Option Place :=
  (Address.ofText? path).bind (placeOf? root)

section Reading

variable {step : AddressStep} {address : Address}

theorem AddressStep.toList_text_of_number {name : String} {number : Nat} :
    (AddressStep.text ⟨name, some number⟩).toList =
      name.toList ++ '[' :: (Number.digits number ++ [']']) := by
  simp only [AddressStep.text, String.toList_append, Number.toList_toString, List.append_assoc]
  rfl

/-- A step with a plain name is read from its text. -/
theorem AddressStep.ofText?_text (plain : IsPlainName step.name) :
    AddressStep.ofText? step.text.toList = some step := by
  obtain ⟨name, number⟩ := step
  cases number with
  | none =>
    rw [AddressStep.ofText?, AddressStep.text, List.splitOn_eq_singleton plain.2]
    simp
  | some number =>
    have unopened : '[' ∉ Number.digits number ++ [']'] := by
      simp [@Number.not_mem_digits '[' rfl number]
    rw [AddressStep.ofText?, toList_text_of_number,
      List.splitOn_append_cons_self_of_not_mem plain.2, List.splitOn_eq_singleton unopened]
    simp [Number.natural?_digits]

theorem AddressStep.slash_not_mem_text (plain : IsPlainName step.name) :
    '/' ∉ step.text.toList := by
  obtain ⟨name, number⟩ := step
  cases number with
  | none => exact plain.1
  | some number =>
    rw [toList_text_of_number]
    simp [plain.1, @Number.not_mem_digits '/' rfl number]

theorem Address.toList_text (address : Address) :
    address.text.toList = address.flatMap fun step => '/' :: step.text.toList := by
  unfold Address.text
  induction address with
  | nil => rfl
  | cons step rest inductionHypothesis =>
    rw [List.map_cons, String.join_cons, String.toList_append, inductionHypothesis,
      List.flatMap_cons, String.toList_append]
    rfl

/-- What is written with a mark in front of every piece is divided at the marks. -/
theorem splitOn_flatMap_cons {mark : Char} {front : List Char} {pieces : List (List Char)}
    (fresh : mark ∉ front) (free : ∀ piece ∈ pieces, mark ∉ piece) :
    (front ++ pieces.flatMap (mark :: ·)).splitOn mark = front :: pieces := by
  induction pieces generalizing front with
  | nil => rw [List.flatMap_nil, List.append_nil, List.splitOn_eq_singleton fresh]
  | cons piece rest inductionHypothesis =>
    rw [List.flatMap_cons, List.cons_append,
      List.splitOn_append_cons_self_of_not_mem fresh,
      inductionHypothesis (free piece List.mem_cons_self)
        fun other member => free other (List.mem_cons_of_mem _ member)]

theorem mapM_ofText? (plain : ∀ step ∈ address, IsPlainName step.name) :
    (address.map fun step => step.text.toList).mapM AddressStep.ofText? = some address := by
  induction address with
  | nil => rfl
  | cons step rest inductionHypothesis =>
    rw [List.map_cons, List.mapM_cons, AddressStep.ofText?_text (plain step List.mem_cons_self),
      inductionHypothesis fun other member => plain other (List.mem_cons_of_mem _ member)]
    rfl

/-- An address of plain names is read from its text. -/
theorem Address.ofText?_text (plain : ∀ step ∈ address, IsPlainName step.name) :
    Address.ofText? address.text = some address := by
  have free : ∀ piece ∈ address.map (fun step => step.text.toList), '/' ∉ piece := by
    intro piece member
    obtain ⟨step, inside, rfl⟩ := List.mem_map.mp member
    exact AddressStep.slash_not_mem_text (plain step inside)
  have divided := splitOn_flatMap_cons (List.not_mem_nil (a := '/')) free
  rw [List.nil_append, List.flatMap_map, ← Address.toList_text] at divided
  rw [Address.ofText?, divided]
  exact mapM_ofText? plain

end Reading

/-! ## Paths of places -/

section Paths

variable {root element met : Element} {place : Place}

/-- What holds of the names in a tree holds of the steps through it. -/
theorem forall_name_stepsTo {property : String → Prop}
    (named : element.Everywhere fun element => property element.name)
    (found : element.elementAt? place = some met) :
    ∀ step ∈ stepsTo element place, property step.name := by
  induction place generalizing element with
  | nil => exact List.forall_mem_nil _
  | cons number rest inductionHypothesis =>
    obtain ⟨earlier, child, later, division, rfl, below⟩ := Element.exists_child found
    have inside : child ∈ element.children := division ▸ List.mem_append_right _ List.mem_cons_self
    have namedChild := (Element.everywhere_iff.mp named).2 child inside
    rw [stepsTo_cons_of_division division, List.forall_mem_cons]
    refine ⟨?_, inductionHypothesis namedChild below⟩
    rw [stepTo, name_toChild]
    exact (Element.everywhere_iff.mp namedChild).1

theorem forall_name_addressOf {property : String → Prop}
    (named : root.Everywhere fun element => property element.name)
    (found : root.elementAt? place = some met) :
    ∀ step ∈ addressOf root place, property step.name := by
  rw [addressOf, List.forall_mem_cons]
  exact ⟨(Element.everywhere_iff.mp named).1, forall_name_stepsTo named found⟩

/-- In a document of plain names the path of a place leads back to it. -/
theorem placeOfPath?_text (plain : root.Everywhere fun element => IsPlainName element.name)
    (found : root.elementAt? place = some met) :
    placeOfPath? root (addressOf root place).text = some place := by
  rw [placeOfPath?, Address.ofText?_text (forall_name_addressOf plain found), Option.bind_some,
    placeOf?_addressOf found]

end Paths

end Schema
end MuseumRecord
