import MuseumRecord.Proofs.Markup.Place
import MuseumRecord.Proofs.Markup.Tree

/-!
# Written order of places

The places of a tree in the order of its start tags: a parent in front of its children, and elder
siblings with all that is in them in front of younger ones.  This is the lexicographic order of the
places.
-/

namespace MuseumRecord
namespace Markup

/-! ## The lexicographic order -/

namespace Place

variable {place left right : Place} {elder younger : Nat}

theorem append_lt_append (smaller : left < right) (place : Place) :
    place ++ left < place ++ right := by
  induction place with
  | nil => exact smaller
  | cons number rest inductionHypothesis =>
    exact List.cons_lt_cons_iff.mpr (.inr ⟨rfl, inductionHypothesis⟩)

/-- A parent comes in front of what is below it. -/
theorem lt_of_prefix_step (below : place ++ [younger] <+: right) : place < right := by
  obtain ⟨more, rfl⟩ := below
  have smaller := append_lt_append (List.nil_lt_cons younger more) place
  rwa [List.append_nil, ← List.singleton_append, ← List.append_assoc] at smaller

theorem eq_or_lt_of_inside (inside : place <+: right) : place = right ∨ place < right := by
  obtain ⟨more, rfl⟩ := inside
  cases more with
  | nil => exact .inl (List.append_nil place).symm
  | cons number rest =>
    have below : place ++ [number] <+: place ++ number :: rest := ⟨rest, by simp⟩
    exact .inr (lt_of_prefix_step below)

/-- What is in an elder sibling comes in front of what is in a younger one. -/
theorem lt_of_prefix_steps (elderFirst : elder < younger) (leftInside : place ++ [elder] <+: left)
    (rightInside : place ++ [younger] <+: right) : left < right := by
  obtain ⟨leftMore, rfl⟩ := leftInside
  obtain ⟨rightMore, rfl⟩ := rightInside
  have smaller : elder :: leftMore < younger :: rightMore :=
    List.cons_lt_cons_iff.mpr (.inl elderFirst)
  have whole := append_lt_append smaller place
  rwa [← List.singleton_append, ← List.append_assoc, ← List.singleton_append (l := rightMore),
    ← List.append_assoc] at whole

end Place

/-! ## The places of a tree -/

namespace Element

mutual

/-- The places of a tree in written order. -/
def places : Element → List Place
  | ⟨_, _, _, _, children⟩ => [] :: placesAll 0 children

/-- The places of a row of trees, of which the first has a number of elder siblings. -/
def placesAll (number : Nat) : List Element → List Place
  | [] => []
  | element :: rest => (places element).map (number :: ·) ++ placesAll (number + 1) rest

end

/-- The element at one place is written in front of the element at another. -/
def Precedes (root : Element) (place other : Place) : Prop :=
  [place, other].Sublist root.places

variable {element met : Element} {place other : Place}

theorem places_eq (element : Element) :
    element.places = [] :: placesAll 0 element.children := by
  cases element
  rfl

theorem listing_eq (depth : Nat) (element : Element) :
    element.listing depth = (depth, element) :: listingAll (depth + 1) element.children := by
  cases element
  rfl

/-- The places are those of the listed elements, in the order in which these are listed. -/
theorem map_elementAt?_places (element : Element) (depth : Nat) :
    element.places.map element.elementAt? =
      (element.listing depth).map fun node => some node.2 := by
  induction element using inductionOnChildren generalizing depth with
  | step element inductionHypothesis =>
    have row (earlier rest : List Element) (division : element.children = earlier ++ rest) :
        (placesAll earlier.length rest).map element.elementAt? =
          (listingAll (depth + 1) rest).map fun node => some node.2 := by
      induction rest generalizing earlier with
      | nil => rfl
      | cons child rest others =>
        have inside : child ∈ element.children :=
          division ▸ List.mem_append_right _ List.mem_cons_self
        have behind := others (earlier ++ [child]) (by simp [division])
        rw [List.length_append, List.length_singleton] at behind
        rw [placesAll, listingAll, List.map_append, List.map_append, List.map_map, behind,
          ← inductionHypothesis child inside]
        congr 2
        funext place
        exact elementAt?_cons_of_division division place
    rw [places_eq, listing_eq, List.map_cons, List.map_cons]
    exact congrArg (some element :: ·) (row [] _ rfl)

theorem mem_placesAll {number index : Nat} {children : List Element} {child : Element}
    (taken : children[index]? = some child) (inside : place ∈ child.places) :
    (number + index) :: place ∈ placesAll number children := by
  induction children generalizing number index with
  | nil => cases taken
  | cons first rest inductionHypothesis =>
    rw [placesAll, List.mem_append]
    cases index with
    | zero =>
      cases taken
      exact .inl (List.mem_map_of_mem inside)
    | succ index =>
      have later := @inductionHypothesis (number + 1) index taken
      rw [Nat.add_right_comm] at later
      exact .inr later

/-- Every place of a tree is among its places. -/
theorem mem_places (found : element.elementAt? place = some met) : place ∈ element.places := by
  induction place generalizing element with
  | nil =>
    rw [places_eq]
    exact List.mem_cons_self
  | cons number rest inductionHypothesis =>
    rw [elementAt?, Option.bind_eq_some_iff] at found
    obtain ⟨child, taken, below⟩ := found
    have inside := @mem_placesAll _ 0 _ _ _ taken (inductionHypothesis below)
    rw [Nat.zero_add] at inside
    rw [places_eq]
    exact List.mem_cons_of_mem _ inside

theorem exists_head_of_mem_placesAll {number : Nat} {children : List Element}
    (member : place ∈ placesAll number children) :
    ∃ later rest, number ≤ later ∧ place = later :: rest := by
  induction children generalizing number with
  | nil => cases member
  | cons child rest inductionHypothesis =>
    rw [placesAll, List.mem_append] at member
    rcases member with inside | behind
    · obtain ⟨more, _, rfl⟩ := List.mem_map.mp inside
      exact ⟨number, more, Nat.le_refl _, rfl⟩
    · obtain ⟨later, more, bound, same⟩ := inductionHypothesis behind
      exact ⟨later, more, Nat.le_of_succ_le bound, same⟩

/-- Written order is the lexicographic order of the places. -/
theorem pairwise_places (element : Element) : element.places.Pairwise (· < ·) := by
  induction element using inductionOnChildren with
  | step element inductionHypothesis =>
    have row (children : List Element) (each : ∀ child ∈ children, child.places.Pairwise (· < ·))
        (number : Nat) : (placesAll number children).Pairwise (· < ·) := by
      induction children generalizing number with
      | nil => exact .nil
      | cons child rest others =>
        obtain ⟨first, behind⟩ := List.forall_mem_cons.mp each
        rw [placesAll, List.pairwise_append, List.pairwise_map]
        refine ⟨first.imp fun smaller => List.cons_lt_cons_iff.mpr (.inr ⟨rfl, smaller⟩),
          others behind (number + 1), ?_⟩
        intro left leftInside right rightInside
        obtain ⟨more, _, rfl⟩ := List.mem_map.mp leftInside
        obtain ⟨later, others, bound, rfl⟩ := exists_head_of_mem_placesAll rightInside
        exact List.cons_lt_cons_iff.mpr (.inl bound)
    rw [places_eq, List.pairwise_cons]
    refine ⟨fun place member => ?_, row _ inductionHypothesis 0⟩
    obtain ⟨later, rest, _, rfl⟩ := exists_head_of_mem_placesAll member
    exact List.nil_lt_cons later rest

/-- In a sorted list the smaller member stands in front of the greater one. -/
theorem pair_sublist_of_lt {row : List Place} (sorted : row.Pairwise (· < ·))
    (member : place ∈ row) (otherMember : other ∈ row) (smaller : place < other) :
    [place, other].Sublist row := by
  induction row with
  | nil => cases member
  | cons first rest inductionHypothesis =>
    obtain ⟨least, sortedRest⟩ := List.pairwise_cons.mp sorted
    rcases List.mem_cons.mp otherMember with rfl | otherBehind
    · rcases List.mem_cons.mp member with rfl | behind
      · exact absurd smaller (List.lt_irrefl _)
      · exact absurd smaller (List.lt_asymm (least place behind))
    · rcases List.mem_cons.mp member with rfl | behind
      · exact .cons_cons _ (List.singleton_sublist.mpr otherBehind)
      · exact .cons _ (inductionHypothesis sortedRest behind otherBehind)

theorem precedes_of_lt {root : Element} (found : root.elementAt? place = some element)
    (otherFound : root.elementAt? other = some met) (smaller : place < other) :
    root.Precedes place other :=
  pair_sublist_of_lt root.pairwise_places (mem_places found) (mem_places otherFound) smaller

end Element
end Markup
end MuseumRecord
