import MuseumRecord.Markup.Element

/-!
# Listings of a tree

The elements of a tree in written order, each with its depth and without its children.  Such a
listing grows at its end when the tree grows at its right edge, and it determines the tree.
-/

namespace MuseumRecord
namespace Markup
namespace Element

/-- The element without its children. -/
def alone (element : Element) : Element :=
  { element with children := [] }

/-- The elements of a tree as a listing shows them, each with its depth. -/
def faces (depth : Nat) (element : Element) : List (Nat × Element) :=
  (element.listing depth).map fun node => (node.1, node.2.alone)

/-- The elements of a row of trees as a listing shows them. -/
def facesAll (depth : Nat) (elements : List Element) : List (Nat × Element) :=
  (listingAll depth elements).map fun node => (node.1, node.2.alone)

theorem faces_eq (depth : Nat) (element : Element) :
    element.faces depth = (depth, element.alone) :: facesAll (depth + 1) element.children := by
  cases element
  rfl

@[simp] theorem facesAll_nil (depth : Nat) : facesAll depth [] = [] := rfl

theorem facesAll_cons (depth : Nat) (element : Element) (rest : List Element) :
    facesAll depth (element :: rest) = element.faces depth ++ facesAll depth rest :=
  List.map_append

theorem facesAll_append (depth : Nat) (left right : List Element) :
    facesAll depth (left ++ right) = facesAll depth left ++ facesAll depth right := by
  induction left with
  | nil => rfl
  | cons element left inductionHypothesis =>
    rw [List.cons_append, facesAll_cons, facesAll_cons, inductionHypothesis, List.append_assoc]

/-- A new last child is listed behind all that was listed. -/
theorem faces_appendChild (depth : Nat) (parent child : Element) :
    (parent.appendChild child).faces depth = parent.faces depth ++ child.faces (depth + 1) := by
  rw [faces_eq, faces_eq depth parent]
  change _ :: facesAll (depth + 1) (parent.children ++ [child]) = _
  rw [facesAll_append, facesAll_cons, facesAll_nil, List.append_nil]
  rfl

/-! ## Depths -/

mutual

theorem depth_le_of_mem_faces : (element : Element) → ∀ {depth : Nat} {node : Nat × Element},
    node ∈ element.faces depth → depth ≤ node.1
  | ⟨_, _, _, _, children⟩, depth, node, member => by
    rw [faces_eq] at member
    rcases List.mem_cons.mp member with rfl | below
    · exact Nat.le_refl _
    · exact Nat.le_of_succ_le (depth_le_of_mem_facesAll children below)

theorem depth_le_of_mem_facesAll : (elements : List Element) →
    ∀ {depth : Nat} {node : Nat × Element}, node ∈ facesAll depth elements → depth ≤ node.1
  | [], _, _, member => nomatch member
  | element :: rest, depth, node, member => by
    rw [facesAll_cons] at member
    rcases List.mem_append.mp member with here | behind
    · exact depth_le_of_mem_faces element here
    · exact depth_le_of_mem_facesAll rest behind

end

/-- Only the top of a tree stands at the depth of the tree. -/
theorem countP_depth_faces (depth : Nat) (element : Element) :
    (element.faces depth).countP (fun node => node.1 == depth) = 1 := by
  have deeper : (facesAll (depth + 1) element.children).countP (fun node => node.1 == depth) = 0 :=
    List.countP_eq_zero.mpr fun node member same => by
      have bound := depth_le_of_mem_facesAll element.children member
      rw [beq_iff_eq.mp same] at bound
      exact Nat.not_succ_le_self depth bound
  rw [faces_eq, List.countP_cons, deeper]
  simp

/-! ## Trees from listings -/

/-- Nothing that stands first in the rest of a listing is as deep as the given depth. -/
def EndsAbove (depth : Nat) (rest : List (Nat × Element)) : Prop :=
  ∀ node ∈ rest.head?, node.1 < depth

theorem EndsAbove.of_le {depth deeper : Nat} {rest : List (Nat × Element)}
    (ends : EndsAbove depth rest) (bound : depth ≤ deeper) : EndsAbove deeper rest :=
  fun node head => Nat.lt_of_lt_of_le (ends node head) bound

theorem endsAbove_facesAll (depth : Nat) (elements : List Element)
    {rest : List (Nat × Element)} (ends : EndsAbove depth rest) :
    EndsAbove (depth + 1) (facesAll depth elements ++ rest) := by
  cases elements with
  | nil => exact ends.of_le (Nat.le_succ depth)
  | cons element others =>
    intro node head
    rw [facesAll_cons, faces_eq] at head
    cases head
    exact Nat.lt_succ_self depth

-- The rest of the listing is arbitrary: a row of children ends where the next element is no deeper
-- than their parent.
mutual

theorem eq_of_faces : (left right : Element) → ∀ {depth : Nat} {rest other : List (Nat × Element)},
    EndsAbove (depth + 1) rest → EndsAbove (depth + 1) other →
    left.faces depth ++ rest = right.faces depth ++ other → left = right ∧ rest = other
  | ⟨name, namespaceName, attributes, text, children⟩, right, depth, rest, other, ends, otherEnds,
      same => by
    rw [faces_eq, faces_eq, List.cons_append, List.cons_append] at same
    obtain ⟨tops, below⟩ := List.cons.inj same
    obtain ⟨sameChildren, sameRest⟩ := eq_of_facesAll children right.children ends otherEnds below
    refine ⟨?_, sameRest⟩
    cases right
    simp only [alone, Prod.mk.injEq, true_and, mk.injEq] at tops
    obtain ⟨rfl, rfl, rfl, rfl, _⟩ := tops
    cases sameChildren
    rfl

theorem eq_of_facesAll : (left right : List Element) →
    ∀ {depth : Nat} {rest other : List (Nat × Element)},
    EndsAbove depth rest → EndsAbove depth other →
    facesAll depth left ++ rest = facesAll depth right ++ other → left = right ∧ rest = other
  | [], [], _, _, _, _, _, same => ⟨rfl, same⟩
  | [], element :: _, depth, rest, _, ends, _, same => by
    rw [facesAll_cons, faces_eq] at same
    cases same
    exact absurd (ends _ rfl) (Nat.lt_irrefl depth)
  | element :: _, [], depth, _, other, _, otherEnds, same => by
    rw [facesAll_cons, faces_eq] at same
    cases same
    exact absurd (otherEnds _ rfl) (Nat.lt_irrefl depth)
  | element :: others, second :: more, depth, rest, other, ends, otherEnds, same => by
    rw [facesAll_cons, facesAll_cons, List.append_assoc, List.append_assoc] at same
    obtain ⟨rfl, behind⟩ := eq_of_faces element second (endsAbove_facesAll depth others ends)
      (endsAbove_facesAll depth more otherEnds) same
    obtain ⟨rfl, sameRest⟩ := eq_of_facesAll others more ends otherEnds behind
    exact ⟨rfl, sameRest⟩

end

/-- A listing with depths determines its tree. -/
theorem faces_injective {left right : Element} {depth : Nat}
    (same : left.faces depth = right.faces depth) : left = right := by
  have nothing : EndsAbove (depth + 1) [] := fun _ head => nomatch head
  exact (eq_of_faces left right nothing nothing (congrArg (· ++ []) same)).1

end Element
end Markup
end MuseumRecord
