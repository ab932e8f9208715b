import MuseumRecord.Markup.Element

/-!
# Trees of elements

Induction over an element tree from the children of an element to the element, and properties that
hold at every element of a tree.
-/

namespace MuseumRecord
namespace Markup
namespace Element

/-- What holds of an element whenever it holds of its children holds of every element. -/
theorem inductionOnChildren {motive : Element → Prop}
    (step : ∀ element, (∀ child ∈ element.children, motive child) → motive element)
    (element : Element) : motive element := by
  apply step
  intro child member
  have smaller : sizeOf child < sizeOf element := by
    cases element with
    | mk name namespaceName attributes text children =>
      have inside := List.sizeOf_lt_of_mem member
      simp only [mk.sizeOf_spec] at inside ⊢
      omega
  exact inductionOnChildren step child
termination_by sizeOf element

/-- A property of an element and of every element below it. -/
inductive Everywhere (property : Element → Prop) : Element → Prop
  | node {element : Element} :
      property element → (∀ child ∈ element.children, Everywhere property child) →
      Everywhere property element

/-- A property holds everywhere when it holds at the top and everywhere in the children. -/
theorem everywhere_iff {property : Element → Prop} {element : Element} :
    element.Everywhere property ↔
      property element ∧ ∀ child ∈ element.children, child.Everywhere property := by
  constructor
  · intro everywhere
    cases everywhere with
    | node atTop below => exact ⟨atTop, below⟩
  · rintro ⟨atTop, below⟩
    exact .node atTop below

theorem Everywhere.mono {property other : Element → Prop} {element : Element}
    (everywhere : element.Everywhere property) (weaker : ∀ inner, property inner → other inner) :
    element.Everywhere other := by
  induction everywhere with
  | node atTop _ inductionHypothesis => exact .node (weaker _ atTop) inductionHypothesis

theorem Everywhere.and {property other : Element → Prop} {element : Element}
    (everywhere : element.Everywhere property) (also : element.Everywhere other) :
    element.Everywhere fun inner => property inner ∧ other inner := by
  induction everywhere with
  | node atTop _ inductionHypothesis =>
    obtain ⟨otherAtTop, below⟩ := everywhere_iff.mp also
    exact .node ⟨atTop, otherAtTop⟩ fun child member =>
      inductionHypothesis child member (below child member)

theorem listing_subset_listingAll {child : Element} {children : List Element}
    (member : child ∈ children) (depth : Nat) :
    child.listing depth ⊆ listingAll depth children := by
  induction children with
  | nil => cases member
  | cons first rest inductionHypothesis =>
    rw [listingAll]
    rcases List.mem_cons.mp member with rfl | later
    · exact List.subset_append_left _ _
    · exact List.Subset.trans (inductionHypothesis later) (List.subset_append_right _ _)

/-- What holds of every listed element holds everywhere. -/
theorem everywhere_of_listing {property : Element → Prop} {element : Element} {depth : Nat}
    (each : ∀ node ∈ element.listing depth, property node.2) : element.Everywhere property := by
  induction element using inductionOnChildren generalizing depth with
  | step element inductionHypothesis =>
    cases element with
    | mk name namespaceName attributes text children =>
      rw [listing, List.forall_mem_cons] at each
      exact .node each.1 fun child member =>
        inductionHypothesis child member fun node inside =>
          each.2 node (listing_subset_listingAll member (depth + 1) inside)

/-- The children of a name are divided where all children are. -/
theorem childrenNamed_eq_append_cons_iff {element child : Element} {name : String}
    {front back : List Element} :
    element.childrenNamed name = front ++ child :: back ↔
      ∃ earlier later, element.children = earlier ++ child :: later ∧ child.name = name ∧
        earlier.filter (fun other => other.name == name) = front ∧
          later.filter (fun other => other.name == name) = back := by
  rw [childrenNamed, List.filter_eq_append_iff]
  constructor
  · rintro ⟨left, right, division, rfl, rest⟩
    obtain ⟨others, later, rfl, otherwise, named, rfl⟩ := List.filter_eq_cons_iff.mp rest
    refine ⟨left ++ others, later, by rw [division, List.append_assoc], beq_iff_eq.mp named, ?_,
      rfl⟩
    rw [List.filter_append, List.filter_eq_nil_iff.mpr otherwise, List.append_nil]
  · rintro ⟨earlier, later, division, rfl, rfl, rfl⟩
    exact ⟨earlier, child :: later, division, rfl, List.filter_cons_of_pos (beq_self_eq_true _)⟩

/-- What is said of one of the things that are seen in the children of a name, and of those in front
of it, is said of a child and its elder siblings of the name. -/
theorem exists_view_division_iff {α : Type} {view : Element → α} {element : Element}
    {name : String} {said : List α → α → Prop} :
    (∃ front thing back, (element.childrenNamed name).map view = front ++ thing :: back ∧
        said front thing) ↔
      ∃ earlier child later, element.children = earlier ++ child :: later ∧ child.name = name ∧
        said ((earlier.filter fun other => other.name == name).map view) (view child) := by
  constructor
  · rintro ⟨_, _, _, division, holds⟩
    obtain ⟨front, rest, named, rfl, behind⟩ := List.map_eq_append_iff.mp division
    obtain ⟨child, back, rfl, rfl, rfl⟩ := List.map_eq_cons_iff.mp behind
    obtain ⟨earlier, later, whole, isNamed, rfl, rfl⟩ := childrenNamed_eq_append_cons_iff.mp named
    exact ⟨earlier, child, later, whole, isNamed, holds⟩
  · rintro ⟨earlier, child, later, whole, isNamed, holds⟩
    have named := childrenNamed_eq_append_cons_iff.mpr ⟨earlier, later, whole, isNamed, rfl, rfl⟩
    refine ⟨_, _, (later.filter fun other => other.name == name).map view, ?_, holds⟩
    rw [named, List.map_append, List.map_cons]

end Element
end Markup
end MuseumRecord
