import MuseumRecord.Proofs.Schema.Namespace
import MuseumRecord.Proofs.Schema.SequenceErrors

/-!
# Visited elements

Which elements are walked can be told from names and declarations alone, if no element declares a
name twice: the root if it has the declared name, and below a walked element every child that is
declared, unless an elder sibling is declared further behind.  A namespace is found wrong at these
elements and at no other.
-/

namespace MuseumRecord
namespace Schema

open Markup (Element)

/-- An element is visited, at an address and, below the root, with the namespace of its parent. -/
inductive IsVisited (schema : Schema) (root : Element) :
    Address → Option (Option String) → Declaration → Element → Prop
  /-- The root has the declared name. -/
  | root (named : root.name = schema.root.name) :
      IsVisited schema root [⟨root.name, none⟩] none schema.root root
  /-- A child of a visited element is declared, and no elder sibling further behind. -/
  | child {address : Address} {above : Option (Option String)} {name : String}
      {occurrence : Occurrence} {typeName : String} {attributes : List AttributeDeclaration}
      {declared : List Declaration} {declaration : Declaration} {element child : Element}
      {earlier later : List Element}
      (parent : IsVisited schema root address above
        (.complex name occurrence typeName attributes declared) element)
      (division : element.children = earlier ++ child :: later) (member : declaration ∈ declared)
      (named : declaration.name = child.name)
      (timely : ¬IsLate (declared.map Declaration.name) (earlier.map Element.name) child.name) :
      IsVisited schema root (address ++ [stepTo earlier child later]) (some element.namespaceName)
        declaration child

/-- The visit of an element. -/
def visitOf (address : Address) (above : Option (Option String)) (element : Element) : Visit :=
  ⟨address, above, element.name, element.namespaceName⟩

section Placed

variable {declared : List Declaration} {earlier : List String} {name : String}
  {declaration : Declaration}

/-- A child is placed by its declaration, unless it is late. -/
theorem exists_placed_iff (distinct : (declared.map Declaration.name).Nodup) :
    (∃ skipped overLimit,
        placementBehind declared earlier name = .placed skipped overLimit declaration) ↔
      declaration ∈ declared ∧ declaration.name = name ∧
        ¬IsLate (declared.map Declaration.name) earlier name := by
  constructor
  · rintro ⟨skipped, overLimit, placed⟩
    obtain ⟨listed, timely⟩ := hasPlace_of_placed distinct placed
    obtain ⟨other, member, rfl⟩ := List.mem_map.mp listed
    obtain ⟨_, _, same⟩ := placementBehind_of_hasPlace distinct member timely
    cases placed.symm.trans same
    exact ⟨member, rfl, timely⟩
  · rintro ⟨member, rfl, timely⟩
    exact placementBehind_of_hasPlace distinct member timely

end Placed

section Visits

variable {schema : Schema} {root element : Element} {address : Address}
  {above : Option (Option String)} {namespaceName : Option String} {declaration : Declaration}
  {visit : Visit}

theorem visitsFrom_simple (name : String) (occurrence : Occurrence) (type : ValueType) :
    visitsFrom (.simple name occurrence type) address above element =
      [visitOf address above element] := by
  cases element
  rw [visitsFrom.eq_def]
  rfl

theorem visitsFrom_complex (name : String) (occurrence : Occurrence) (typeName : String)
    (attributes : List AttributeDeclaration) (declared : List Declaration) :
    visitsFrom (.complex name occurrence typeName attributes declared) address above element =
      visitOf address above element ::
        visitsAmong address element.namespaceName (.start declared) [] element.children := by
  cases element
  rw [visitsFrom.eq_def]
  rfl

theorem visitOf_mem_visitsFrom :
    visitOf address above element ∈ visitsFrom declaration address above element := by
  cases declaration with
  | simple name occurrence type =>
    rw [visitsFrom_simple]
    exact List.mem_cons_self
  | complex name occurrence typeName attributes declared =>
    rw [visitsFrom_complex]
    exact List.mem_cons_self

/-- The visits in a row of children are those from one of the children that is placed. -/
theorem mem_visitsAmong_iff {cursor : Cursor} {before : List String} {children : List Element} :
    visit ∈ visitsAmong address namespaceName cursor before children ↔
      ∃ earlier child later skipped overLimit declaration,
        children = earlier ++ child :: later ∧
          ((cursor.run (earlier.map Element.name)).2.step child.name).1 =
            .placed skipped overLimit declaration ∧
          visit ∈ visitsFrom declaration
            (address ++ [.toChild child.name (before ++ earlier.map Element.name)
              (later.map Element.name)]) (some namespaceName) child := by
  induction children generalizing cursor before with
  | nil => simp [visitsAmong]
  | cons first rest inductionHypothesis =>
    rw [visitsAmong, List.mem_append, inductionHypothesis]
    constructor
    · rintro (here | ⟨earlier, child, later, skipped, overLimit, declaration, rfl, placed, inside⟩)
      · split at here
        · next skipped overLimit declaration placed =>
          exact ⟨[], first, rest, skipped, overLimit, declaration, rfl, placed, by simpa using here⟩
        · cases here
        · cases here
      · refine ⟨first :: earlier, child, later, skipped, overLimit, declaration, rfl, placed, ?_⟩
        rwa [List.map_cons, List.append_cons before]
    · rintro ⟨earlier, child, later, skipped, overLimit, declaration, division, placed, inside⟩
      cases earlier with
      | nil =>
        obtain ⟨rfl, rfl⟩ := List.cons.inj division
        left
        change (cursor.step first.name).1 = _ at placed
        rw [placed]
        simpa using inside
      | cons other earlier =>
        obtain ⟨rfl, rfl⟩ := List.cons.inj division
        refine .inr ⟨earlier, child, later, skipped, overLimit, declaration, rfl, placed, ?_⟩
        rwa [List.map_cons, List.append_cons before] at inside

/-- From a visited element on, only visited elements are walked. -/
theorem exists_isVisited (visited : IsVisited schema root address above declaration element)
    (unambiguous : declaration.Unambiguous)
    (member : visit ∈ visitsFrom declaration address above element) :
    ∃ declaration element, IsVisited schema root visit.address visit.above declaration element ∧
      visit = visitOf visit.address visit.above element := by
  induction element using Element.inductionOnChildren generalizing declaration address above with
  | step element inductionHypothesis =>
    cases declaration with
    | simple name occurrence type =>
      rw [visitsFrom_simple, List.mem_singleton] at member
      rw [member]
      exact ⟨_, _, visited, rfl⟩
    | complex name occurrence typeName attributes declared =>
      obtain ⟨_, distinct, below⟩ := Declaration.unambiguous_complex_iff.mp unambiguous
      rw [visitsFrom_complex, List.mem_cons] at member
      rcases member with rfl | member
      · exact ⟨_, _, visited, rfl⟩
      · obtain ⟨earlier, child, later, skipped, overLimit, declaration, division, placed, inside⟩ :=
          mem_visitsAmong_iff.mp member
        obtain ⟨listed, named, timely⟩ :=
          (exists_placed_iff distinct).mp ⟨skipped, overLimit, placed⟩
        have inner := IsVisited.child visited division listed named timely
        exact inductionHypothesis child (division ▸ by simp) inner (below declaration listed) inside

/-- Whatever is walked from a visited element on is walked in the document. -/
theorem IsVisited.visitsFrom_subset
    (visited : IsVisited schema root address above declaration element)
    (unambiguous : schema.root.Unambiguous) :
    declaration.Unambiguous ∧
      visitsFrom declaration address above element ⊆ schema.visits root := by
  induction visited with
  | root named =>
    rw [visits, if_pos named]
    exact ⟨unambiguous, List.Subset.refl _⟩
  | @child address above name occurrence typeName attributes declared declaration element child
      earlier later parent division member named timely inductionHypothesis =>
    obtain ⟨upper, walked⟩ := inductionHypothesis
    obtain ⟨_, distinct, below⟩ := Declaration.unambiguous_complex_iff.mp upper
    refine ⟨below declaration member, fun visit inside => walked ?_⟩
    obtain ⟨skipped, overLimit, placed⟩ := (exists_placed_iff distinct).mpr ⟨member, named, timely⟩
    rw [visitsFrom_complex, List.mem_cons]
    exact .inr (mem_visitsAmong_iff.mpr
      ⟨earlier, child, later, skipped, overLimit, declaration, division, placed, inside⟩)

/-- The walked elements of a document are the visited ones. -/
theorem mem_visits_iff (unambiguous : schema.root.Unambiguous) :
    visit ∈ schema.visits root ↔
      ∃ declaration element, IsVisited schema root visit.address visit.above declaration element ∧
        visit = visitOf visit.address visit.above element := by
  constructor
  · intro member
    unfold visits at member
    split at member
    · next named => exact exists_isVisited (.root named) unambiguous member
    · cases member
  · rintro ⟨declaration, element, visited, same⟩
    rw [same]
    exact (visited.visitsFrom_subset unambiguous).2 visitOf_mem_visitsFrom

end Visits

/-- A namespace is found wrong exactly at the visited elements that are in another one than the
schema and, below the root, than their parent. -/
theorem mem_findings_about_namespace_iff {schema : Schema} {root : Element}
    (plain : '/' ∉ schema.root.name.toList) (unambiguous : schema.root.Unambiguous)
    {finding : Finding} :
    finding ∈ schema.findings root ∧ finding.problem.isAboutNamespace = true ↔
      ∃ above declaration element,
        IsVisited schema root finding.address above declaration element ∧
          element.namespaceName ≠ some schema.namespaceName ∧
          above ≠ some element.namespaceName ∧
          finding = (visitOf finding.address above element).finding schema.namespaceName := by
  have member : finding ∈ schema.findings root ∧ finding.problem.isAboutNamespace = true ↔
      finding ∈ foreign schema.namespaceName (schema.visits root) := by
    rw [← aboutNamespaces_findings plain, aboutNamespaces, List.mem_filter]
  rw [member, foreign, List.mem_map]
  constructor
  · rintro ⟨visit, inside, rfl⟩
    obtain ⟨walked, foreign⟩ := List.mem_filter.mp inside
    obtain ⟨declaration, element, visited, same⟩ := (mem_visits_iff unambiguous).mp walked
    rw [same] at foreign
    obtain ⟨differs, changes⟩ := of_decide_eq_true foreign
    exact ⟨visit.above, declaration, element, visited, differs, changes,
      congrArg (Visit.finding schema.namespaceName) same⟩
  · rintro ⟨above, declaration, element, visited, differs, changes, same⟩
    refine ⟨visitOf finding.address above element, ?_, same.symm⟩
    rw [List.mem_filter, mem_visits_iff unambiguous]
    exact ⟨⟨declaration, element, visited, rfl⟩, decide_eq_true ⟨differs, changes⟩⟩

end Schema
end MuseumRecord
