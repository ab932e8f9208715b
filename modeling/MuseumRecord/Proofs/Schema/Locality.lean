import Mathlib.Data.List.Induction
import MuseumRecord.Proofs.Schema.Conforming
import MuseumRecord.Proofs.Schema.Path

/-!
# Locality of findings

An element shows itself to its surroundings by its name and its namespace alone.  Replaced by a
namesake, it leaves all findings of the document as they were, but for those of its own walk.
-/

namespace MuseumRecord
namespace Markup
namespace Element

/-- Two elements have one local name in one namespace. -/
structure IsNamesakeOf (new old : Element) : Prop where
  /-- The local names are the same. -/
  name : new.name = old.name
  /-- The namespaces are the same. -/
  namespaceName : new.namespaceName = old.namespaceName

end Element
end Markup

namespace Schema

open Markup (Element Place)

/-! ## Walks at places -/

section Walks

variable {schema : Schema} {root element old new child : Element} {address : Address}
  {above : Option String} {declaration : Declaration} {earlier later : List Element}
  {place : Place}

/-- The walk comes to places only. -/
theorem Walks.exists_place (walks : Walks schema root address above declaration element) :
    ∃ place, root.elementAt? place = some element ∧ addressOf root place = address := by
  induction walks with
  | root named => exact ⟨[], rfl, rfl⟩
  | child parent division placed inductionHypothesis =>
    obtain ⟨place, found, same⟩ := inductionHypothesis
    refine ⟨_, Element.elementAt?_append_of_division found division, ?_⟩
    rw [addressOf_append_of_division found division, same]

/-- What is walked at the address of a place is the element there. -/
theorem Walks.eq_of_elementAt?
    (walks : Walks schema root (addressOf root place) above declaration element)
    (found : root.elementAt? place = some old) : element = old := by
  obtain ⟨other, atOther, same⟩ := walks.exists_place
  rw [addressOf_injective atOther found same, found] at atOther
  exact (Option.some.inj atOther).symm

/-- Nothing is walked in a document with a root of another name. -/
theorem Walks.root_name (walks : Walks schema root address above declaration element) :
    root.name = schema.root.name := by
  induction walks with
  | root named => exact named
  | child parent division placed inductionHypothesis => exact inductionHypothesis

/-- The root is walked if it has the declared name. -/
theorem walks_root_iff :
    Walks schema root [⟨root.name, none⟩] above declaration root ↔
      root.name = schema.root.name ∧ above = none ∧ declaration = schema.root := by
  constructor
  · intro walks
    obtain ⟨rfl, rfl, _⟩ := (Walks.root walks.root_name).unique walks
    exact ⟨walks.root_name, rfl, rfl⟩
  · rintro ⟨named, rfl, rfl⟩
    exact .root named

/-- A child is walked if its parent is, beside a declaration that has a place for the child. -/
theorem walks_child_iff (found : root.elementAt? place = some element)
    (division : element.children = earlier ++ child :: later) :
    Walks schema root (addressOf root place ++ [stepTo earlier child later]) above declaration
        child ↔
      above = element.namespaceName ∧
        ∃ upper name occurrence typeName attributes declared,
          Walks schema root (addressOf root place) upper
            (.complex name occurrence typeName attributes declared) element ∧
          ∃ skipped overLimit,
            placementBehind declared (earlier.map Element.name) child.name =
              .placed skipped overLimit declaration := by
  constructor
  · intro walks
    generalize here : addressOf root place ++ [stepTo earlier child later] = address at walks
    cases walks with
    | root named =>
      rw [addressOf, List.cons_append, List.cons.injEq] at here
      exact absurd here.2 (List.append_ne_nil_of_right_ne_nil _ (List.cons_ne_nil _ _))
    | child parent division' placed =>
      obtain ⟨rfl, step⟩ := List.append_inj' here rfl
      cases parent.eq_of_elementAt? found
      obtain ⟨rfl, _, rfl⟩ :=
        stepTo_injective (division.symm.trans division') (List.cons.inj step).1
      exact ⟨rfl, _, _, _, _, _, _, parent, _, _, placed⟩
  · rintro ⟨rfl, upper, name, occurrence, typeName, attributes, declared, parent, skipped,
      overLimit, placed⟩
    exact .child parent division placed

end Walks

/-! ## Replaced elements -/

section Replacing

variable {schema : Schema} {root old new upper : Element} {earlier later : List Element}
  {place : Place}

/-- An element with another child in the place of one is its own namesake. -/
theorem isNamesakeOf_withChildren (upper : Element) (children : List Element) :
    { upper with children := children }.IsNamesakeOf upper :=
  ⟨rfl, rfl⟩

/-- To replace a child of the element at a place is to replace that element. -/
theorem replaced_append_of_division (found : root.elementAt? place = some upper)
    (division : upper.children = earlier ++ old :: later) (new : Element) :
    root.replaced (place ++ [earlier.length]) new =
      root.replaced place { upper with children := earlier ++ new :: later } := by
  rw [Element.replaced_append found, Element.replaced_cons_of_division division]
  rfl

theorem stepTo_eq_of_name (named : new.name = old.name) :
    stepTo earlier new later = stepTo earlier old later := by
  rw [stepTo, stepTo, named]

/-- The address of a place is the same when a namesake stands there. -/
theorem addressOf_replaced (found : root.elementAt? place = some old)
    (namesake : new.IsNamesakeOf old) :
    addressOf (root.replaced place new) place = addressOf root place := by
  induction place using List.reverseRecOn generalizing old new with
  | nil =>
    cases found
    rw [addressOf, addressOf, Element.replaced, namesake.name]
    rfl
  | append_singleton front number inductionHypothesis =>
    obtain ⟨upper, earlier, later, atUpper, division, rfl⟩ := Element.exists_parent found
    rw [replaced_append_of_division atUpper division,
      addressOf_append_of_division (Element.elementAt?_replaced atUpper _) rfl,
      addressOf_append_of_division atUpper division, stepTo_eq_of_name namesake.name,
      inductionHypothesis atUpper (isNamesakeOf_withChildren upper _)]

/-- A namesake is walked where the element that it replaces is walked, and alike. -/
theorem walks_replaced_iff (found : root.elementAt? place = some old)
    (namesake : new.IsNamesakeOf old) {above : Option String} {declaration : Declaration} :
    Walks schema (root.replaced place new) (addressOf root place) above declaration new ↔
      Walks schema root (addressOf root place) above declaration old := by
  induction place using List.reverseRecOn generalizing old new above declaration with
  | nil =>
    cases found
    -- The address is written with the name of the root, which is the name of the namesake.
    have address : addressOf root [] = [⟨new.name, none⟩] := by
      rw [namesake.name]
      rfl
    rw [Element.replaced, address, walks_root_iff, ← address, namesake.name]
    exact walks_root_iff.symm
  | append_singleton front number inductionHypothesis =>
    obtain ⟨upper, earlier, later, atUpper, division, rfl⟩ := Element.exists_parent found
    have around := isNamesakeOf_withChildren upper (earlier ++ new :: later)
    rw [replaced_append_of_division atUpper division, addressOf_append_of_division atUpper division,
      walks_child_iff atUpper division, ← addressOf_replaced atUpper around,
      ← stepTo_eq_of_name namesake.name,
      walks_child_iff (Element.elementAt?_replaced atUpper _) rfl,
      addressOf_replaced atUpper around, namesake.name]
    simp only [inductionHypothesis atUpper around]

end Replacing

/-! ## Findings around an element -/

/-- Findings with a namesake at the place of an element: around those of its walk, if the element is
walked, there are some that are the same for all namesakes. -/
structure IsAround (schema : Schema) (root : Element) (place : Place) (old : Element)
    (front back : List Finding) (findings : Element → List Finding) : Prop where
  /-- Where the element is walked there are the findings of the walk. -/
  walked {new : Element} : new.IsNamesakeOf old → ∀ {above : Option String}
    {declaration : Declaration}, Walks schema root (addressOf root place) above declaration old →
    findings new =
      front ++
        elementFindings schema.namespaceName declaration (addressOf root place) above new ++ back
  /-- Where it is not walked there are no others. -/
  skipped {new : Element} : new.IsNamesakeOf old →
    (∀ above declaration, ¬Walks schema root (addressOf root place) above declaration old) →
    findings new = front ++ back

section Around

variable {schema : Schema} {root old upper : Element} {place : Place} {front back : List Finding}
  {findings : Element → List Finding}

/-- In a walk beside one declaration only this walk counts. -/
theorem IsAround.of_walks {above : Option String} {declaration : Declaration}
    (walks : Walks schema root (addressOf root place) above declaration old)
    (around : ∀ new : Element, new.IsNamesakeOf old → findings new =
      front ++
        elementFindings schema.namespaceName declaration (addressOf root place) above new ++ back) :
    IsAround schema root place old front back findings where
  walked namesake _ _ again := by
    obtain ⟨rfl, rfl, _⟩ := walks.unique again
    exact around _ namesake
  skipped _ none := absurd walks (none _ _)

/-- Where nothing is walked the findings are the same for all namesakes. -/
theorem IsAround.of_not_walks
    (none : ∀ above declaration, ¬Walks schema root (addressOf root place) above declaration old)
    (same : ∀ new : Element, new.IsNamesakeOf old → findings new = front ++ back) :
    IsAround schema root place old front back findings where
  walked _ _ _ walks := absurd walks (none _ _)
  skipped namesake _ := same _ namesake

/-- What is around an element stays around it when there is more around both. -/
theorem IsAround.extend (inner : IsAround schema root place old front back findings)
    (before after : List Finding) :
    IsAround schema root place old (before ++ front) (back ++ after)
      fun new => before ++ findings new ++ after where
  walked namesake _ _ walks := by
    rw [inner.walked namesake walks]
    simp only [List.append_assoc]
  skipped namesake none := by
    rw [inner.skipped namesake none]
    simp only [List.append_assoc]

end Around

section Division

variable {expected parent : String} {address : Address} {above namespaceName : Option String}
  {cursor : Cursor} {before : List String} {child : Element}

/-- The findings of a row of children are those that the placement of one of them gives and others,
which are the same for every child of its name. -/
theorem exists_childFindings_division (earlier later : List Element) :
    ∃ front back : List Finding, ∀ new : Element, new.name = child.name →
      childFindings expected address parent namespaceName cursor before
          (earlier ++ new :: later) =
        front ++
          placedFindings expected
            (address ++ [.toChild child.name (before ++ earlier.map Element.name)
              (later.map Element.name)])
            parent namespaceName new
            ((cursor.run (earlier.map Element.name)).2.step child.name).1 ++
          back := by
  induction earlier generalizing cursor before with
  | nil =>
    refine ⟨missingFindings address parent (cursor.step child.name).1.skipped,
      childFindings expected address parent namespaceName (cursor.step child.name).2
        (before ++ [child.name]) later, fun new named => ?_⟩
    rw [List.nil_append, childFindings_cons, named, List.map_nil, List.append_nil]
    rfl
  | cons first earlier inductionHypothesis =>
    obtain ⟨front, back, divided⟩ :=
      @inductionHypothesis (cursor.step first.name).2 (before ++ [first.name])
    refine ⟨missingFindings address parent (cursor.step first.name).1.skipped ++
      placedFindings expected
        (address ++ [.toChild first.name before
          ((earlier ++ child :: later).map Element.name)]) parent namespaceName first
        (cursor.step first.name).1 ++ front, back, fun new named => ?_⟩
    rw [List.cons_append, childFindings_cons, divided new named, List.map_append, List.map_append,
      List.map_cons, List.map_cons, List.map_cons, named, List.append_assoc before,
      List.singleton_append]
    simp only [List.append_assoc]
    rfl

/-- The findings of an element with declared children are those that the placement of a child gives
and others, which are the same for every child of its name. -/
theorem exists_elementFindings_division {name typeName : String} {occurrence : Occurrence}
    {attributes : List AttributeDeclaration} {declared : List Declaration} (upper : Element)
    (earlier later : List Element) :
    ∃ front back : List Finding, ∀ new : Element, new.name = child.name →
      elementFindings expected (.complex name occurrence typeName attributes declared) address above
          { upper with children := earlier ++ new :: later } =
        front ++
          placedFindings expected (address ++ [stepTo earlier child later]) upper.name
            upper.namespaceName new
            (placementBehind declared (earlier.map Element.name) child.name) ++
          back := by
  obtain ⟨front, back, divided⟩ :=
    @exists_childFindings_division expected upper.name address upper.namespaceName
      (.start declared) [] child earlier later
  refine ⟨ownFindings expected attributes address above upper ++ front, back, fun new named => ?_⟩
  rw [elementFindings_complex, divided new named, List.append_assoc, List.append_assoc,
    List.append_assoc]
  rfl

/-- What is found at a child without a place is the same for every child of its name. -/
theorem placedFindings_eq_of_unplaced {placement : Placement} {new : Element}
    (unplaced : ¬∃ skipped overLimit declaration,
      placement = .placed skipped overLimit declaration) (named : new.name = child.name) :
    placedFindings expected address parent namespaceName new placement =
      placedFindings expected address parent namespaceName child placement := by
  cases placement with
  | placed skipped overLimit declaration => exact absurd ⟨_, _, _, rfl⟩ unplaced
  | outOfOrder => rw [placedFindings, placedFindings, named]
  | unexpected => rw [placedFindings, placedFindings, named]

/-- What an element with declared text finds wrong is the same for every one of its children. -/
theorem elementFindings_simple_withChild {name : String} {occurrence : Occurrence}
    {type : ValueType} (upper : Element) (earlier later : List Element) (new : Element) :
    elementFindings expected (.simple name occurrence type) address above
        { upper with children := earlier ++ new :: later } =
      elementFindings expected (.simple name occurrence type) address above
        { upper with children := earlier ++ child :: later } := by
  simp [elementFindings, textFindings]

end Division

section Document

variable {schema : Schema} {root old upper : Element} {earlier later : List Element}
  {place : Place}

/-- In the walk of an element the findings around a child are the same for all its namesakes. -/
theorem exists_isAround_of_walks (found : root.elementAt? place = some upper)
    (division : upper.children = earlier ++ old :: later) {above : Option String}
    {declaration : Declaration}
    (walks : Walks schema root (addressOf root place) above declaration upper) :
    ∃ front back, IsAround schema root (place ++ [earlier.length]) old front back fun new =>
      elementFindings schema.namespaceName declaration (addressOf root place) above
        { upper with children := earlier ++ new :: later } := by
  have below := addressOf_append_of_division found division
  cases declaration with
  | simple name occurrence type =>
    -- Only whether there are children counts, and there is one whichever stands here.
    refine ⟨elementFindings schema.namespaceName (.simple name occurrence type)
      (addressOf root place) above { upper with children := earlier ++ old :: later }, [],
      .of_not_walks (fun above' declaration' inside => ?_) fun new _ => ?_⟩
    · rw [below, walks_child_iff found division] at inside
      obtain ⟨_, _, _, _, _, _, _, parent, _⟩ := inside
      cases (walks.unique parent).2.1
    · rw [List.append_nil]
      exact elementFindings_simple_withChild upper earlier later new
  | complex name occurrence typeName attributes declared =>
    obtain ⟨front, back, divided⟩ :=
      @exists_elementFindings_division schema.namespaceName (addressOf root place) above old name
        typeName occurrence attributes declared upper earlier later
    by_cases placed : ∃ skipped overLimit declaration,
        placementBehind declared (earlier.map Element.name) old.name =
          .placed skipped overLimit declaration
    · obtain ⟨skipped, overLimit, declaration, placed⟩ := placed
      have inside := walks.child division placed
      rw [← below] at inside
      refine ⟨front ++ limitFindings (addressOf root place ++ [stepTo earlier old later]) old.name
        upper.name overLimit, back, .of_walks inside fun new namesake => ?_⟩
      rw [divided new namesake.name, placed, placedFindings, namesake.name, below]
      simp only [List.append_assoc]
    · refine ⟨front ++ placedFindings schema.namespaceName
        (addressOf root place ++ [stepTo earlier old later]) upper.name upper.namespaceName old
        (placementBehind declared (earlier.map Element.name) old.name), back,
        .of_not_walks (fun above' declaration' inside => placed ?_) fun new namesake => ?_⟩
      · rw [below] at inside
        obtain ⟨skipped, overLimit, other⟩ := walks.placed_of_step division inside
        exact ⟨skipped, overLimit, declaration', other⟩
      · rw [divided new namesake.name, placedFindings_eq_of_unplaced placed namesake.name]

/-- In a document the findings around an element are the same for all its namesakes. -/
theorem exists_isAround_findings (schema : Schema) (found : root.elementAt? place = some old) :
    ∃ before after, IsAround schema root place old before after fun new =>
      schema.findings (root.replaced place new) := by
  -- From the end of the place: a child replaced by a namesake makes its parent one of the parent,
  -- so what is around the child in the walk of the parent stands inside of what is around that.
  induction place using List.reverseRecOn generalizing old with
  | nil =>
    cases found
    by_cases named : root.name = schema.root.name
    · refine ⟨[], [], .of_walks (.root named) fun new namesake => ?_⟩
      rw [Element.replaced, findings, if_pos (namesake.name.trans named), namesake.name,
        List.append_nil]
      rfl
    · refine ⟨[⟨[⟨root.name, none⟩], .wrongRoot root.name schema.root.name⟩], [],
        .of_not_walks (fun above declaration walks => named walks.root_name)
          fun new namesake => ?_⟩
      rw [Element.replaced, findings, namesake.name, if_neg named]
      rfl
  | append_singleton front number inductionHypothesis =>
    obtain ⟨upper, earlier, later, atUpper, division, rfl⟩ := Element.exists_parent found
    obtain ⟨before, after, outer⟩ := inductionHypothesis atUpper
    have around := fun new : Element =>
      isNamesakeOf_withChildren upper (earlier ++ new :: later)
    simp only [replaced_append_of_division atUpper division]
    by_cases walked : ∃ above declaration,
        Walks schema root (addressOf root front) above declaration upper
    · obtain ⟨above, declaration, walks⟩ := walked
      obtain ⟨inFront, behind, inner⟩ := exists_isAround_of_walks atUpper division walks
      refine ⟨before ++ inFront, behind ++ after, ?_⟩
      simp only [outer.walked (around _) walks]
      exact inner.extend before after
    · refine ⟨before, after, .of_not_walks (fun above declaration inside => walked ?_)
        fun new _ => outer.skipped (around new) fun above declaration walks =>
          walked ⟨above, declaration, walks⟩⟩
      rw [addressOf_append_of_division atUpper division, walks_child_iff atUpper division] at inside
      obtain ⟨_, upperAbove, _, _, _, _, _, parent, _⟩ := inside
      exact ⟨upperAbove, _, parent⟩

/-- Diagnostics are local.  Around an element of a document there are two lists of diagnostics such
that the document, whichever namesake replaces the element, has the diagnostics of the walk of the
namesake between them, or nothing between them if the element is not walked.  The namesake has the
address of the element and is walked if and only if the element is. -/
theorem diagnostics_are_local (found : root.elementAt? place = some old) (schema : Schema)
    (policy : NamespacePolicy) :
    root.replaced place old = root ∧
      ∃ before after : List Diagnostic, ∀ new : Element, new.name = old.name →
        new.namespaceName = old.namespaceName →
        let address := addressOf root place
        let changed := root.replaced place new
        changed.elementAt? place = some new ∧ addressOf changed place = address ∧
        (∀ above declaration,
          Walks schema changed address above declaration new ↔
            Walks schema root address above declaration old) ∧
        (∀ above declaration, Walks schema root address above declaration old →
          schema.diagnostics policy changed =
            before ++
              (elementFindings schema.namespaceName declaration address above new).filterMap
                (Finding.diagnostic? policy) ++
              after) ∧
        ((∀ above declaration, ¬Walks schema root address above declaration old) →
          schema.diagnostics policy changed = before ++ after) := by
  obtain ⟨before, after, around⟩ := exists_isAround_findings schema found
  refine ⟨Element.replaced_self found, before.filterMap (Finding.diagnostic? policy),
    after.filterMap (Finding.diagnostic? policy), fun new name namespaceName => ?_⟩
  have namesake : new.IsNamesakeOf old := ⟨name, namespaceName⟩
  refine ⟨Element.elementAt?_replaced found new, addressOf_replaced found namesake,
    fun above declaration => walks_replaced_iff found namesake,
    fun above declaration walks => ?_, fun none => ?_⟩
  · rw [diagnostics, around.walked namesake walks, List.filterMap_append, List.filterMap_append]
  · rw [diagnostics, around.skipped namesake none, List.filterMap_append]

end Document

/-- The first section of the sample record. -/
def sampleSection : Element :=
  exhibitElement "BasicInfo" [] ""
    [exhibitElement "Title" [] "Amphora" [], exhibitElement "Category" [] "Pottery" []]

theorem sampleSection_diagnostics_are_local :
    sampleRecord.elementAt? [0] = some sampleSection ∧
      Walks exhibit sampleRecord (addressOf sampleRecord [0]) (some Exhibit.namespaceName)
        Exhibit.basicInfo sampleSection ∧
      ∃ before after : List Diagnostic, ∀ new : Element, new.name = "BasicInfo" →
        new.namespaceName = some Exhibit.namespaceName →
        exhibit.diagnostics .require (sampleRecord.replaced [0] new) =
          before ++
            (elementFindings Exhibit.namespaceName Exhibit.basicInfo
              [⟨"Exhibit", none⟩, ⟨"BasicInfo", none⟩] (some Exhibit.namespaceName) new).filterMap
              (Finding.diagnostic? .require) ++
            after := by
  have found : sampleRecord.elementAt? [0] = some sampleSection := rfl
  have placed : placementBehind
      [Exhibit.basicInfo, Exhibit.description, Exhibit.technical, Exhibit.location,
        Exhibit.history, Exhibit.media] [] sampleSection.name =
      .placed [] none Exhibit.basicInfo := rfl
  have top : Walks exhibit sampleRecord [⟨sampleRecord.name, none⟩] none Exhibit.record
      sampleRecord := .root rfl
  have walks : Walks exhibit sampleRecord (addressOf sampleRecord [0])
      (some Exhibit.namespaceName) Exhibit.basicInfo sampleSection :=
    top.child (List.nil_append _).symm placed
  obtain ⟨_, before, after, around⟩ := diagnostics_are_local found exhibit .require
  refine ⟨found, walks, before, after, fun new name namespaceName => ?_⟩
  exact (around new name namespaceName).2.2.2.1 _ _ walks

end Schema
end MuseumRecord
