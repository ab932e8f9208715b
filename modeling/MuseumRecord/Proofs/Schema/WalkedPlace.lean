import MuseumRecord.Proofs.Schema.Locality
import MuseumRecord.Proofs.Schema.Sighting

/-!
# Sightings at walked places

What the walk of an element sees lies at the place of the element and below it, and the walk of a
document sees it in one stretch.  Whatever is seen at a place is a sequence error that the parent
tells of, or the place is walked.
-/

namespace MuseumRecord
namespace Schema

open Markup (Element Place)

theorem Cursor.run_append_singleton (cursor : Cursor) (names : List String) (name : String) :
    (cursor.run (names ++ [name])).2 = ((cursor.run names).2.step name).2 := by
  induction names generalizing cursor with
  | nil => rfl
  | cons first rest inductionHypothesis => exact inductionHypothesis (cursor.step first).2

/-! ## Where sightings lie -/

section Inside

variable {expected parent : String} {place : Place} {address : Address}
  {above namespaceName : Option String} {cursor : Cursor} {before : List String}
  {declaration : Declaration} {element child : Element} {sighting : Sighting}

theorem place_of_mem_seenAt {findings : List Finding} (member : sighting ∈ seenAt place findings) :
    sighting.place = place ∧ sighting.finding ∈ findings := by
  obtain ⟨finding, inside, rfl⟩ := List.mem_map.mp member
  exact ⟨rfl, inside⟩

theorem isAboutGap_of_mem_missingFindings {finding : Finding} {missing : List Declaration}
    (member : finding ∈ missingFindings address parent missing) :
    finding.problem.isAboutGap = true := by
  obtain ⟨declaration, _, rfl⟩ := List.mem_map.mp member
  rfl

/-- What a placement gives is a sequence error, or the walk of the child sees it. -/
theorem mem_placedSightings {placement : Placement}
    (member : sighting ∈
      placedSightings expected place address parent namespaceName child placement) :
    sighting.finding.problem.isAboutPlace = true ∨
      ∃ skipped overLimit declaration, placement = .placed skipped overLimit declaration ∧
        sighting ∈ elementSightings expected declaration place address namespaceName child := by
  cases placement with
  | placed skipped overLimit declaration =>
    rcases List.mem_append.mp member with limit | walked
    · obtain ⟨_, most, problem⟩ := mem_limitFindings (place_of_mem_seenAt limit).2
      exact .inl (congrArg Problem.isAboutPlace problem)
    · exact .inr ⟨skipped, overLimit, declaration, rfl, walked⟩
  | outOfOrder =>
    left
    rw [List.mem_singleton.mp (place_of_mem_seenAt member).2]
    rfl
  | unexpected =>
    left
    rw [List.mem_singleton.mp (place_of_mem_seenAt member).2]
    rfl

/-- What a placement gives lies at the place of the child or below it. -/
theorem prefix_of_mem_placedSightings_of_each
    (each : ∀ declaration above, ∀ sighting ∈
      elementSightings expected declaration place address above child, place <+: sighting.place)
    {placement : Placement}
    (member : sighting ∈
      placedSightings expected place address parent namespaceName child placement) :
    place <+: sighting.place := by
  cases placement with
  | placed skipped overLimit declaration =>
    rcases List.mem_append.mp member with limit | inside
    · exact (place_of_mem_seenAt limit).1 ▸ List.prefix_rfl
    · exact each declaration namespaceName sighting inside
  | outOfOrder => exact (place_of_mem_seenAt member).1 ▸ List.prefix_rfl
  | unexpected => exact (place_of_mem_seenAt member).1 ▸ List.prefix_rfl

/-- The sightings of a row of children are gaps of the parent or lie in one of the children. -/
theorem mem_childSightings_of_each {children : List Element}
    (each : ∀ child ∈ children, ∀ declaration taken below above, ∀ sighting ∈
      elementSightings expected declaration taken below above child, taken <+: sighting.place)
    (member : sighting ∈
      childSightings expected place address parent namespaceName cursor before children) :
    (sighting.place = place ∧ sighting.finding.problem.isAboutGap = true) ∨
      ∃ number, before.length ≤ number ∧ place ++ [number] <+: sighting.place := by
  induction children generalizing cursor before with
  | nil =>
    rw [childSightings] at member
    obtain ⟨here, inside⟩ := place_of_mem_seenAt member
    exact .inl ⟨here, isAboutGap_of_mem_missingFindings inside⟩
  | cons child rest inductionHypothesis =>
    rw [childSightings_cons, List.mem_append, List.mem_append] at member
    rcases member with (gap | placed) | others
    · obtain ⟨here, inside⟩ := place_of_mem_seenAt gap
      exact .inl ⟨here, isAboutGap_of_mem_missingFindings inside⟩
    · refine .inr ⟨before.length, Nat.le_refl _, prefix_of_mem_placedSightings_of_each ?_ placed⟩
      exact fun declaration above => each child List.mem_cons_self declaration _ _ above
    · rcases inductionHypothesis
        (fun other inside => each other (List.mem_cons_of_mem _ inside)) others with
        gap | ⟨number, bound, inside⟩
      · exact .inl gap
      · rw [List.length_append] at bound
        exact .inr ⟨number, by omega, inside⟩

/-- What the walk of an element sees lies at its place or below. -/
theorem prefix_of_mem_elementSightings
    (member : sighting ∈ elementSightings expected declaration place address above element) :
    place <+: sighting.place := by
  induction element using Element.inductionOnChildren
    generalizing declaration place address above sighting with
  | step element inductionHypothesis =>
    cases declaration with
    | simple name occurrence type =>
      rw [elementSightings_simple] at member
      exact (place_of_mem_seenAt member).1 ▸ List.prefix_rfl
    | complex name occurrence typeName attributes declared =>
      rw [elementSightings_complex, List.mem_append] at member
      rcases member with own | ofChildren
      · exact (place_of_mem_seenAt own).1 ▸ List.prefix_rfl
      · rcases mem_childSightings_of_each (fun child inside declaration taken below above sighting =>
          inductionHypothesis child inside) ofChildren with ⟨here, _⟩ | ⟨number, _, inside⟩
        · exact here ▸ List.prefix_rfl
        · exact (List.prefix_append _ _).trans inside

theorem prefix_of_mem_placedSightings {placement : Placement}
    (member : sighting ∈
      placedSightings expected place address parent namespaceName child placement) :
    place <+: sighting.place :=
  prefix_of_mem_placedSightings_of_each (fun _ _ _ => prefix_of_mem_elementSightings) member

theorem mem_childSightings {children : List Element}
    (member : sighting ∈
      childSightings expected place address parent namespaceName cursor before children) :
    (sighting.place = place ∧ sighting.finding.problem.isAboutGap = true) ∨
      ∃ number, before.length ≤ number ∧ place ++ [number] <+: sighting.place :=
  mem_childSightings_of_each (fun _ _ _ _ _ _ _ => prefix_of_mem_elementSightings) member

/-- The sightings of a row of children are those that the placement of one of them gives and others,
which lie elsewhere. -/
theorem exists_childSightings_division (earlier later : List Element) :
    ∃ front back : List Sighting,
      childSightings expected place address parent namespaceName cursor before
          (earlier ++ child :: later) =
        front ++
          placedSightings expected (place ++ [before.length + earlier.length])
            (address ++ [.toChild child.name (before ++ earlier.map Element.name)
              (later.map Element.name)])
            parent namespaceName child
            ((cursor.run (earlier.map Element.name)).2.step child.name).1 ++
          back ∧
      ∀ sighting ∈ front ++ back,
        ¬place ++ [before.length + earlier.length] <+: sighting.place := by
  induction earlier generalizing cursor before with
  | nil =>
    refine ⟨seenAt place (missingFindings address parent (cursor.step child.name).1.skipped),
      childSightings expected place address parent namespaceName (cursor.step child.name).2
        (before ++ [child.name]) later, ?_, ?_⟩
    · rw [List.nil_append, childSightings_cons, List.map_nil, List.append_nil]
      rfl
    · intro sighting member inside
      rcases List.mem_append.mp member with gap | others
      · rw [(place_of_mem_seenAt gap).1] at inside
        exact not_step_prefix_self _ _ inside
      · rcases mem_childSightings others with ⟨here, _⟩ | ⟨number, bound, below⟩
        · exact not_step_prefix_self _ _ (here ▸ inside)
        · have same := step_eq_of_prefix inside below
          rw [List.length_append, List.length_singleton] at bound
          simp only [List.length_nil] at same
          omega
  | cons first earlier inductionHypothesis =>
    obtain ⟨front, back, divided, elsewhere⟩ :=
      @inductionHypothesis (cursor.step first.name).2 (before ++ [first.name])
    have count : (before ++ [first.name]).length + earlier.length =
        before.length + (first :: earlier).length := by
      simp only [List.length_append, List.length_cons, List.length_nil]
      omega
    rw [count] at divided elsewhere
    refine ⟨seenAt place (missingFindings address parent (cursor.step first.name).1.skipped) ++
      placedSightings expected (place ++ [before.length])
        (address ++ [.toChild first.name before
          ((earlier ++ child :: later).map Element.name)]) parent namespaceName first
        (cursor.step first.name).1 ++ front, back, ?_, ?_⟩
    · rw [List.cons_append, childSightings_cons, divided, List.map_cons, List.append_assoc before,
        List.singleton_append]
      simp only [List.append_assoc]
      rfl
    · intro sighting member inside
      rw [List.append_assoc, List.append_assoc, List.mem_append, List.mem_append] at member
      rcases member with gap | placed | others
      · rw [(place_of_mem_seenAt gap).1] at inside
        exact not_step_prefix_self _ _ inside
      · have below := prefix_of_mem_placedSightings placed
        have same := step_eq_of_prefix inside below
        rw [List.length_cons] at same
        omega
      · exact elsewhere sighting others inside

end Inside

/-! ## Walked places -/

section Walked

variable {schema : Schema} {root element : Element} {address : Address} {place : Place}
  {above : Option String} {declaration : Declaration} {sighting : Sighting}

/-- The walk of a document sees what is in a walked element in one stretch: perhaps that it is one
too many, and what the walk of the element sees. -/
theorem Walks.exists_stretch (walks : Walks schema root address above declaration element) :
    ∃ place, root.elementAt? place = some element ∧ addressOf root place = address ∧
      ∃ front back overLimit parent,
        schema.sightings root =
          front ++
            (seenAt place (limitFindings address element.name parent overLimit) ++
              elementSightings schema.namespaceName declaration place address above element) ++
            back ∧
        ∀ sighting ∈ front ++ back, ¬place <+: sighting.place := by
  induction walks with
  | root named =>
    refine ⟨[], rfl, rfl, [], [], none, "", ?_, List.forall_mem_nil _⟩
    unfold sightings
    rw [if_pos named, List.append_nil]
    rfl
  | @child _ above _ _ _ attributes _ _ _ overLimit element child earlier later parent division
      placed inductionHypothesis =>
    obtain ⟨place, found, rfl, front, back, upperLimit, upperName, whole, elsewhere⟩ :=
      inductionHypothesis
    obtain ⟨inFront, behind, divided, apart⟩ :=
      @exists_childSightings_division schema.namespaceName element.name place
        (addressOf root place) element.namespaceName (.start _) [] child earlier later
    rw [List.length_nil, Nat.zero_add] at divided apart
    refine ⟨place ++ [earlier.length], Element.elementAt?_append_of_division found division,
      addressOf_append_of_division found division,
      front ++ seenAt place (limitFindings (addressOf root place) element.name upperName
        upperLimit) ++
        seenAt place (ownFindings schema.namespaceName attributes (addressOf root place) above
          element) ++ inFront,
      behind ++ back, overLimit, element.name, ?_, ?_⟩
    · unfold placementBehind at placed
      rw [whole, elementSightings_complex, division, divided, placed, placedSightings]
      simp only [List.append_assoc]
      rfl
    · intro sighting member inside
      have within : place <+: sighting.place := (List.prefix_append _ _).trans inside
      simp only [List.mem_append] at member apart elsewhere
      rcases member with (((outer | limit) | own) | others) | others | outer
      · exact elsewhere sighting (.inl outer) within
      · rw [(place_of_mem_seenAt limit).1] at inside
        exact not_step_prefix_self _ _ inside
      · rw [(place_of_mem_seenAt own).1] at inside
        exact not_step_prefix_self _ _ inside
      · exact apart sighting (.inl others) inside
      · exact apart sighting (.inr others) inside
      · exact elsewhere sighting (.inr outer) within

/-- What is seen in a walked element. -/
theorem Walks.filter_sightings
    (walks : Walks schema root (addressOf root place) above declaration element)
    (found : root.elementAt? place = some element) :
    ∃ overLimit parent,
      (schema.sightings root).filter (fun sighting => decide (place <+: sighting.place)) =
        seenAt place (limitFindings (addressOf root place) element.name parent overLimit) ++
          elementSightings schema.namespaceName declaration place (addressOf root place) above
            element := by
  obtain ⟨other, atOther, same, front, back, overLimit, parent, whole, elsewhere⟩ :=
    walks.exists_stretch
  obtain rfl := addressOf_injective atOther found same
  rw [List.forall_mem_append] at elsewhere
  have outside : ∀ sightings : List Sighting,
      (∀ sighting ∈ sightings, ¬other <+: sighting.place) →
      sightings.filter (fun sighting => decide (other <+: sighting.place)) = [] := by
    intro sightings apart
    rw [List.filter_eq_nil_iff]
    exact fun sighting member inside => apart sighting member (of_decide_eq_true inside)
  refine ⟨overLimit, parent, ?_⟩
  rw [whole, List.filter_append, List.filter_append, outside front elsewhere.1,
    outside back elsewhere.2, List.nil_append, List.append_nil, List.filter_eq_self]
  intro sighting member
  rw [decide_eq_true_iff]
  rcases List.mem_append.mp member with limit | inside
  · exact (place_of_mem_seenAt limit).1 ▸ List.prefix_rfl
  · exact prefix_of_mem_elementSightings inside

/-- A place is walked when the walk comes to the element there. -/
def IsWalked (schema : Schema) (root : Element) (place : Place) : Prop :=
  ∃ above declaration element, root.elementAt? place = some element ∧
    Walks schema root (addressOf root place) above declaration element

/-- In a row of children of a walked element, what is no sequence error is seen at walked places. -/
theorem isWalked_of_mem_childSightings {name typeName : String} {occurrence : Occurrence}
    {attributes : List AttributeDeclaration} {declared : List Declaration}
    (walks : Walks schema root (addressOf root place) above
      (.complex name occurrence typeName attributes declared) element)
    (found : root.elementAt? place = some element)
    (each : ∀ child ∈ element.children, ∀ taken above declaration,
      root.elementAt? taken = some child →
      Walks schema root (addressOf root taken) above declaration child →
      ∀ sighting ∈ elementSightings schema.namespaceName declaration taken (addressOf root taken)
        above child, sighting.finding.problem.isAboutPlace = false →
        IsWalked schema root sighting.place)
    {earlier rest : List Element} (division : element.children = earlier ++ rest)
    (member : sighting ∈ childSightings schema.namespaceName place (addressOf root place)
      element.name element.namespaceName
      ((Cursor.start declared).run (earlier.map Element.name)).2 (earlier.map Element.name) rest)
    (noSequence : sighting.finding.problem.isAboutPlace = false) :
    IsWalked schema root sighting.place := by
  induction rest generalizing earlier with
  | nil =>
    rw [childSightings] at member
    rw [(place_of_mem_seenAt member).1]
    exact ⟨_, _, _, found, walks⟩
  | cons child rest inductionHypothesis =>
    have inside : child ∈ element.children :=
      division ▸ List.mem_append_right _ List.mem_cons_self
    have others := @inductionHypothesis (earlier ++ [child])
      (by rw [division, List.append_assoc, List.singleton_append])
    rw [List.map_append, List.map_singleton, Cursor.run_append_singleton] at others
    rw [childSightings_cons, List.mem_append, List.mem_append, List.length_map] at member
    rcases member with (gap | given) | later
    · rw [(place_of_mem_seenAt gap).1]
      exact ⟨_, _, _, found, walks⟩
    · rcases mem_placedSightings given with sequence | ⟨skipped, overLimit, against, placed, walked⟩
      · rw [sequence] at noSequence
        cases noSequence
      · have below := walks.child division placed
        have taken := addressOf_append_of_division found division
        rw [← taken] at below
        refine each child inside _ _ _ (Element.elementAt?_append_of_division found division) below
          sighting ?_ noSequence
        rw [taken]
        exact walked
    · exact others later

/-- In a walked element, what is no sequence error is seen at walked places. -/
theorem isWalked_of_mem_elementSightings
    (walks : Walks schema root (addressOf root place) above declaration element)
    (found : root.elementAt? place = some element)
    (member : sighting ∈ elementSightings schema.namespaceName declaration place
      (addressOf root place) above element)
    (noSequence : sighting.finding.problem.isAboutPlace = false) :
    IsWalked schema root sighting.place := by
  induction element using Element.inductionOnChildren
    generalizing declaration place above sighting with
  | step element inductionHypothesis =>
    cases declaration with
    | simple name occurrence type =>
      rw [elementSightings_simple] at member
      rw [(place_of_mem_seenAt member).1]
      exact ⟨_, _, _, found, walks⟩
    | complex name occurrence typeName attributes declared =>
      rw [elementSightings_complex, List.mem_append] at member
      rcases member with own | ofChildren
      · rw [(place_of_mem_seenAt own).1]
        exact ⟨_, _, _, found, walks⟩
      · exact @isWalked_of_mem_childSightings _ _ _ _ _ _ _ _ _ _ _ walks found
          (fun child inside taken above declaration atChild below sighting =>
            inductionHypothesis child inside below atChild) [] _ rfl ofChildren noSequence

end Walked

end Schema
end MuseumRecord
