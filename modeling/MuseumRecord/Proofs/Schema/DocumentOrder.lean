import MuseumRecord.Proofs.Markup.Preorder
import MuseumRecord.Proofs.Schema.Numbering
import MuseumRecord.Proofs.Schema.Turn

/-!
# Document order

The walk of a document tells of its elements in written order, and of each element in turns; only
the gaps come in between, among the children.
-/

namespace MuseumRecord
namespace Schema

open Markup (Element Place)

/-- Of two sightings one comes in front of the other unless one of them is a gap: it lies at a
smaller place, or its problem precedes the other at the same place. -/
def Sighting.IsInFront (sighting other : Sighting) : Prop :=
  sighting.finding.problem.isAboutGap = false → other.finding.problem.isAboutGap = false →
    sighting.place < other.place ∨
      sighting.place = other.place ∧ sighting.finding.problem.Precedes other.finding.problem

section Order

variable {expected parent : String} {place : Place} {address : Address}
  {above namespaceName : Option String} {cursor : Cursor} {before : List String}
  {declaration : Declaration} {element child : Element} {sighting : Sighting}

theorem pairwise_seenAt {first : Nat} {findings : List Finding}
    (turns : ComeInTurns first findings) :
    (seenAt place findings).Pairwise Sighting.IsInFront := by
  rw [seenAt, List.pairwise_map]
  exact turns.sorted.imp fun precedes _ _ => .inr ⟨rfl, precedes⟩

theorem isAboutGap_of_mem_gaps {missing : List Declaration}
    (member : sighting ∈ seenAt place (missingFindings address parent missing)) :
    sighting.finding.problem.isAboutGap = true :=
  isAboutGap_of_mem_missingFindings (place_of_mem_seenAt member).2

/-- Gaps are in front of anything. -/
theorem isInFront_of_gap {other : Sighting} (gap : sighting.finding.problem.isAboutGap = true) :
    sighting.IsInFront other := by
  intro noGap
  rw [gap] at noGap
  cases noGap

theorem pairwise_gaps (missing : List Declaration) :
    (seenAt place (missingFindings address parent missing)).Pairwise Sighting.IsInFront :=
  List.pairwise_of_forall_mem_list fun _ member _ _ =>
    isInFront_of_gap (isAboutGap_of_mem_gaps member)

/-- At the place of a walked element the walk begins with the turn of the namespace. -/
theorem turn_of_mem_elementSightings
    (member : sighting ∈ elementSightings expected declaration place address above element)
    (here : sighting.place = place) : 1 ≤ sighting.finding.problem.turn := by
  cases declaration with
  | simple name occurrence type =>
    rw [elementSightings_simple] at member
    exact comeInTurns_elementFindings_simple.late _ (place_of_mem_seenAt member).2
  | complex name occurrence typeName attributes declared =>
    rw [elementSightings_complex, List.mem_append] at member
    rcases member with own | ofChildren
    · exact comeInTurns_ownFindings.late _ (place_of_mem_seenAt own).2
    · rcases mem_childSightings ofChildren with ⟨_, gap⟩ | ⟨number, _, below⟩
      · rw [Problem.turn_of_isAboutGap gap]
        decide
      · exact absurd (here ▸ below) (not_step_prefix_self place number)

/-- What a placement gives is in order, if what the walk of the child gives is. -/
theorem pairwise_placedSightings
    (walk : ∀ declaration, (elementSightings expected declaration place address namespaceName
      child).Pairwise Sighting.IsInFront)
    (placement : Placement) :
    (placedSightings expected place address parent namespaceName child placement).Pairwise
      Sighting.IsInFront := by
  cases placement with
  | placed skipped overLimit declaration =>
    have alone := ComeInTurns.append (@areOfTurn_limitFindings child.name address parent
      overLimit).1 (.inl areOfTurn_limitFindings.2) (.nil 1) (by decide)
    rw [List.append_nil] at alone
    rw [placedSightings, List.pairwise_append]
    refine ⟨pairwise_seenAt alone, walk declaration, fun limit member other inside _ _ => ?_⟩
    obtain ⟨here, told⟩ := place_of_mem_seenAt member
    rcases Place.eq_or_lt_of_inside (prefix_of_mem_elementSightings inside) with same | below
    · refine .inr ⟨here.trans same, .inl ?_⟩
      rw [areOfTurn_limitFindings.1 limit.finding told]
      exact turn_of_mem_elementSightings inside same.symm
    · exact .inl (here ▸ below)
  | outOfOrder => exact List.pairwise_singleton _ _
  | unexpected => exact List.pairwise_singleton _ _

/-- The sightings of a row of children are in order, if those of each child are. -/
theorem pairwise_childSightings {children : List Element}
    (each : ∀ child ∈ children, ∀ declaration taken below above,
      (elementSightings expected declaration taken below above child).Pairwise
        Sighting.IsInFront) :
    (childSightings expected place address parent namespaceName cursor before children).Pairwise
      Sighting.IsInFront := by
  induction children generalizing cursor before with
  | nil =>
    rw [childSightings]
    exact pairwise_gaps _
  | cons child rest inductionHypothesis =>
    obtain ⟨first, others⟩ := List.forall_mem_cons.mp each
    rw [childSightings_cons, List.append_assoc, List.pairwise_append, List.pairwise_append]
    refine ⟨pairwise_gaps _, ⟨?_, inductionHypothesis others, ?_⟩, ?_⟩
    · exact pairwise_placedSightings (fun declaration => first declaration _ _ _) _
    · intro sighting member other later _ noGap
      have inside := prefix_of_mem_placedSightings member
      rcases mem_childSightings later with ⟨_, gap⟩ | ⟨number, bound, below⟩
      · rw [gap] at noGap
        cases noGap
      · rw [List.length_append, List.length_singleton] at bound
        exact .inl (Place.lt_of_prefix_steps bound inside below)
    · exact fun sighting member _ _ => isInFront_of_gap (isAboutGap_of_mem_gaps member)

/-- The walk of an element sees in order. -/
theorem pairwise_elementSightings :
    (elementSightings expected declaration place address above element).Pairwise
      Sighting.IsInFront := by
  induction element using Element.inductionOnChildren
    generalizing declaration place address above with
  | step element inductionHypothesis =>
    cases declaration with
    | simple name occurrence type =>
      rw [elementSightings_simple]
      exact pairwise_seenAt comeInTurns_elementFindings_simple
    | complex name occurrence typeName attributes declared =>
      rw [elementSightings_complex, List.pairwise_append]
      refine ⟨pairwise_seenAt comeInTurns_ownFindings, pairwise_childSightings
        fun child member _ _ _ _ => inductionHypothesis child member, ?_⟩
      intro sighting own other ofChildren _ noGap
      obtain ⟨here, _⟩ := place_of_mem_seenAt own
      rcases mem_childSightings ofChildren with ⟨_, gap⟩ | ⟨number, _, below⟩
      · rw [gap] at noGap
        cases noGap
      · exact .inl (here ▸ Place.lt_of_prefix_step below)

/-- The walk of a document sees in order. -/
theorem pairwise_sightings (schema : Schema) (root : Element) :
    (schema.sightings root).Pairwise Sighting.IsInFront := by
  unfold sightings
  dsimp only
  split
  · exact pairwise_elementSightings
  · exact List.pairwise_singleton _ _

end Order

/-! ## Names of attributes at a walked place -/

section Names

variable {schema : Schema} {root element : Element} {place : Place} {above : Option String}
  {declaration : Declaration}

/-- The findings at a place. -/
def foundAt (place : Place) (sightings : List Sighting) : List Finding :=
  (sightings.filter fun sighting => decide (sighting.place = place)).map Sighting.finding

theorem foundAt_append (left right : List Sighting) :
    foundAt place (left ++ right) = foundAt place left ++ foundAt place right := by
  rw [foundAt, List.filter_append, List.map_append]
  rfl

theorem foundAt_seenAt (findings : List Finding) :
    foundAt place (seenAt place findings) = findings := by
  have all : (seenAt place findings).filter (fun sighting => decide (sighting.place = place)) =
      seenAt place findings := by
    rw [List.filter_eq_self]
    exact fun sighting member => decide_eq_true (place_of_mem_seenAt member).1
  rw [foundAt, all, map_finding_seenAt]

/-- At the place of their parent the children show gaps only. -/
theorem areOfTurn_foundAt_childSightings {expected parent : String} {address : Address}
    {namespaceName : Option String} {cursor : Cursor} {before : List String}
    {children : List Element} :
    AreOfTurn 5 (foundAt place
      (childSightings expected place address parent namespaceName cursor before children)) := by
  intro finding member
  obtain ⟨sighting, inside, rfl⟩ := List.mem_map.mp member
  obtain ⟨ofChildren, here⟩ := List.mem_filter.mp inside
  rcases mem_childSightings ofChildren with ⟨_, gap⟩ | ⟨number, _, below⟩
  · exact Problem.turn_of_isAboutGap gap
  · rw [of_decide_eq_true here] at below
    exact absurd below (not_step_prefix_self place number)

/-- At a walked place the attributes that are told of come in written order, and those that are
missed in declared order. -/
theorem Walks.names_foundAt
    (walks : Walks schema root (addressOf root place) above declaration element)
    (found : root.elementAt? place = some element) :
    (writtenNames (foundAt place (schema.sightings root))).Sublist
        (element.attributes.map Prod.fst) ∧
      (absentNames (foundAt place (schema.sightings root))).Sublist
        declaration.attributeNames := by
  obtain ⟨overLimit, parent, inside⟩ := walks.filter_sightings found
  have here : foundAt place (schema.sightings root) =
      limitFindings (addressOf root place) element.name parent overLimit ++
        foundAt place (elementSightings schema.namespaceName declaration place
          (addressOf root place) above element) := by
    have inPlace : ∀ sighting : Sighting, decide (sighting.place = place) = true →
        place <+: sighting.place := fun sighting same =>
      of_decide_eq_true same ▸ List.prefix_rfl
    rw [foundAt, ← filter_inside inPlace, inside]
    change foundAt place _ = _
    rw [foundAt_append, foundAt_seenAt]
  rw [here, writtenNames_append, absentNames_append,
    writtenNames_eq_nil areOfTurn_limitFindings.1 (by decide),
    absentNames_eq_nil areOfTurn_limitFindings.1 (by decide), List.nil_append, List.nil_append]
  cases declaration with
  | simple name occurrence type =>
    rw [elementSightings_simple, foundAt_seenAt, names_elementFindings_simple.2]
    exact ⟨names_elementFindings_simple.1, List.nil_sublist _⟩
  | complex name occurrence typeName attributes declared =>
    rw [elementSightings_complex, foundAt_append, foundAt_seenAt, writtenNames_append,
      absentNames_append, writtenNames_eq_nil areOfTurn_foundAt_childSightings (by decide),
      absentNames_eq_nil areOfTurn_foundAt_childSightings (by decide), List.append_nil,
      List.append_nil]
    exact ⟨writtenNames_ownFindings attributes, absentNames_ownFindings attributes⟩

/-- Whatever is seen in a document is a sequence error or seen at a walked place. -/
theorem isWalked_of_mem_sightings {sighting : Sighting}
    (member : sighting ∈ schema.sightings root) (late : sighting.finding.problem.turn ≠ 0) :
    IsWalked schema root sighting.place := by
  unfold sightings at member
  dsimp only at member
  split at member
  · next named =>
    have top : Walks schema root (addressOf root []) none schema.root root := .root named
    exact isWalked_of_mem_elementSightings top rfl member (Problem.isAboutPlace_eq_false late)
  · rw [List.mem_singleton.mp (place_of_mem_seenAt member).2] at late
    exact absurd rfl late

end Names

/-! ## What is reported -/

/-- The sightings that are reported under a policy. -/
def reported (schema : Schema) (policy : NamespacePolicy) (root : Element) : List Sighting :=
  (schema.sightings root).filter fun sighting => (sighting.finding.diagnostic? policy).isSome

/-- Of two sightings one precedes the other: its element is written in front of the other one, or it
is the same element and the problem precedes the other. -/
def Sighting.Precedes (root : Element) (sighting other : Sighting) : Prop :=
  root.Precedes sighting.place other.place ∨
    sighting.place = other.place ∧ sighting.finding.problem.Precedes other.finding.problem

section Reported

variable {schema : Schema} {policy : NamespacePolicy} {root : Element}

/-- The diagnostics are those of the reported sightings, one for one. -/
theorem map_diagnostic?_reported (schema : Schema) (policy : NamespacePolicy) (root : Element) :
    ((schema.reported policy root).map fun sighting => sighting.finding.diagnostic? policy) =
      (schema.diagnostics policy root).map some := by
  rw [diagnostics_eq_filterMap_sightings, List.map_filterMap_some_eq_filter_map_isSome,
    List.filter_map]
  rfl

theorem pairwise_reported (schema : Schema) (policy : NamespacePolicy) (root : Element) :
    ((schema.reported policy root).filter fun sighting =>
      !sighting.finding.problem.isAboutGap).Pairwise (Sighting.Precedes root) := by
  rw [List.pairwise_filter]
  refine ((pairwise_sightings schema root).filter _).imp_of_mem ?_
  intro sighting other member otherMember inFront noGap otherNoGap
  rw [Bool.not_eq_true'] at noGap otherNoGap
  obtain ⟨_, found, _⟩ := forall_isIn_sightings schema root _ (List.mem_of_mem_filter member)
  obtain ⟨_, found', _⟩ :=
    forall_isIn_sightings schema root _ (List.mem_of_mem_filter otherMember)
  rcases inFront noGap otherNoGap with smaller | same
  · exact .inl (Element.precedes_of_lt found found' smaller)
  · exact .inr same

/-- Gaps are reported under every policy. -/
theorem filter_gapOf {place : Place} {address : Address} {parent : String}
    {numbers : List (Option Nat)} (declaration : Declaration) (number : Nat) :
    ((gapOf place address parent numbers declaration number).filter fun sighting =>
        (sighting.finding.diagnostic? policy).isSome) =
      gapOf place address parent numbers declaration number := by
  unfold gapOf
  split
  · rfl
  · rfl

/-- Diagnostics come in document order.  Those of the reported sightings that are no gaps are about
elements in the order of the listing of the document, and for one element come in turns: its place
among its siblings, its namespace, its attributes in written order, missing attributes in declared
order, its text.  In a walked element what is reported in the children that are walked and of its
gaps comes in the order of the declarations: for each declaration what is in the children walked
against it, and then its gap if it got too few of them. -/
theorem diagnostics_come_in_document_order (schema : Schema) (policy : NamespacePolicy)
    (root : Element) :
    let told := schema.reported policy root
    (told.map fun sighting => sighting.finding.diagnostic? policy) =
        (schema.diagnostics policy root).map some ∧
      (root.places.map root.elementAt? = (root.listing 0).map fun node => some node.2) ∧
      (told.filter fun sighting => !sighting.finding.problem.isAboutGap).Pairwise
        (Sighting.Precedes root) ∧
      (∀ sighting ∈ told, sighting.finding.problem.turn = 0 ∨
        IsWalked schema root sighting.place) ∧
      ∀ place above declaration element, root.elementAt? place = some element →
        Walks schema root (addressOf root place) above declaration element →
        let numbers := declaration.numbersOf element
        (writtenNames (foundAt place told)).Sublist (element.attributes.map Prod.fst) ∧
        (absentNames (foundAt place told)).Sublist declaration.attributeNames ∧
        (told.filter (Sighting.isCounted place numbers) =
          declaration.children.zipIdx.flatMap fun numbered =>
            seenWith place numbers numbered.2 told ++
              gapOf place (addressOf root place) element.name numbers numbered.1 numbered.2) ∧
        ∀ earlier child later, element.children = earlier ++ child :: later → ∀ above' against,
          Walks schema root (addressOf root (place ++ [earlier.length])) above' against child ↔
            above' = element.namespaceName ∧
              ∃ number, numbers[earlier.length]? = some (some number) ∧
                declaration.children[number]? = some against := by
  intro told
  refine ⟨map_diagnostic?_reported schema policy root, root.map_elementAt?_places 0,
    pairwise_reported schema policy root, ?_, ?_⟩
  · intro sighting member
    by_cases late : sighting.finding.problem.turn = 0
    · exact .inl late
    · exact .inr (isWalked_of_mem_sightings (List.mem_of_mem_filter member) late)
  · intro place above declaration element found walks numbers
    obtain ⟨written, absent⟩ := walks.names_foundAt found
    have fewer : (foundAt place told).Sublist (foundAt place (schema.sightings root)) :=
      (List.filter_sublist.filter _).map _
    refine ⟨(fewer.filterMap _).trans written, (fewer.filterMap _).trans absent, ?_,
      fun earlier child later division above' against => walks.child_iff found division⟩
    have whole := congrArg
      (List.filter fun sighting => (sighting.finding.diagnostic? policy).isSome)
      (walks.filter_isCounted found)
    rw [List.filter_comm, List.filter_flatMap] at whole
    refine whole.trans (List.flatMap_congr fun numbered _ => ?_)
    rw [List.filter_append, filter_gapOf, seenWith, List.filter_comm]
    rfl

end Reported

end Schema
end MuseumRecord
