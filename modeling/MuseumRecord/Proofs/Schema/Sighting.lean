import MuseumRecord.Proofs.Schema.Path
import MuseumRecord.Proofs.Schema.SequenceErrors

/-!
# Sightings

The walk of a document told with the place that it has come to: every finding together with the
place of the element that was being checked.  Without the places these are the findings of the
document; and the path of a finding leads back to its place.
-/

namespace MuseumRecord
namespace Schema

open Markup (Element Place)

/-- A finding and the place of the element that was being checked. -/
structure Sighting where
  /-- The place of the element. -/
  place : Place
  /-- What was found. -/
  finding : Finding
deriving DecidableEq, Repr

/-- Findings at a place. -/
def seenAt (place : Place) (findings : List Finding) : List Sighting :=
  findings.map (Sighting.mk place)

mutual

/-- The findings in the element at a place and below it. -/
def elementSightings (expected : String) (declaration : Declaration) (place : Place)
    (address : Address) (above : Option String) : Element → List Sighting
  | ⟨name, namespaceName, attributes, text, children⟩ =>
    seenAt place (namespaceFindings expected address above name namespaceName) ++
      match declaration with
      | .simple _ _ type =>
        seenAt place (strayAttributes address name attributes) ++
          seenAt place (textFindings address name type text children)
      | .complex _ _ _ declaredAttributes declaredChildren =>
        seenAt place (attributes.flatMap (attributeFindings address name declaredAttributes)) ++
          seenAt place (absentAttributes address name declaredAttributes attributes) ++
          seenAt place (mixedTextFindings address name text) ++
          childSightings expected place address name namespaceName (.start declaredChildren) []
            children

/-- The findings in a row of children of the element at a place; `before` are the names of their
elder siblings. -/
def childSightings (expected : String) (place : Place) (address : Address) (parent : String)
    (namespaceName : Option String) (cursor : Cursor) (before : List String) :
    List Element → List Sighting
  | [] => seenAt place (missingFindings address parent cursor.missing)
  | child :: rest =>
    let step := AddressStep.toChild child.name before (rest.map Element.name)
    let below := address ++ [step]
    let taken := place ++ [before.length]
    let (placement, next) := cursor.step child.name
    (match placement with
      | .placed skipped overLimit declaration =>
        seenAt place (missingFindings address parent skipped) ++
          seenAt taken (limitFindings below child.name parent overLimit) ++
          elementSightings expected declaration taken below namespaceName child
      | .outOfOrder => seenAt taken [⟨below, .outOfOrder child.name parent⟩]
      | .unexpected => seenAt taken [⟨below, .unexpectedElement child.name parent⟩]) ++
      childSightings expected place address parent namespaceName next (before ++ [child.name]) rest

end

/-- Every departure of a document from a schema, in written order, with the place of the element
that was being checked. -/
def sightings (schema : Schema) (root : Element) : List Sighting :=
  let address : Address := [⟨root.name, none⟩]
  if root.name = schema.root.name then
    elementSightings schema.namespaceName schema.root [] address none root
  else
    seenAt [] [⟨address, .wrongRoot root.name schema.root.name⟩]

/-! ## Without the places -/

section Erasure

variable {expected parent : String} {place : Place} {address : Address}
  {above namespaceName : Option String} {cursor : Cursor} {before : List String}

@[simp] theorem map_finding_seenAt (findings : List Finding) :
    (seenAt place findings).map Sighting.finding = findings := by
  rw [seenAt, List.map_map]
  exact List.map_id findings

theorem seenAt_append (left right : List Finding) :
    seenAt place (left ++ right) = seenAt place left ++ seenAt place right :=
  List.map_append

/-- What a placement gives for the child taken, with the places. -/
def placedSightings (expected : String) (taken : Place) (below : Address) (parent : String)
    (namespaceName : Option String) (child : Element) : Placement → List Sighting
  | .placed _ overLimit declaration =>
    seenAt taken (limitFindings below child.name parent overLimit) ++
      elementSightings expected declaration taken below namespaceName child
  | .outOfOrder => seenAt taken [⟨below, .outOfOrder child.name parent⟩]
  | .unexpected => seenAt taken [⟨below, .unexpectedElement child.name parent⟩]

theorem elementSightings_simple {name : String} {occurrence : Occurrence} {type : ValueType}
    {element : Element} :
    elementSightings expected (.simple name occurrence type) place address above element =
      seenAt place
        (elementFindings expected (.simple name occurrence type) address above element) := by
  cases element
  simp only [elementSightings, elementFindings, seenAt_append]

theorem elementSightings_complex {name typeName : String} {occurrence : Occurrence}
    {attributes : List AttributeDeclaration} {declared : List Declaration} {element : Element} :
    elementSightings expected (.complex name occurrence typeName attributes declared) place address
        above element =
      seenAt place (ownFindings expected attributes address above element) ++
        childSightings expected place address element.name element.namespaceName
          (.start declared) [] element.children := by
  cases element
  simp only [elementSightings, ownFindings, seenAt_append, List.append_assoc]

theorem childSightings_cons {child : Element} {rest : List Element} :
    childSightings expected place address parent namespaceName cursor before (child :: rest) =
      seenAt place (missingFindings address parent (cursor.step child.name).1.skipped) ++
        placedSightings expected (place ++ [before.length])
          (address ++ [.toChild child.name before (rest.map Element.name)]) parent namespaceName
          child (cursor.step child.name).1 ++
        childSightings expected place address parent namespaceName (cursor.step child.name).2
          (before ++ [child.name]) rest := by
  rw [childSightings]
  cases cursor.step child.name with
  | mk placement next =>
    cases placement with
    | placed skipped overLimit declaration =>
      simp only [placedSightings, Placement.skipped, List.append_assoc]
    | outOfOrder => rfl
    | unexpected => rfl

theorem map_finding_childSightings {children : List Element}
    (each : ∀ child ∈ children, ∀ declaration taken below above,
      (elementSightings expected declaration taken below above child).map Sighting.finding =
        elementFindings expected declaration below above child) :
    (childSightings expected place address parent namespaceName cursor before children).map
        Sighting.finding =
      childFindings expected address parent namespaceName cursor before children := by
  induction children generalizing cursor before with
  | nil => rw [childSightings, childFindings, map_finding_seenAt]
  | cons child rest inductionHypothesis =>
    have others := fun cursor before => @inductionHypothesis cursor before
      fun other member => each other (List.mem_cons_of_mem _ member)
    rw [childSightings_cons, childFindings_cons, List.map_append, List.map_append,
      map_finding_seenAt, others]
    congr 2
    cases (cursor.step child.name).1 with
    | placed skipped overLimit declaration =>
      rw [placedSightings, placedFindings, List.map_append, map_finding_seenAt,
        each child List.mem_cons_self]
    | outOfOrder => rfl
    | unexpected => rfl

/-- Without the places the walk of an element gives its findings. -/
theorem map_finding_elementSightings {declaration : Declaration} {element : Element} :
    (elementSightings expected declaration place address above element).map Sighting.finding =
      elementFindings expected declaration address above element := by
  induction element using Element.inductionOnChildren
    generalizing declaration place address above with
  | step element inductionHypothesis =>
    cases declaration with
    | simple name occurrence type => rw [elementSightings_simple, map_finding_seenAt]
    | complex name occurrence typeName attributes declared =>
      rw [elementSightings_complex, elementFindings_complex, List.map_append, map_finding_seenAt,
        map_finding_childSightings]
      intro child member declaration taken below above
      exact inductionHypothesis child member

/-- Without the places the walk of a document gives its findings. -/
theorem map_finding_sightings (schema : Schema) (root : Element) :
    (schema.sightings root).map Sighting.finding = schema.findings root := by
  unfold sightings findings
  dsimp only
  split
  · exact map_finding_elementSightings
  · exact map_finding_seenAt _

end Erasure

/-! ## What a problem says of an element -/

/-- What a problem says of the element that was being checked. -/
def Problem.IsAbout (element : Element) : Problem → Prop
  | .wrongRoot name expected => element.name = name ∧ name ≠ expected
  | .noNamespace name _ => element.name = name ∧ element.namespaceName = none
  | .otherNamespace name found expected =>
    element.name = name ∧ element.namespaceName = some found ∧ found ≠ expected
  | .unexpectedAttribute key name =>
    element.name = name ∧ key ∈ element.attributes.map Prod.fst
  | .badAttribute key type value =>
    (key, value) ∈ element.attributes ∧ type.accepts value = false
  | .missingAttribute key name =>
    element.name = name ∧ key ∉ element.attributes.map Prod.fst
  | .badText type value => element.text = value ∧ type.accepts value = false
  | .childrenInText name => element.name = name ∧ element.children ≠ []
  | .textAmongChildren name => element.name = name ∧ Text.isBlankString element.text = false
  | .missingElement _ parent => element.name = parent
  | .tooMany name _ _ => element.name = name
  | .outOfOrder name _ => element.name = name
  | .unexpectedElement name _ => element.name = name

section About

variable {expected : String} {address : Address} {above : Option String} {element : Element}
  {finding : Finding}

theorem isAbout_of_mem_namespaceFindings
    (member : finding ∈
      namespaceFindings expected address above element.name element.namespaceName) :
    finding.problem.IsAbout element := by
  unfold namespaceFindings at member
  split at member
  · cases member
  · next unexpected =>
    cases found : element.namespaceName with
    | none =>
      rw [found] at member
      cases List.mem_singleton.mp member
      exact ⟨rfl, found⟩
    | some other =>
      rw [found] at member
      cases List.mem_singleton.mp member
      refine ⟨rfl, found, fun same => unexpected (.inl ?_)⟩
      rw [found, same]

theorem isAbout_of_mem_strayAttributes
    (member : finding ∈ strayAttributes address element.name element.attributes) :
    finding.problem.IsAbout element := by
  obtain ⟨written, inside, rfl⟩ := List.mem_map.mp member
  exact ⟨rfl, List.mem_map_of_mem inside⟩

theorem isAbout_of_mem_attributeFindings {declared : List AttributeDeclaration}
    {written : String × String} (inside : written ∈ element.attributes)
    (member : finding ∈ attributeFindings address element.name declared written) :
    finding.problem.IsAbout element := by
  unfold attributeFindings at member
  split at member
  · cases List.mem_singleton.mp member
    exact ⟨rfl, List.mem_map_of_mem inside⟩
  · split at member
    · cases member
    · next refused =>
      cases List.mem_singleton.mp member
      exact ⟨inside, eq_false_of_ne_true refused⟩

theorem isAbout_of_mem_absentAttributes {declared : List AttributeDeclaration}
    (member : finding ∈ absentAttributes address element.name declared element.attributes) :
    finding.problem.IsAbout element := by
  obtain ⟨declaration, absent, rfl⟩ := List.mem_map.mp member
  refine ⟨rfl, fun written => ?_⟩
  obtain ⟨found, inside, named⟩ := List.mem_map.mp written
  have unwritten := (Bool.and_eq_true_iff.mp (List.mem_filter.mp absent).2).2
  rw [Bool.not_eq_true', List.any_eq_false] at unwritten
  exact unwritten found inside (beq_iff_eq.mpr named)

theorem isAbout_of_mem_textFindings {type : ValueType}
    (member : finding ∈
      textFindings address element.name type element.text element.children) :
    finding.problem.IsAbout element := by
  unfold textFindings at member
  split at member
  · next filled =>
    cases List.mem_singleton.mp member
    refine ⟨rfl, fun childless => ?_⟩
    rw [childless] at filled
    cases filled
  · split at member
    · cases member
    · next refused =>
      cases List.mem_singleton.mp member
      exact ⟨rfl, eq_false_of_ne_true refused⟩

theorem isAbout_of_mem_mixedTextFindings
    (member : finding ∈ mixedTextFindings address element.name element.text) :
    finding.problem.IsAbout element := by
  unfold mixedTextFindings at member
  split at member
  · cases member
  · next written =>
    cases List.mem_singleton.mp member
    exact ⟨rfl, eq_false_of_ne_true written⟩

theorem isAbout_of_mem_ownFindings {declared : List AttributeDeclaration}
    (member : finding ∈ ownFindings expected declared address above element) :
    finding.problem.IsAbout element := by
  simp only [ownFindings, List.mem_append, List.mem_flatMap] at member
  rcases member with ofNamespace | (⟨written, inside, ofAttribute⟩ | absent) | ofText
  · exact isAbout_of_mem_namespaceFindings ofNamespace
  · exact isAbout_of_mem_attributeFindings inside ofAttribute
  · exact isAbout_of_mem_absentAttributes absent
  · exact isAbout_of_mem_mixedTextFindings ofText

theorem isAbout_of_mem_elementFindings_simple {name : String} {occurrence : Occurrence}
    {type : ValueType}
    (member : finding ∈
      elementFindings expected (.simple name occurrence type) address above element) :
    finding.problem.IsAbout element := by
  cases element
  simp only [elementFindings, List.mem_append] at member
  rcases member with ofNamespace | stray | ofText
  · exact isAbout_of_mem_namespaceFindings ofNamespace
  · exact isAbout_of_mem_strayAttributes stray
  · exact isAbout_of_mem_textFindings ofText

end About

/-! ## The places of findings -/

/-- A sighting in a document: its place is that of an element, its finding stands at the address of
the place, and the problem is one of the element. -/
def Sighting.IsIn (root : Element) (sighting : Sighting) : Prop :=
  ∃ element, root.elementAt? sighting.place = some element ∧
    sighting.finding.address = addressOf root sighting.place ∧
    sighting.finding.problem.IsAbout element

section Places

variable {root element : Element} {place : Place}

/-- Findings of the element at a place are sightings there. -/
theorem forall_isIn_seenAt (found : root.elementAt? place = some element)
    {findings : List Finding}
    (address : ∀ finding ∈ findings, finding.address = addressOf root place)
    (about : ∀ finding ∈ findings, finding.problem.IsAbout element) :
    ∀ sighting ∈ seenAt place findings, sighting.IsIn root := by
  intro sighting member
  obtain ⟨finding, inside, rfl⟩ := List.mem_map.mp member
  exact ⟨element, found, address finding inside, about finding inside⟩

theorem forall_isIn_seenAt_missingFindings (found : root.elementAt? place = some element)
    (missing : List Declaration) :
    ∀ sighting ∈ seenAt place (missingFindings (addressOf root place) element.name missing),
      sighting.IsIn root := by
  apply forall_isIn_seenAt found
  · exact fun finding member => (mem_missingFindings member).1
  · intro finding member
    obtain ⟨declaration, _, rfl⟩ := List.mem_map.mp member
    exact rfl

/-- What a placement gives are sightings, if what the walk of the child gives are. -/
theorem forall_isIn_placedSightings {expected parent : String} {namespaceName : Option String}
    (found : root.elementAt? place = some element)
    (walk : ∀ declaration, ∀ sighting ∈ elementSightings expected declaration place
      (addressOf root place) namespaceName element, sighting.IsIn root)
    (placement : Placement) :
    ∀ sighting ∈ placedSightings expected place (addressOf root place) parent namespaceName element
      placement, sighting.IsIn root := by
  cases placement with
  | placed skipped overLimit declaration =>
    rw [placedSightings, List.forall_mem_append]
    refine ⟨forall_isIn_seenAt found ?_ ?_, walk declaration⟩
    · exact fun finding member => (mem_limitFindings member).1
    · intro finding member
      obtain ⟨most, _, rfl⟩ := List.mem_map.mp member
      exact rfl
  | outOfOrder =>
    exact forall_isIn_seenAt found (List.forall_mem_singleton.mpr rfl)
      (List.forall_mem_singleton.mpr rfl)
  | unexpected =>
    exact forall_isIn_seenAt found (List.forall_mem_singleton.mpr rfl)
      (List.forall_mem_singleton.mpr rfl)

/-- The walk of the last children of an element gives sightings, if the walk of each does. -/
theorem forall_isIn_childSightings {expected : String}
    (found : root.elementAt? place = some element)
    (each : ∀ child ∈ element.children, ∀ declaration taken above,
      root.elementAt? taken = some child →
      ∀ sighting ∈ elementSightings expected declaration taken (addressOf root taken) above child,
        sighting.IsIn root)
    {cursor : Cursor} {earlier rest : List Element}
    (division : element.children = earlier ++ rest) :
    ∀ sighting ∈ childSightings expected place (addressOf root place) element.name
      element.namespaceName cursor (earlier.map Element.name) rest, sighting.IsIn root := by
  -- The elder siblings grow as the walk goes on, and their number is the last step of the place.
  induction rest generalizing cursor earlier with
  | nil =>
    rw [childSightings]
    exact forall_isIn_seenAt_missingFindings found _
  | cons child rest inductionHypothesis =>
    have inside : child ∈ element.children :=
      division ▸ List.mem_append_right _ List.mem_cons_self
    have taken := Element.elementAt?_append_of_division found division
    have address := addressOf_append_of_division found division
    rw [stepTo] at address
    have others := @inductionHypothesis (cursor.step child.name).2 (earlier ++ [child])
      (by rw [division, List.append_assoc, List.singleton_append])
    rw [List.map_append, List.map_singleton] at others
    rw [childSightings_cons, List.length_map, ← address, List.forall_mem_append,
      List.forall_mem_append]
    refine ⟨⟨forall_isIn_seenAt_missingFindings found _, ?_⟩, others⟩
    exact forall_isIn_placedSightings taken
      (fun declaration => each child inside declaration _ _ taken) _

/-- The walk of the element at a place gives sightings. -/
theorem forall_isIn_elementSightings {expected : String} {declaration : Declaration}
    {above : Option String} (found : root.elementAt? place = some element) :
    ∀ sighting ∈ elementSightings expected declaration place (addressOf root place) above element,
      sighting.IsIn root := by
  induction element using Element.inductionOnChildren
    generalizing declaration place above with
  | step element inductionHypothesis =>
    cases declaration with
    | simple name occurrence type =>
      rw [elementSightings_simple]
      exact forall_isIn_seenAt found
        (fun finding member => (areOwn_elementFindings_simple finding member).1)
        fun finding member => isAbout_of_mem_elementFindings_simple member
    | complex name occurrence typeName attributes declared =>
      rw [elementSightings_complex, List.forall_mem_append]
      constructor
      · exact forall_isIn_seenAt found
          (fun finding member => (areOwn_ownFindings finding member).1)
          fun finding member => isAbout_of_mem_ownFindings member
      · exact @forall_isIn_childSightings root element place expected found
          (fun child inside declaration taken above atChild =>
            inductionHypothesis child inside atChild) _ [] _ rfl

/-- Everything the walk of a document gives is a sighting in the document. -/
theorem forall_isIn_sightings (schema : Schema) (root : Element) :
    ∀ sighting ∈ schema.sightings root, sighting.IsIn root := by
  unfold sightings
  dsimp only
  split
  · exact forall_isIn_elementSightings rfl
  · next other =>
    exact forall_isIn_seenAt rfl (List.forall_mem_singleton.mpr rfl)
      (List.forall_mem_singleton.mpr ⟨rfl, other⟩)

end Places

/-! ## Paths of diagnostics -/

theorem diagnostics_eq_filterMap_sightings (schema : Schema) (policy : NamespacePolicy)
    (root : Element) :
    schema.diagnostics policy root =
      (schema.sightings root).filterMap fun sighting => sighting.finding.diagnostic? policy := by
  rw [diagnostics, ← map_finding_sightings, List.filterMap_map]
  rfl

theorem path_of_diagnostic? {policy : NamespacePolicy} {finding : Finding}
    {diagnostic : Diagnostic} (reported : finding.diagnostic? policy = some diagnostic) :
    diagnostic.path = some finding.address.text := by
  obtain ⟨severity, _, rfl⟩ := Option.map_eq_some_iff.mp reported
  rfl

/-- In a document whose element names have neither a slash nor an opening bracket in them, the path
of every diagnostic leads back to the one element that was being checked, of which the problem is
one, and diagnostics of different elements have different paths. -/
theorem paths_lead_to_checked_elements {root : Element}
    (plain : root.Everywhere fun element => IsPlainName element.name) (schema : Schema)
    (policy : NamespacePolicy) :
    schema.diagnostics policy root =
        (schema.sightings root).filterMap (fun sighting => sighting.finding.diagnostic? policy) ∧
      (∀ sighting ∈ schema.sightings root, ∀ diagnostic,
        sighting.finding.diagnostic? policy = some diagnostic →
        ∃ path element, diagnostic.path = some path ∧
          placeOfPath? root path = some sighting.place ∧
          root.elementAt? sighting.place = some element ∧
          sighting.finding.problem.IsAbout element) ∧
      ∀ sighting ∈ schema.sightings root, ∀ other ∈ schema.sightings root,
        ∀ diagnostic diagnostic', sighting.finding.diagnostic? policy = some diagnostic →
        other.finding.diagnostic? policy = some diagnostic' →
        diagnostic.path = diagnostic'.path → sighting.place = other.place := by
  have leads : ∀ sighting ∈ schema.sightings root,
      placeOfPath? root sighting.finding.address.text = some sighting.place := by
    intro sighting member
    obtain ⟨element, found, address, _⟩ := forall_isIn_sightings schema root sighting member
    rw [address]
    exact placeOfPath?_text plain found
  refine ⟨diagnostics_eq_filterMap_sightings schema policy root, ?_, ?_⟩
  · intro sighting member diagnostic reported
    obtain ⟨element, found, _, about⟩ := forall_isIn_sightings schema root sighting member
    exact ⟨_, element, path_of_diagnostic? reported, leads sighting member, found, about⟩
  · intro sighting member other member' diagnostic diagnostic' reported reported' same
    rw [path_of_diagnostic? reported, path_of_diagnostic? reported', Option.some.injEq] at same
    have led := leads sighting member
    rw [same, leads other member'] at led
    exact (Option.some.inj led).symm

/-- The second condition in the disordered part is one too many. -/
def secondCondition : Sighting :=
  ⟨[0, 2], ⟨[⟨"Exhibit", none⟩, ⟨"Technical", none⟩, ⟨"Condition", some 2⟩],
    .tooMany "Condition" 1 "Technical"⟩⟩

theorem secondCondition_path :
    disorderedRecord.Everywhere (fun element => IsPlainName element.name) ∧
      secondCondition ∈ exhibit.sightings disorderedRecord ∧
      ∃ diagnostic, secondCondition.finding.diagnostic? .require = some diagnostic ∧
        diagnostic.path = some "/Exhibit/Technical/Condition[2]" ∧
        placeOfPath? disorderedRecord "/Exhibit/Technical/Condition[2]" = some [0, 2] ∧
        disorderedRecord.elementAt? [0, 2] = some (exhibitElement "Condition" [] "Poor" []) := by
  have leaf (name text : String) (plain : IsPlainName name) :
      (exhibitElement name [] text []).Everywhere fun element => IsPlainName element.name :=
    .node plain (List.forall_mem_nil _)
  have part : disorderedPart.Everywhere fun element => IsPlainName element.name := by
    refine .node (by decide) ?_
    simp only [disorderedPart, exhibitElement, List.forall_mem_cons]
    exact ⟨leaf "Condition" "Good" (by decide), leaf "Material" "Clay" (by decide),
      leaf "Condition" "Poor" (by decide), leaf "Glaze" "Slip" (by decide),
      List.forall_mem_nil _⟩
  have plain : disorderedRecord.Everywhere fun element => IsPlainName element.name :=
    .node (by decide) (List.forall_mem_singleton.mpr part)
  have member : secondCondition ∈ exhibit.sightings disorderedRecord := by decide +kernel
  obtain ⟨path, element, written, leads, found, _⟩ :=
    (paths_lead_to_checked_elements plain exhibit .require).2.1 secondCondition member _ rfl
  have text : path = "/Exhibit/Technical/Condition[2]" :=
    (Option.some.inj written).symm.trans (by decide)
  rw [text] at leads
  exact ⟨plain, member, _, rfl, text ▸ written, leads, rfl⟩

end Schema
end MuseumRecord
