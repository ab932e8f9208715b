import MuseumRecord.Proofs.Markup.Tree
import MuseumRecord.Schema.Conformance

/-!
# The walk beside a schema

Every finding stands at or below the address of the element that it was found in, and the steps to
two children of one element differ.  So the findings of a document within the address of a child
are those that the child's own placement gives, wherever the child stands.
-/

namespace MuseumRecord
namespace Schema

open Markup (Element)

/-- Whether a problem is one of the place of an element among its siblings. -/
def Problem.isAboutPlace : Problem → Bool
  | .tooMany _ _ _ => true
  | .outOfOrder _ _ => true
  | .unexpectedElement _ _ => true
  | _ => false

/-- Whether a problem is a required child that is not there. -/
def Problem.isAboutGap : Problem → Bool
  | .missingElement _ _ => true
  | _ => false

/-- The step from an element to one of its children. -/
def stepTo (earlier : List Element) (child : Element) (later : List Element) : AddressStep :=
  .toChild child.name (earlier.map Element.name) (later.map Element.name)

/-- The findings at an address and below it. -/
def within (address : Address) (findings : List Finding) : List Finding :=
  findings.filter fun finding => decide (address <+: finding.address)

/-! ## Steps -/

section Steps

/-- Of two children of one name the later one has the greater number. -/
theorem toChild_ne (name other : String) (front middle behind : List String) :
    AddressStep.toChild name front (middle ++ other :: behind) ≠
      AddressStep.toChild other (front ++ name :: middle) behind := by
  intro same
  have named : name = other := by
    have names := congrArg AddressStep.name same
    unfold AddressStep.toChild at names
    dsimp only at names
    split at names <;> split at names <;> exact names
  subst named
  have numbers := congrArg AddressStep.number same
  unfold AddressStep.toChild at numbers
  simp only [List.count_append, List.count_cons_self] at numbers
  rw [if_neg (by omega), if_neg (by omega), Option.some.injEq] at numbers
  omega

/-- The step tells which child it leads to. -/
theorem stepTo_injective {earlier earlier' later later' : List Element} {child child' : Element}
    (children : earlier ++ child :: later = earlier' ++ child' :: later')
    (step : stepTo earlier child later = stepTo earlier' child' later') :
    earlier = earlier' ∧ child = child' ∧ later = later' := by
  unfold stepTo at step
  rcases List.append_eq_append_iff.mp children with ⟨more, rfl, rest⟩ | ⟨more, rfl, rest⟩
  · cases more with
    | nil =>
      obtain ⟨rfl, rfl⟩ := List.cons.inj rest
      exact ⟨(List.append_nil _).symm, rfl, rfl⟩
    | cons first more =>
      rw [List.cons_append, List.cons.injEq] at rest
      obtain ⟨rfl, rfl⟩ := rest
      simp only [List.map_append, List.map_cons] at step
      exact absurd step (toChild_ne _ _ _ _ _)
  · cases more with
    | nil =>
      obtain ⟨rfl, rfl⟩ := List.cons.inj rest
      exact ⟨List.append_nil _, rfl, rfl⟩
    | cons first more =>
      rw [List.cons_append, List.cons.injEq] at rest
      obtain ⟨rfl, rfl⟩ := rest
      simp only [List.map_append, List.map_cons] at step
      exact absurd step.symm (toChild_ne _ _ _ _ _)

/-- Nothing lies below two children. -/
theorem step_eq_of_prefix {α : Type} {address below : List α} {step other : α}
    (left : address ++ [step] <+: below) (right : address ++ [other] <+: below) :
    step = other := by
  have same := List.prefix_of_prefix_length_le left right (by simp)
  rw [List.prefix_append_right_inj] at same
  simpa using same

theorem not_step_prefix_self {α : Type} (address : List α) (step : α) :
    ¬address ++ [step] <+: address := by
  intro longer
  have lengths := longer.length_le
  rw [List.length_append, List.length_singleton] at lengths
  omega

end Steps

/-! ## Findings within an address -/

section Within

variable {address : Address} {findings : List Finding}

theorem within_append (left right : List Finding) :
    within address (left ++ right) = within address left ++ within address right :=
  List.filter_append left right

theorem within_eq_self (inside : ∀ finding ∈ findings, address <+: finding.address) :
    within address findings = findings := by
  rw [within, List.filter_eq_self]
  intro finding member
  exact decide_eq_true (inside finding member)

theorem within_eq_nil (outside : ∀ finding ∈ findings, ¬address <+: finding.address) :
    within address findings = [] := by
  rw [within, List.filter_eq_nil_iff]
  intro finding member
  rw [decide_eq_true_iff]
  exact outside finding member

/-- What selects only findings within an address need not look at others. -/
theorem filter_within {select : Finding → Bool}
    (inside : ∀ finding, select finding = true → address <+: finding.address) :
    (within address findings).filter select = findings.filter select := by
  rw [within, List.filter_filter]
  apply List.filter_congr
  intro finding _
  cases selected : select finding with
  | false => rfl
  | true => exact decide_eq_true (inside finding selected)

theorem within_within {below : Address} (longer : address <+: below) :
    within below (within address findings) = within below findings := by
  apply filter_within
  intro finding inside
  exact longer.trans (of_decide_eq_true inside)

end Within

/-! ## The findings of an element that are not about its children -/

/-- The findings are at an address and not about a sequence of children. -/
def AreOwn (address : Address) (findings : List Finding) : Prop :=
  ∀ finding ∈ findings, finding.address = address ∧
    finding.problem.isAboutPlace = false ∧ finding.problem.isAboutGap = false

/-- The findings in an element with declared attributes that are not about its children. -/
def ownFindings (expected : String) (declared : List AttributeDeclaration) (address : Address)
    (above : Option String) (element : Element) : List Finding :=
  namespaceFindings expected address above element.name element.namespaceName ++
    (element.attributes.flatMap (attributeFindings address element.name declared) ++
      absentAttributes address element.name declared element.attributes ++
      mixedTextFindings address element.name element.text)

section Own

variable {expected name text : String} {address : Address} {above : Option String}

namespace AreOwn

theorem nil : AreOwn address [] :=
  List.forall_mem_nil _

theorem single {problem : Problem} (place : problem.isAboutPlace = false)
    (gap : problem.isAboutGap = false) : AreOwn address [⟨address, problem⟩] :=
  List.forall_mem_singleton.mpr ⟨rfl, place, gap⟩

theorem append {left right : List Finding} (leftOwn : AreOwn address left)
    (rightOwn : AreOwn address right) : AreOwn address (left ++ right) :=
  List.forall_mem_append.mpr ⟨leftOwn, rightOwn⟩

theorem map {α : Type} {items : List α} {problem : α → Problem}
    (place : ∀ item, (problem item).isAboutPlace = false)
    (gap : ∀ item, (problem item).isAboutGap = false) :
    AreOwn address (items.map fun item => ⟨address, problem item⟩) := by
  intro finding member
  obtain ⟨item, _, rfl⟩ := List.mem_map.mp member
  exact ⟨rfl, place item, gap item⟩

theorem flatMap {α : Type} {items : List α} {findings : α → List Finding}
    (own : ∀ item, AreOwn address (findings item)) : AreOwn address (items.flatMap findings) := by
  intro finding member
  obtain ⟨item, _, found⟩ := List.mem_flatMap.mp member
  exact own item finding found

end AreOwn

theorem areOwn_namespaceFindings {found : Option String} :
    AreOwn address (namespaceFindings expected address above name found) := by
  unfold namespaceFindings
  split
  · exact .nil
  · cases found with
    | none => exact .single rfl rfl
    | some other => exact .single rfl rfl

theorem areOwn_textFindings {type : ValueType} {children : List Element} :
    AreOwn address (textFindings address name type text children) := by
  unfold textFindings
  split
  · exact .single rfl rfl
  · split
    · exact .nil
    · exact .single rfl rfl

theorem areOwn_attributeFindings {declared : List AttributeDeclaration}
    {written : String × String} :
    AreOwn address (attributeFindings address name declared written) := by
  unfold attributeFindings
  split
  · exact .single rfl rfl
  · split
    · exact .nil
    · exact .single rfl rfl

theorem areOwn_mixedTextFindings : AreOwn address (mixedTextFindings address name text) := by
  unfold mixedTextFindings
  split
  · exact .nil
  · exact .single rfl rfl

theorem areOwn_ownFindings {declared : List AttributeDeclaration} {element : Element} :
    AreOwn address (ownFindings expected declared address above element) := by
  apply AreOwn.append areOwn_namespaceFindings
  apply AreOwn.append
  · apply AreOwn.append
    · exact .flatMap fun written => areOwn_attributeFindings
    · exact .map (fun _ => rfl) fun _ => rfl
  · exact areOwn_mixedTextFindings

/-- An element with declared children has findings of its own and those of its children. -/
theorem elementFindings_complex {occurrence : Occurrence} {typeName : String}
    {attributes : List AttributeDeclaration} {declared : List Declaration} {element : Element} :
    elementFindings expected (.complex name occurrence typeName attributes declared) address above
        element =
      ownFindings expected attributes address above element ++
        childFindings expected address element.name element.namespaceName (.start declared) []
          element.children := by
  cases element
  simp only [elementFindings, ownFindings, List.append_assoc]

/-- An element with declared text has only findings of its own. -/
theorem areOwn_elementFindings_simple {occurrence : Occurrence} {type : ValueType}
    {element : Element} :
    AreOwn address
      (elementFindings expected (.simple name occurrence type) address above element) := by
  cases element
  rw [elementFindings]
  apply AreOwn.append areOwn_namespaceFindings
  apply AreOwn.append
  · exact .map (fun _ => rfl) fun _ => rfl
  · exact areOwn_textFindings

end Own

/-! ## Findings of children -/

/-- The required declarations that a placement leaves behind without a child. -/
def Placement.skipped : Placement → List Declaration
  | .placed skipped _ _ => skipped
  | .outOfOrder => []
  | .unexpected => []

/-- The limit that a placement passes for the first time. -/
def Placement.overLimit : Placement → Option Nat
  | .placed _ overLimit _ => overLimit
  | .outOfOrder => none
  | .unexpected => none

/-- The findings that a placement gives for a child and in it. -/
def placedFindings (expected : String) (below : Address) (parent : String)
    (namespaceName : Option String) (child : Element) : Placement → List Finding
  | .placed _ overLimit declaration =>
    limitFindings below child.name parent overLimit ++
      elementFindings expected declaration below namespaceName child
  | .outOfOrder => [⟨below, .outOfOrder child.name parent⟩]
  | .unexpected => [⟨below, .unexpectedElement child.name parent⟩]

section Children

variable {expected parent : String} {address : Address} {above namespaceName : Option String}
  {cursor : Cursor} {before : List String} {child : Element} {rest : List Element}

/-- The first child of a row gives the gaps in front of it and what its placement gives. -/
theorem childFindings_cons :
    childFindings expected address parent namespaceName cursor before (child :: rest) =
      missingFindings address parent (cursor.step child.name).1.skipped ++
        placedFindings expected
          (address ++ [.toChild child.name before (rest.map Element.name)]) parent namespaceName
          child (cursor.step child.name).1 ++
        childFindings expected address parent namespaceName (cursor.step child.name).2
          (before ++ [child.name]) rest := by
  rw [childFindings]
  cases cursor.step child.name with
  | mk placement next =>
    cases placement with
    | placed skipped overLimit declaration =>
      simp only [placedFindings, Placement.skipped, List.append_assoc]
    | outOfOrder => rfl
    | unexpected => rfl

theorem mem_missingFindings {finding : Finding} {missing : List Declaration}
    (member : finding ∈ missingFindings address parent missing) :
    finding.address = address ∧ finding.problem.isAboutPlace = false := by
  obtain ⟨declaration, _, rfl⟩ := List.mem_map.mp member
  exact ⟨rfl, rfl⟩

theorem mem_limitFindings {finding : Finding} {name : String} {overLimit : Option Nat}
    (member : finding ∈ limitFindings address name parent overLimit) :
    finding.address = address ∧ ∃ most, finding.problem = .tooMany name most parent := by
  obtain ⟨most, _, rfl⟩ := List.mem_map.mp member
  exact ⟨rfl, most, rfl⟩

/-- In the element at an address: at the address or below, and at the address not about its place. -/
def IsInside (address : Address) (finding : Finding) : Prop :=
  address <+: finding.address ∧ (finding.address = address → finding.problem.isAboutPlace = false)

theorem AreOwn.isInside {findings : List Finding} (own : AreOwn address findings)
    {finding : Finding} (member : finding ∈ findings) : IsInside address finding := by
  obtain ⟨here, place, _⟩ := own finding member
  exact ⟨here ▸ List.prefix_rfl, fun _ => place⟩

/-- What a placement gives stands at the child or below it. -/
theorem prefix_of_mem_placedFindings {placement : Placement}
    (each : ∀ declaration above, ∀ finding ∈ elementFindings expected declaration address above child,
      IsInside address finding) {finding : Finding}
    (member : finding ∈ placedFindings expected address parent namespaceName child placement) :
    address <+: finding.address := by
  cases placement with
  | placed skipped overLimit declaration =>
    rcases List.mem_append.mp member with limit | inside
    · exact (mem_limitFindings limit).1 ▸ List.prefix_rfl
    · exact (each declaration namespaceName finding inside).1
  | outOfOrder => exact List.mem_singleton.mp member ▸ List.prefix_rfl
  | unexpected => exact List.mem_singleton.mp member ▸ List.prefix_rfl

/-- The findings of a row of children are gaps of the parent or stand within one of the children. -/
theorem mem_childFindings
    (each : ∀ child ∈ rest, ∀ declaration below above,
      ∀ finding ∈ elementFindings expected declaration below above child, IsInside below finding)
    {finding : Finding}
    (member : finding ∈
      childFindings expected address parent namespaceName cursor before rest) :
    (finding.address = address ∧ finding.problem.isAboutPlace = false) ∨
      ∃ earlier child later, rest = earlier ++ child :: later ∧
        address ++ [.toChild child.name (before ++ earlier.map Element.name)
          (later.map Element.name)] <+: finding.address := by
  induction rest generalizing cursor before with
  | nil =>
    rw [childFindings] at member
    exact .inl (mem_missingFindings member)
  | cons first rest inductionHypothesis =>
    rw [childFindings_cons, List.mem_append, List.mem_append] at member
    rcases member with (gap | placed) | others
    · exact .inl (mem_missingFindings gap)
    · refine .inr ⟨[], first, rest, rfl, ?_⟩
      rw [List.map_nil, List.append_nil]
      exact prefix_of_mem_placedFindings
        (fun declaration => each first List.mem_cons_self declaration _) placed
    · rcases inductionHypothesis
        (fun child member => each child (List.mem_cons_of_mem _ member)) others with
        own | ⟨earlier, child, later, division, inside⟩
      · exact .inl own
      · refine .inr ⟨first :: earlier, child, later, by rw [division]; rfl, ?_⟩
        rwa [List.append_assoc] at inside

/-- Every finding in an element stands at its address or below, and at its address none is about its
place. -/
theorem isInside_of_mem_elementFindings {declaration : Declaration} {element : Element}
    {finding : Finding}
    (member : finding ∈ elementFindings expected declaration address above element) :
    IsInside address finding := by
  induction element using Element.inductionOnChildren
    generalizing declaration address above finding with
  | step element inductionHypothesis =>
    cases declaration with
    | simple name occurrence type => exact areOwn_elementFindings_simple.isInside member
    | complex name occurrence typeName attributes declared =>
      rw [elementFindings_complex, List.mem_append] at member
      rcases member with own | ofChildren
      · exact areOwn_ownFindings.isInside own
      · rcases mem_childFindings
          (fun child inside declaration below above finding =>
            inductionHypothesis child inside) ofChildren with
          ⟨here, place⟩ | ⟨earlier, child, later, _, below⟩
        · exact ⟨here ▸ List.prefix_rfl, fun _ => place⟩
        · refine ⟨(List.prefix_append _ _).trans below, fun here => ?_⟩
          exact absurd (here ▸ below) (not_step_prefix_self _ _)

theorem within_missingFindings {step : AddressStep} {missing : List Declaration} :
    within (address ++ [step]) (missingFindings address parent missing) = [] := by
  apply within_eq_nil
  intro finding member
  rw [(mem_missingFindings member).1]
  exact not_step_prefix_self address step

theorem within_placedFindings {placement : Placement} :
    within address (placedFindings expected address parent namespaceName child placement) =
      placedFindings expected address parent namespaceName child placement := by
  apply within_eq_self
  intro finding member
  apply prefix_of_mem_placedFindings _ member
  intro declaration above finding inside
  exact isInside_of_mem_elementFindings inside

/-- Within the address of a child there is what its placement gives, and nothing else. -/
theorem within_childFindings (earlier later : List Element) :
    within (address ++ [.toChild child.name (before ++ earlier.map Element.name)
        (later.map Element.name)])
        (childFindings expected address parent namespaceName cursor before
          (earlier ++ child :: later)) =
      placedFindings expected
        (address ++ [.toChild child.name (before ++ earlier.map Element.name)
          (later.map Element.name)])
        parent namespaceName child
        ((cursor.run (earlier.map Element.name)).2.step child.name).1 := by
  have eachInside (children : List Element) : ∀ child ∈ children, ∀ declaration below above,
      ∀ finding ∈ elementFindings expected declaration below above child,
        IsInside below finding :=
    fun _ _ _ _ _ _ => isInside_of_mem_elementFindings
  induction earlier generalizing cursor before with
  | nil =>
    have younger : within (address ++ [.toChild child.name before (later.map Element.name)])
        (childFindings expected address parent namespaceName (cursor.step child.name).2
          (before ++ [child.name]) later) = [] := by
      apply within_eq_nil
      intro finding member inside
      rcases mem_childFindings (eachInside later) member with
        ⟨here, _⟩ | ⟨front, other, behind, rfl, below⟩
      · exact not_step_prefix_self _ _ (here ▸ inside)
      · have same := step_eq_of_prefix inside below
        rw [List.map_append, List.map_cons, List.append_assoc, List.singleton_append] at same
        exact toChild_ne _ _ _ _ _ same
    simp only [List.map_nil, List.append_nil, List.nil_append]
    rw [childFindings_cons, within_append, within_append, within_missingFindings,
      within_placedFindings, younger, List.nil_append, List.append_nil]
    rfl
  | cons first earlier inductionHypothesis =>
    have elder : within
        (address ++ [.toChild child.name (before ++ first.name :: earlier.map Element.name)
          (later.map Element.name)])
        (placedFindings expected
          (address ++ [.toChild first.name before
            ((earlier ++ child :: later).map Element.name)]) parent namespaceName first
          (cursor.step first.name).1) = [] := by
      apply within_eq_nil
      intro finding member inside
      have below := prefix_of_mem_placedFindings
        (fun declaration above finding => isInside_of_mem_elementFindings) member
      have same := step_eq_of_prefix below inside
      rw [List.map_append, List.map_cons] at same
      exact toChild_ne _ _ _ _ _ same
    have others := @inductionHypothesis (cursor.step first.name).2 (before ++ [first.name])
    rw [List.append_assoc, List.singleton_append] at others
    rw [List.cons_append, childFindings_cons, within_append, within_append,
      within_missingFindings, List.map_cons, elder, List.nil_append, List.nil_append, others]
    rfl

end Children

/-! ## Walked elements -/

/-- The placement of a child behind its elder siblings. -/
def placementBehind (declared : List Declaration) (earlier : List String) (name : String) :
    Placement :=
  (((Cursor.start declared).run earlier).2.step name).1

/-- The walk of a document comes to an element at an address, with the namespace of its parent and
its declaration: to the root if it has the declared name, and to every child that is placed. -/
inductive Walks (schema : Schema) (root : Element) :
    Address → Option String → Declaration → Element → Prop
  | root : root.name = schema.root.name → Walks schema root [⟨root.name, none⟩] none schema.root root
  | child {address : Address} {above : Option String} {name : String} {occurrence : Occurrence}
      {typeName : String} {attributes : List AttributeDeclaration}
      {declared skipped : List Declaration} {declaration : Declaration} {overLimit : Option Nat}
      {element child : Element} {earlier later : List Element} :
      Walks schema root address above (.complex name occurrence typeName attributes declared)
        element →
      element.children = earlier ++ child :: later →
      placementBehind declared (earlier.map Element.name) child.name =
        .placed skipped overLimit declaration →
      Walks schema root (address ++ [stepTo earlier child later]) element.namespaceName declaration
        child

namespace Walks

variable {schema : Schema} {root element : Element} {address : Address} {above : Option String}
  {declaration : Declaration}

theorem address_ne_nil (walks : Walks schema root address above declaration element) :
    address ≠ [] := by
  cases walks with
  | root named => exact List.cons_ne_nil _ _
  | child _ _ _ => simp

/-- The walk comes to one element at an address, and once. -/
theorem unique (walks : Walks schema root address above declaration element)
    {above' : Option String} {declaration' : Declaration} {element' : Element}
    (again : Walks schema root address above' declaration' element') :
    above' = above ∧ declaration' = declaration ∧ element' = element := by
  induction walks generalizing above' declaration' element' with
  | root named =>
    generalize here : ([⟨root.name, none⟩] : Address) = address at again
    cases again with
    | root _ => exact ⟨rfl, rfl, rfl⟩
    | child parent _ _ =>
      rw [List.singleton_eq_append_iff] at here
      simp [parent.address_ne_nil] at here
  | @child upper _ _ _ _ _ _ _ _ _ _ child earlier later parent division placed
      inductionHypothesis =>
    generalize here : upper ++ [stepTo earlier child later] = address at again
    cases again with
    | root _ =>
      rw [List.append_eq_singleton_iff] at here
      simp [parent.address_ne_nil] at here
    | child parent' division' placed' =>
      obtain ⟨rfl, step⟩ := List.append_inj' here rfl
      obtain ⟨rfl, declarations, rfl⟩ := inductionHypothesis parent'
      cases declarations
      obtain ⟨rfl, rfl, rfl⟩ :=
        stepTo_injective (division.symm.trans division') (List.cons.inj step).1
      cases placed.symm.trans placed'
      exact ⟨rfl, rfl, rfl⟩

/-- When the findings within the address of an element are known, so are those within a child. -/
theorem within_step {findings : List Finding} {expected upperName name typeName : String}
    {upperLimit : Option Nat} {occurrence : Occurrence} {attributes : List AttributeDeclaration}
    {declared : List Declaration}
    (upper : within address findings =
      limitFindings address element.name upperName upperLimit ++
        elementFindings expected (.complex name occurrence typeName attributes declared) address
          above element)
    {earlier later : List Element} {child : Element}
    (division : element.children = earlier ++ child :: later) :
    within (address ++ [stepTo earlier child later]) findings =
      placedFindings expected (address ++ [stepTo earlier child later]) element.name
        element.namespaceName child
        (placementBehind declared (earlier.map Element.name) child.name) := by
  have limit : within (address ++ [stepTo earlier child later])
      (limitFindings address element.name upperName upperLimit) = [] := by
    apply within_eq_nil
    intro finding member
    rw [(mem_limitFindings member).1]
    exact not_step_prefix_self _ _
  have own : within (address ++ [stepTo earlier child later])
      (ownFindings expected attributes address above element) = [] := by
    apply within_eq_nil
    intro finding member
    rw [(areOwn_ownFindings finding member).1]
    exact not_step_prefix_self _ _
  have inside := @within_childFindings expected element.name address element.namespaceName
    (.start declared) [] child earlier later
  rw [List.nil_append] at inside
  rw [← within_within (List.prefix_append address _), upper, within_append, limit,
    elementFindings_complex, within_append, own, division, List.nil_append, List.nil_append]
  exact inside

/-- Within the address of a walked element the document has the findings in the element, and perhaps
that it is one too many. -/
theorem within_findings (walks : Walks schema root address above declaration element) :
    ∃ overLimit parent, within address (schema.findings root) =
      limitFindings address element.name parent overLimit ++
        elementFindings schema.namespaceName declaration address above element := by
  induction walks with
  | root named =>
    refine ⟨none, "", ?_⟩
    unfold findings
    rw [if_pos named]
    apply within_eq_self
    intro finding member
    exact (isInside_of_mem_elementFindings member).1
  | @child _ _ _ _ _ _ _ _ _ overLimit element _ _ _ _ division placed inductionHypothesis =>
    obtain ⟨upperLimit, upperName, upper⟩ := inductionHypothesis
    refine ⟨overLimit, element.name, ?_⟩
    rw [within_step upper division, placed]
    rfl

/-- Within the address of a child there is what its placement gives. -/
theorem within_child {name typeName : String} {occurrence : Occurrence}
    {attributes : List AttributeDeclaration} {declared : List Declaration}
    (walks : Walks schema root address above
      (.complex name occurrence typeName attributes declared) element)
    {earlier later : List Element} {child : Element}
    (division : element.children = earlier ++ child :: later) :
    within (address ++ [stepTo earlier child later]) (schema.findings root) =
      placedFindings schema.namespaceName (address ++ [stepTo earlier child later]) element.name
        element.namespaceName child
        (placementBehind declared (earlier.map Element.name) child.name) := by
  obtain ⟨_, _, upper⟩ := walks.within_findings
  exact within_step upper division

/-- What selects only findings within the address of an element, and at the address only gaps, looks
at the findings of the children. -/
theorem filter_findings {name typeName : String} {occurrence : Occurrence}
    {attributes : List AttributeDeclaration} {declared : List Declaration}
    (walks : Walks schema root address above
      (.complex name occurrence typeName attributes declared) element)
    {select : Finding → Bool}
    (inside : ∀ finding, select finding = true → address <+: finding.address)
    (apart : ∀ finding, finding.address = address → finding.problem.isAboutGap = false →
      select finding = false) :
    (schema.findings root).filter select =
      (childFindings schema.namespaceName address element.name element.namespaceName
        (.start declared) [] element.children).filter select := by
  obtain ⟨overLimit, parent, upper⟩ := walks.within_findings
  have limit : (limitFindings address element.name parent overLimit).filter select = [] := by
    rw [List.filter_eq_nil_iff]
    intro finding member
    obtain ⟨here, most, problem⟩ := mem_limitFindings member
    rw [apart finding here (by rw [problem]; rfl)]
    exact Bool.false_ne_true
  have own : (ownFindings schema.namespaceName attributes address above element).filter select =
      [] := by
    rw [List.filter_eq_nil_iff]
    intro finding member
    obtain ⟨here, _, gap⟩ := areOwn_ownFindings finding member
    rw [apart finding here gap]
    exact Bool.false_ne_true
  rw [← filter_within inside, upper, elementFindings_complex, List.filter_append,
    List.filter_append, limit, own, List.nil_append, List.nil_append]

/-- A child is walked only where it is placed. -/
theorem placed_of_step {name typeName : String} {occurrence : Occurrence}
    {attributes : List AttributeDeclaration} {declared : List Declaration}
    (walks : Walks schema root address above
      (.complex name occurrence typeName attributes declared) element)
    {earlier later : List Element} {child : Element}
    (division : element.children = earlier ++ child :: later)
    {above' : Option String} {declaration : Declaration} {met : Element}
    (below : Walks schema root (address ++ [stepTo earlier child later]) above' declaration met) :
    ∃ skipped overLimit,
      placementBehind declared (earlier.map Element.name) child.name =
        .placed skipped overLimit declaration := by
  generalize here : address ++ [stepTo earlier child later] = address' at below
  cases below with
  | root _ =>
    rw [List.append_eq_singleton_iff] at here
    simp [walks.address_ne_nil] at here
  | child parent division' placed =>
    obtain ⟨rfl, step⟩ := List.append_inj' here rfl
    obtain ⟨_, declarations, rfl⟩ := walks.unique parent
    cases declarations
    obtain ⟨rfl, rfl, rfl⟩ :=
      stepTo_injective (division.symm.trans division') (List.cons.inj step).1
    exact ⟨_, _, placed⟩

end Walks

end Schema
end MuseumRecord
