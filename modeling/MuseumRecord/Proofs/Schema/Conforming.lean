import MuseumRecord.Proofs.Markup.Tree
import MuseumRecord.Proofs.Schema.Row
import MuseumRecord.Schema.Conformance
import MuseumRecord.Schema.Exhibit

/-!
# Conforming elements

What a declaration asks of an element, said by recursion on the element, and the proof that the
findings of a document hold no error for exactly the conforming documents.
-/

namespace MuseumRecord
namespace Schema

open Markup (Element)

/-- An element is as its declaration asks, and so are all elements inside. -/
inductive Conforms : Declaration → Element → Prop
  | simple {name : String} {occurrence : Occurrence} {type : ValueType} {element : Element} :
      element.attributes = [] →
      element.children = [] →
      type.accepts element.text = true →
      Conforms (.simple name occurrence type) element
  | complex {name : String} {occurrence : Occurrence} {typeName : String}
      {attributes : List AttributeDeclaration} {children : List Declaration}
      {element : Element} :
      (∀ written ∈ element.attributes, ∃ declared ∈ attributes,
        declared.name = written.1 ∧ declared.type.accepts written.2 = true) →
      (∀ declared ∈ attributes, declared.required = true →
        ∃ written ∈ element.attributes, written.1 = declared.name) →
      Text.isBlankString element.text = true →
      IsRow children (element.children.map Element.name) →
      (∀ child ∈ element.children, ∀ declared ∈ children, declared.name = child.name →
        Conforms declared child) →
      Conforms (.complex name occurrence typeName attributes children) element

/-- No two attributes and no two children of an element with attributes and children have the same
name, at any depth. -/
inductive Declaration.Unambiguous : Declaration → Prop
  | simple {name : String} {occurrence : Occurrence} {type : ValueType} :
      Unambiguous (.simple name occurrence type)
  | complex {name : String} {occurrence : Occurrence} {typeName : String}
      {attributes : List AttributeDeclaration} {children : List Declaration} :
      (attributes.map AttributeDeclaration.name).Nodup →
      (children.map Declaration.name).Nodup →
      (∀ child ∈ children, child.Unambiguous) →
      Unambiguous (.complex name occurrence typeName attributes children)

theorem Declaration.unambiguous_complex_iff {name : String} {occurrence : Occurrence}
    {typeName : String} {attributes : List AttributeDeclaration} {children : List Declaration} :
    (Declaration.complex name occurrence typeName attributes children).Unambiguous ↔
      (attributes.map AttributeDeclaration.name).Nodup ∧ (children.map Declaration.name).Nodup ∧
        ∀ child ∈ children, child.Unambiguous := by
  constructor
  · intro unambiguous
    cases unambiguous with
    | complex attributesDistinct childrenDistinct below =>
      exact ⟨attributesDistinct, childrenDistinct, below⟩
  · rintro ⟨attributesDistinct, childrenDistinct, below⟩
    exact .complex attributesDistinct childrenDistinct below

theorem conforms_simple_iff {name : String} {occurrence : Occurrence} {type : ValueType}
    {element : Element} :
    Conforms (.simple name occurrence type) element ↔
      element.attributes = [] ∧ element.children = [] ∧ type.accepts element.text = true := by
  constructor
  · intro conforms
    cases conforms with
    | simple noAttributes noChildren accepted => exact ⟨noAttributes, noChildren, accepted⟩
  · rintro ⟨noAttributes, noChildren, accepted⟩
    exact .simple noAttributes noChildren accepted

theorem conforms_complex_iff {name : String} {occurrence : Occurrence} {typeName : String}
    {attributes : List AttributeDeclaration} {children : List Declaration} {element : Element} :
    Conforms (.complex name occurrence typeName attributes children) element ↔
      (∀ written ∈ element.attributes, ∃ declared ∈ attributes,
        declared.name = written.1 ∧ declared.type.accepts written.2 = true) ∧
      (∀ declared ∈ attributes, declared.required = true →
        ∃ written ∈ element.attributes, written.1 = declared.name) ∧
      Text.isBlankString element.text = true ∧
      IsRow children (element.children.map Element.name) ∧
      ∀ child ∈ element.children, ∀ declared ∈ children, declared.name = child.name →
        Conforms declared child := by
  constructor
  · intro conforms
    cases conforms with
    | complex declared present blank row below => exact ⟨declared, present, blank, row, below⟩
  · rintro ⟨declared, present, blank, row, below⟩
    exact .complex declared present blank row below

/-! ## Findings that a policy tolerates -/

/-- No finding is an error under a policy. -/
def Tolerates (policy : NamespacePolicy) (findings : List Finding) : Prop :=
  ∀ finding ∈ findings, severity? policy finding.problem ≠ some .error

section Tolerates

variable {policy : NamespacePolicy} {address : Address} {name : String}

theorem tolerates_nil : Tolerates policy [] := by
  intro finding member
  cases member

theorem tolerates_flatMap_iff {α : Type} {items : List α} {findings : α → List Finding} :
    Tolerates policy (items.flatMap findings) ↔
      ∀ item ∈ items, Tolerates policy (findings item) := by
  unfold Tolerates
  simp only [List.mem_flatMap]
  constructor
  · intro all item member finding found
    exact all finding ⟨item, member, found⟩
  · rintro each finding ⟨item, member, found⟩
    exact each item member finding found

theorem tolerates_append_iff {left right : List Finding} :
    Tolerates policy (left ++ right) ↔ Tolerates policy left ∧ Tolerates policy right :=
  List.forall_mem_append

/-- A problem that is not one of namespaces is an error under every policy. -/
theorem severity?_eq_error {problem : Problem} (other : problem.isAboutNamespace = false) :
    severity? policy problem = some .error := by
  simp [severity?, other]

/-- Findings about anything but namespaces are tolerated only when there are none. -/
theorem tolerates_iff_eq_nil {findings : List Finding}
    (others : ∀ finding ∈ findings, finding.problem.isAboutNamespace = false) :
    Tolerates policy findings ↔ findings = [] := by
  constructor
  · intro tolerated
    apply List.eq_nil_iff_forall_not_mem.mpr
    intro finding member
    exact tolerated finding member (severity?_eq_error (others finding member))
  · rintro rfl
    exact tolerates_nil

/-- A finding about anything but namespaces is not tolerated. -/
theorem not_tolerates_singleton {problem : Problem} (other : problem.isAboutNamespace = false) :
    ¬Tolerates policy [⟨address, problem⟩] := by
  intro tolerated
  exact tolerated _ List.mem_cons_self (severity?_eq_error other)

/-- A problem of namespaces is an error only when the namespace is required. -/
theorem tolerates_namespaceFindings_iff {expected : String} {above found : Option String}
    (inherited : policy = .require → address.isNested = true → above = some expected) :
    Tolerates policy (namespaceFindings expected address above name found) ↔
      (policy = .require → found = some expected) := by
  unfold namespaceFindings
  split
  · next accepted =>
    simp only [tolerates_nil, true_iff]
    intro required
    rcases accepted with equal | ⟨nested, same⟩
    · exact equal
    · exact same.trans (inherited required nested)
  · next rejected =>
    have differs : found ≠ some expected := fun equal => rejected (.inl equal)
    cases policy <;> cases found <;>
      simp [Tolerates, severity?, Problem.isAboutNamespace] at differs ⊢
    exact differs

theorem tolerates_strayAttributes_iff {attributes : List (String × String)} :
    Tolerates policy (strayAttributes address name attributes) ↔ attributes = [] := by
  rw [tolerates_iff_eq_nil, strayAttributes, List.map_eq_nil_iff]
  intro finding member
  obtain ⟨written, _, rfl⟩ := List.mem_map.mp member
  rfl

theorem tolerates_textFindings_iff {type : ValueType} {text : String}
    {children : List Element} :
    Tolerates policy (textFindings address name type text children) ↔
      children = [] ∧ type.accepts text = true := by
  unfold textFindings
  cases children with
  | cons child rest =>
    have rejected : ¬Tolerates policy [⟨address, .childrenInText name⟩] :=
      not_tolerates_singleton rfl
    simpa using rejected
  | nil =>
    cases accepted : type.accepts text with
    | true => simpa using tolerates_nil
    | false =>
      have rejected : ¬Tolerates policy [⟨address, .badText type text⟩] :=
        not_tolerates_singleton rfl
      simpa using rejected

theorem tolerates_mixedTextFindings_iff {text : String} :
    Tolerates policy (mixedTextFindings address name text) ↔ Text.isBlankString text = true := by
  unfold mixedTextFindings
  cases blank : Text.isBlankString text with
  | true => simpa using tolerates_nil
  | false =>
    have rejected : ¬Tolerates policy [⟨address, .textAmongChildren name⟩] :=
      not_tolerates_singleton rfl
    simpa using rejected

theorem tolerates_missingFindings_iff {missing : List Declaration} :
    Tolerates policy (missingFindings address name missing) ↔ missing = [] := by
  rw [tolerates_iff_eq_nil, missingFindings, List.map_eq_nil_iff]
  intro finding member
  obtain ⟨declaration, _, rfl⟩ := List.mem_map.mp member
  rfl

theorem tolerates_limitFindings_iff {parent : String} {overLimit : Option Nat} :
    Tolerates policy (limitFindings address name parent overLimit) ↔ overLimit = none := by
  rw [tolerates_iff_eq_nil, limitFindings, List.map_eq_nil_iff, Option.toList_eq_nil_iff]
  intro finding member
  obtain ⟨most, _, rfl⟩ := List.mem_map.mp member
  rfl

/-- An attribute is found at its declaration, the only one of its name. -/
theorem find?_attribute_eq_some_iff {declared : List AttributeDeclaration}
    (distinct : (declared.map AttributeDeclaration.name).Nodup) {key : String}
    {declaration : AttributeDeclaration} :
    declared.find? (fun other => other.name == key) = some declaration ↔
      declaration ∈ declared ∧ declaration.name = key := by
  constructor
  · intro found
    have named := List.find?_some found
    exact ⟨List.mem_of_find?_eq_some found, by simpa using named⟩
  · rintro ⟨member, rfl⟩
    cases found : declared.find? fun other => other.name == declaration.name with
    | none =>
      have absent := List.find?_eq_none.mp found declaration member
      simp at absent
    | some other =>
      have named : other.name = declaration.name := by simpa using List.find?_some found
      have same := List.inj_on_of_nodup_map distinct (List.mem_of_find?_eq_some found) member named
      rw [same]

theorem tolerates_attributeFindings_iff {declared : List AttributeDeclaration}
    (distinct : (declared.map AttributeDeclaration.name).Nodup) {written : String × String} :
    Tolerates policy (attributeFindings address name declared written) ↔
      ∃ declaration ∈ declared,
        declaration.name = written.1 ∧ declaration.type.accepts written.2 = true := by
  unfold attributeFindings
  split
  · next absent =>
    refine iff_of_false (not_tolerates_singleton rfl) ?_
    rintro ⟨declaration, member, named, _⟩
    have different := List.find?_eq_none.mp absent declaration member
    simp [named] at different
  · next declaration found =>
    obtain ⟨member, named⟩ := (find?_attribute_eq_some_iff distinct).mp found
    have only : (∃ other ∈ declared, other.name = written.1 ∧
        other.type.accepts written.2 = true) ↔ declaration.type.accepts written.2 = true := by
      constructor
      · rintro ⟨other, otherMember, otherNamed, accepted⟩
        have same := List.inj_on_of_nodup_map distinct otherMember member
          (otherNamed.trans named.symm)
        rwa [← same]
      · intro accepted
        exact ⟨declaration, member, named, accepted⟩
    rw [only]
    split
    · next accepted => exact iff_of_true tolerates_nil accepted
    · next rejected => exact iff_of_false (not_tolerates_singleton rfl) rejected

theorem tolerates_absentAttributes_iff {declared : List AttributeDeclaration}
    {attributes : List (String × String)} :
    Tolerates policy (absentAttributes address name declared attributes) ↔
      ∀ declaration ∈ declared, declaration.required = true →
        ∃ written ∈ attributes, written.1 = declaration.name := by
  rw [tolerates_iff_eq_nil, absentAttributes, List.map_eq_nil_iff, List.filter_eq_nil_iff]
  · simp
  · intro finding member
    obtain ⟨declaration, _, rfl⟩ := List.mem_map.mp member
    rfl

end Tolerates

/-! ## The walk -/

/-- The address of the root has one slash, unless there is one in the name of the root. -/
theorem Address.isNested_root {name : String} (plain : '/' ∉ name.toList) :
    Address.isNested [⟨name, none⟩] = false := by
  have slashes : (Address.text [⟨name, none⟩]).toList = '/' :: name.toList := by
    simp [Address.text, AddressStep.text, String.join]
  unfold Address.isNested
  rw [slashes, List.count_cons_self, List.count_eq_zero_of_not_mem plain]
  rfl

section Walk

variable {policy : NamespacePolicy} {expected : String}

/-- The findings in a row of children are tolerated when the cursor expects their names and every
child is tolerated at its declaration.  `Admits` is what the walk of one child decides. -/
theorem tolerates_childFindings_iff {Admits : Declaration → Element → Prop}
    {declarations : List Declaration} {address : Address} {parent : String}
    {namespaceName : Option String} {children : List Element} {cursor : Cursor}
    {before : List String}
    (distinct : (declarations.map Declaration.name).Nodup)
    (suffix : cursor.ahead <:+ declarations) (bounded : cursor.IsBounded)
    (each : ∀ child ∈ children, ∀ declaration ∈ declarations, ∀ step,
      Tolerates policy
          (elementFindings expected declaration (address ++ [step]) namespaceName child) ↔
        Admits declaration child) :
    Tolerates policy
        (childFindings expected address parent namespaceName cursor before children) ↔
      cursor.Expects (children.map Element.name) ∧
        ∀ child ∈ children, ∀ declaration ∈ declarations, declaration.name = child.name →
          Admits declaration child := by
  induction children generalizing cursor before with
  | nil =>
    rw [childFindings, tolerates_missingFindings_iff, Cursor.missing_eq_nil_iff bounded]
    simp
  | cons child rest inductionHypothesis =>
    have aheadDistinct : (cursor.ahead.map Declaration.name).Nodup :=
      distinct.sublist (suffix.sublist.map _)
    rw [childFindings]
    by_cases ahead : child.name ∈ cursor.ahead.map Declaration.name
    · obtain ⟨skipped, declaration, after, division, named, fresh⟩ :=
        Cursor.exists_skipped ahead
      rw [← named] at fresh ⊢
      rw [Cursor.step_of_ahead division fresh]
      have member : declaration ∈ declarations :=
        suffix.subset (division ▸ List.mem_append_right _ List.mem_cons_self)
      have nextSuffix : (cursor.advance skipped declaration after).ahead <:+ declarations :=
        List.IsSuffix.trans ⟨skipped, division.symm⟩ suffix
      have only : (∀ other ∈ declarations, other.name = child.name → Admits other child) ↔
          Admits declaration child := by
        constructor
        · intro all
          exact all declaration member named
        · intro admitted other otherMember otherNamed
          rw [List.inj_on_of_nodup_map distinct otherMember member (otherNamed.trans named.symm)]
          exact admitted
      simp only [tolerates_append_iff, tolerates_missingFindings_iff, tolerates_limitFindings_iff,
        each child List.mem_cons_self declaration member, List.map_cons, List.forall_mem_cons, only]
      rw [← named, Cursor.expects_cons_iff bounded aheadDistinct division]
      by_cases within : Cursor.limitPassed declaration (cursor.countBehind skipped + 1) = none
      · rw [inductionHypothesis nextSuffix (Cursor.isBounded_advance bounded division within)
          fun later laterMember => each later (List.mem_cons_of_mem _ laterMember)]
        tauto
      · tauto
    · rw [Cursor.step_of_absent ahead]
      refine iff_of_false (fun tolerated => ?_) (fun expects => ?_)
      · have misplaced := (tolerates_append_iff.mp tolerated).1
        split at misplaced
        · next placed => split at placed <;> simp at placed
        · exact not_tolerates_singleton rfl misplaced
        · exact not_tolerates_singleton rfl misplaced
      · exact ahead (expects.1.mem_names List.mem_cons_self)

/-- What every child must satisfy splits into conforming and lying in the namespace, when every
child is declared. -/
theorem forall_declared_iff {declarations : List Declaration} {children : List Element}
    {property : Element → Prop} (row : IsRow declarations (children.map Element.name)) :
    (∀ child ∈ children, ∀ declaration ∈ declarations, declaration.name = child.name →
        Conforms declaration child ∧ property child) ↔
      (∀ child ∈ children, ∀ declaration ∈ declarations, declaration.name = child.name →
        Conforms declaration child) ∧ ∀ child ∈ children, property child := by
  constructor
  · intro both
    refine ⟨fun child member declaration declared named =>
      (both child member declaration declared named).1, fun child member => ?_⟩
    obtain ⟨declaration, declared, named⟩ :=
      List.mem_map.mp (row.mem_names (List.mem_map_of_mem member))
    exact (both child member declaration declared named).2
  · rintro ⟨conform, hold⟩ child member declaration declared named
    exact ⟨conform child member declaration declared named, hold child member⟩

/-- The findings in an element are tolerated when the element conforms to its declaration and, where
the policy requires it, every element is in the expected namespace.  A namespace that is passed over
because the parent has it must be the expected one for this. -/
theorem tolerates_elementFindings_iff {declaration : Declaration} {address : Address}
    {above : Option String} {element : Element} (unambiguous : declaration.Unambiguous)
    (inherited : policy = .require → address.isNested = true → above = some expected) :
    Tolerates policy (elementFindings expected declaration address above element) ↔
      Conforms declaration element ∧
        (policy = .require → element.Everywhere fun inner =>
          inner.namespaceName = some expected) := by
  induction element using Element.inductionOnChildren generalizing declaration address above with
  | step element inductionHypothesis =>
    rw [Element.everywhere_iff]
    obtain ⟨name, namespaceName, attributes, text, children⟩ := element
    cases unambiguous with
    | simple =>
      rw [elementFindings, tolerates_append_iff, tolerates_namespaceFindings_iff inherited,
        tolerates_append_iff, tolerates_strayAttributes_iff, tolerates_textFindings_iff,
        conforms_simple_iff]
      constructor
      · rintro ⟨within, noAttributes, rfl, accepted⟩
        exact ⟨⟨noAttributes, rfl, accepted⟩, fun required =>
          ⟨within required, List.forall_mem_nil _⟩⟩
      · rintro ⟨⟨noAttributes, noChildren, accepted⟩, within⟩
        exact ⟨fun required => (within required).1, noAttributes, noChildren, accepted⟩
    | complex attributesDistinct childrenDistinct childrenUnambiguous =>
      rw [elementFindings, tolerates_append_iff, tolerates_namespaceFindings_iff inherited]
      by_cases within : policy = .require → namespaceName = some expected
      · have walk := fun child member declaration declared step =>
          @inductionHypothesis child member declaration (address ++ [step]) namespaceName
            (childrenUnambiguous declaration declared)
            (fun required _ => within required)
        rw [tolerates_append_iff, tolerates_append_iff, tolerates_append_iff,
          tolerates_absentAttributes_iff, tolerates_mixedTextFindings_iff,
          tolerates_childFindings_iff childrenDistinct List.suffix_rfl
            (Cursor.isBounded_start _) walk,
          Cursor.expects_start_iff, conforms_complex_iff, tolerates_flatMap_iff,
          forall₂_congr fun written _ => tolerates_attributeFindings_iff attributesDistinct]
        constructor
        · rintro ⟨_, ⟨⟨declared, present⟩, blank⟩, row, below⟩
          obtain ⟨conform, lie⟩ := (forall_declared_iff row).mp below
          exact ⟨⟨declared, present, blank, row, conform⟩, fun required =>
            ⟨within required, fun child member => lie child member required⟩⟩
        · rintro ⟨⟨declared, present, blank, row, conform⟩, lie⟩
          exact ⟨within, ⟨⟨declared, present⟩, blank⟩, row, (forall_declared_iff row).mpr
            ⟨conform, fun child member required => (lie required).2 child member⟩⟩
      · refine iff_of_false (fun tolerated => within tolerated.1) (fun both => within ?_)
        exact fun required => (both.2 required).1

end Walk

/-! ## The language of a schema -/

/-- The diagnostics hold no error when the policy tolerates all findings. -/
theorem diagnostics_free_of_errors_iff_tolerates {schema : Schema} {policy : NamespacePolicy}
    {root : Element} :
    (∀ diagnostic ∈ schema.diagnostics policy root, diagnostic.isError = false) ↔
      Tolerates policy (schema.findings root) := by
  unfold diagnostics Tolerates
  simp only [List.mem_filterMap, Finding.diagnostic?, Option.map_eq_some_iff]
  constructor
  · intro free finding member error
    have mild := free _ ⟨finding, member, _, error, rfl⟩
    cases mild
  · rintro tolerated diagnostic ⟨finding, member, severity, given, rfl⟩
    have mild := tolerated finding member
    cases severity with
    | error => exact absurd given mild
    | warning => rfl

/-- A policy tolerates all findings exactly in the conforming documents, which for a policy that
requires the namespace lie in it altogether. -/
theorem tolerates_findings_iff {schema : Schema} {policy : NamespacePolicy} {root : Element}
    (unambiguous : schema.root.Unambiguous) (plain : '/' ∉ schema.root.name.toList) :
    Tolerates policy (schema.findings root) ↔
      root.name = schema.root.name ∧ Conforms schema.root root ∧
        (policy = .require → root.Everywhere fun element =>
          element.namespaceName = some schema.namespaceName) := by
  unfold findings
  split
  · next named =>
    have outermost := Address.isNested_root plain
    rw [named, tolerates_elementFindings_iff unambiguous
      fun _ nested => absurd nested (by simp [outermost])]
    simp only [true_and]
  · next other =>
    exact iff_of_false (not_tolerates_singleton rfl) fun conforming => other conforming.1

/-- The exhibit schema never declares a name twice in one place. -/
theorem exhibit_unambiguous : exhibit.root.Unambiguous := by
  simp [exhibit, Exhibit.record, Exhibit.basicInfo, Exhibit.description, Exhibit.tags,
    Exhibit.technical, Exhibit.dimensions, Exhibit.location, Exhibit.history, Exhibit.acquisition,
    Exhibit.exhibitions, Exhibit.exhibition, Exhibit.media, Exhibit.image, Declaration.free,
    Declaration.name, Declaration.unambiguous_complex_iff, Declaration.Unambiguous.simple]

/-- A document has no error exactly when its root has the declared name and conforms to the
declaration of the root, and, where namespaces are required, every element is in the namespace of
the schema. -/
theorem diagnostics_free_of_errors_iff {schema : Schema} (policy : NamespacePolicy)
    (root : Element) (unambiguous : schema.root.Unambiguous)
    (plain : '/' ∉ schema.root.name.toList) :
    (∀ diagnostic ∈ schema.diagnostics policy root, diagnostic.isError = false) ↔
      root.name = schema.root.name ∧ Conforms schema.root root ∧
        (policy = .require → root.Everywhere fun element =>
          element.namespaceName = some schema.namespaceName) := by
  rw [diagnostics_free_of_errors_iff_tolerates, tolerates_findings_iff unambiguous plain]

/-- An exhibit element with a name, attributes, text and children. -/
def exhibitElement (name : String) (attributes : List (String × String)) (text : String)
    (children : List Element) : Element :=
  ⟨name, some Exhibit.namespaceName, attributes, text, children⟩

/-- A record with a measurement between blanks and a repeated child. -/
def sampleRecord : Element :=
  exhibitElement "Exhibit" [("status", "Active"), ("id", "EXH001")] "\n"
    [exhibitElement "BasicInfo" [] ""
        [exhibitElement "Title" [] "Amphora" [], exhibitElement "Category" [] "Pottery" []],
      exhibitElement "Description" [] ""
        [exhibitElement "ShortDescription" [] "A jar" []],
      exhibitElement "Technical" [] ""
        [exhibitElement "Dimensions" [("unit", "cm")] ""
            [exhibitElement "Height" [] " -.5E+3 " []],
          exhibitElement "Material" [] "Clay" [], exhibitElement "Material" [] "Slip" [],
          exhibitElement "Condition" [] "Good" []],
      exhibitElement "Location" [("onDisplay", " 0 ")] ""
        [exhibitElement "Building" [] "Main" [], exhibitElement "Room" [] "12" []]]

theorem sampleRecord_conforms :
    exhibit.root.Unambiguous ∧ '/' ∉ exhibit.root.name.toList ∧
      sampleRecord.name = exhibit.root.name ∧ Conforms exhibit.root sampleRecord ∧
        (NamespacePolicy.require = .require → sampleRecord.Everywhere fun element =>
          element.namespaceName = some exhibit.namespaceName) :=
  ⟨exhibit_unambiguous, by decide,
    (diagnostics_free_of_errors_iff .require sampleRecord exhibit_unambiguous (by decide)).mp
      (by decide +kernel)⟩

end Schema
end MuseumRecord
