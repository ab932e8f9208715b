import MuseumRecord.Proofs.Markup.Unbroken
import MuseumRecord.Proofs.Schema.Sighting
import MuseumRecord.Schema.Exhibit

/-!
# Findings on one line

A finding quotes names, the namespace of an element, the values of a few attributes and the texts of
a few elements.  Names take one line, so a finding does if what else it quotes does.
-/

namespace MuseumRecord

open Markup Text

/-! ## What may be quoted -/

namespace Markup

/-- The attributes whose values may be quoted: those that the schema gives a type and the
identifier. -/
def quotedAttributes : List String :=
  ["id", "status", "unit", "onDisplay", "primary"]

/-- The elements whose texts may be quoted: those that the schema gives a type, the date of making
and the names of image files. -/
def quotedElements : List String :=
  ["Category", "Condition", "Method", "Height", "Width", "Depth", "Diameter", "Date", "StartDate",
    "EndDate", "Price", "DateCreated", "FileName"]

namespace Element

/-- What may be quoted of an element, besides names, takes one line. -/
structure HasUnbrokenQuotes (element : Element) : Prop where
  inNamespace : ∀ name, element.namespaceName = some name → IsSingleLine name
  values : ∀ written ∈ element.attributes, written.1 ∈ quotedAttributes → IsSingleLine written.2
  text : element.children = [] → element.name ∈ quotedElements → IsSingleLine element.text

/-- What may be said about an element takes one line. -/
structure IsUnbroken (element : Element) : Prop extends
  element.HasUnbrokenNames, element.HasUnbrokenQuotes

end Element
end Markup

namespace Schema

/-- What a declaration names takes one line, and only values and texts that may be quoted are given
a type. -/
inductive Declaration.IsUnbroken : Declaration → Prop
  | simple {name : String} {occurrence : Occurrence} {type : ValueType} :
      IsSingleLine name →
      IsSingleLine type.text →
      (type = .string ∨ name ∈ quotedElements) →
      IsUnbroken (.simple name occurrence type)
  | complex {name : String} {occurrence : Occurrence} {typeName : String}
      {attributes : List AttributeDeclaration} {children : List Declaration} :
      IsSingleLine name →
      (∀ declared ∈ attributes,
        IsSingleLine declared.name ∧ IsSingleLine declared.type.text ∧
          declared.name ∈ quotedAttributes) →
      (∀ child ∈ children, child.IsUnbroken) →
      IsUnbroken (.complex name occurrence typeName attributes children)

theorem Declaration.IsUnbroken.name {declaration : Declaration}
    (unbroken : declaration.IsUnbroken) : IsSingleLine declaration.name := by
  cases unbroken with
  | simple named _ _ => exact named
  | complex named _ _ => exact named

theorem Declaration.isUnbroken_simple_iff {name : String} {occurrence : Occurrence}
    {type : ValueType} :
    (Declaration.simple name occurrence type).IsUnbroken ↔
      IsSingleLine name ∧ IsSingleLine type.text ∧ (type = .string ∨ name ∈ quotedElements) := by
  constructor
  · intro unbroken
    cases unbroken with
    | simple named typed quoted => exact ⟨named, typed, quoted⟩
  · rintro ⟨named, typed, quoted⟩
    exact .simple named typed quoted

theorem Declaration.isUnbroken_complex_iff {name : String} {occurrence : Occurrence}
    {typeName : String} {attributes : List AttributeDeclaration} {children : List Declaration} :
    (Declaration.complex name occurrence typeName attributes children).IsUnbroken ↔
      IsSingleLine name ∧
        (∀ declared ∈ attributes,
          IsSingleLine declared.name ∧ IsSingleLine declared.type.text ∧
            declared.name ∈ quotedAttributes) ∧
        ∀ child ∈ children, child.IsUnbroken := by
  constructor
  · intro unbroken
    cases unbroken with
    | complex named attributes children => exact ⟨named, attributes, children⟩
  · rintro ⟨named, attributes, children⟩
    exact .complex named attributes children

/-! ## The text of a finding -/

namespace Problem

/-- The names, types and values that a problem quotes. -/
def quoted : Problem → List String
  | .wrongRoot name expected => [name, expected]
  | .noNamespace name expected => [name, expected]
  | .otherNamespace name found expected => [name, found, expected]
  | .unexpectedAttribute key element => [key, element]
  | .badAttribute key type value => [key, value, type.text]
  | .missingAttribute key element => [key, element]
  | .badText type value => [value, type.text]
  | .childrenInText element => [element]
  | .textAmongChildren element => [element]
  | .missingElement name parent => [name, parent]
  | .tooMany name _ parent => [name, parent]
  | .outOfOrder name parent => [name, parent]
  | .unexpectedElement name parent => [name, parent]

theorem isSingleLine_rejection {type : ValueType} {value : String}
    (typed : IsSingleLine type.text) (single : IsSingleLine value) :
    IsSingleLine (type.rejection value) := by
  change IsSingleLine (_ ++ _)
  simp only [isSingleLine_append, isSingleLine_toString, typed, single, and_true]
  and_intros <;> exact isSingleLine_ofList.mpr (by decide)

/-- What is said about a problem takes one line if all that it quotes does. -/
theorem isSingleLine_message {problem : Problem}
    (single : ∀ text ∈ problem.quoted, IsSingleLine text) : IsSingleLine problem.message := by
  cases problem with
  | badText type value =>
    simp only [quoted, List.forall_mem_cons] at single
    exact isSingleLine_rejection single.2.1 single.1
  | badAttribute key type value =>
    simp only [quoted, List.forall_mem_cons] at single
    have rejected := isSingleLine_rejection single.2.2.1 single.2.1
    change IsSingleLine (_ ++ _)
    simp only [isSingleLine_append, isSingleLine_toString, single, rejected, and_true]
    and_intros <;> exact isSingleLine_ofList.mpr (by decide)
  | _ =>
    simp only [quoted, List.forall_mem_cons] at single
    change IsSingleLine (_ ++ _)
    simp only [isSingleLine_append, isSingleLine_toString, isSingleLine_number, single, and_true]
    and_intros <;> exact isSingleLine_ofList.mpr (by decide)

end Problem

theorem AddressStep.isSingleLine_text {step : AddressStep} (named : IsSingleLine step.name) :
    IsSingleLine step.text := by
  obtain ⟨name, number⟩ := step
  cases number with
  | none => exact named
  | some number =>
    have named : IsSingleLine name := named
    change IsSingleLine (_ ++ _)
    simp only [isSingleLine_append, isSingleLine_toString, isSingleLine_number, named, and_true,
      true_and]
    and_intros <;> exact isSingleLine_ofList.mpr (by decide)

theorem Address.isSingleLine_text {address : Address}
    (named : ∀ step ∈ address, IsSingleLine step.name) : IsSingleLine address.text := by
  rw [IsSingleLine, toList_text, List.mem_flatMap]
  rintro ⟨step, member, inside⟩
  rcases List.mem_cons.mp inside with slash | inside
  · cases slash
  · exact AddressStep.isSingleLine_text (named step member) inside

/-- The address of a finding takes one line where the names of the elements do. -/
theorem isSingleLine_address {schema : Schema} {root : Element} {finding : Finding}
    (named : root.Everywhere Element.HasUnbrokenNames)
    (member : finding ∈ schema.findings root) : IsSingleLine finding.address.text := by
  rw [← map_finding_sightings] at member
  obtain ⟨sighting, seen, rfl⟩ := List.mem_map.mp member
  obtain ⟨element, found, address, _⟩ := forall_isIn_sightings schema root sighting seen
  rw [address]
  exact Address.isSingleLine_text (forall_name_addressOf (named.mono fun _ => (·.name)) found)

/-! ## What the findings of an element quote -/

/-- All that findings quote takes one line. -/
def AreUnbroken (findings : List Finding) : Prop :=
  ∀ finding ∈ findings, ∀ text ∈ finding.problem.quoted, IsSingleLine text

section Findings

variable {expected : String} {address : Address} {above : Option String} {element : Element}

theorem areUnbroken_nil : AreUnbroken [] :=
  List.forall_mem_nil _

theorem areUnbroken_append {left right : List Finding} (first : AreUnbroken left)
    (second : AreUnbroken right) : AreUnbroken (left ++ right) :=
  List.forall_mem_append.mpr ⟨first, second⟩

theorem areUnbroken_singleton {problem : Problem}
    (single : ∀ text ∈ problem.quoted, IsSingleLine text) : AreUnbroken [⟨address, problem⟩] :=
  List.forall_mem_singleton.mpr single

theorem areUnbroken_namespaceFindings (told : IsSingleLine expected)
    (unbroken : element.IsUnbroken) :
    AreUnbroken (namespaceFindings expected address above element.name element.namespaceName) := by
  unfold namespaceFindings
  split
  · exact areUnbroken_nil
  · cases found : element.namespaceName with
    | none => exact areUnbroken_singleton (by simp [Problem.quoted, unbroken.name, told])
    | some other =>
      have quoted := unbroken.inNamespace other found
      exact areUnbroken_singleton (by simp [Problem.quoted, unbroken.name, told, quoted])

theorem areUnbroken_strayAttributes (unbroken : element.IsUnbroken) :
    AreUnbroken (strayAttributes address element.name element.attributes) := by
  intro finding member
  obtain ⟨written, inside, rfl⟩ := List.mem_map.mp member
  simp [Problem.quoted, unbroken.name, unbroken.attributes written inside]

theorem areUnbroken_attributeFindings {declared : List AttributeDeclaration}
    (named : ∀ declaration ∈ declared, IsSingleLine declaration.name ∧
      IsSingleLine declaration.type.text ∧ declaration.name ∈ quotedAttributes)
    (unbroken : element.IsUnbroken) {written : String × String}
    (inside : written ∈ element.attributes) :
    AreUnbroken (attributeFindings address element.name declared written) := by
  have key := unbroken.attributes written inside
  unfold attributeFindings
  split
  · exact areUnbroken_singleton (by simp [Problem.quoted, unbroken.name, key])
  · next declaration found =>
    split
    · exact areUnbroken_nil
    · obtain ⟨_, typed, quoted⟩ := named declaration (List.mem_of_find?_eq_some found)
      have sameName : declaration.name = written.1 := by simpa using List.find?_some found
      have value := unbroken.values written inside (sameName ▸ quoted)
      exact areUnbroken_singleton (by simp [Problem.quoted, key, typed, value])

theorem areUnbroken_absentAttributes {declared : List AttributeDeclaration}
    (named : ∀ declaration ∈ declared, IsSingleLine declaration.name ∧
      IsSingleLine declaration.type.text ∧ declaration.name ∈ quotedAttributes)
    (unbroken : element.IsUnbroken) :
    AreUnbroken (absentAttributes address element.name declared element.attributes) := by
  intro finding member
  obtain ⟨declaration, absent, rfl⟩ := List.mem_map.mp member
  simp [Problem.quoted, unbroken.name, (named declaration (List.mem_of_mem_filter absent)).1]

theorem areUnbroken_textFindings {type : ValueType} (typed : IsSingleLine type.text)
    (quoted : type = .string ∨ element.name ∈ quotedElements) (unbroken : element.IsUnbroken) :
    AreUnbroken (textFindings address element.name type element.text element.children) := by
  unfold textFindings
  split
  · exact areUnbroken_singleton (by simp [Problem.quoted, unbroken.name])
  · next filled =>
    split
    · exact areUnbroken_nil
    · next refused =>
      have childless : element.children = [] := by simpa using filled
      rcases quoted with rfl | listed
      · exact absurd rfl refused
      · have text := unbroken.text childless listed
        exact areUnbroken_singleton (by simp [Problem.quoted, typed, text])

theorem areUnbroken_mixedTextFindings (unbroken : element.IsUnbroken) :
    AreUnbroken (mixedTextFindings address element.name element.text) := by
  unfold mixedTextFindings
  split
  · exact areUnbroken_nil
  · exact areUnbroken_singleton (by simp [Problem.quoted, unbroken.name])

theorem areUnbroken_missingFindings {parent : String} (single : IsSingleLine parent)
    {missing : List Declaration} (named : ∀ declaration ∈ missing, declaration.IsUnbroken) :
    AreUnbroken (missingFindings address parent missing) := by
  intro finding member
  obtain ⟨declaration, absent, rfl⟩ := List.mem_map.mp member
  simp [Problem.quoted, single, (named declaration absent).name]

theorem areUnbroken_limitFindings {name parent : String} (named : IsSingleLine name)
    (single : IsSingleLine parent) (overLimit : Option Nat) :
    AreUnbroken (limitFindings address name parent overLimit) := by
  intro finding member
  obtain ⟨most, _, rfl⟩ := List.mem_map.mp member
  simp [Problem.quoted, named, single]

/-! ## What the findings of children quote -/

theorem Cursor.wanting_subset (count : Nat) (declarations : List Declaration) :
    wanting count declarations ⊆ declarations := by
  induction declarations generalizing count with
  | nil => exact List.Subset.refl _
  | cons declaration rest inductionHypothesis =>
    unfold wanting
    split
    · exact List.cons_subset_cons _ (inductionHypothesis 0)
    · exact List.Subset.trans (inductionHypothesis 0) (List.subset_cons_self _ _)

theorem areUnbroken_childFindings {cursor : Cursor} {before : List String} {parent : String}
    {namespaceName : Option String} {rest : List Element} (single : IsSingleLine parent)
    (named : ∀ declaration ∈ cursor.ahead, declaration.IsUnbroken)
    (unbroken : ∀ child ∈ rest, child.IsUnbroken)
    (each : ∀ child ∈ rest, ∀ declaration address above, declaration.IsUnbroken →
      declaration.name = child.name →
      AreUnbroken (elementFindings expected declaration address above child)) :
    AreUnbroken (childFindings expected address parent namespaceName cursor before rest) := by
  induction rest generalizing cursor before with
  | nil =>
    rw [childFindings]
    exact areUnbroken_missingFindings single fun declaration member =>
      named declaration (Cursor.wanting_subset _ _ member)
  | cons child rest inductionHypothesis =>
    rw [List.forall_mem_cons] at unbroken each
    rw [childFindings_cons]
    rcases cursor.step_cases child.name with
      ⟨placement, step, nowhere⟩ | ⟨skipped, declaration, after, division, sameName, step⟩
    · rw [step]
      have others := @inductionHypothesis cursor (before ++ [child.name]) named unbroken.2 each.2
      have quoted : ∀ text ∈ [child.name, parent], IsSingleLine text := by
        simp [unbroken.1.name, single]
      rcases nowhere with rfl | rfl
      · exact areUnbroken_append (areUnbroken_append areUnbroken_nil
          (areUnbroken_singleton quoted)) others
      · exact areUnbroken_append (areUnbroken_append areUnbroken_nil
          (areUnbroken_singleton quoted)) others
    · rw [division, List.forall_mem_append, List.forall_mem_cons] at named
      rw [step]
      refine areUnbroken_append (areUnbroken_append ?_ (areUnbroken_append ?_ ?_)) ?_
      · exact areUnbroken_missingFindings single fun other absent =>
          named.1 other (Cursor.wanting_subset _ _ absent)
      · exact areUnbroken_limitFindings unbroken.1.name single _
      · exact each.1 declaration _ _ named.2.1 sameName
      · exact inductionHypothesis (List.forall_mem_cons.mpr named.2) unbroken.2 each.2

/-- All that the findings in an element quote takes one line. -/
theorem areUnbroken_elementFindings {declaration : Declaration} (told : IsSingleLine expected)
    (declared : declaration.IsUnbroken) (sameName : declaration.name = element.name)
    (unbroken : element.Everywhere Element.IsUnbroken) :
    AreUnbroken (elementFindings expected declaration address above element) := by
  induction element using Element.inductionOnChildren
    generalizing declaration address above with
  | step element inductionHypothesis =>
    obtain ⟨here, below⟩ := Element.everywhere_iff.mp unbroken
    cases declared with
    | @simple name _ _ _ typed quoted =>
      have sameName : name = element.name := sameName
      rw [sameName] at quoted
      cases element
      rw [elementFindings]
      exact areUnbroken_append (areUnbroken_namespaceFindings told here)
        (areUnbroken_append (areUnbroken_strayAttributes here)
          (areUnbroken_textFindings typed quoted here))
    | complex named attributes children =>
      rw [elementFindings_complex, ownFindings]
      refine areUnbroken_append (areUnbroken_append (areUnbroken_namespaceFindings told here)
        (areUnbroken_append (areUnbroken_append ?_ ?_) (areUnbroken_mixedTextFindings here))) ?_
      · intro finding member
        obtain ⟨written, inside, found⟩ := List.mem_flatMap.mp member
        exact areUnbroken_attributeFindings attributes here inside finding found
      · exact areUnbroken_absentAttributes attributes here
      · exact areUnbroken_childFindings here.name children
          (fun child member => (Element.everywhere_iff.mp (below child member)).1)
          fun child member declaration address above declared sameName =>
            inductionHypothesis child member declared sameName (below child member)

/-- All that the findings of a document quote takes one line if it does in the document. -/
theorem areUnbroken_findings {schema : Schema} {root : Element}
    (told : IsSingleLine schema.namespaceName) (declared : schema.root.IsUnbroken)
    (unbroken : root.Everywhere Element.IsUnbroken) : AreUnbroken (schema.findings root) := by
  unfold findings
  dsimp only
  split
  · next sameName => exact areUnbroken_elementFindings told declared sameName.symm unbroken
  · have named := (Element.everywhere_iff.mp unbroken).1.name
    exact areUnbroken_singleton (by simp [Problem.quoted, named, declared.name])

end Findings

/-! ## The schema of exhibits -/

theorem isSingleLine_enumeration {set : Enumeration}
    (single : IsSingleLine set.name ∧ ∀ value ∈ set.values, IsSingleLine value) :
    IsSingleLine (ValueType.enumeration set).text := by
  have between : IsSingleLine ", " := isSingleLine_ofList.mpr (by decide)
  have values := isSingleLine_intercalate between single.2
  change IsSingleLine (_ ++ _)
  simp only [isSingleLine_append, single.1, values, and_true, true_and]
  and_intros <;> exact isSingleLine_ofList.mpr (by decide)

theorem isSingleLine_of_mem_enumerations :
    ∀ set ∈ Exhibit.enumerations,
      IsSingleLine set.name ∧ ∀ value ∈ set.values, IsSingleLine value := by
  simp only [Exhibit.enumerations, Exhibit.category, Exhibit.status, Exhibit.condition,
    Exhibit.unit, Exhibit.acquisitionMethod, List.mem_cons, List.not_mem_nil, or_false,
    forall_eq_or_imp, forall_eq]
  and_intros <;> exact isSingleLine_ofList.mpr (by decide)

theorem exhibit_isUnbroken : exhibit.root.IsUnbroken := by
  have types : ∀ set ∈ Exhibit.enumerations, IsSingleLine (ValueType.enumeration set).text :=
    fun set member => isSingleLine_enumeration (isSingleLine_of_mem_enumerations set member)
  simp only [Exhibit.enumerations, List.forall_mem_cons] at types
  simp only [exhibit, Exhibit.record, Exhibit.basicInfo, Exhibit.description, Exhibit.tags,
    Exhibit.technical, Exhibit.dimensions, Exhibit.location, Exhibit.history, Exhibit.acquisition,
    Exhibit.exhibitions, Exhibit.exhibition, Exhibit.media, Exhibit.image, Declaration.free,
    Declaration.isUnbroken_simple_iff, Declaration.isUnbroken_complex_iff, types, quotedElements,
    quotedAttributes, List.mem_cons, List.not_mem_nil, forall_eq_or_imp, forall_eq, or_false,
    true_or, or_true, true_and, and_true, IsEmpty.forall_iff, implies_true]
  and_intros <;> exact isSingleLine_ofList.mpr (by decide)

end Schema
end MuseumRecord
