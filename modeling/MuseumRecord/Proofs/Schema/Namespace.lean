import MuseumRecord.Exhibit
import MuseumRecord.Proofs.Schema.Conforming
import MuseumRecord.Rule.Group

/-!
# Namespaces and their policies

The policy on namespaces decides about the problems of namespaces and about nothing else.  Those
problems are found where the namespace of a walked element departs from the schema and is not
passed on from the parent; no other finding and no rule looks at a namespace.
-/

namespace MuseumRecord

/-! ## Trees without namespaces -/

namespace Markup
namespace Element

mutual

/-- The tree with every element in no namespace. -/
def unqualified : Element → Element
  | ⟨name, _, attributes, text, children⟩ =>
    ⟨name, none, attributes, text, unqualifiedAll children⟩

/-- A row of trees with every element in no namespace. -/
def unqualifiedAll : List Element → List Element
  | [] => []
  | element :: rest => unqualified element :: unqualifiedAll rest

end

theorem unqualifiedAll_eq_map (elements : List Element) :
    unqualifiedAll elements = elements.map unqualified := by
  induction elements with
  | nil => rfl
  | cons element rest inductionHypothesis =>
    rw [unqualifiedAll, inductionHypothesis, List.map_cons]

variable (element : Element)

@[simp] theorem unqualified_name : element.unqualified.name = element.name := by
  cases element
  rfl

@[simp] theorem unqualified_attributes : element.unqualified.attributes = element.attributes := by
  cases element
  rfl

@[simp] theorem unqualified_text : element.unqualified.text = element.text := by
  cases element
  rfl

@[simp] theorem unqualified_children :
    element.unqualified.children = element.children.map unqualified := by
  cases element
  exact unqualifiedAll_eq_map _

@[simp] theorem attribute?_unqualified (name : String) :
    element.unqualified.attribute? name = element.attribute? name := by
  simp [attribute?]

@[simp] theorem child?_unqualified (name : String) :
    element.unqualified.child? name = (element.child? name).map unqualified := by
  have same : (fun child => child.name == name) ∘ unqualified = fun child => child.name == name := by
    funext child
    rw [Function.comp_apply, unqualified_name]
  rw [child?, unqualified_children, List.find?_map, same, child?]

@[simp] theorem childrenNamed_unqualified (name : String) :
    element.unqualified.childrenNamed name = (element.childrenNamed name).map unqualified := by
  simp [childrenNamed, List.filter_map, Function.comp_def]

@[simp] theorem childText?_unqualified (name : String) :
    element.unqualified.childText? name = element.childText? name := by
  simp [childText?, Function.comp_def]

end Element
end Markup

open Markup (Element)

/-- The rules see nothing of namespaces. -/
theorem Exhibit.ofElement_unqualified (root : Element) :
    Exhibit.ofElement root.unqualified = Exhibit.ofElement root := by
  have basicInfo (element : Element) :
      BasicInfo.ofElement element.unqualified = BasicInfo.ofElement element := by
    simp [BasicInfo.ofElement]
  have dimensions (element : Element) :
      Dimensions.ofElement element.unqualified = Dimensions.ofElement element := by
    simp [Dimensions.ofElement]
  have technical (element : Element) :
      Technical.ofElement element.unqualified = Technical.ofElement element := by
    simp [Technical.ofElement, Function.comp_def, dimensions]
  have location (element : Element) :
      Location.ofElement element.unqualified = Location.ofElement element := by
    simp [Location.ofElement]
  have acquisition (element : Element) :
      Acquisition.ofElement element.unqualified = Acquisition.ofElement element := by
    simp [Acquisition.ofElement]
  have exhibition (element : Element) :
      Exhibition.ofElement element.unqualified = Exhibition.ofElement element := by
    simp [Exhibition.ofElement]
  have history (element : Element) :
      History.ofElement element.unqualified = History.ofElement element := by
    cases found : element.child? "Exhibitions" <;>
      simp [History.ofElement, Function.comp_def, found, acquisition, exhibition]
  have image (element : Element) :
      Image.ofElement element.unqualified = Image.ofElement element := by
    simp [Image.ofElement]
  have media (element : Element) :
      Media.ofElement element.unqualified = Media.ofElement element := by
    simp [Media.ofElement, Function.comp_def, image]
  simp [Exhibit.ofElement, Function.comp_def, basicInfo, technical, location, history, media]

namespace Schema

/-! ## Walked elements -/

/-- An element that is walked: where it is and what it is named, its namespace and, below the root,
the namespace of its parent. -/
structure Visit where
  address : Address
  above : Option (Option String)
  name : String
  namespaceName : Option String

namespace Visit

/-- The element is in another namespace than the expected one, and its parent, if it has one, is in
yet another. -/
def IsForeign (expected : String) (visit : Visit) : Prop :=
  visit.namespaceName ≠ some expected ∧ visit.above ≠ some visit.namespaceName

instance (expected : String) : DecidablePred (IsForeign expected) :=
  fun _ => inferInstanceAs (Decidable (_ ∧ _))

/-- What is found wrong with the namespace of an element. -/
def finding (expected : String) (visit : Visit) : Finding :=
  ⟨visit.address,
    match visit.namespaceName with
    | none => .noNamespace visit.name expected
    | some other => .otherNamespace visit.name other expected⟩

end Visit

mutual

/-- The elements walked from an element on, in written order. -/
def visitsFrom (declaration : Declaration) (address : Address) (above : Option (Option String)) :
    Element → List Visit
  | ⟨name, namespaceName, _, _, children⟩ =>
    ⟨address, above, name, namespaceName⟩ ::
      match declaration with
      | .simple _ _ _ => []
      | .complex _ _ _ _ declared => visitsAmong address namespaceName (.start declared) [] children

/-- The elements walked in a row of children: those that find a place, with all that is walked
below them. -/
def visitsAmong (address : Address) (namespaceName : Option String) (cursor : Cursor)
    (before : List String) : List Element → List Visit
  | [] => []
  | child :: rest =>
    let step := AddressStep.toChild child.name before (rest.map Element.name)
    (match (cursor.step child.name).1 with
      | .placed _ _ declaration =>
        visitsFrom declaration (address ++ [step]) (some namespaceName) child
      | .outOfOrder => []
      | .unexpected => []) ++
      visitsAmong address namespaceName (cursor.step child.name).2 (before ++ [child.name]) rest

end

/-- The walked elements of a document.  A root of another name is not walked. -/
def visits (schema : Schema) (root : Element) : List Visit :=
  if root.name = schema.root.name then
    visitsFrom schema.root [⟨root.name, none⟩] none root
  else
    []

/-! ## Findings about namespaces and others -/

/-- The findings about namespaces. -/
def aboutNamespaces (findings : List Finding) : List Finding :=
  findings.filter fun finding => finding.problem.isAboutNamespace

/-- The findings about anything else. -/
def aboutOthers (findings : List Finding) : List Finding :=
  findings.filter fun finding => !finding.problem.isAboutNamespace

/-- What is found wrong with the namespaces of the walked elements. -/
def foreign (expected : String) (visits : List Visit) : List Finding :=
  (visits.filter (Visit.IsForeign expected)).map (Visit.finding expected)

/-- No finding is about a namespace. -/
def IsAboutOthers (findings : List Finding) : Prop :=
  ∀ finding ∈ findings, finding.problem.isAboutNamespace = false

section Findings

variable {expected name parent text : String} {address : Address}
  {namespaceName above : Option String} {declaration : Declaration} {element : Element}
  {children : List Element} {attributes : List (String × String)}
  {declaredAttributes : List AttributeDeclaration}

theorem aboutNamespaces_append (left right : List Finding) :
    aboutNamespaces (left ++ right) = aboutNamespaces left ++ aboutNamespaces right :=
  List.filter_append left right

theorem aboutOthers_append (left right : List Finding) :
    aboutOthers (left ++ right) = aboutOthers left ++ aboutOthers right :=
  List.filter_append left right

theorem aboutOthers_append_congr {front left right : List Finding}
    (same : aboutOthers left = aboutOthers right) :
    aboutOthers (front ++ left) = aboutOthers (front ++ right) := by
  rw [aboutOthers_append, aboutOthers_append, same]

theorem foreign_append (left right : List Visit) :
    foreign expected (left ++ right) = foreign expected left ++ foreign expected right := by
  rw [foreign, List.filter_append, List.map_append]
  rfl

namespace IsAboutOthers

theorem aboutNamespaces {findings : List Finding} (others : IsAboutOthers findings) :
    aboutNamespaces findings = [] := by
  rw [Schema.aboutNamespaces, List.filter_eq_nil_iff]
  intro finding member
  simp [others finding member]

theorem append {left right : List Finding} (leftOthers : IsAboutOthers left)
    (rightOthers : IsAboutOthers right) : IsAboutOthers (left ++ right) :=
  List.forall_mem_append.mpr ⟨leftOthers, rightOthers⟩

theorem map {α : Type} {items : List α} {problem : α → Problem}
    (other : ∀ item, (problem item).isAboutNamespace = false) :
    IsAboutOthers (items.map fun item => ⟨address, problem item⟩) := by
  intro finding member
  obtain ⟨item, _, rfl⟩ := List.mem_map.mp member
  exact other item

theorem flatMap {α : Type} {items : List α} {findings : α → List Finding}
    (others : ∀ item, IsAboutOthers (findings item)) : IsAboutOthers (items.flatMap findings) := by
  intro finding member
  obtain ⟨item, _, found⟩ := List.mem_flatMap.mp member
  exact others item finding found

theorem nil : IsAboutOthers [] :=
  List.forall_mem_nil _

theorem single {problem : Problem} (other : problem.isAboutNamespace = false) :
    IsAboutOthers [⟨address, problem⟩] :=
  List.forall_mem_singleton.mpr other

end IsAboutOthers

theorem isAboutOthers_textFindings {type : ValueType} :
    IsAboutOthers (textFindings address name type text children) := by
  unfold textFindings
  split
  · exact .single rfl
  · split
    · exact .nil
    · exact .single rfl

theorem isAboutOthers_attributeFindings {written : String × String} :
    IsAboutOthers (attributeFindings address name declaredAttributes written) := by
  unfold attributeFindings
  split
  · exact .single rfl
  · split
    · exact .nil
    · exact .single rfl

theorem isAboutOthers_mixedTextFindings :
    IsAboutOthers (mixedTextFindings address name text) := by
  unfold mixedTextFindings
  split
  · exact .nil
  · exact .single rfl

/-! ### Where a namespace is found wrong -/

/-- Every step of an address brings a slash. -/
theorem Address.length_le_count (address : Address) :
    address.length ≤ (Address.text address).toList.count '/' := by
  induction address with
  | nil => exact Nat.zero_le _
  | cons step rest inductionHypothesis =>
    simp only [Address.text, String.toList_join] at inductionHypothesis ⊢
    simp
    omega

/-- The address of a child is nested, whatever the names. -/
theorem Address.isNested_append (step : AddressStep) (notEmpty : address ≠ []) :
    Address.isNested (address ++ [step]) = true := by
  have slashes := Address.length_le_count (address ++ [step])
  have positive := List.length_pos_iff.mpr notEmpty
  rw [List.length_append, List.length_singleton] at slashes
  unfold Address.isNested
  rw [decide_eq_true_iff]
  omega

/-- The namespace that counts as the one of the parent: at the root there is none. -/
def parentOf (address : Address) (above : Option String) : Option (Option String) :=
  if address.isNested then some above else none

theorem namespaceFindings_eq_foreign :
    namespaceFindings expected address above name namespaceName =
      foreign expected [⟨address, parentOf address above, name, namespaceName⟩] := by
  unfold namespaceFindings foreign
  by_cases accepted : namespaceName = some expected ∨ (address.isNested ∧ namespaceName = above)
  · have own : ¬ Visit.IsForeign expected
        ⟨address, parentOf address above, name, namespaceName⟩ := by
      rintro ⟨differs, changes⟩
      rcases accepted with equal | ⟨nested, same⟩
      · exact differs equal
      · exact changes (by rw [parentOf, if_pos nested, same])
    rw [if_pos accepted, List.filter_cons_of_neg (by simpa using own)]
    rfl
  · have strange : Visit.IsForeign expected
        ⟨address, parentOf address above, name, namespaceName⟩ := by
      refine ⟨fun equal => accepted (.inl equal), fun same => accepted (.inr ?_)⟩
      unfold parentOf at same
      split at same
      · next nested => exact ⟨nested, (Option.some.inj same).symm⟩
      · cases same
    rw [if_neg accepted, List.filter_cons_of_pos (by simpa using strange)]
    cases namespaceName <;> rfl

theorem aboutNamespaces_foreign (visits : List Visit) :
    aboutNamespaces (foreign expected visits) = foreign expected visits := by
  rw [aboutNamespaces, List.filter_eq_self]
  intro finding member
  obtain ⟨⟨address, parent, name, namespaceName⟩, _, rfl⟩ := List.mem_map.mp member
  cases namespaceName <;> rfl

/-- In a row of children a namespace is found wrong exactly where a walked element is foreign. -/
theorem aboutNamespaces_childFindings {cursor : Cursor} {before : List String}
    (each : ∀ child ∈ children, ∀ declaration step,
      aboutNamespaces
          (elementFindings expected declaration (address ++ [step]) namespaceName child) =
        foreign expected
          (visitsFrom declaration (address ++ [step]) (some namespaceName) child)) :
    aboutNamespaces
        (childFindings expected address parent namespaceName cursor before children) =
      foreign expected (visitsAmong address namespaceName cursor before children) := by
  induction children generalizing cursor before with
  | nil =>
    rw [childFindings, visitsAmong, missingFindings,
      (IsAboutOthers.map fun _ => rfl).aboutNamespaces]
    rfl
  | cons child rest inductionHypothesis =>
    have later := @inductionHypothesis (cursor.step child.name).2 (before ++ [child.name])
      fun other member => each other (.tail _ member)
    rw [childFindings, visitsAmong]
    dsimp only
    rw [aboutNamespaces_append, foreign_append, later]
    congr 1
    cases (cursor.step child.name).1 with
    | placed skipped overLimit declaration =>
      have others : IsAboutOthers (missingFindings address parent skipped ++
          limitFindings (address ++ [.toChild child.name before (rest.map Element.name)])
            child.name parent overLimit) :=
        .append (.map fun _ => rfl) (.map fun _ => rfl)
      rw [aboutNamespaces_append, others.aboutNamespaces, List.nil_append]
      exact each child List.mem_cons_self declaration _
    | outOfOrder => exact (IsAboutOthers.single rfl).aboutNamespaces
    | unexpected => exact (IsAboutOthers.single rfl).aboutNamespaces

/-- In an element and below it a namespace is found wrong exactly where a walked element is
foreign. -/
theorem aboutNamespaces_elementFindings (notEmpty : address ≠ []) :
    aboutNamespaces (elementFindings expected declaration address above element) =
      foreign expected (visitsFrom declaration address (parentOf address above) element) := by
  induction element using Element.inductionOnChildren generalizing declaration address above with
  | step element inductionHypothesis =>
    obtain ⟨name, namespaceName, attributes, text, children⟩ := element
    rw [elementFindings.eq_def, visitsFrom.eq_def]
    dsimp only
    rw [aboutNamespaces_append, namespaceFindings_eq_foreign, aboutNamespaces_foreign]
    refine Eq.trans (congrArg _ ?_) (foreign_append [_] _).symm
    cases declaration with
    | simple _ _ type =>
      have others : IsAboutOthers (strayAttributes address name attributes ++
          textFindings address name type text children) :=
        .append (.map fun _ => rfl) isAboutOthers_textFindings
      exact others.aboutNamespaces
    | complex _ _ _ declaredAttributes declared =>
      have others : IsAboutOthers
          (attributes.flatMap (attributeFindings address name declaredAttributes) ++
            absentAttributes address name declaredAttributes attributes ++
            mixedTextFindings address name text) :=
        .append (.append (.flatMap fun _ => isAboutOthers_attributeFindings)
          (.map fun _ => rfl)) isAboutOthers_mixedTextFindings
      dsimp only
      rw [aboutNamespaces_append, others.aboutNamespaces, List.nil_append]
      apply aboutNamespaces_childFindings
      intro child member declaration step
      have nested := Address.isNested_append step notEmpty
      rw [inductionHypothesis child member (by simp), parentOf, if_pos nested]

/-! ### What is found apart from namespaces -/

theorem aboutOthers_namespaceFindings :
    aboutOthers (namespaceFindings expected address above name namespaceName) = [] := by
  rw [aboutOthers, List.filter_eq_nil_iff]
  intro finding member
  unfold namespaceFindings at member
  split at member
  · cases member
  · split at member <;> rw [List.mem_singleton.mp member] <;> simp [Problem.isAboutNamespace]

/-- In a row of children the other findings are those of the row without namespaces. -/
theorem aboutOthers_childFindings_unqualified {cursor : Cursor} {before : List String}
    (each : ∀ child ∈ children, ∀ declaration step,
      aboutOthers (elementFindings expected declaration (address ++ [step]) none
          child.unqualified) =
        aboutOthers
          (elementFindings expected declaration (address ++ [step]) namespaceName child)) :
    aboutOthers
        (childFindings expected address parent none cursor before
          (children.map Element.unqualified)) =
      aboutOthers
        (childFindings expected address parent namespaceName cursor before children) := by
  induction children generalizing cursor before with
  | nil => rfl
  | cons child rest inductionHypothesis =>
    have later := @inductionHypothesis (cursor.step child.name).2 (before ++ [child.name])
      fun other member => each other (.tail _ member)
    have names : (rest.map Element.unqualified).map Element.name = rest.map Element.name := by
      simp [Function.comp_def]
    rw [List.map_cons, childFindings, childFindings, Element.unqualified_name, names]
    dsimp only
    rw [aboutOthers_append, aboutOthers_append, later]
    congr 1
    cases (cursor.step child.name).1 with
    | placed skipped overLimit declaration =>
      exact aboutOthers_append_congr (each child List.mem_cons_self declaration _)
    | outOfOrder => rfl
    | unexpected => rfl

/-- Apart from namespaces an element is found as wrong as without them. -/
theorem aboutOthers_elementFindings_unqualified (other : Option String) :
    aboutOthers (elementFindings expected declaration address other element.unqualified) =
      aboutOthers (elementFindings expected declaration address above element) := by
  induction element using Element.inductionOnChildren
    generalizing declaration address above other with
  | step element inductionHypothesis =>
    obtain ⟨name, namespaceName, attributes, text, children⟩ := element
    rw [Element.unqualified, elementFindings.eq_def, elementFindings.eq_def]
    dsimp only
    rw [aboutOthers_append, aboutOthers_append, aboutOthers_namespaceFindings,
      aboutOthers_namespaceFindings]
    congr 1
    cases declaration with
    | simple _ _ type =>
      dsimp only
      rw [Element.unqualifiedAll_eq_map, textFindings, textFindings, List.isEmpty_map]
    | complex _ _ _ declaredAttributes declared =>
      rw [Element.unqualifiedAll_eq_map]
      refine aboutOthers_append_congr (aboutOthers_childFindings_unqualified ?_)
      intro child member declaration step
      exact inductionHypothesis child member none

end Findings

/-! ## Policies -/

/-- A finding as a diagnostic. -/
def Finding.diagnostic (severity : Severity) (finding : Finding) : Diagnostic :=
  { severity
    stage := .structural
    path := some finding.address.text
    message := finding.problem.message }

variable {schema : Schema} {root : Element}

theorem diagnostics_require :
    schema.diagnostics .require root = (schema.findings root).map (Finding.diagnostic .error) := by
  unfold diagnostics
  rw [← List.filterMap_eq_map]
  congr
  funext finding
  cases about : finding.problem.isAboutNamespace <;>
    simp [Finding.diagnostic?, severity?, about, Finding.diagnostic]

theorem diagnostics_warn :
    schema.diagnostics .warn root = (schema.findings root).map fun finding =>
      finding.diagnostic (if finding.problem.isAboutNamespace then .warning else .error) := by
  unfold diagnostics
  rw [← List.filterMap_eq_map]
  congr
  funext finding
  cases about : finding.problem.isAboutNamespace <;>
    simp [Finding.diagnostic?, severity?, about, Finding.diagnostic]

theorem diagnostics_ignore :
    schema.diagnostics .ignore root =
      (aboutOthers (schema.findings root)).map (Finding.diagnostic .error) := by
  unfold diagnostics aboutOthers
  rw [← List.filterMap_eq_map, List.filterMap_filter]
  congr
  funext finding
  cases about : finding.problem.isAboutNamespace <;>
    simp [Finding.diagnostic?, severity?, about, Finding.diagnostic]

theorem aboutNamespaces_findings (plain : '/' ∉ schema.root.name.toList) :
    aboutNamespaces (schema.findings root) =
      foreign schema.namespaceName (schema.visits root) := by
  unfold findings visits
  by_cases named : root.name = schema.root.name
  · have outermost := Address.isNested_root plain
    rw [if_pos named, if_pos named, named,
      aboutNamespaces_elementFindings (List.cons_ne_nil _ _), parentOf, outermost]
    rfl
  · rw [if_neg named, if_neg named]
    rfl

theorem aboutOthers_findings_unqualified :
    aboutOthers (schema.findings root.unqualified) = aboutOthers (schema.findings root) := by
  unfold findings
  rw [Element.unqualified_name]
  split
  · exact aboutOthers_elementFindings_unqualified none
  · rfl

/-- A policy on namespaces decides about the findings on namespaces alone: required, they are
errors; warned of, the same as warnings; ignored, they are left out, and all else stays.  There is
one for every walked element that is foreign to the schema and, below the root, to its parent.  Two
documents that differ in namespaces only have the same diagnostics when these are ignored, and are
the same record for the rules. -/
theorem policies_differ_on_namespaces (root : Element) (plain : '/' ∉ schema.root.name.toList) :
    schema.diagnostics .require root =
        (schema.findings root).map (Finding.diagnostic .error) ∧
      schema.diagnostics .warn root =
        (schema.findings root).map (fun finding =>
          finding.diagnostic (if finding.problem.isAboutNamespace then .warning else .error)) ∧
      schema.diagnostics .ignore root =
        ((schema.findings root).filter fun finding => !finding.problem.isAboutNamespace).map
          (Finding.diagnostic .error) ∧
      ((schema.findings root).filter fun finding => finding.problem.isAboutNamespace) =
        ((schema.visits root).filter (Visit.IsForeign schema.namespaceName)).map
          (Visit.finding schema.namespaceName) ∧
      ∀ other : Element, other.unqualified = root.unqualified →
        schema.diagnostics .ignore other = schema.diagnostics .ignore root ∧
          Exhibit.ofElement other = Exhibit.ofElement root ∧
          ∀ now group, RuleGroup.violation? now (Exhibit.ofElement other) group =
            RuleGroup.violation? now (Exhibit.ofElement root) group := by
  refine ⟨diagnostics_require, diagnostics_warn, diagnostics_ignore,
    aboutNamespaces_findings plain, fun other same => ?_⟩
  have view : Exhibit.ofElement other = Exhibit.ofElement root := by
    rw [← Exhibit.ofElement_unqualified other, same, Exhibit.ofElement_unqualified]
  refine ⟨?_, view, fun now group => by rw [view]⟩
  rw [diagnostics_ignore, diagnostics_ignore, ← aboutOthers_findings_unqualified, same,
    aboutOthers_findings_unqualified]

/-- A record in no namespace at all is found wrong once, at its root. -/
theorem sampleRecord_unqualified_findings :
    '/' ∉ exhibit.root.name.toList ∧
      ((exhibit.findings sampleRecord.unqualified).filter
          fun finding => finding.problem.isAboutNamespace) =
        [⟨[⟨"Exhibit", none⟩], .noNamespace "Exhibit" Exhibit.namespaceName⟩] ∧
      exhibit.diagnostics .ignore sampleRecord.unqualified =
        exhibit.diagnostics .ignore sampleRecord := by
  have plain : '/' ∉ exhibit.root.name.toList := by decide
  obtain ⟨_, _, _, foreign, _⟩ := policies_differ_on_namespaces sampleRecord.unqualified plain
  obtain ⟨_, _, _, _, same⟩ := policies_differ_on_namespaces sampleRecord plain
  refine ⟨plain, foreign.trans (by decide +kernel), (same _ ?_).1⟩
  rfl

end Schema
end MuseumRecord
