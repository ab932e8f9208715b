import MuseumRecord.Proofs.Schema.Namespace

/-!
# Walks under a policy

The findings of a document are gathered first and weighed by a policy afterwards.  A walk that knows
the policy, and asks for it where a namespace is found wrong and nowhere else, comes to the same
diagnostics; so what the policies do to the findings they do to its diagnostics.
-/

namespace MuseumRecord
namespace Schema

open Markup (Element)

/-! ## The walk -/

/-- Findings that are errors under every policy. -/
def errors (findings : List Finding) : List Diagnostic :=
  findings.map (Finding.diagnostic .error)

/-- What is said of the namespace of an element.  Nothing is looked up in the policy before the
namespace is found wrong. -/
def namespaceDiagnostics (policy : NamespacePolicy) (expected : String) (address : Address)
    (above : Option String) (name : String) (found : Option String) : List Diagnostic :=
  if found = some expected then
    []
  else if address.isNested ∧ found = above then
    []
  else
    let finding : Finding :=
      match found with
      | none => ⟨address, .noNamespace name expected⟩
      | some other => ⟨address, .otherNamespace name other expected⟩
    match policy with
    | .require => [finding.diagnostic .error]
    | .warn => [finding.diagnostic .warning]
    | .ignore => []

mutual

/-- The diagnostics in an element and below it; `above` is the namespace of its parent. -/
def elementDiagnostics (policy : NamespacePolicy) (expected : String) (declaration : Declaration)
    (address : Address) (above : Option String) : Element → List Diagnostic
  | ⟨name, namespaceName, attributes, text, children⟩ =>
    namespaceDiagnostics policy expected address above name namespaceName ++
      match declaration with
      | .simple _ _ type =>
        errors (strayAttributes address name attributes ++
          textFindings address name type text children)
      | .complex _ _ _ declaredAttributes declaredChildren =>
        errors (attributes.flatMap (attributeFindings address name declaredAttributes) ++
          absentAttributes address name declaredAttributes attributes ++
          mixedTextFindings address name text) ++
          childDiagnostics policy expected address name namespaceName (.start declaredChildren) []
            children

/-- The diagnostics in a row of children from a cursor on; `before` are the names of their elder
siblings. -/
def childDiagnostics (policy : NamespacePolicy) (expected : String) (address : Address)
    (parent : String) (namespaceName : Option String) (cursor : Cursor) (before : List String) :
    List Element → List Diagnostic
  | [] => errors (missingFindings address parent cursor.missing)
  | child :: rest =>
    let below := address ++ [.toChild child.name before (rest.map Element.name)]
    (match (cursor.step child.name).1 with
      | .placed skipped overLimit declaration =>
        errors (missingFindings address parent skipped ++
          limitFindings below child.name parent overLimit) ++
          elementDiagnostics policy expected declaration below namespaceName child
      | .outOfOrder => errors [⟨below, .outOfOrder child.name parent⟩]
      | .unexpected => errors [⟨below, .unexpectedElement child.name parent⟩]) ++
      childDiagnostics policy expected address parent namespaceName (cursor.step child.name).2
        (before ++ [child.name]) rest

end

/-- The diagnostics that the walk of a document gives under a policy. -/
def walk (schema : Schema) (policy : NamespacePolicy) (root : Element) : List Diagnostic :=
  if root.name = schema.root.name then
    elementDiagnostics policy schema.namespaceName schema.root [⟨root.name, none⟩] none root
  else
    errors [⟨[⟨root.name, none⟩], .wrongRoot root.name schema.root.name⟩]

/-! ## Weighing findings while they are gathered -/

section Weighing

variable {policy : NamespacePolicy} {expected name parent : String} {address : Address}
  {above namespaceName : Option String} {declaration : Declaration} {element : Element}
  {children : List Element}

/-- The diagnostics that findings have under a policy. -/
def weighed (policy : NamespacePolicy) (findings : List Finding) : List Diagnostic :=
  findings.filterMap (Finding.diagnostic? policy)

theorem weighed_append (left right : List Finding) :
    weighed policy (left ++ right) = weighed policy left ++ weighed policy right :=
  List.filterMap_append

/-- Whatever is not about a namespace is an error under every policy. -/
theorem IsAboutOthers.weighed_eq {findings : List Finding} (others : IsAboutOthers findings) :
    weighed policy findings = errors findings := by
  rw [weighed, errors, ← List.filterMap_eq_map]
  apply List.filterMap_congr
  intro finding member
  simp [Finding.diagnostic?, severity?, others finding member, Finding.diagnostic]

theorem weighed_namespaceFindings :
    weighed policy (namespaceFindings expected address above name namespaceName) =
      namespaceDiagnostics policy expected address above name namespaceName := by
  unfold namespaceFindings namespaceDiagnostics
  by_cases own : namespaceName = some expected
  · rw [if_pos (.inl own), if_pos own]
    rfl
  · rw [if_neg own]
    by_cases passedOn : address.isNested ∧ namespaceName = above
    · rw [if_pos (.inr passedOn), if_pos passedOn]
      rfl
    · rw [if_neg (not_or.mpr ⟨own, passedOn⟩), if_neg passedOn]
      cases namespaceName <;> cases policy <;> rfl

/-- In a row of children the walk says what the findings weigh, if it does so in every child. -/
theorem weighed_childFindings {cursor : Cursor} {before : List String}
    (each : ∀ child ∈ children, ∀ declaration below,
      weighed policy (elementFindings expected declaration below namespaceName child) =
        elementDiagnostics policy expected declaration below namespaceName child) :
    weighed policy (childFindings expected address parent namespaceName cursor before children) =
      childDiagnostics policy expected address parent namespaceName cursor before children := by
  induction children generalizing cursor before with
  | nil =>
    rw [childFindings, childDiagnostics]
    exact IsAboutOthers.weighed_eq (.map fun _ => rfl)
  | cons child rest inductionHypothesis =>
    have later := @inductionHypothesis (cursor.step child.name).2 (before ++ [child.name])
      fun other member => each other (.tail _ member)
    rw [childFindings, childDiagnostics]
    dsimp only
    rw [weighed_append, later]
    congr 1
    cases (cursor.step child.name).1 with
    | placed skipped overLimit declaration =>
      have others : IsAboutOthers (missingFindings address parent skipped ++
          limitFindings (address ++ [.toChild child.name before (rest.map Element.name)])
            child.name parent overLimit) :=
        .append (.map fun _ => rfl) (.map fun _ => rfl)
      rw [weighed_append, others.weighed_eq, each child List.mem_cons_self]
    | outOfOrder => exact (IsAboutOthers.single rfl).weighed_eq
    | unexpected => exact (IsAboutOthers.single rfl).weighed_eq

/-- In an element and below it the walk says what the findings weigh. -/
theorem weighed_elementFindings :
    weighed policy (elementFindings expected declaration address above element) =
      elementDiagnostics policy expected declaration address above element := by
  induction element using Element.inductionOnChildren generalizing declaration address above with
  | step element inductionHypothesis =>
    obtain ⟨name, namespaceName, attributes, text, children⟩ := element
    rw [elementFindings.eq_def, elementDiagnostics.eq_def]
    dsimp only
    rw [weighed_append, weighed_namespaceFindings]
    congr 1
    cases declaration with
    | simple _ _ type =>
      exact IsAboutOthers.weighed_eq (.append (.map fun _ => rfl) isAboutOthers_textFindings)
    | complex _ _ _ declaredAttributes declared =>
      have others : IsAboutOthers
          (attributes.flatMap (attributeFindings address name declaredAttributes) ++
            absentAttributes address name declaredAttributes attributes ++
            mixedTextFindings address name text) :=
        .append (.append (.flatMap fun _ => isAboutOthers_attributeFindings)
          (.map fun _ => rfl)) isAboutOthers_mixedTextFindings
      dsimp only
      rw [weighed_append, others.weighed_eq, weighed_childFindings]
      intro child member declaration below
      exact inductionHypothesis child member

end Weighing

variable {schema : Schema} {root : Element}

/-- Weighing the findings of a document gives the diagnostics of the walk under the policy. -/
theorem diagnostics_eq_walk (policy : NamespacePolicy) :
    schema.diagnostics policy root = schema.walk policy root := by
  change weighed policy (schema.findings root) = schema.walk policy root
  unfold findings walk
  split
  · exact weighed_elementFindings
  · exact (IsAboutOthers.single rfl).weighed_eq

/-- Under the three policies a walk finds the same, and says of wrong namespaces that they are
errors, that they are warnings, or nothing. -/
theorem walks_differ_on_namespaces :
    schema.walk .require root = errors (schema.findings root) ∧
      schema.walk .warn root = (schema.findings root).map (fun finding =>
        finding.diagnostic (if finding.problem.isAboutNamespace then .warning else .error)) ∧
      schema.walk .ignore root = errors (aboutOthers (schema.findings root)) := by
  rw [← diagnostics_eq_walk, ← diagnostics_eq_walk, ← diagnostics_eq_walk]
  exact ⟨diagnostics_require, diagnostics_warn, diagnostics_ignore⟩

end Schema
end MuseumRecord
