import MuseumRecord.Diagnostic
import MuseumRecord.Markup.Element
import MuseumRecord.Schema.Finding
import MuseumRecord.Schema.Sequence

/-!
# Conformance

An element tree is walked beside the declarations of a schema, and every departure becomes a
finding.  The walk never stops early, except at a root of another name.
-/

namespace MuseumRecord

/-- What to do about elements outside the namespace of the schema. -/
inductive NamespacePolicy where
  /-- They are errors. -/
  | require
  /-- They are warnings. -/
  | warn
  /-- They are of no interest. -/
  | ignore
deriving DecidableEq, Repr

namespace Schema

open Markup

/-- Whether an address has more than one slash in its text: an element below the root, or a root
with a slash in its name. -/
def Address.isNested (address : Address) : Bool :=
  1 < address.text.toList.count '/'

/-- The namespace of an element, unless it is the expected one or the one of the parent, where it
was found already. -/
def namespaceFindings (expected : String) (address : Address) (above : Option String)
    (name : String) (found : Option String) : List Finding :=
  if found = some expected ∨ (address.isNested ∧ found = above) then
    []
  else
    match found with
    | none => [⟨address, .noNamespace name expected⟩]
    | some other => [⟨address, .otherNamespace name other expected⟩]

/-- Attributes on an element that declares none. -/
def strayAttributes (address : Address) (name : String) (attributes : List (String × String)) :
    List Finding :=
  attributes.map fun (attributeName, _) => ⟨address, .unexpectedAttribute attributeName name⟩

/-- An attribute of an element that declares some. -/
def attributeFindings (address : Address) (name : String)
    (declared : List AttributeDeclaration) (written : String × String) : List Finding :=
  match declared.find? fun declaration => declaration.name == written.1 with
  | none => [⟨address, .unexpectedAttribute written.1 name⟩]
  | some declaration =>
    if declaration.type.accepts written.2 then []
    else [⟨address, .badAttribute written.1 declaration.type written.2⟩]

/-- Required attributes that are not there. -/
def absentAttributes (address : Address) (name : String) (declared : List AttributeDeclaration)
    (attributes : List (String × String)) : List Finding :=
  let absent := declared.filter fun declaration =>
    declaration.required && !attributes.any fun (attributeName, _) =>
      attributeName == declaration.name
  absent.map fun declaration => ⟨address, .missingAttribute declaration.name name⟩

/-- The text of an element that holds nothing else. -/
def textFindings (address : Address) (name : String) (type : ValueType) (text : String)
    (children : List Element) : List Finding :=
  if !children.isEmpty then [⟨address, .childrenInText name⟩]
  else if type.accepts text then []
  else [⟨address, .badText type text⟩]

/-- Text directly inside an element that holds children. -/
def mixedTextFindings (address : Address) (name text : String) : List Finding :=
  if Text.isBlankString text then [] else [⟨address, .textAmongChildren name⟩]

/-- Declarations that got no child in the element at an address. -/
def missingFindings (address : Address) (name : String) (missing : List Declaration) :
    List Finding :=
  missing.map fun declaration => ⟨address, .missingElement declaration.name name⟩

/-- A child beyond the limit of its declaration. -/
def limitFindings (address : Address) (name parent : String) (overLimit : Option Nat) :
    List Finding :=
  overLimit.toList.map fun most => ⟨address, .tooMany name most parent⟩

mutual

/-- The findings in an element and below it; `above` is the namespace of its parent. -/
def elementFindings (expected : String) (declaration : Declaration) (address : Address)
    (above : Option String) : Element → List Finding
  | ⟨name, namespaceName, attributes, text, children⟩ =>
    namespaceFindings expected address above name namespaceName ++
      match declaration with
      | .simple _ _ type =>
        strayAttributes address name attributes ++
          textFindings address name type text children
      | .complex _ _ _ declaredAttributes declaredChildren =>
        attributes.flatMap (attributeFindings address name declaredAttributes) ++
          absentAttributes address name declaredAttributes attributes ++
          mixedTextFindings address name text ++
          childFindings expected address name namespaceName (.start declaredChildren) [] children

/-- The findings in a row of children from a cursor on; `before` are the names of their elder
siblings. -/
def childFindings (expected : String) (address : Address) (parent : String)
    (namespaceName : Option String) (cursor : Cursor) (before : List String) :
    List Element → List Finding
  | [] => missingFindings address parent cursor.missing
  | child :: rest =>
    let step := AddressStep.toChild child.name before (rest.map Element.name)
    let below := address ++ [step]
    let (placement, next) := cursor.step child.name
    (match placement with
      | .placed skipped overLimit declaration =>
        missingFindings address parent skipped ++
          limitFindings below child.name parent overLimit ++
          elementFindings expected declaration below namespaceName child
      | .outOfOrder => [⟨below, .outOfOrder child.name parent⟩]
      | .unexpected => [⟨below, .unexpectedElement child.name parent⟩]) ++
      childFindings expected address parent namespaceName next (before ++ [child.name]) rest

end

/-- Every departure of a document from a schema, in written order. -/
def findings (schema : Schema) (root : Element) : List Finding :=
  let address : Address := [⟨root.name, none⟩]
  if root.name = schema.root.name then
    elementFindings schema.namespaceName schema.root address none root
  else
    [⟨address, .wrongRoot root.name schema.root.name⟩]

/-- The severity of a problem under a policy: all but those of namespaces are errors. -/
def severity? (policy : NamespacePolicy) (problem : Problem) : Option Severity :=
  if problem.isAboutNamespace then
    match policy with
    | .require => some .error
    | .warn => some .warning
    | .ignore => none
  else
    some .error

/-- The diagnostic of a finding under a policy. -/
def Finding.diagnostic? (policy : NamespacePolicy) (finding : Finding) : Option Diagnostic :=
  (severity? policy finding.problem).map fun severity =>
    { severity
      stage := .structural
      path := some finding.address.text
      message := finding.problem.message }

/-- The diagnostics of a document under a policy. -/
def diagnostics (schema : Schema) (policy : NamespacePolicy) (root : Element) :
    List Diagnostic :=
  (schema.findings root).filterMap (Finding.diagnostic? policy)

end Schema
end MuseumRecord
