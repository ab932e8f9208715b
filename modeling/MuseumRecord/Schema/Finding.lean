import MuseumRecord.Schema.ValueType

/-!
# Findings

A departure of a document from its schema: what is wrong, and the address of the element that it
is wrong with.
-/

namespace MuseumRecord
namespace Schema

/-- One step of an address: a name, with a number counted from one if the parent has several
children of that name. -/
structure AddressStep where
  /-- The local name. -/
  name : String
  /-- Which child of that name. -/
  number : Option Nat := none
deriving DecidableEq, Repr

/-- The text of a step. -/
def AddressStep.text (step : AddressStep) : String :=
  match step.number with
  | some number => s!"{step.name}[{number}]"
  | none => step.name

/-- The way from the root to an element, the root's own step first. -/
abbrev Address := List AddressStep

/-- The text of an address. -/
def Address.text (address : Address) : String :=
  String.join (address.map fun step => "/" ++ step.text)

/-- The step to the child of a name when `before` and `after` are the names of the other
children. -/
def AddressStep.toChild (name : String) (before after : List String) : AddressStep :=
  let earlier := before.count name
  if earlier + after.count name = 0 then ⟨name, none⟩ else ⟨name, some (earlier + 1)⟩

/-- What is wrong with an element. -/
inductive Problem where
  /-- The root element has another name. -/
  | wrongRoot (name expected : String)
  /-- The element is in no namespace. -/
  | noNamespace (name expected : String)
  /-- The element is in another namespace. -/
  | otherNamespace (name found expected : String)
  /-- An attribute is not declared. -/
  | unexpectedAttribute (key element : String)
  /-- The value of an attribute is not of its type. -/
  | badAttribute (key : String) (type : ValueType) (value : String)
  /-- A required attribute is not there. -/
  | missingAttribute (key element : String)
  /-- The text is not of its type. -/
  | badText (type : ValueType) (value : String)
  /-- An element that holds text alone has children. -/
  | childrenInText (element : String)
  /-- An element that holds children alone has text. -/
  | textAmongChildren (element : String)
  /-- A required child is not there. -/
  | missingElement (name parent : String)
  /-- There are too many children of a name. -/
  | tooMany (name : String) (most : Nat) (parent : String)
  /-- A child stands behind one it should stand in front of. -/
  | outOfOrder (name parent : String)
  /-- A child is not declared. -/
  | unexpectedElement (name parent : String)
deriving DecidableEq, Repr

namespace Problem

/-- What is said about a problem. -/
def message : Problem → String
  | .wrongRoot name expected => s!"root element is '{name}', expected '{expected}'"
  | .noNamespace name expected => s!"element '{name}' has no namespace, expected '{expected}'"
  | .otherNamespace name found expected =>
    s!"element '{name}' is in namespace '{found}', expected '{expected}'"
  | .unexpectedAttribute attributeName element =>
    s!"unexpected attribute '{attributeName}' on '{element}'"
  | .badAttribute attributeName type value =>
    s!"attribute '{attributeName}': {type.rejection value}"
  | .missingAttribute attributeName element =>
    s!"missing required attribute '{attributeName}' on '{element}'"
  | .badText type value => type.rejection value
  | .childrenInText element => s!"element '{element}' must contain text only"
  | .textAmongChildren element => s!"element '{element}' must not contain text"
  | .missingElement name parent => s!"missing required element '{name}' in '{parent}'"
  | .tooMany name most parent =>
    s!"element '{name}' may occur at most {most} time(s) in '{parent}'"
  | .outOfOrder name parent => s!"element '{name}' is out of order in '{parent}'"
  | .unexpectedElement name parent => s!"unexpected element '{name}' in '{parent}'"

/-- Whether a problem is one of namespaces, which may be tolerated. -/
def isAboutNamespace : Problem → Bool
  | .noNamespace _ _ => true
  | .otherNamespace _ _ _ => true
  | _ => false

end Problem

/-- A problem of an element of a document. -/
structure Finding where
  /-- Where the element is. -/
  address : Address
  /-- What is wrong with it. -/
  problem : Problem
deriving DecidableEq, Repr

end Schema
end MuseumRecord
