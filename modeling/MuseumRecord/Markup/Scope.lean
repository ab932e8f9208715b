import MuseumRecord.Markup.Attribute

/-!
# Namespaces in scope

A declaration binds a qualifier, or names without one, to a namespace for the element it stands on
and for all inside.  The innermost binding of a qualifier counts.
-/

namespace MuseumRecord
namespace Markup

/-- A name as written, divided at its first colon. -/
structure QualifiedName where
  /-- What stands before the colon, if there is one. -/
  qualifier : Option (List Char)
  /-- What stands behind the colon, or the whole name. -/
  localName : List Char
deriving DecidableEq, Repr

/-- Divide a name at its first colon. -/
def QualifiedName.split (name : List Char) : QualifiedName :=
  let before := name.takeWhile fun character => character != ':'
  match name.drop before.length with
  | [] => ⟨none, name⟩
  | _ :: after => ⟨some before, after⟩

/-- What a qualifier, or the lack of one, is bound to. -/
structure Binding where
  /-- The qualifier, or nothing for names without one. -/
  qualifier : Option (List Char)
  /-- The name of the namespace; empty to unbind. -/
  namespaceName : List Char
deriving DecidableEq, Repr

/-- The bindings in force, innermost first. -/
abbrev Scope := List Binding

/-- A reserved qualifier or a reserved namespace in a declaration that may not hold it. -/
structure BindingFault where
  /-- The qualifier. -/
  qualifier : List Char
  /-- The name of the namespace. -/
  namespaceName : List Char
deriving DecidableEq, Repr

namespace Scope

/-- The namespace of the qualifier `xml`. -/
def xmlName : List Char := "http://www.w3.org/XML/1998/namespace".toList

/-- The namespace of the qualifier `xmlns`. -/
def declarationName : List Char := "http://www.w3.org/2000/xmlns/".toList

/-- The bindings that hold without a declaration. -/
def initial : Scope :=
  [⟨some "xmlns".toList, declarationName⟩, ⟨some "xml".toList, xmlName⟩]

/-- The declared qualifier of an attribute key, if the key is a declaration. -/
def declared? (key : List Char) : Option (Option (List Char)) :=
  match "xmlns".toList.isPrefixOf? key with
  | some [] => some none
  | some (':' :: qualifier) => some (some qualifier)
  | _ => none

/-- The scope after one attribute.  An empty qualifier binds the names without one. -/
def declareOne (scope : Scope) (key value : List Char) : Except BindingFault Scope :=
  match declared? key with
  | none => .ok scope
  | some none => .ok (⟨none, value⟩ :: scope)
  | some (some qualifier) =>
    if qualifier = "xml".toList then
      if value = xmlName then .ok scope else .error ⟨qualifier, value⟩
    else if qualifier = "xmlns".toList ∨ value = xmlName ∨ value = declarationName then
      .error ⟨qualifier, value⟩
    else if qualifier.isEmpty then
      .ok (⟨none, value⟩ :: scope)
    else
      .ok (⟨some qualifier, value⟩ :: scope)

/-- The scope inside a tag with the given attributes, those before the first fault. -/
def declare (scope : Scope) : List ScannedAttribute → Except BindingFault Scope
  | .whole _ key value :: rest =>
    match declareOne scope key value with
    | .ok inner => declare inner rest
    | .error fault => .error fault
  | _ => .ok scope

/-- The namespace a qualifier is bound to. -/
def bound? (scope : Scope) (qualifier : Option (List Char)) : Option (List Char) :=
  match scope.find? fun binding => binding.qualifier == qualifier with
  | some binding => if binding.namespaceName.isEmpty then none else some binding.namespaceName
  | none => none

/-- The namespace of an attribute: a name without a qualifier has none. -/
def attributeNamespace? (scope : Scope) (name : QualifiedName) : Option (List Char) :=
  match name.qualifier with
  | some qualifier => scope.bound? (some qualifier)
  | none => none

end Scope

end Markup
end MuseumRecord
