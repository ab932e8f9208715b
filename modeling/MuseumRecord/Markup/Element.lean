/-!
# Element trees

An element has a local name, the name of its namespace if it is in one, attributes in written
order, its own text and ordered children.
-/

namespace MuseumRecord
namespace Markup

/-- A named node of a document. -/
structure Element where
  /-- The local name. -/
  name : String
  /-- The name of the namespace, if the element is in one. -/
  namespaceName : Option String := none
  /-- Local names and values of the attributes, in written order. -/
  attributes : List (String × String) := []
  /-- The text directly inside the element, without that of its children. -/
  text : String := ""
  /-- The child elements, in written order. -/
  children : List Element := []
deriving Repr, Inhabited

namespace Element

/-- The value of the first attribute with a name. -/
def attribute? (element : Element) (name : String) : Option String :=
  (element.attributes.find? fun (key, _) => key == name).map fun (_, value) => value

/-- The first child with a name. -/
def child? (element : Element) (name : String) : Option Element :=
  element.children.find? fun child => child.name == name

/-- Every child with a name. -/
def childrenNamed (element : Element) (name : String) : List Element :=
  element.children.filter fun child => child.name == name

/-- The text of the first child with a name. -/
def childText? (element : Element) (name : String) : Option String :=
  (element.child? name).map Element.text

mutual

/-- The elements of a tree in written order, each with its depth. -/
def listing (depth : Nat) : Element → List (Nat × Element)
  | ⟨name, namespaceName, attributes, text, children⟩ =>
    (depth, ⟨name, namespaceName, attributes, text, children⟩) :: listingAll (depth + 1) children

/-- The elements of a row of trees in written order, each with its depth. -/
def listingAll (depth : Nat) : List Element → List (Nat × Element)
  | [] => []
  | element :: rest => listing depth element ++ listingAll depth rest

end

/-- The element with more text at its end. -/
def appendText (element : Element) (text : String) : Element :=
  { element with text := element.text ++ text }

/-- The element with one more child at its end. -/
def appendChild (element child : Element) : Element :=
  { element with children := element.children ++ [child] }

end Element

end Markup
end MuseumRecord
