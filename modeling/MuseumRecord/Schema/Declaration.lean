import MuseumRecord.Schema.ValueType

/-!
# Declarations

A schema declares a root element, the elements that may stand inside it in a fixed order, and the
attributes of each.
-/

namespace MuseumRecord
namespace Schema

/-- How often an element may stand in its parent. -/
inductive Occurrence where
  | once
  | optional
  | repeated
  | any
deriving DecidableEq, Repr

namespace Occurrence

/-- The least number of times. -/
def least : Occurrence → Nat
  | .once => 1
  | .optional => 0
  | .repeated => 1
  | .any => 0

/-- The greatest number of times, if there is one. -/
def most? : Occurrence → Option Nat
  | .once => some 1
  | .optional => some 1
  | .repeated => none
  | .any => none

/-- The sign of an occurrence. -/
def text : Occurrence → String
  | .once => "1"
  | .optional => "?"
  | .repeated => "+"
  | .any => "*"

/-- The occurrence with a sign. -/
def ofText? (sign : String) : Option Occurrence :=
  [once, optional, repeated, any].find? fun occurrence => occurrence.text == sign

end Occurrence

/-- The declaration of an attribute. -/
structure AttributeDeclaration where
  /-- The local name. -/
  name : String
  /-- The type of the value. -/
  type : ValueType
  /-- Whether the attribute must be there. -/
  required : Bool
deriving DecidableEq, Repr

/-- The declaration of an element. -/
inductive Declaration where
  /-- An element that holds text alone. -/
  | simple (name : String) (occurrence : Occurrence) (type : ValueType)
  /-- An element with attributes and a sequence of children. -/
  | complex (name : String) (occurrence : Occurrence) (typeName : String)
      (attributes : List AttributeDeclaration) (children : List Declaration)
deriving Repr

namespace Declaration

/-- The local name of the element. -/
def name : Declaration → String
  | .simple name _ _ => name
  | .complex name _ _ _ _ => name

/-- How often the element may stand in its parent. -/
def occurrence : Declaration → Occurrence
  | .simple _ occurrence _ => occurrence
  | .complex _ occurrence _ _ _ => occurrence

/-- The name of the type of an element with children. -/
def typeName? : Declaration → Option String
  | .simple _ _ _ => none
  | .complex _ _ typeName _ _ => some typeName

/-- An element that holds any text. -/
def free (name : String) (occurrence : Occurrence) : Declaration :=
  .simple name occurrence .string

mutual

/-- Every declared element below a path, parents first, with its path and the name of its type. -/
def paths (above : String) : Declaration → List (String × Option String)
  | .simple name _ _ => [(above ++ "/" ++ name, none)]
  | .complex name _ typeName _ children =>
    (above ++ "/" ++ name, some typeName) :: pathsOf (above ++ "/" ++ name) children

/-- Every element of a row of declarations below a path. -/
def pathsOf (above : String) : List Declaration → List (String × Option String)
  | [] => []
  | declaration :: rest => paths above declaration ++ pathsOf above rest

end

end Declaration

end Schema

/-- The schema of a kind of document. -/
structure Schema where
  /-- The namespace of its elements. -/
  namespaceName : String
  /-- The declaration of the root element. -/
  root : Schema.Declaration
deriving Repr

end MuseumRecord
