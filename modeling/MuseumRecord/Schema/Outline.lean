import MuseumRecord.Schema.Declaration

/-!
# Outlines

The text of a schema: its namespace and then a line for every element and attribute, indented by
depth.
-/

namespace MuseumRecord
namespace Schema

/-- The blanks in front of a line at a depth. -/
def indent (depth : Nat) : String :=
  String.ofList (List.replicate (2 * depth) ' ')

/-- The line of an attribute of an element at a depth. -/
def AttributeDeclaration.outline (depth : Nat) (declared : AttributeDeclaration) : String :=
  let required := if declared.required then " (required)" else ""
  s!"{indent depth}  @{declared.name}: {declared.type.text}{required}\n"

mutual

/-- The lines of an element at a depth. -/
def Declaration.outline (depth : Nat) : Declaration → String
  | .simple name occurrence type => s!"{indent depth}{name} [{occurrence.text}]: {type.text}\n"
  | .complex name occurrence _ attributes children =>
    s!"{indent depth}{name} [{occurrence.text}]\n" ++
      String.join (attributes.map fun declared => declared.outline depth) ++
      Declaration.outlineAll (depth + 1) children

/-- The lines of a row of elements at a depth. -/
def Declaration.outlineAll (depth : Nat) : List Declaration → String
  | [] => ""
  | declaration :: rest => declaration.outline depth ++ Declaration.outlineAll depth rest

end

end Schema

/-- The text of a schema. -/
def Schema.outline (schema : Schema) : String :=
  s!"namespace: {schema.namespaceName}\n" ++ schema.root.outline 0

/-- Every declared element, parents first, with its path and the name of its type. -/
def Schema.elementTypes (schema : Schema) : List (String × Option String) :=
  schema.root.paths ""

end MuseumRecord
