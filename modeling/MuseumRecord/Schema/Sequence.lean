import MuseumRecord.Schema.Declaration

/-!
# Sequences of children

The children of an element stand in the order of their declarations.  A cursor walks the
declarations forward as the names of the children are read, and every name gets its placement.
-/

namespace MuseumRecord
namespace Schema

/-- What becomes of a child. -/
inductive Placement where
  /-- The child belongs to a declaration.  Required declarations in front of it that got no child
  are skipped; `overLimit` is the greatest number of such children if this is the first beyond. -/
  | placed (skipped : List Declaration) (overLimit : Option Nat) (declaration : Declaration)
  /-- The child belongs to a declaration in front of one already reached. -/
  | outOfOrder
  /-- No declaration names the child. -/
  | unexpected
deriving Repr

/-- A place in a row of declarations. -/
structure Cursor where
  /-- The names of the declarations already passed. -/
  passed : List String
  /-- The declaration reached and those after it. -/
  ahead : List Declaration
  /-- The number of children of the declaration reached. -/
  count : Nat
deriving Repr

namespace Cursor

/-- The start of a row of declarations. -/
def start (declarations : List Declaration) : Cursor :=
  ⟨[], declarations, 0⟩

/-- The declarations of a row that need more children, when the first has `count` and the others
have none. -/
def wanting (count : Nat) : List Declaration → List Declaration
  | [] => []
  | declaration :: rest =>
    if count < declaration.occurrence.least then
      declaration :: wanting 0 rest
    else
      wanting 0 rest

/-- The declarations that still need children when no child is left. -/
def missing (cursor : Cursor) : List Declaration :=
  wanting cursor.count cursor.ahead

/-- The limit of a declaration, when `count` children are one more than it allows. -/
def limitPassed (declaration : Declaration) (count : Nat) : Option Nat :=
  declaration.occurrence.most?.filter fun most => count == most + 1

/-- Read the name of a child. -/
def step (cursor : Cursor) (name : String) : Placement × Cursor :=
  let skipped := cursor.ahead.takeWhile fun declaration => declaration.name != name
  match cursor.ahead.dropWhile fun declaration => declaration.name != name with
  | declaration :: rest =>
    let count := (if skipped.isEmpty then cursor.count else 0) + 1
    (.placed (wanting cursor.count skipped) (limitPassed declaration count) declaration,
      ⟨cursor.passed ++ skipped.map Declaration.name, declaration :: rest, count⟩)
  | [] =>
    if cursor.passed.contains name then (.outOfOrder, cursor) else (.unexpected, cursor)

/-- Read the names of all children. -/
def run (cursor : Cursor) : List String → List Placement × Cursor
  | [] => ([], cursor)
  | name :: rest =>
    let (placement, next) := cursor.step name
    let (placements, final) := next.run rest
    (placement :: placements, final)

end Cursor

end Schema
end MuseumRecord
