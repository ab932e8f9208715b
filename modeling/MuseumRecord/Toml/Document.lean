import MuseumRecord.Toml.Statement

/-!
# Documents

The statements of a settings file build its table.  A header makes its table the place of the
assignments that follow.
-/

namespace MuseumRecord
namespace Toml

/-- The table built so far, and the name of the table that assignments go to. -/
structure Builder where
  /-- The table of the file. -/
  entries : Entries := []
  /-- The names that lead to the open table. -/
  place : List String := []
deriving Repr

namespace Builder

/-- Carry out a statement. -/
def step? (builder : Builder) : Statement → Option Builder
  | .assign path value =>
    (Entries.throughHeader? (Entries.assign? path.front path.last value) builder.place
      builder.entries).map fun entries => { builder with entries := entries }
  | .openTable path =>
    (builder.entries.openTable? path.front path.last).map fun entries => ⟨entries, path.names⟩
  | .openAnother path =>
    (builder.entries.openAnother? path.front path.last).map fun entries => ⟨entries, path.names⟩

/-- Carry out a row of statements. -/
def run? (builder : Builder) (statements : List Statement) : Option Builder :=
  statements.foldlM step? builder

end Builder

/-- The text without a byte order mark in front. -/
def withoutByteOrderMark : List Char → List Char
  | '\uFEFF' :: rest => rest
  | text => text

/-- The table that a text writes. -/
def parse? (text : String) : Option Entries := do
  let lexemes ← lexemes (withoutByteOrderMark text.toList)
  let statements ← statements? lexemes
  let builder ← Builder.run? {} statements
  return builder.entries

end Toml
end MuseumRecord
