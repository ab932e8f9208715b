/-!
# Values of settings files

A settings file is a table of named values.  Of numbers and of dates only their presence counts.
A table knows how it came about, because that decides how it may grow.
-/

namespace MuseumRecord
namespace Toml

/-- How a table came about. -/
inductive Origin where
  /-- By a header of its own. -/
  | header
  /-- By a longer header that begins with its name. -/
  | implied
  /-- By a dotted name. -/
  | dotted
  /-- Between braces: it never grows. -/
  | inline
deriving DecidableEq, Repr

/-- A value. -/
inductive Value where
  /-- A string. -/
  | text (content : String)
  /-- A truth value. -/
  | truth (value : Bool)
  /-- A number. -/
  | number
  /-- A date, a time of day or both. -/
  | moment
  /-- A row of values between brackets. -/
  | array (items : List Value)
  /-- A table. -/
  | table (origin : Origin) (entries : List (String × Value))
  /-- Several tables with headers of one name, the last apart. -/
  | tables (earlier : List (List (String × Value))) (last : List (String × Value))
deriving Repr

/-- Named values, no two of one name. -/
abbrev Entries := List (String × Value)

namespace Entries

/-- Change the value of a name, which may be absent; a refused change refuses the whole. -/
def change? (name : String) (change : Option Value → Option Value) : Entries → Option Entries
  | [] => (change none).map fun value => [(name, value)]
  | (key, value) :: rest =>
    if key = name then
      (change (some value)).map fun changed => (key, changed) :: rest
    else
      (change? name change rest).map fun others => (key, value) :: others

/-- Add a value under a new name. -/
def insert? (name : String) (value : Value) : Entries → Option Entries :=
  change? name fun
    | none => some value
    | some _ => none

/-- Change the entries of the table that a dotted name leads to.  Only tables without a header of
their own are entered. -/
def throughDots? (change : Entries → Option Entries) : List String → Entries → Option Entries
  | [], entries => change entries
  | name :: path, entries =>
    entries.change? name fun
      | none => (throughDots? change path []).map (.table .dotted)
      | some (.table .dotted inner) => (throughDots? change path inner).map (.table .dotted)
      | some (.table .implied inner) => (throughDots? change path inner).map (.table .implied)
      | some _ => none

/-- Change the entries of the table that a header leads to; of several tables of one name the last
is entered. -/
def throughHeader? (change : Entries → Option Entries) : List String → Entries → Option Entries
  | [], entries => change entries
  | name :: path, entries =>
    entries.change? name fun
      | none => (throughHeader? change path []).map (.table .implied)
      | some (.table .inline _) => none
      | some (.table origin inner) => (throughHeader? change path inner).map (.table origin)
      | some (.tables earlier last) => (throughHeader? change path last).map (.tables earlier)
      | some _ => none

/-- Add a value under a dotted name. -/
def assign? (path : List String) (name : String) (value : Value) (entries : Entries) :
    Option Entries :=
  throughDots? (insert? name value) path entries

/-- Open a table by its header. -/
def openTable? (path : List String) (name : String) (entries : Entries) : Option Entries :=
  throughHeader?
    (change? name fun
      | none => some (.table .header [])
      | some (.table .implied inner) => some (.table .header inner)
      | some _ => none)
    path entries

/-- Open one more table of a name by its header. -/
def openAnother? (path : List String) (name : String) (entries : Entries) : Option Entries :=
  throughHeader?
    (change? name fun
      | none => some (.tables [] [])
      | some (.tables earlier last) => some (.tables (earlier ++ [last]) [])
      | some _ => none)
    path entries

end Entries

end Toml
end MuseumRecord
