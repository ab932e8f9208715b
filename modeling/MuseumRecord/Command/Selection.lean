import MuseumRecord.Command.Arguments
import MuseumRecord.Command.Basic

/-!
# Selection

What the items of a command line select: a command, its operands and its options.  The first item
that asks for help or makes no sense ends the reading.  A settings file named behind the command
counts rather than one named in front of it.
-/

namespace MuseumRecord
namespace Command

/-- What the operands of a command are. -/
inductive OperandKind where
  /-- There are none. -/
  | none
  /-- One path. -/
  | path
  /-- At least one path. -/
  | paths
  /-- At least one text. -/
  | texts
deriving DecidableEq, Repr

/-- The commands by name. -/
inductive CommandName where
  | validate
  | report
  | date
  | schema
  | sanitize
  | init
deriving DecidableEq, Repr

namespace CommandName

/-- Every command. -/
def all : List CommandName :=
  [validate, report, date, schema, sanitize, init]

/-- The word of a command. -/
def text : CommandName → String
  | .validate => "validate"
  | .report => "report"
  | .date => "date"
  | .schema => "schema"
  | .sanitize => "sanitize"
  | .init => "init"

/-- The command with a word. -/
def ofText? (word : String) : Option CommandName :=
  all.find? fun name => name.text == word

/-- The options of a command. -/
def options : CommandName → List OptionName
  | .validate => [.verbose, .settings, .help, .output, .quiet, .sanitize, .extension]
  | .report => [.verbose, .settings, .help, .sanitize]
  | _ => [.verbose, .settings, .help]

/-- The operands of a command. -/
def operands : CommandName → OperandKind
  | .validate => .paths
  | .report => .path
  | .date => .texts
  | .schema => .none
  | .sanitize => .path
  | .init => .none

end CommandName

/-- The options in front of the name of a command. -/
def sharedOptions : List OptionName :=
  [.verbose, .settings, .help, .version]

/-- What the items ask for. -/
structure Selection where
  /-- The path of the settings file. -/
  settingsPath : Option Path := none
  /-- How the outcome is presented. -/
  presentation : Option Presentation := none
  /-- Whether to pass over valid documents. -/
  quiet : Bool := false
  /-- Whether to take out comments and instructions. -/
  sanitize : Bool := false
  /-- More extensions. -/
  extensions : List String := []
  /-- The operands. -/
  operands : List String := []
deriving DecidableEq, Repr

/-- Why the reading of arguments ends early. -/
inductive Stop where
  /-- They make no sense. -/
  | misuse
  /-- Help is asked for. -/
  | help
  /-- The version is asked for. -/
  | version
deriving DecidableEq, Repr

/-- The request that an early end amounts to. -/
def Stop.request : Stop → Request
  | .misuse => .misuse
  | .help => .help
  | .version => .version

namespace Selection

/-- Whether one more operand is allowed. -/
def allows (selection : Selection) (kind : OperandKind) (text : String) : Bool :=
  match kind with
  | .none => false
  | .path => selection.operands.isEmpty && !text.isEmpty
  | .paths => !text.isEmpty
  | .texts => true

/-- Take in an item.  What is not repeatable may be given once, and no path is empty. -/
def add (kind : OperandKind) (selection : Selection) : Item → Except Stop Selection
  | .fault => .error .misuse
  | .operand text =>
    if selection.allows kind text then
      .ok { selection with operands := selection.operands ++ [text] }
    else
      .error .misuse
  | .option .verbose _ => .ok selection
  | .option .help _ => .error .help
  | .option .version _ => .error .version
  | .option .settings (some path) =>
    if selection.settingsPath.isSome || path.isEmpty then .error .misuse
    else .ok { selection with settingsPath := some path }
  | .option .output (some name) =>
    match selection.presentation, Presentation.ofText? name with
    | none, some presentation => .ok { selection with presentation := some presentation }
    | _, _ => .error .misuse
  | .option .extension (some extension) =>
    .ok { selection with extensions := selection.extensions ++ [extension] }
  | .option .quiet _ =>
    if selection.quiet then .error .misuse else .ok { selection with quiet := true }
  | .option .sanitize _ =>
    if selection.sanitize then .error .misuse else .ok { selection with sanitize := true }
  | .option _ none => .error .misuse

/-- Take in a row of items. -/
def ofItems (kind : OperandKind) (items : List Item) : Except Stop Selection :=
  items.foldlM (add kind) {}

/-- The action of a command, if its operands are there. -/
def action? (selection : Selection) : CommandName → Option Action
  | .validate =>
    if selection.operands.isEmpty then
      none
    else
      some (.validate
        { paths := selection.operands
          presentation := selection.presentation.getD .table
          quiet := selection.quiet
          sanitize := selection.sanitize
          extensions := selection.extensions })
  | .report => selection.operands.head?.map fun path => .report path selection.sanitize
  | .date => if selection.operands.isEmpty then none else some (.date selection.operands)
  | .schema => some .schema
  | .sanitize => selection.operands.head?.map .sanitize
  | .init => some .create

end Selection

/-- The request of a command with the arguments behind its name.  A settings file named there
counts rather than one named in front. -/
def readCommand (shared : Selection) (name : CommandName) (arguments : List String) : Request :=
  match Selection.ofItems name.operands (scanAll name.options arguments) with
  | .error stop => stop.request
  | .ok selection =>
    match selection.action? name with
    | none => .misuse
    | some action =>
      .perform ((selection.settingsPath <|> shared.settingsPath).getD defaultSettingsPath) action

/-- The request for help with the arguments behind the word. -/
def readHelp : List String → Request
  | [] => .help
  | [word] => if (CommandName.ofText? word).isSome || word == "help" then .help else .misuse
  | _ => .misuse

/-- What arguments ask for. -/
def Request.ofArguments (arguments : List String) : Request :=
  let scanned := scan sharedOptions arguments
  match Selection.ofItems .none scanned.items with
  | .error stop => stop.request
  | .ok shared =>
    match scanned.operand? with
    | none => .misuse
    | some (word, rest) =>
      if word = "help" then readHelp rest
      else
        match CommandName.ofText? word with
        | some name => readCommand shared name rest
        | none => .misuse

end Command
end MuseumRecord
