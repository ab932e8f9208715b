/-!
# Paint

Lines of output are coloured for terminals: each kind of line has its own code, and a common code
ends it.
-/

namespace MuseumRecord
namespace Command

/-- How a piece of output is coloured. -/
inductive Paint where
  /-- Green. -/
  | success
  /-- Orange. -/
  | warning
  /-- Light blue. -/
  | info
  /-- Dimmed. -/
  | dim
deriving DecidableEq, Repr

/-- The character that begins a code. -/
def escapeCharacter : Char := '\x1b'

/-- A code of a terminal. -/
def terminalCode (parameters : String) : String :=
  String.ofList (escapeCharacter :: '[' :: parameters.toList) ++ "m"

/-- The parameters of a paint. -/
def Paint.parameters : Paint → String
  | .success => "38;2;0;128;0"
  | .warning => "38;2;255;165;0"
  | .info => "38;2;173;216;230"
  | .dim => "2"

/-- A painted text, if there is colour. -/
def Paint.apply (paint : Paint) (color : Bool) (text : String) : String :=
  if color then terminalCode paint.parameters ++ text ++ terminalCode "0" else text

end Command
end MuseumRecord
