/-!
# Arguments

Options may stand before and after the name of the command, and among its operands.  A long option
has two dashes and takes a value behind an equals sign or as the next argument; short options have
one dash and may stand together.  Behind two dashes alone there are only operands.
-/

namespace MuseumRecord
namespace Command

/-- The options. -/
inductive OptionName where
  | verbose
  | settings
  | help
  | version
  | output
  | quiet
  | sanitize
  | extension
deriving DecidableEq, Repr

namespace OptionName

/-- The word of an option. -/
def long : OptionName → String
  | .verbose => "verbose"
  | .settings => "config"
  | .help => "help"
  | .version => "version"
  | .output => "output"
  | .quiet => "quiet"
  | .sanitize => "sanitize"
  | .extension => "extension"

/-- The letter of an option. -/
def short? : OptionName → Option Char
  | .verbose => some 'v'
  | .settings => some 'c'
  | .help => some 'h'
  | .version => some 'V'
  | .quiet => some 'q'
  | _ => none

/-- Whether an option takes a value. -/
def takesValue : OptionName → Bool
  | .settings => true
  | .output => true
  | .extension => true
  | _ => false

end OptionName

/-- What an argument means. -/
inductive Item where
  /-- An option, with its value if it takes one. -/
  | option (name : OptionName) (value : Option String)
  /-- An operand. -/
  | operand (text : String)
  /-- Something that makes no sense. -/
  | fault
deriving DecidableEq, Repr

/-- Whether an argument is an option rather than the value of one. -/
def looksLikeOption (argument : String) : Bool :=
  match argument.toList with
  | '-' :: _ :: _ => true
  | _ => false

/-- The item of an option whose value, if it takes one, is the next argument. -/
def withNextValue (name : OptionName) (rest : List String) : Item × List String :=
  if name.takesValue then
    match rest with
    | value :: others =>
      if looksLikeOption value then (.fault, rest) else (.option name (some value), others)
    | [] => (.fault, [])
  else
    (.option name none, rest)

/-- A long option, given the text behind its dashes. -/
def readLong (options : List OptionName) (text : List Char) (rest : List String) :
    Item × List String :=
  let word := text.takeWhile fun character => character != '='
  match options.find? fun name => name.long.toList == word with
  | none => (.fault, rest)
  | some name =>
    match text.drop word.length with
    | [] => withNextValue name rest
    | _ :: value =>
      if name.takesValue then (.option name (some (String.ofList value)), rest)
      else (.fault, rest)

/-- Short options, given the letters behind their dash.  The letters behind an option that takes a
value are the value, with or without an equals sign in front. -/
def readShort (options : List OptionName) (rest : List String) :
    List Char → List Item × List String
  | [] => ([], rest)
  | letter :: letters =>
    match options.find? fun name => name.short? == some letter with
    | none => ([.fault], rest)
    | some name =>
      if name.takesValue then
        match letters with
        | [] =>
          let (item, others) := withNextValue name rest
          ([item], others)
        | '=' :: value => ([.option name (some (String.ofList value))], rest)
        | value => ([.option name (some (String.ofList value))], rest)
      else
        let (items, others) := readShort options rest letters
        (.option name none :: items, others)

/-- The items of one argument that is not an operand, and the arguments left. -/
def readOption? (options : List OptionName) (argument : String) (rest : List String) :
    Option (List Item × List String) :=
  match argument.toList with
  | '-' :: '-' :: text =>
    let (item, others) := readLong options text rest
    some ([item], others)
  | '-' :: letter :: letters => some (readShort options rest (letter :: letters))
  | _ => none

theorem length_withNextValue (name : OptionName) (rest : List String) :
    (withNextValue name rest).2.length ≤ rest.length := by
  unfold withNextValue
  repeat' split
  all_goals simp

theorem length_readLong (options : List OptionName) (text : List Char) (rest : List String) :
    (readLong options text rest).2.length ≤ rest.length := by
  unfold readLong
  simp only
  repeat' split
  all_goals first | exact Nat.le_refl _ | exact length_withNextValue _ _

theorem length_readShort (options : List OptionName) (rest : List String) (letters : List Char) :
    (readShort options rest letters).2.length ≤ rest.length := by
  induction letters with
  | nil => exact Nat.le_refl _
  | cons letter letters inductionHypothesis =>
    unfold readShort
    split
    · exact Nat.le_refl _
    · split
      · split
        · exact length_withNextValue _ _
        · exact Nat.le_refl _
        · exact Nat.le_refl _
      · exact inductionHypothesis

theorem length_of_readOption {options : List OptionName} {argument : String}
    {rest others : List String} {items : List Item}
    (read : readOption? options argument rest = some (items, others)) :
    others.length ≤ rest.length := by
  unfold readOption? at read
  split at read
  · simp only [Option.some.injEq, Prod.mk.injEq] at read
    rw [← read.2]
    exact length_readLong _ _ _
  · simp only [Option.some.injEq] at read
    have bound := length_readShort options rest
    rw [show others = (readShort options rest (_ :: _)).2 from congrArg Prod.snd read.symm]
    exact bound _
  · cases read

/-- What arguments come to when the first operand is reached, or all of them. -/
structure Scan where
  /-- The items in front of the operand. -/
  items : List Item
  /-- The operand and the arguments behind it. -/
  operand? : Option (String × List String)

/-- The items in front of the first operand.  Two dashes alone end the options. -/
def scan (options : List OptionName) (arguments : List String) : Scan :=
  match arguments with
  | [] => ⟨[], none⟩
  | argument :: rest =>
    if argument = "--" then
      ⟨rest.map .operand, none⟩
    else
      match _read : readOption? options argument rest with
      | none => ⟨[], some (argument, rest)⟩
      | some (items, others) =>
        let after := scan options others
        ⟨items ++ after.items, after.operand?⟩
termination_by arguments.length
decreasing_by
  have bound := length_of_readOption _read
  simp only [List.length_cons]
  omega

/-- The items of all arguments. -/
def scanAll (options : List OptionName) (arguments : List String) : List Item :=
  match arguments with
  | [] => []
  | argument :: rest =>
    if argument = "--" then
      rest.map .operand
    else
      match _read : readOption? options argument rest with
      | none => .operand argument :: scanAll options rest
      | some (items, others) => items ++ scanAll options others
termination_by arguments.length
decreasing_by
  · simp
  · have bound := length_of_readOption _read
    simp only [List.length_cons]
    omega

end Command
end MuseumRecord
