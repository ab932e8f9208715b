import MuseumRecord.Markup.Element
import MuseumRecord.Markup.Event
import MuseumRecord.Markup.Reference
import MuseumRecord.Text.Blank

/-!
# Documents

A document is one element tree, built from the events of its text.  Comments, instructions and
declarations leave no trace; neither do namespace declarations and schema hints among the
attributes.
-/

namespace MuseumRecord
namespace Markup

open Text

/-- Why the value of an attribute or a run of text cannot be read. -/
inductive ValueFault where
  /-- A row of attributes is at fault. -/
  | badAttribute (fault : AttributeFault)
  /-- A reference is at fault. -/
  | badReference (fault : ReferenceFault)
deriving DecidableEq, Repr

/-- Why a text is no document.  Places are byte offsets in the text. -/
inductive ParseError where
  /-- The markup is at fault. -/
  | malformed (place : Nat) (fault : MarkupFault)
  /-- A value is at fault. -/
  | badValue (place : Nat) (fault : ValueFault)
  /-- There is no element. -/
  | noRoot
  /-- An element follows the root. -/
  | secondRoot (name : String)
  /-- Text that is not blank stands outside the root. -/
  | textOutsideRoot (place : Nat)
  /-- The text ends inside an element. -/
  | unclosed (name : String)
deriving DecidableEq, Repr

/-- A document while its events are taken in. -/
structure Builder where
  /-- The open elements, innermost first. -/
  openElements : List Element := []
  /-- The root, once it is closed. -/
  root : Option Element := none

namespace Builder

/-- The namespace of schema hints. -/
def schemaHints : List Char := "http://www.w3.org/2001/XMLSchema-instance".toList

/-- Whether an attribute says something about the record, and not about its markup. -/
def isKept (written : EventAttribute) : Bool :=
  (Scope.declared? written.key).isNone && written.namespaceName != some schemaHints

/-- Local names and values of the attributes that are kept, with references replaced. -/
def attributesOf : List EventAttribute → Except ReferenceFault (List (String × String))
  | [] => .ok []
  | written :: rest =>
    if isKept written then
      match Reference.expand written.value with
      | .error fault => .error fault
      | .ok value =>
        match attributesOf rest with
        | .error fault => .error fault
        | .ok others => .ok ((String.ofList written.localName, String.ofList value) :: others)
    else
      attributesOf rest

/-- The element that a tag opens, still without content. -/
def elementOf (tag : StartTag) : Except ValueFault Element :=
  match attributesOf tag.attributes with
  | .error fault => .error (.badReference fault)
  | .ok attributes =>
    match tag.fault with
    | some fault => .error (.badAttribute fault)
    | none =>
      .ok { name := String.ofList tag.localName
            namespaceName := tag.namespaceName.map String.ofList
            attributes := attributes }

/-- Take in a tag: no element follows the root. -/
def openTag (builder : Builder) (place : Nat) (tag : StartTag) : Except ParseError Element :=
  if builder.root.isSome then
    .error (.secondRoot (String.ofList tag.localName))
  else
    match elementOf tag with
    | .ok element => .ok element
    | .error fault => .error (.badValue place fault)

/-- Put a finished element into the innermost open one, or make it the root. -/
def close (element : Element) (outer : List Element) : Builder :=
  match outer with
  | parent :: others => ⟨parent.appendChild element :: others, none⟩
  | [] => ⟨[], some element⟩

/-- Put text into the innermost open element.  Outside the root there are only blanks. -/
def addText (builder : Builder) (place : Nat) (text : List Char) : Except ParseError Builder :=
  match builder.openElements with
  | element :: outer =>
    .ok { builder with openElements := element.appendText (String.ofList text) :: outer }
  | [] => if allBlank text then .ok builder else .error (.textOutsideRoot place)

/-- Take in one event. -/
def step (builder : Builder) (place : Nat) : Event → Except ParseError Builder
  | .opened tag =>
    match builder.openTag place tag with
    | .ok element => .ok { builder with openElements := element :: builder.openElements }
    | .error fault => .error fault
  | .empty tag =>
    match builder.openTag place tag with
    | .ok element => .ok (close element builder.openElements)
    | .error fault => .error fault
  | .closed =>
    match builder.openElements with
    | element :: outer => .ok (close element outer)
    | [] => .ok builder
  | .characters written =>
    match Reference.expand written with
    | .ok text => builder.addText place text
    | .error fault => .error (.badValue place (.badReference fault))
  | .characterData text => builder.addText place text
  | .aside => .ok builder

/-- Take in a row of events. -/
def run (builder : Builder) : List (Nat × Event) → Except ParseError Builder
  | [] => .ok builder
  | (place, event) :: rest =>
    match builder.step place event with
    | .ok next => run next rest
    | .error fault => .error fault

/-- The document when no event is left. -/
def finish (builder : Builder) : Except ParseError Element :=
  match builder.openElements, builder.root with
  | element :: _, _ => .error (.unclosed element.name)
  | [], some root => .ok root
  | [], none => .error .noRoot

end Builder

/-- The document of a transcript: the first fault counts, in the events or behind them. -/
def Transcript.document (transcript : Transcript) : Except ParseError Element :=
  match Builder.run {} transcript.events with
  | .error fault => .error fault
  | .ok builder =>
    match transcript.failure with
    | some (place, fault) => .error (.malformed place fault)
    | none => builder.finish

/-- The root element of a document text. -/
def parse (text : String) : Except ParseError Element :=
  (Transcript.ofText text.toList).document

end Markup
end MuseumRecord
