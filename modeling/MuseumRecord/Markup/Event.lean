import MuseumRecord.Markup.Construct
import MuseumRecord.Text.Bytes

/-!
# Events of a document

The markup of a document is a row of events: tags with their names resolved, runs of text, sections
of plain character data and asides.  Every event has the byte offset it begins at.  The row ends at
the end of the text or at the first fault of the markup.
-/

namespace MuseumRecord
namespace Markup

open Text

/-- An attribute with its name resolved and its value as written. -/
structure EventAttribute where
  /-- The name as written. -/
  key : List Char
  /-- The name without its qualifier. -/
  localName : List Char
  /-- The namespace of a qualified name. -/
  namespaceName : Option (List Char)
  /-- The text between the quotes. -/
  value : List Char
deriving DecidableEq, Repr

/-- A start tag or an empty-element tag with its names resolved. -/
structure StartTag where
  /-- The name without its qualifier. -/
  localName : List Char
  /-- The namespace of the name. -/
  namespaceName : Option (List Char)
  /-- The attributes, namespace declarations among them, up to the first fault. -/
  attributes : List EventAttribute
  /-- The fault that ends the attributes, if there is one. -/
  fault : Option AttributeFault
deriving DecidableEq, Repr

/-- One event of a document. -/
inductive Event where
  /-- An element is opened. -/
  | opened (tag : StartTag)
  /-- An element is opened and closed at once. -/
  | empty (tag : StartTag)
  /-- The innermost open element is closed. -/
  | closed
  /-- A run of text, its references not yet replaced. -/
  | characters (written : List Char)
  /-- A section of plain character data. -/
  | characterData (text : List Char)
  /-- A comment, an instruction or a declaration. -/
  | aside
deriving DecidableEq, Repr

/-- An open element while its content is read. -/
structure Frame where
  /-- The name as written. -/
  name : List Char
  /-- The bindings inside the element. -/
  scope : Scope
deriving DecidableEq, Repr

/-- The bindings inside the innermost open element. -/
def currentScope : List Frame → Scope
  | [] => Scope.initial
  | frame :: _ => frame.scope

namespace StartTag

/-- The attributes of a scanned row, with their names resolved. -/
def resolveAttributes (scope : Scope) : List ScannedAttribute → List EventAttribute
  | .whole _ key value :: rest =>
    let name := QualifiedName.split key
    ⟨key, name.localName, scope.attributeNamespace? name, value⟩ :: resolveAttributes scope rest
  | _ => []

/-- The fault that ends a scanned row. -/
def faultOf : List ScannedAttribute → Option AttributeFault
  | [] => none
  | .whole _ _ _ :: rest => faultOf rest
  | .valueless _ _ fault :: _ => some fault
  | .keyless fault :: _ => some fault

/-- The name in front of the attributes of a tag. -/
def nameOf (body : List Char) : List Char :=
  body.takeWhile fun character => !isTagSpace character

/-- Read the body of a start tag inside the given bindings: the name as written, the bindings
inside the element and the resolved tag.  Declarations take effect before names are resolved, and
a repeated declaration still takes effect. -/
def read (outer : Scope) (body : List Char) : Except BindingFault (Frame × StartTag) :=
  let name := nameOf body
  let scanned := ScannedAttribute.scanTag (byteSize name) (body.drop name.length)
  match outer.declare scanned with
  | .error fault => .error fault
  | .ok scope =>
    let qualified := QualifiedName.split name
    let distinct := ScannedAttribute.rejectRepeats [] scanned
    .ok (⟨name, scope⟩,
      ⟨qualified.localName, scope.bound? qualified.qualifier, resolveAttributes scope distinct,
        faultOf distinct⟩)

end StartTag

namespace Event

/-- The name in an end tag: blanks behind it do not count, unless there is nothing else. -/
def endName (body : List Char) : List Char :=
  match body.reverse.dropWhile isTagSpace with
  | [] => body
  | kept => kept.reverse

/-- The event of a construct and the elements that are open after it. -/
def ofConstruct (frames : List Frame) : Construct → Except MarkupFault (Event × List Frame)
  | .startTag body =>
    if body.getLast? = some '/' then
      match StartTag.read (currentScope frames) body.dropLast with
      | .ok (_, tag) => .ok (.empty tag, frames)
      | .error fault => .error (.reservedBinding fault)
    else
      match StartTag.read (currentScope frames) body with
      | .ok (frame, tag) => .ok (.opened tag, frame :: frames)
      | .error fault => .error (.reservedBinding fault)
  | .endTag body =>
    match frames with
    | [] => .error (.unmatchedEnd (endName body))
    | frame :: outer =>
      if endName body = frame.name then
        .ok (.closed, outer)
      else
        .error (.mismatchedEnd frame.name (endName body))
  | .characterData text => .ok (.characterData text, frames)
  | .aside => .ok (.aside, frames)

/-- The first event of a text that is not empty, the elements open after it and what follows. -/
def next (frames : List Frame) (first : Char) (rest : List Char) :
    Except MarkupFault (Event × List Frame × List Char) :=
  if first = '<' then
    match Construct.read rest with
    | .error fault => .error fault
    | .ok (construct, after) =>
      match ofConstruct frames construct with
      | .error fault => .error fault
      | .ok (event, inner) => .ok (event, inner, after)
  else
    let run := rest.takeWhile fun character => character != '<'
    .ok (.characters (first :: run), frames, rest.drop run.length)

theorem length_of_next {frames inner : List Frame} {first : Char} {rest after : List Char}
    {event : Event} (found : next frames first rest = .ok (event, inner, after)) :
    after.length < (first :: rest).length := by
  unfold next at found
  split at found
  · split at found
    · cases found
    · next construct remaining read =>
      have bound := Construct.length_of_read read
      split at found
      · cases found
      · cases found
        exact Nat.lt_succ_of_le bound
  · cases found
    simp only [List.length_drop, List.length_cons]
    omega

end Event

/-- The events of a document up to its end or to the first fault of its markup, each with the byte
offset it begins at. -/
structure Transcript where
  /-- The events in front of the end or of the fault. -/
  events : List (Nat × Event)
  /-- The fault and where the construct at fault begins. -/
  failure : Option (Nat × MarkupFault)
deriving DecidableEq, Repr

namespace Transcript

/-- The events of a text that begins at an offset inside the given open elements. -/
def read (offset : Nat) (frames : List Frame) (text : List Char) : Transcript :=
  match text with
  | [] => ⟨[], none⟩
  | first :: rest =>
    match _found : Event.next frames first rest with
    | .error fault => ⟨[], some (offset, fault)⟩
    | .ok (event, inner, after) =>
      let remaining := read (offset + bytesRead (first :: rest) after) inner after
      ⟨(offset, event) :: remaining.events, remaining.failure⟩
termination_by text.length
decreasing_by exact Event.length_of_next _found

/-- The events of a document.  A byte order mark in front of it does not count. -/
def ofText : List Char → Transcript
  | '\uFEFF' :: text => read 0 [] text
  | text => read 0 [] text

end Transcript

end Markup
end MuseumRecord
