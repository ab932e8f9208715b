import MuseumRecord.Text.Bytes

/-!
# Attributes of a tag

The text of a tag behind its name is a row of attributes.  A row is scanned up to its first fault;
places are byte offsets in the text of the tag.
-/

namespace MuseumRecord
namespace Markup

open Text

/-- The characters that separate the parts of a tag. -/
def isTagSpace (character : Char) : Bool :=
  character == ' ' || character == '\t' || character == '\n' || character == '\r'

/-- Why a row of attributes cannot be read on. -/
inductive AttributeFault where
  /-- A key is not followed by an equals sign. -/
  | missingEquals (place : Nat)
  /-- Nothing follows an equals sign. -/
  | missingValue (place : Nat)
  /-- A value does not stand in quotes. -/
  | unquoted (place : Nat)
  /-- A quote is not closed. -/
  | unclosedQuote (place : Nat) (quote : Char)
  /-- A key stands there for the second time. -/
  | repeatedKey (place earlier : Nat)
deriving DecidableEq, Repr

/-- The wording of a fault. -/
def AttributeFault.message : AttributeFault → String
  | .missingEquals place =>
    s!"position {place}: attribute key must be directly followed by `=` or space"
  | .missingValue place => s!"position {place}: `=` must be followed by an attribute value"
  | .unquoted place =>
    s!"position {place}: attribute value must be enclosed in `\"` or `'`"
  | .unclosedQuote place quote =>
    s!"position {place}: missing closing quote `{quote}` in attribute value"
  | .repeatedKey place earlier =>
    s!"position {place}: duplicated attribute, previous declaration at position {earlier}"

/-- An attribute as it was scanned. -/
inductive ScannedAttribute where
  /-- A key and the text between its quotes. -/
  | whole (place : Nat) (key value : List Char)
  /-- A key whose value is at fault. -/
  | valueless (place : Nat) (key : List Char) (fault : AttributeFault)
  /-- A key that is itself at fault. -/
  | keyless (fault : AttributeFault)
deriving DecidableEq, Repr

namespace ScannedAttribute

/-- The key of an attribute: its first character whatever it is, and all up to a space or an equals
sign. -/
def keyOf (first : Char) (rest : List Char) : List Char :=
  first :: rest.takeWhile fun character => character != '=' && !isTagSpace character

/-- Scan the value that stands behind an equals sign, with the text behind the value. -/
def scanValue (place : Nat) (key : List Char) (offset : Nat) (text : List Char) :
    ScannedAttribute × Nat × List Char :=
  let spaces := text.takeWhile isTagSpace
  let offset := offset + byteSize spaces
  match text.drop spaces.length with
  | [] => (.valueless place key (.missingValue offset), offset, [])
  | quote :: rest =>
    if quote = '"' ∨ quote = '\'' then
      let value := rest.takeWhile fun character => character != quote
      let offset := offset + 1 + byteSize value
      match rest.drop value.length with
      | [] => (.valueless place key (.unclosedQuote offset quote), offset, [])
      | _ :: after => (.whole place key value, offset + 1, after)
    else
      (.valueless place key (.unquoted offset), offset, quote :: rest)

/-- Scan the attribute whose key begins at an offset, with the text behind it. -/
def scanOne (offset : Nat) (first : Char) (rest : List Char) : ScannedAttribute × Nat × List Char :=
  let key := keyOf first rest
  let behindKey := rest.drop (key.length - 1)
  let spaces := behindKey.takeWhile isTagSpace
  let equals := offset + byteSize key + byteSize spaces
  match behindKey.drop spaces.length with
  | '=' :: value => scanValue offset key (equals + 1) value
  | other => (.keyless (.missingEquals equals), equals, other)

/-- Scan a row of attributes up to its end or to its first fault. -/
def scan : Nat → Nat → List Char → List ScannedAttribute
  | 0, _, _ => []
  | fuel + 1, offset, text =>
    let spaces := text.takeWhile isTagSpace
    match text.drop spaces.length with
    | [] => []
    | first :: rest =>
      match scanOne (offset + byteSize spaces) first rest with
      | (.whole place key value, offset, after) =>
        .whole place key value :: scan fuel offset after
      | (faulty, _, _) => [faulty]

/-- The row without what follows the first key that repeats an earlier one. -/
def rejectRepeats (seen : List (List Char × Nat)) : List ScannedAttribute → List ScannedAttribute
  | [] => []
  | .whole place key value :: rest =>
    match seen.lookup key with
    | some earlier => [.valueless place key (.repeatedKey place earlier)]
    | none => .whole place key value :: rejectRepeats ((key, place) :: seen) rest
  | .valueless place key fault :: _ =>
    match seen.lookup key with
    | some earlier => [.valueless place key (.repeatedKey place earlier)]
    | none => [.valueless place key fault]
  | .keyless fault :: _ => [.keyless fault]

/-- The attributes in the text behind the name of a tag.  Every attribute takes at least one
character, so that the length of the text bounds their number. -/
def scanTag (offset : Nat) (text : List Char) : List ScannedAttribute :=
  scan text.length offset text

end ScannedAttribute

end Markup
end MuseumRecord
