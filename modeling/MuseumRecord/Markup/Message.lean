import MuseumRecord.Markup.Document
import MuseumRecord.Number.Digits

/-!
# Wording of document errors

What is said about a text that is no document.
-/

namespace MuseumRecord
namespace Markup

/-- The hexadecimal digits of a byte, without a leading zero. -/
def hexDigits (value : Nat) : List Char :=
  let upper := fun digit => if digit < 10 then Char.ofNat (48 + digit) else Char.ofNat (55 + digit)
  if value < 16 then [upper value] else [upper (value / 16), upper (value % 16)]

/-- A text in quotes: visible ASCII as it is, a quote behind a backslash, and every other byte of
the UTF-8 form by its number. -/
def quotedBytes (text : List Char) : String :=
  let shown := fun (byte : UInt8) =>
    if byte.toNat = 34 then ['\\', '"']
    else if 32 ≤ byte.toNat ∧ byte.toNat ≤ 126 then [Char.ofNat byte.toNat]
    else '0' :: 'x' :: hexDigits byte.toNat
  String.ofList
    ('"' :: ((String.ofList text).toUTF8.toList.flatMap shown ++ ['"']))

/-- The wording of a broken reservation. -/
def BindingFault.message (fault : BindingFault) : String :=
  s!"The namespace prefix '{quotedBytes fault.qualifier}' " ++
    s!"cannot be bound to '{quotedBytes fault.namespaceName}'"

/-- The wording of a fault of the markup. -/
def MarkupFault.message : MarkupFault → String
  | .unknownConstruct => "syntax error: unknown or missed symbol in markup"
  | .unclosedTag => "syntax error: tag not closed: `>` not found before end of input"
  | .unclosedComment => "syntax error: comment not closed: `-->` not found before end of input"
  | .unclosedCharacterData =>
    "syntax error: CDATA not closed: `]]>` not found before end of input"
  | .unclosedDocumentType => "syntax error: DOCTYPE not closed: `>` not found before end of input"
  | .unclosedInstruction =>
    "syntax error: processing instruction or xml declaration not closed: " ++
      "`?>` not found before end of input"
  | .namelessDocumentType =>
    "ill-formed document: `<!DOCTYPE>` declaration does not contain a name of a document type"
  | .mismatchedEnd expected found =>
    s!"ill-formed document: expected `</{String.ofList expected}>`, " ++
      s!"but `</{String.ofList found}>` was found"
  | .unmatchedEnd found =>
    s!"ill-formed document: close tag `</{String.ofList found}>` does not match any open tag"
  | .reservedBinding fault => fault.message

/-- The wording of a fault of a value. -/
def ValueFault.message : ValueFault → String
  | .badAttribute fault => fault.message
  | .badReference fault => fault.message

/-- The wording of an error. -/
def ParseError.message : ParseError → String
  | .malformed place fault => s!"malformed XML at byte {place}: {fault.message}"
  | .badValue place fault => s!"invalid value at byte {place}: {fault.message}"
  | .noRoot => "document has no root element"
  | .secondRoot name =>
    s!"document has more than one root element (found '{name}' after the root)"
  | .textOutsideRoot place => s!"text outside the root element at byte {place}"
  | .unclosed name => s!"element '{name}' is never closed"

end Markup
end MuseumRecord
