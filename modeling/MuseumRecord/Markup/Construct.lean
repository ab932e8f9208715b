import MuseumRecord.Markup.Scope
import MuseumRecord.Text.LowerCase
import MuseumRecord.Text.Piece

/-!
# Constructs of markup

What a `<` begins: a tag, or one of the constructs that are no elements.  Each ends at its own mark;
a `>` in the quotes of a tag does not end the tag.
-/

namespace MuseumRecord
namespace Markup

open Text

/-- Why the markup of a document cannot be read on. -/
inductive MarkupFault where
  /-- A `!` begins no known construct. -/
  | unknownConstruct
  /-- A tag does not end. -/
  | unclosedTag
  /-- A comment does not end. -/
  | unclosedComment
  /-- A section of plain character data does not end. -/
  | unclosedCharacterData
  /-- A document type declaration does not end. -/
  | unclosedDocumentType
  /-- A processing instruction does not end. -/
  | unclosedInstruction
  /-- A document type declaration is empty. -/
  | namelessDocumentType
  /-- An end tag names another element than the innermost open one. -/
  | mismatchedEnd (expected found : List Char)
  /-- An end tag stands where no element is open. -/
  | unmatchedEnd (found : List Char)
  /-- A namespace declaration breaks a reservation. -/
  | reservedBinding (fault : BindingFault)
deriving DecidableEq, Repr

/-- What a `<` begins. -/
inductive Construct where
  /-- A start tag or an empty-element tag, without its brackets. -/
  | startTag (body : List Char)
  /-- An end tag, without its brackets and its slash. -/
  | endTag (body : List Char)
  /-- A section of plain character data. -/
  | characterData (text : List Char)
  /-- A comment, an instruction or a declaration. -/
  | aside
deriving DecidableEq, Repr

namespace Construct

/-- The body of a tag up to its closing bracket, and what follows. -/
def tagBody? (quote : Option Char) : List Char → Option (List Char × List Char)
  | [] => none
  | character :: rest =>
    match quote with
    | some open_ =>
      (tagBody? (if character = open_ then none else some open_) rest).map fun (body, after) =>
        (character :: body, after)
    | none =>
      if character = '>' then
        some ([], rest)
      else
        (tagBody? (if character = '"' ∨ character = '\'' then some character else none) rest).map
          fun (body, after) => (character :: body, after)

/-- The inside of a document type declaration up to the bracket that closes it, and what follows.
Brackets inside are balanced. -/
def balancedBody? (depth : Nat) : List Char → Option (List Char × List Char)
  | [] => none
  | character :: rest =>
    if character = '>' ∧ depth = 0 then
      some ([], rest)
    else
      let depth :=
        if character = '<' then depth + 1 else if character = '>' then depth - 1 else depth
      (balancedBody? depth rest).map fun (body, after) => (character :: body, after)

/-- A construct that begins with `<!`, given the text behind these two characters. -/
def readDeclaration (text : List Char) : Except MarkupFault (Construct × List Char) :=
  match text with
  | '-' :: _ =>
    match ("--".toList.isPrefixOf? text).bind (cut "-->".toList) with
    | some (_, after) => .ok (.aside, after)
    | none => .error .unclosedComment
  | '[' :: _ =>
    match ("[CDATA[".toList.isPrefixOf? text).bind (cut "]]>".toList) with
    | some (inside, after) => .ok (.characterData inside, after)
    | none => .error .unclosedCharacterData
  | first :: _ =>
    if first = 'D' ∨ first = 'd' then
      if lowerAscii (text.take 7) = "doctype".toList then
        match balancedBody? 0 (text.drop 7) with
        | some (inside, after) =>
          if inside.all isTagSpace then .error .namelessDocumentType else .ok (.aside, after)
        | none => .error .unclosedDocumentType
      else
        .error .unclosedDocumentType
    else
      .error .unknownConstruct
  | [] => .error .unknownConstruct

/-- A construct that begins with `<?`, given the text behind these two characters. -/
def readInstruction (text : List Char) : Except MarkupFault (Construct × List Char) :=
  match text with
  | '>' :: _ => .error .unclosedInstruction
  | _ =>
    match cut "?>".toList text with
    | some (_, after) => .ok (.aside, after)
    | none => .error .unclosedInstruction

/-- The construct that a `<` begins, given the text behind it, and what follows the construct. -/
def read (text : List Char) : Except MarkupFault (Construct × List Char) :=
  match text with
  | '!' :: rest => readDeclaration rest
  | '?' :: rest => readInstruction rest
  | '/' :: rest =>
    match tagBody? none rest with
    | some (body, after) => .ok (.endTag body, after)
    | none => .error .unclosedTag
  | _ =>
    match tagBody? none text with
    | some (body, after) => .ok (.startTag body, after)
    | none => .error .unclosedTag

/-! ## What follows a construct is no longer than the text -/

theorem length_of_tagBody? {quote : Option Char} {text body after : List Char}
    (found : tagBody? quote text = some (body, after)) : after.length < text.length := by
  induction text generalizing quote body with
  | nil => simp [tagBody?] at found
  | cons character rest inductionHypothesis =>
    unfold tagBody? at found
    cases quote with
    | some quoted =>
      obtain ⟨⟨innerBody, innerAfter⟩, inner, equal⟩ := Option.map_eq_some_iff.mp found
      cases equal
      exact Nat.lt_succ_of_lt (inductionHypothesis inner)
    | none =>
      simp only at found
      split at found
      · cases found
        exact Nat.lt_succ_self _
      · obtain ⟨⟨innerBody, innerAfter⟩, inner, equal⟩ := Option.map_eq_some_iff.mp found
        cases equal
        exact Nat.lt_succ_of_lt (inductionHypothesis inner)

theorem length_of_balancedBody? {depth : Nat} {text body after : List Char}
    (found : balancedBody? depth text = some (body, after)) : after.length < text.length := by
  induction text generalizing depth body with
  | nil => simp [balancedBody?] at found
  | cons character rest inductionHypothesis =>
    unfold balancedBody? at found
    split at found
    · cases found
      exact Nat.lt_succ_self _
    · obtain ⟨⟨innerBody, innerAfter⟩, inner, equal⟩ := Option.map_eq_some_iff.mp found
      cases equal
      exact Nat.lt_succ_of_lt (inductionHypothesis inner)

theorem length_of_opened_cut {opening closing text inside after : List Char}
    (found : (opening.isPrefixOf? text).bind (cut closing) = some (inside, after)) :
    after.length ≤ text.length := by
  obtain ⟨rest, leading, division⟩ := Option.bind_eq_some_iff.mp found
  have whole := congrArg List.length (append_of_isPrefixOf? leading)
  have part := length_of_cut division
  simp only [List.length_append] at whole
  omega

theorem length_of_readDeclaration {text after : List Char} {construct : Construct}
    (found : readDeclaration text = .ok (construct, after)) : after.length ≤ text.length := by
  unfold readDeclaration at found
  split at found
  · split at found
    · next opened =>
      cases found
      exact length_of_opened_cut opened
    · cases found
  · split at found
    · next opened =>
      cases found
      exact length_of_opened_cut opened
    · cases found
  · split at found
    · split at found
      · split at found
        · next balanced =>
          split at found
          · cases found
          · cases found
            have shorter := length_of_balancedBody? balanced
            simp only [List.length_drop] at shorter
            omega
        · cases found
      · cases found
    · cases found
  · cases found

theorem length_of_readInstruction {text after : List Char} {construct : Construct}
    (found : readInstruction text = .ok (construct, after)) : after.length ≤ text.length := by
  unfold readInstruction at found
  split at found
  · cases found
  · split at found
    · next division =>
      cases found
      have part := length_of_cut division
      omega
    · cases found

/-- What follows a construct is no longer than the text behind its `<`. -/
theorem length_of_read {text after : List Char} {construct : Construct}
    (found : read text = .ok (construct, after)) : after.length ≤ text.length := by
  unfold read at found
  split at found
  · exact Nat.le_succ_of_le (length_of_readDeclaration found)
  · exact Nat.le_succ_of_le (length_of_readInstruction found)
  · split at found
    · next body =>
      cases found
      exact Nat.le_succ_of_le (Nat.le_of_lt (length_of_tagBody? body))
    · cases found
  · split at found
    · next body =>
      cases found
      exact Nat.le_of_lt (length_of_tagBody? body)
    · cases found

end Construct

end Markup
end MuseumRecord
