import MuseumRecord.Proofs.Markup.Tree
import MuseumRecord.Text.LowerCase.Table
import Mathlib.Data.List.Forall2

/-!
# Written documents

The ways to write an element tree as a document text, independent of how a text is read.  A tree
has many writings: characters may be escaped, text may be cut into pieces, and asides may stand
between them.
-/

namespace MuseumRecord
namespace Markup

open Text

/-! ## Names -/

/-- The codes of the characters that may begin a name. -/
def nameStarts : List (Nat × Nat) :=
  [(0x3A, 0x3A), (0x41, 0x5A), (0x5F, 0x5F), (0x61, 0x7A), (0xC0, 0xD6), (0xD8, 0xF6),
    (0xF8, 0x2FF), (0x370, 0x37D), (0x37F, 0x1FFF), (0x200C, 0x200D), (0x2070, 0x218F),
    (0x2C00, 0x2FEF), (0x3001, 0xD7FF), (0xF900, 0xFDCF), (0xFDF0, 0xFFFD), (0x10000, 0xEFFFF)]

/-- The codes of the characters that may follow in a name, beside those that may begin one. -/
def nameFollowers : List (Nat × Nat) :=
  [(0x2D, 0x2E), (0x30, 0x39), (0xB7, 0xB7), (0x300, 0x36F), (0x203F, 0x2040)]

/-- A character that may begin a name. -/
def isNameStart (character : Char) : Bool :=
  LowerCase.inRanges nameStarts character.toNat

/-- A character that may stand in a name. -/
def isNameCharacter (character : Char) : Bool :=
  LowerCase.inRanges (nameStarts ++ nameFollowers) character.toNat

/-- A name of XML, as an instruction may have it. -/
def IsName (name : List Char) : Prop :=
  (∃ first ∈ name.head?, isNameStart first) ∧ ∀ character ∈ name, isNameCharacter character

/-- A name of XML without a colon. -/
def IsPlainName (name : List Char) : Prop :=
  IsName name ∧ ':' ∉ name

instance (name : List Char) : Decidable (IsName name) :=
  decidable_of_iff (name.head?.any isNameStart = true ∧ name.all isNameCharacter = true)
    (and_congr (Option.any_eq_true _ _) List.all_eq_true)

instance (name : List Char) : Decidable (IsPlainName name) :=
  inferInstanceAs (Decidable (_ ∧ _))

/-- What an element has to meet to be written without qualifiers. -/
structure Element.IsPlain (element : Element) : Prop where
  /-- The element has a name. -/
  named : IsPlainName element.name.toList
  /-- Every attribute has a name that declares nothing. -/
  keyed : ∀ key ∈ element.attributes.map Prod.fst, IsPlainName key.toList ∧ key ≠ "xmlns"
  /-- No two attributes have one name. -/
  distinct : (element.attributes.map Prod.fst).Nodup
  /-- The namespace has a name, if there is one. -/
  declarable : element.namespaceName ≠ some ""

instance (element : Element) : Decidable element.IsPlain :=
  decidable_of_iff
    (IsPlainName element.name.toList ∧
      (∀ key ∈ element.attributes.map Prod.fst, IsPlainName key.toList ∧ key ≠ "xmlns") ∧
        (element.attributes.map Prod.fst).Nodup ∧ element.namespaceName ≠ some "")
    ⟨fun ⟨named, keyed, distinct, declarable⟩ => ⟨named, keyed, distinct, declarable⟩,
      fun ⟨named, keyed, distinct, declarable⟩ => ⟨named, keyed, distinct, declarable⟩⟩

/-! ## Tags -/

/-- The five characters that have a reference of their own, each behind its name. -/
def markupCharacters : List (List Char × Char) :=
  [("amp".toList, '&'), ("lt".toList, '<'), ("gt".toList, '>'), ("quot".toList, '"'),
    ("apos".toList, '\'')]

/-- A text as it may be escaped: one of the five characters by its name, or a character as it is
unless it begins a reference or a tag. -/
inductive Escapes : List Char → List Char → Prop
  | done : Escapes [] []
  | named {name : List Char} {character : Char} {text written : List Char} :
      (name, character) ∈ markupCharacters → Escapes text written →
      Escapes (character :: text) ('&' :: name ++ ';' :: written)
  | plain {character : Char} {text written : List Char} :
      character ≠ '&' → character ≠ '<' → Escapes text written →
      Escapes (character :: text) (character :: written)

/-- The characters that separate the parts of a tag. -/
def spaceCharacters : List Char :=
  [' ', '\t', '\n', '\r']

/-- A stretch of spaces, which may be empty. -/
def IsSpace (text : List Char) : Prop :=
  text ⊆ spaceCharacters

theorem isSpace_nil : IsSpace [] :=
  List.nil_subset _

instance (text : List Char) : Decidable (IsSpace text) :=
  decidable_of_iff (text.all spaceCharacters.contains = true)
    (by simp [IsSpace, List.subset_def])

/-- An attribute with a space in front and its value, as written, in quotes of either kind. -/
inductive WritesAttribute (key value : List Char) : List Char → Prop
  | quoted {before behind ahead : List Char} {quote : Char} :
      before ≠ [] → IsSpace before → IsSpace behind → IsSpace ahead →
      quote = '"' ∨ quote = '\'' → quote ∉ value →
      WritesAttribute key value
        (before ++ key ++ behind ++ '=' :: ahead ++ quote :: value ++ [quote])

/-- A row of attributes, given the key and the written value of each. -/
inductive WritesRow : List (List Char × List Char) → List Char → Prop
  | done : WritesRow [] []
  | more {key value first others : List Char} {row : List (List Char × List Char)} :
      WritesAttribute key value first → WritesRow row others →
      WritesRow ((key, value) :: row) (first ++ others)

/-- An attribute as its key and its value, with the value escaped. -/
def IsWrittenAs (given : String × String) (written : List Char × List Char) : Prop :=
  written.1 = given.1.toList ∧ Escapes given.2.toList written.2

/-- The keys and written values of the tag of an element: the attributes in order and, anywhere
among them, the declaration of the namespace as it is, which is empty for none. -/
inductive IsRowOf (element : Element) : List (List Char × List Char) → Prop
  | declaring {before behind : List (List Char × List Char)} :
      List.Forall₂ IsWrittenAs element.attributes (before ++ behind) →
      IsRowOf element
        (before ++ ("xmlns".toList, (element.namespaceName.getD "").toList) :: behind)

/-- The inside of the start tag of an element. -/
inductive WritesTag (element : Element) : List Char → Prop
  | tag {row : List (List Char × List Char)} {attributes space : List Char} :
      IsRowOf element row → WritesRow row attributes → IsSpace space →
      WritesTag element (element.name.toList ++ attributes ++ space)

/-! ## Content -/

/-- A comment or a processing instruction: neither holds its own end. -/
inductive WritesAside : List Char → Prop
  | comment {text : List Char} :
      ¬ "-->".toList <:+: text → WritesAside ("<!--".toList ++ text ++ "-->".toList)
  | instruction {target data : List Char} :
      IsName target → ¬ "?>".toList <:+: target ++ data →
      WritesAside ("<?".toList ++ (target ++ data) ++ "?>".toList)

mutual

/-- An element, written with one empty-element tag or with two tags around its content. -/
inductive Writes : Element → List Char → Prop
  | empty {element : Element} {tag : List Char} :
      element.text = "" → element.children = [] → WritesTag element tag →
      Writes element ('<' :: tag ++ "/>".toList)
  | full {element : Element} {tag content space : List Char} :
      WritesTag element tag → WritesContent element.text.toList element.children content →
      IsSpace space →
      Writes element
        ('<' :: tag ++ '>' :: content ++ "</".toList ++ (element.name.toList ++ space) ++ ['>'])

/-- The content of an element, given its own text and its children: pieces of the text, either
escaped or as plain character data, asides and the children, in any order that keeps the order of
the pieces and the order of the children. -/
inductive WritesContent : List Char → List Element → List Char → Prop
  | done : WritesContent [] [] []
  | text {piece written text content : List Char} {children : List Element} :
      Escapes piece written → WritesContent text children content →
      WritesContent (piece ++ text) children (written ++ content)
  | characterData {piece text content : List Char} {children : List Element} :
      ¬ "]]>".toList <:+: piece → WritesContent text children content →
      WritesContent (piece ++ text) children
        ("<![CDATA[".toList ++ piece ++ "]]>".toList ++ content)
  | aside {written text content : List Char} {children : List Element} :
      WritesAside written → WritesContent text children content →
      WritesContent text children (written ++ content)
  | child {element : Element} {written text content : List Char} {children : List Element} :
      Writes element written → WritesContent text children content →
      WritesContent text (element :: children) (written ++ content)

end

/-- What may stand in front of the root and behind it: spaces and asides. -/
inductive WritesSurroundings : List Char → Prop
  | done : WritesSurroundings []
  | space {character : Char} {rest : List Char} :
      character ∈ spaceCharacters → WritesSurroundings rest →
      WritesSurroundings (character :: rest)
  | aside {written rest : List Char} :
      WritesAside written → WritesSurroundings rest → WritesSurroundings (written ++ rest)

/-- A document with the given root. -/
inductive WritesDocument (root : Element) : List Char → Prop
  | document {before written behind : List Char} :
      WritesSurroundings before → Writes root written → WritesSurroundings behind →
      WritesDocument root (before ++ written ++ behind)

/-! ## Every tree can be written -/

/-- The text with each of the five characters as a reference. -/
def escape (text : List Char) : List Char :=
  text.flatMap fun character =>
    match markupCharacters.find? fun (_, other) => other == character with
    | some (name, _) => '&' :: name ++ [';']
    | none => [character]

theorem escapes_escape (text : List Char) : Escapes text (escape text) := by
  induction text with
  | nil => exact .done
  | cons character text inductionHypothesis =>
    unfold escape
    rw [List.flatMap_cons]
    split
    · next name other found =>
      have same : other = character := by simpa using List.find?_some found
      have named := Escapes.named (same ▸ List.mem_of_find?_eq_some found) inductionHypothesis
      simpa [escape] using named
    · next absent =>
      have unnamed := List.find?_eq_none.mp absent
      have noReference : character ≠ '&' := by
        rintro rfl
        exact absurd (by decide) (unnamed ("amp".toList, '&') (by decide))
      have noTag : character ≠ '<' := by
        rintro rfl
        exact absurd (by decide) (unnamed ("lt".toList, '<') (by decide))
      exact .plain noReference noTag inductionHypothesis

theorem quote_not_mem_escape (text : List Char) : '"' ∉ escape text := by
  intro member
  obtain ⟨character, _, inside⟩ := List.mem_flatMap.mp member
  split at inside
  · next name other found =>
    have listed := List.mem_of_find?_eq_some found
    have closed : ∀ entry ∈ markupCharacters, '"' ∉ '&' :: entry.1 ++ [';'] := by decide
    exact closed _ listed inside
  · next absent =>
    obtain rfl := List.mem_singleton.mp inside
    exact absurd (by decide) (List.find?_eq_none.mp absent ("quot".toList, '"') (by decide))

theorem exists_writesRow {row : List (List Char × List Char)}
    (quotable : ∀ pair ∈ row, '"' ∉ pair.2) : ∃ written, WritesRow row written := by
  induction row with
  | nil => exact ⟨[], .done⟩
  | cons pair row inductionHypothesis =>
    obtain ⟨others, written⟩ :=
      inductionHypothesis fun other member => quotable other (.tail _ member)
    have spaced : IsSpace [' '] := by decide
    exact ⟨_, .more (.quoted (List.cons_ne_nil _ _) spaced isSpace_nil isSpace_nil (.inl rfl)
      (quotable pair List.mem_cons_self)) written⟩

/-- The declaration of an element and its attributes with escaped values. -/
def Element.row (element : Element) : List (List Char × List Char) :=
  ("xmlns".toList, (element.namespaceName.getD "").toList) ::
    element.attributes.map fun (key, value) => (key.toList, escape value.toList)

theorem isRowOf_row (element : Element) : IsRowOf element element.row := by
  have escaped (attributes : List (String × String)) : List.Forall₂ IsWrittenAs attributes
      ([] ++ attributes.map fun (key, value) => (key.toList, escape value.toList)) := by
    induction attributes with
    | nil => exact .nil
    | cons given _ inductionHypothesis =>
      exact .cons ⟨rfl, escapes_escape given.2.toList⟩ inductionHypothesis
  exact .declaring (escaped element.attributes)

theorem exists_writesTag {element : Element}
    (quotable : ∀ name ∈ element.namespaceName, '"' ∉ name.toList) :
    ∃ tag, WritesTag element tag := by
  have unquoted : ∀ pair ∈ element.row, '"' ∉ pair.2 := by
    intro pair member
    rcases List.mem_cons.mp member with rfl | listed
    · cases declared : element.namespaceName with
      | none => decide
      | some name => exact quotable name declared
    · obtain ⟨given, _, rfl⟩ := List.mem_map.mp listed
      exact quote_not_mem_escape given.2.toList
  obtain ⟨written, writtenRow⟩ := exists_writesRow unquoted
  exact ⟨_, .tag (isRowOf_row element) writtenRow isSpace_nil⟩

theorem exists_writesContent {children : List Element}
    (written : ∀ child ∈ children, ∃ text, Writes child text) (text : List Char) :
    ∃ content, WritesContent text children content := by
  have row : ∃ content, WritesContent [] children content := by
    induction children with
    | nil => exact ⟨[], .done⟩
    | cons child children inductionHypothesis =>
      obtain ⟨first, firstWritten⟩ := written child List.mem_cons_self
      obtain ⟨others, othersWritten⟩ :=
        inductionHypothesis fun other member => written other (.tail _ member)
      exact ⟨first ++ others, .child firstWritten othersWritten⟩
  obtain ⟨content, rowWritten⟩ := row
  have whole := WritesContent.text (escapes_escape text) rowWritten
  rw [List.append_nil] at whole
  exact ⟨_, whole⟩

/-- Every tree has a writing when its namespaces can stand in quotes. -/
theorem exists_writes {tree : Element}
    (quotable : tree.Everywhere fun element =>
      ∀ name ∈ element.namespaceName, '"' ∉ name.toList) : ∃ text, Writes tree text := by
  induction tree using Element.inductionOnChildren with
  | step element inductionHypothesis =>
    obtain ⟨here, below⟩ := Element.everywhere_iff.mp quotable
    obtain ⟨tag, tagWritten⟩ := exists_writesTag here
    obtain ⟨content, contentWritten⟩ := exists_writesContent
      (fun child member => inductionHypothesis child member (below child member))
      element.text.toList
    exact ⟨_, .full tagWritten contentWritten isSpace_nil⟩

/-! ## A written tree -/

/-- A small tree with a namespace that a child does not share. -/
def sampleTree : Element :=
  { name := "set"
    namespaceName := some "urn:n"
    attributes := [("size", "1 < 2")]
    text := "a & <b> c"
    children := [{ name := "item" }, { name := "item", namespaceName := some "urn:n" }] }

/-- One of its writings. -/
def sampleText : String :=
  "<?xml version='1.0'?>\n<set size=\"1 &lt; 2\" xmlns='urn:n'>a &amp; <item xmlns=\"\"/>" ++
    "<![CDATA[<b>]]><item xmlns='urn:n'></item ><!-- x > y --> c</set>\n"

theorem sampleTree_plain : sampleTree.Everywhere Element.IsPlain := by
  refine Element.everywhere_iff.mpr ⟨by decide, fun child member => ?_⟩
  have options : child = { name := "item" } ∨
      child = { name := "item", namespaceName := some "urn:n" } := by
    simpa [sampleTree] using member
  rcases options with rfl | rfl <;> exact Element.everywhere_iff.mpr ⟨by decide, by simp⟩

theorem writesAttribute_xmlns {value : List Char} (quote : Char)
    (opens : quote = '"' ∨ quote = '\'') (fresh : quote ∉ value) :
    WritesAttribute "xmlns".toList value (" xmlns=".toList ++ quote :: value ++ [quote]) := by
  have spaced : IsSpace [' '] := by decide
  exact .quoted (List.cons_ne_nil _ _) spaced isSpace_nil isSpace_nil opens fresh

theorem writesTag_of_attributeless {element : Element} (attributeless : element.attributes = [])
    (quote : Char) (opens : quote = '"' ∨ quote = '\'')
    (fresh : quote ∉ (element.namespaceName.getD "").toList) :
    WritesTag element (element.name.toList ++ (" xmlns=".toList ++
      quote :: (element.namespaceName.getD "").toList ++ [quote])) := by
  have rowOf := isRowOf_row element
  rw [Element.row, attributeless, List.map_nil] at rowOf
  have row := WritesRow.more (writesAttribute_xmlns quote opens fresh) .done
  simpa using WritesTag.tag rowOf row isSpace_nil

theorem not_infix_of_not_mem {mark text : List Char} (character : Char)
    (inside : character ∈ mark) (fresh : character ∉ text) : ¬ mark <:+: text :=
  fun found => fresh (found.subset inside)

theorem sampleTree_tag :
    WritesTag sampleTree "set size=\"1 &lt; 2\" xmlns='urn:n'".toList := by
  have value : Escapes "1 < 2".toList "1 &lt; 2".toList := escapes_escape _
  have row : List.Forall₂ IsWrittenAs sampleTree.attributes
      ([("size".toList, "1 &lt; 2".toList)] ++ []) := .cons ⟨rfl, value⟩ .nil
  have size : WritesAttribute "size".toList "1 &lt; 2".toList
      (" ".toList ++ "size".toList ++ [] ++ '=' :: [] ++ '"' :: "1 &lt; 2".toList ++ ['"']) :=
    .quoted (by decide) (by decide) (by decide) (by decide) (.inl rfl) (by decide)
  have declares : WritesAttribute "xmlns".toList "urn:n".toList _ :=
    writesAttribute_xmlns '\'' (.inr rfl) (by decide)
  exact .tag (.declaring row) (.more size (.more declares .done)) isSpace_nil

theorem sampleTree_content :
    WritesContent sampleTree.text.toList sampleTree.children
      ("a &amp; <item xmlns=\"\"/><![CDATA[<b>]]><item xmlns='urn:n'></item >".toList ++
        "<!-- x > y --> c".toList) := by
  have emptyItem : Writes { name := "item" } "<item xmlns=\"\"/>".toList :=
    .empty rfl rfl (writesTag_of_attributeless rfl '"' (.inl rfl) (by decide))
  have itemTag : WritesTag { name := "item", namespaceName := some "urn:n" } _ :=
    writesTag_of_attributeless rfl '\'' (.inr rfl) (by decide)
  have space : IsSpace " ".toList := by decide
  have fullItem : Writes { name := "item", namespaceName := some "urn:n" } _ :=
    .full itemTag .done space
  have first : Escapes "a & ".toList "a &amp; ".toList := escapes_escape _
  have free : ¬ "]]>".toList <:+: "<b>".toList := by decide
  have last : Escapes " c".toList " c".toList := escapes_escape _
  have ended : ¬ "-->".toList <:+: " x > y ".toList :=
    not_infix_of_not_mem '-' (by decide) (by decide)
  have content := WritesContent.text first (.child emptyItem (.characterData free
    (.child fullItem (.aside (.comment ended) (.text last .done)))))
  have pieces : "a & ".toList ++ ("<b>".toList ++ (" c".toList ++ [])) =
      sampleTree.text.toList := by decide
  rw [pieces] at content
  apply (congrArg (WritesContent _ _) _).mp content
  decide +kernel

theorem sampleText_written : WritesDocument sampleTree sampleText.toList := by
  have target : IsName "xml".toList := by decide
  have running : ¬ "?>".toList <:+: "xml".toList ++ " version='1.0'".toList :=
    not_infix_of_not_mem '?' (by decide) (by decide)
  have instruction := WritesAside.instruction target running
  have line : WritesSurroundings ['\n'] := .space (by decide) .done
  have root : Writes sampleTree _ := .full sampleTree_tag sampleTree_content isSpace_nil
  have document := WritesDocument.document (.aside instruction line) root line
  refine (congrArg (WritesDocument sampleTree) ?_).mp document
  decide +kernel

end Markup
end MuseumRecord
