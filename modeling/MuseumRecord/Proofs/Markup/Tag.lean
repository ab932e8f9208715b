import MuseumRecord.Markup.Document
import MuseumRecord.Proofs.Markup.Expansion
import MuseumRecord.Proofs.Markup.Extent
import Mathlib.Data.List.Nodup

/-!
# Reading of a written tag

The row of attributes in a written tag is scanned key by key.  The declaration among them becomes
the namespace of the element, and the others become its attributes.
-/

namespace MuseumRecord
namespace Markup

open Text

/-! ## A row of attributes -/

namespace ScannedAttribute

/-- The attribute was scanned without a fault, with this key and this written value. -/
def Scans (scanned : ScannedAttribute) (pair : List Char × List Char) : Prop :=
  ∃ place, scanned = .whole place pair.1 pair.2

theorem scanValue_quoted {value ahead : List Char} {quote : Char} (space : IsSpace ahead)
    (opens : quote = '"' ∨ quote = '\'') (fresh : quote ∉ value) (place offset : Nat)
    (key after : List Char) :
    ∃ finish, scanValue place key offset (ahead ++ quote :: (value ++ quote :: after)) =
      (.whole place key value, finish, after) := by
  have quoteStops : isTagSpace quote = false := by
    rcases opens with rfl | rfl <;> decide
  have spaces : (ahead ++ quote :: (value ++ quote :: after)).takeWhile isTagSpace = ahead :=
    takeWhile_append_stop space.isTagSpace (by simpa using quoteStops)
  have inside := takeWhile_ne_append fresh after
  unfold scanValue
  simp only [spaces, List.drop_left, opens, if_true, inside]
  exact ⟨_, rfl⟩

theorem scanOne_written {key value behind ahead : List Char} {first quote : Char}
    (named : IsName (first :: key)) (spaceBehind : IsSpace behind) (spaceAhead : IsSpace ahead)
    (opens : quote = '"' ∨ quote = '\'') (fresh : quote ∉ value) (offset : Nat)
    (after : List Char) :
    ∃ finish, scanOne offset first
        (key ++ (behind ++ '=' :: (ahead ++ quote :: (value ++ quote :: after)))) =
      (.whole offset (first :: key) value, finish, after) := by
  have whole : keyOf first
      (key ++ (behind ++ '=' :: (ahead ++ quote :: (value ++ quote :: after)))) =
        first :: key := by
    unfold keyOf
    rw [takeWhile_append_stop]
    · intro character member
      have inside := named.2 character (.tail _ member)
      have noEquals : character ≠ '=' := ne_of_isNameCharacter inside (by decide)
      simp [noEquals, isTagSpace_of_isNameCharacter inside]
    · cases behind with
      | nil => simp
      | cons space others => simp [spaceBehind.isTagSpace space List.mem_cons_self]
  have spaces : (behind ++ '=' :: (ahead ++ quote :: (value ++ quote :: after))).takeWhile
      isTagSpace = behind := takeWhile_append_stop spaceBehind.isTagSpace (by simp [isTagSpace])
  unfold scanOne
  simp only [whole, List.length_cons, Nat.add_sub_cancel, List.drop_left, spaces]
  exact scanValue_quoted spaceAhead opens fresh _ _ _ _

theorem scan_attribute {key value written : List Char} (quoted : WritesAttribute key value written)
    (named : IsName key) (fuel offset : Nat) (after : List Char) :
    ∃ place finish, scan (fuel + 1) offset (written ++ after) =
      .whole place key value :: scan fuel finish after := by
  cases quoted with
  | @quoted before behind ahead quote _ spaceBefore spaceBehind spaceAhead opens fresh =>
    obtain ⟨first, rest, rfl, _⟩ := named.exists_cons
    have starts : isTagSpace first = false :=
      isTagSpace_of_isNameCharacter (named.2 first List.mem_cons_self)
    have spaces {tail : List Char} : (before ++ first :: tail).takeWhile isTagSpace = before :=
      takeWhile_append_stop spaceBefore.isTagSpace (by simpa using starts)
    obtain ⟨finish, scanned⟩ := scanOne_written named spaceBehind spaceAhead opens fresh
      (offset + byteSize before) after
    have shape : before ++ first :: rest ++ behind ++ '=' :: ahead ++ quote :: value ++ [quote] ++
        after = before ++ first :: (rest ++ (behind ++ '=' ::
          (ahead ++ quote :: (value ++ quote :: after)))) := by simp
    refine ⟨offset + byteSize before, finish, ?_⟩
    rw [shape, scan]
    simp only [spaces, List.drop_left, scanned]

/-- A written row is scanned attribute by attribute, with the spaces behind it passed over. -/
theorem scan_row {row : List (List Char × List Char)} {text : List Char}
    (written : WritesRow row text) (named : ∀ pair ∈ row, IsName pair.1) {space : List Char}
    (isSpace : IsSpace space) (fuel offset : Nat) (enough : row.length ≤ fuel) :
    List.Forall₂ Scans (scan fuel offset (text ++ space)) row := by
  induction written generalizing fuel offset with
  | done =>
    cases fuel with
    | zero => exact .nil
    | succ fuel =>
      have spaces : space.takeWhile isTagSpace = space :=
        List.takeWhile_eq_self_iff.mpr isSpace.isTagSpace
      simp only [scan, List.nil_append, spaces, List.drop_length]
      exact .nil
  | @more key value first others row quoted _ inductionHypothesis =>
    cases fuel with
    | zero => exact absurd enough (Nat.not_succ_le_zero _)
    | succ fuel =>
      obtain ⟨place, finish, scanned⟩ := scan_attribute quoted (named _ List.mem_cons_self) fuel
        offset (others ++ space)
      rw [List.append_assoc, scanned]
      refine .cons ⟨place, rfl⟩ (inductionHypothesis ?_ fuel finish ?_)
      · exact fun pair member => named pair (.tail _ member)
      · exact Nat.le_of_succ_le_succ enough

/-- The text behind the name of a written tag is scanned to its end. -/
theorem scanTag_row {row : List (List Char × List Char)} {text : List Char}
    (written : WritesRow row text) (named : ∀ pair ∈ row, IsName pair.1) {space : List Char}
    (isSpace : IsSpace space) (offset : Nat) :
    List.Forall₂ Scans (scanTag offset (text ++ space)) row := by
  have bound : row.length ≤ text.length := by
    clear named
    induction written with
    | done => exact Nat.le_refl 0
    | more quoted _ inductionHypothesis =>
      cases quoted
      simp only [List.length_cons, List.length_append]
      omega
  apply scan_row written named isSpace
  rw [List.length_append]
  omega

/-- A row without a repeated key is kept whole. -/
theorem rejectRepeats_of_nodup {scanned : List ScannedAttribute}
    {row : List (List Char × List Char)} (scans : List.Forall₂ Scans scanned row)
    (distinct : (row.map Prod.fst).Nodup) (seen : List (List Char × Nat))
    (fresh : ∀ pair ∈ row, seen.lookup pair.1 = none) : rejectRepeats seen scanned = scanned := by
  induction scans generalizing seen with
  | nil => rfl
  | @cons _ pair scanned row scan _ inductionHypothesis =>
    obtain ⟨place, rfl⟩ := scan
    rw [List.map_cons, List.nodup_cons] at distinct
    rw [rejectRepeats]
    simp only [fresh pair List.mem_cons_self]
    rw [inductionHypothesis distinct.2]
    intro other member
    have different : other.1 ≠ pair.1 := fun same =>
      distinct.1 (same ▸ List.mem_map_of_mem member)
    rw [List.lookup_cons, beq_eq_false_iff_ne.mpr different]
    exact fresh other (.tail _ member)

end ScannedAttribute

/-! ## Names of a tag -/

theorem QualifiedName.split_of_plain {name : List Char} (plain : ':' ∉ name) :
    QualifiedName.split name = ⟨none, name⟩ := by
  have whole : name.takeWhile (fun character => character != ':') = name :=
    List.takeWhile_eq_self_iff.mpr (bne_of_not_mem plain)
  unfold QualifiedName.split
  simp only [whole, List.drop_length]

namespace Scope

theorem declared?_eq_none {key : List Char} (plain : ':' ∉ key) (other : key ≠ "xmlns".toList) :
    declared? key = none := by
  unfold declared?
  split
  · next found =>
    have whole := append_of_isPrefixOf? found
    rw [List.append_nil] at whole
    exact absurd whole other
  · next qualifier found =>
    have whole := append_of_isPrefixOf? found
    exact absurd (whole ▸ by simp) plain
  · rfl

theorem declare_of_undeclared {scanned : List ScannedAttribute}
    {row : List (List Char × List Char)} (scans : List.Forall₂ ScannedAttribute.Scans scanned row)
    (undeclared : ∀ pair ∈ row, declared? pair.1 = none) (scope : Scope) :
    scope.declare scanned = .ok scope := by
  induction scans with
  | nil => rfl
  | @cons _ pair scanned row scan _ inductionHypothesis =>
    obtain ⟨place, rfl⟩ := scan
    simp only [declare, declareOne, undeclared pair List.mem_cons_self]
    exact inductionHypothesis fun other member => undeclared other (.tail _ member)

/-- A declaration of the namespace takes effect wherever it stands in a row. -/
theorem declare_of_declaring {scanned : List ScannedAttribute} {namespaceName : List Char}
    {before behind : List (List Char × List Char)}
    (scans : List.Forall₂ ScannedAttribute.Scans scanned
      (before ++ ("xmlns".toList, namespaceName) :: behind))
    (undeclared : ∀ pair ∈ before ++ behind, declared? pair.1 = none) (scope : Scope) :
    scope.declare scanned = .ok (⟨none, namespaceName⟩ :: scope) := by
  induction before generalizing scanned with
  | nil =>
    obtain _ | ⟨⟨place, rfl⟩, scans⟩ := scans
    have declares : declared? "xmlns".toList = some none := by decide
    simp only [declare, declareOne, declares]
    exact declare_of_undeclared scans undeclared _
  | cons pair before inductionHypothesis =>
    obtain _ | ⟨⟨place, rfl⟩, scans⟩ := scans
    simp only [declare, declareOne, undeclared pair List.mem_cons_self]
    exact inductionHypothesis scans fun other member => undeclared other (.tail _ member)

end Scope

namespace StartTag

theorem faultOf_eq_none {scanned : List ScannedAttribute} {row : List (List Char × List Char)}
    (scans : List.Forall₂ ScannedAttribute.Scans scanned row) : faultOf scanned = none := by
  induction scans with
  | nil => rfl
  | cons scan _ inductionHypothesis =>
    obtain ⟨place, rfl⟩ := scan
    exact inductionHypothesis

/-- An attribute without a qualifier. -/
def plainAttribute (pair : List Char × List Char) : EventAttribute :=
  ⟨pair.1, pair.1, none, pair.2⟩

theorem resolveAttributes_of_plain {scanned : List ScannedAttribute}
    {row : List (List Char × List Char)} (scans : List.Forall₂ ScannedAttribute.Scans scanned row)
    (plain : ∀ pair ∈ row, ':' ∉ pair.1) (scope : Scope) :
    resolveAttributes scope scanned = row.map plainAttribute := by
  induction scans with
  | nil => rfl
  | @cons _ pair scanned row scan _ inductionHypothesis =>
    obtain ⟨place, rfl⟩ := scan
    have tail := inductionHypothesis fun other member => plain other (.tail _ member)
    simp only [resolveAttributes, QualifiedName.split_of_plain (plain pair List.mem_cons_self),
      Scope.attributeNamespace?, tail]
    rfl

end StartTag

namespace Builder

/-- Attributes that are not kept have no effect on those that are. -/
theorem attributesOf_filter (written : List EventAttribute) :
    attributesOf (written.filter isKept) = attributesOf written := by
  induction written with
  | nil => rfl
  | cons first rest inductionHypothesis =>
    cases kept : isKept first with
    | false =>
      rw [List.filter_cons_of_neg (by simp [kept]), inductionHypothesis, attributesOf]
      simp [kept]
    | true =>
      rw [List.filter_cons_of_pos kept]
      simp only [attributesOf, kept, if_true, inductionHypothesis]

theorem isKept_plainAttribute (pair : List Char × List Char) :
    isKept (StartTag.plainAttribute pair) = (Scope.declared? pair.1).isNone := by
  simp [isKept, StartTag.plainAttribute]

/-- Escaped values are read back. -/
theorem attributesOf_written {attributes : List (String × String)}
    {row : List (List Char × List Char)}
    (escaped : List.Forall₂ IsWrittenAs attributes row)
    (undeclared : ∀ pair ∈ row, Scope.declared? pair.1 = none) :
    attributesOf (row.map StartTag.plainAttribute) = .ok attributes := by
  induction escaped with
  | nil => rfl
  | @cons given written attributes row head _ inductionHypothesis =>
    have kept : isKept (StartTag.plainAttribute written) = true := by
      rw [isKept_plainAttribute, undeclared written List.mem_cons_self]
      rfl
    have tail := inductionHypothesis fun other member => undeclared other (.tail _ member)
    have value : Reference.expand (StartTag.plainAttribute written).value = .ok given.2.toList :=
      Reference.expand_of_escapes head.2
    simp only [List.map_cons, attributesOf, kept, if_true, value, tail]
    simp [StartTag.plainAttribute, head.1]

/-- The declaration among the attributes leaves no trace. -/
theorem attributesOf_declaring {attributes : List (String × String)}
    {before behind : List (List Char × List Char)}
    (escaped : List.Forall₂ IsWrittenAs attributes (before ++ behind))
    (undeclared : ∀ pair ∈ before ++ behind, Scope.declared? pair.1 = none)
    (declared : List Char) :
    attributesOf ((before ++ ("xmlns".toList, declared) :: behind).map StartTag.plainAttribute) =
      .ok attributes := by
  have dropped : isKept (StartTag.plainAttribute ("xmlns".toList, declared)) = false := by
    rw [isKept_plainAttribute]
    rfl
  have same : ((before ++ ("xmlns".toList, declared) :: behind).map
      StartTag.plainAttribute).filter isKept =
        ((before ++ behind).map StartTag.plainAttribute).filter isKept := by
    simp only [List.map_append, List.map_cons, List.filter_append]
    rw [List.filter_cons_of_neg (by rw [dropped]; exact Bool.false_ne_true)]
  rw [← attributesOf_filter, same, attributesOf_filter]
  exact attributesOf_written escaped undeclared

end Builder

/-! ## The element of a tag -/

/-- The element as its start tag opens it. -/
def Element.bare (element : Element) : Element :=
  { element with text := "", children := [] }

theorem keys_of_escaped {attributes : List (String × String)}
    {row : List (List Char × List Char)}
    (escaped : List.Forall₂ IsWrittenAs attributes row) :
    row.map Prod.fst = (attributes.map Prod.fst).map String.toList := by
  induction escaped with
  | nil => rfl
  | cons head _ inductionHypothesis =>
    simp only [List.map_cons, head.1, inductionHypothesis]

theorem nameOf_writesTag {name text space : List Char} {row : List (List Char × List Char)}
    (isName : IsName name) (written : WritesRow row text) (isSpace : IsSpace space) :
    StartTag.nameOf (name ++ (text ++ space)) = name := by
  apply takeWhile_append_stop
  · intro character member
    simp [isTagSpace_of_isNameCharacter (isName.2 character member)]
  · intro character head
    have starts : isTagSpace character := by
      cases written with
      | done => exact isSpace.isTagSpace character (List.mem_of_mem_head? head)
      | more quoted _ =>
        cases quoted with
        | @quoted before _ _ _ nonempty spaceBefore =>
          cases before with
          | nil => exact absurd rfl nonempty
          | cons first before =>
            simp only [List.cons_append, List.head?_cons, Option.mem_some_iff] at head
            exact head ▸ spaceBefore.isTagSpace first List.mem_cons_self
    simp [starts]

theorem bound?_declared {element : Element} (plain : element.IsPlain) (scope : Scope) :
    (Scope.bound? (⟨none, (element.namespaceName.getD "").toList⟩ :: scope) none).map
      String.ofList = element.namespaceName := by
  have declarable := plain.declarable
  simp only [Scope.bound?, List.find?_cons, beq_self_eq_true]
  cases whole : element.namespaceName with
  | none => simp
  | some name =>
    have nonempty : name ≠ "" := fun same => declarable (same ▸ whole)
    simp [nonempty]

/-- Each attribute of a tag is written under a name that declares nothing. -/
theorem key_of_isWrittenAs {element : Element} (plain : element.IsPlain)
    {row : List (List Char × List Char)}
    (escaped : List.Forall₂ IsWrittenAs element.attributes row) :
    ∀ pair ∈ row, IsPlainName pair.1 ∧ pair.1 ≠ "xmlns".toList := by
  intro pair member
  have inside : pair.1 ∈ row.map Prod.fst := List.mem_map_of_mem member
  rw [keys_of_escaped escaped] at inside
  obtain ⟨key, keyMember, same⟩ := List.mem_map.mp inside
  obtain ⟨isPlain, other⟩ := plain.keyed key keyMember
  rw [← same]
  exact ⟨isPlain, fun equal => other (String.toList_injective equal)⟩

theorem isPlainName_xmlns : IsPlainName "xmlns".toList := by
  decide

/-- The keys of a tag are names without a qualifier, each there once. -/
theorem keys_of_isRowOf {element : Element} (plain : element.IsPlain)
    {row : List (List Char × List Char)} (rowOf : IsRowOf element row) :
    (∀ pair ∈ row, IsPlainName pair.1) ∧ (row.map Prod.fst).Nodup := by
  cases rowOf with
  | @declaring before behind escaped =>
    have others := key_of_isWrittenAs plain escaped
    constructor
    · intro pair member
      rcases List.mem_cons.mp (List.perm_middle.mem_iff.mp member) with rfl | member
      · exact isPlainName_xmlns
      · exact (others pair member).1
    · rw [List.map_append, List.map_cons, List.nodup_middle, ← List.map_append, List.nodup_cons]
      constructor
      · intro inside
        obtain ⟨pair, member, same⟩ := List.mem_map.mp inside
        exact (others pair member).2 same
      · rw [keys_of_escaped escaped]
        exact plain.distinct.map fun _ _ equal => String.toList_injective equal

/-- The tag of an element gives its name, its namespace and its attributes back, inside whatever
bindings it stands. -/
theorem read_writesTag {element : Element} (plain : element.IsPlain) {tag : List Char}
    (written : WritesTag element tag) (scope : Scope) :
    ∃ inner startTag,
      StartTag.read scope tag = .ok (⟨element.name.toList, inner⟩, startTag) ∧
        Builder.elementOf startTag = .ok element.bare := by
  cases written with
  | @tag row attributes space rowOf writtenRow isSpace =>
    obtain ⟨plainRow, distinct⟩ := keys_of_isRowOf plain rowOf
    have name := nameOf_writesTag plain.named.1 writtenRow isSpace
    have scans := ScannedAttribute.scanTag_row writtenRow
      (fun pair member => (plainRow pair member).1) isSpace (byteSize element.name.toList)
    have whole := ScannedAttribute.rejectRepeats_of_nodup scans distinct [] (by simp)
    cases rowOf with
    | @declaring before behind escaped =>
      have undeclared : ∀ pair ∈ before ++ behind, Scope.declared? pair.1 = none := by
        intro pair member
        obtain ⟨isPlain, other⟩ := key_of_isWrittenAs plain escaped pair member
        exact Scope.declared?_eq_none isPlain.2 other
      have declares := Scope.declare_of_declaring scans undeclared scope
      have resolved := StartTag.resolveAttributes_of_plain scans
        fun pair member => (plainRow pair member).2
      have faultless := StartTag.faultOf_eq_none scans
      have unqualified := QualifiedName.split_of_plain plain.named.2
      have bound := bound?_declared plain scope
      generalize element.namespaceName.getD "" = declared at *
      have read : StartTag.read scope (element.name.toList ++ (attributes ++ space)) =
          .ok (⟨element.name.toList, ⟨none, declared.toList⟩ :: scope⟩,
            ⟨element.name.toList, Scope.bound? (⟨none, declared.toList⟩ :: scope) none,
              (before ++ ("xmlns".toList, declared.toList) :: behind).map
                StartTag.plainAttribute, none⟩) := by
        unfold StartTag.read
        simp only [name, List.drop_left, declares, whole, resolved, faultless, unqualified]
      rw [List.append_assoc]
      refine ⟨_, _, read, ?_⟩
      have given := Builder.attributesOf_declaring escaped undeclared declared.toList
      simp only [Builder.elementOf, given, bound, String.ofList_toList]
      rfl

/-! ## The extent of a tag -/

namespace Construct

theorem isInsideTag_of_writesAttribute {key value written : List Char}
    (quoted : WritesAttribute key value written) (named : IsName key) : IsInsideTag written := by
  cases quoted with
  | @quoted before behind ahead quote _ spaceBefore spaceBehind spaceAhead opens fresh =>
    have equals : IsInsideTag ['='] := isInsideTag_of_plain (by simp)
    have shape : before ++ key ++ behind ++ '=' :: ahead ++ quote :: value ++ [quote] =
        before ++ key ++ behind ++ ['='] ++ ahead ++ (quote :: value ++ [quote]) := by simp
    rw [shape]
    refine .append (.append (.append (.append (.append ?_ ?_) ?_) equals) ?_) ?_
    · exact isInsideTag_of_isSpace spaceBefore
    · exact isInsideTag_of_isName named
    · exact isInsideTag_of_isSpace spaceBehind
    · exact isInsideTag_of_isSpace spaceAhead
    · exact isInsideTag_quoted opens fresh

theorem isInsideTag_of_writesRow {row : List (List Char × List Char)} {text : List Char}
    (written : WritesRow row text) (named : ∀ pair ∈ row, IsName pair.1) : IsInsideTag text := by
  induction written with
  | done => exact isInsideTag_of_plain (by simp)
  | more quoted _ inductionHypothesis =>
    have first := isInsideTag_of_writesAttribute quoted (named _ List.mem_cons_self)
    exact first.append (inductionHypothesis fun pair member => named pair (.tail _ member))

theorem isInsideTag_of_writesTag {element : Element} (plain : element.IsPlain) {tag : List Char}
    (written : WritesTag element tag) : IsInsideTag tag := by
  cases written with
  | tag rowOf writtenRow isSpace =>
    have row := isInsideTag_of_writesRow writtenRow fun pair member =>
      ((keys_of_isRowOf plain rowOf).1 pair member).1
    exact .append (.append (isInsideTag_of_isName plain.named.1) row)
      (isInsideTag_of_isSpace isSpace)

end Construct

theorem getLast?_append_ne {left right : List Char} {last : Char}
    (first : left.getLast? ≠ some last) (second : right.getLast? ≠ some last) :
    (left ++ right).getLast? ≠ some last := by
  rw [List.getLast?_append]
  cases whole : right.getLast? with
  | none => simpa using first
  | some character => simpa [whole] using second

theorem getLast?_ne_of_not_mem {text : List Char} {last : Char} (fresh : last ∉ text) :
    text.getLast? ≠ some last :=
  fun found => fresh (List.mem_of_getLast? found)

/-- A written start tag is not taken for an empty-element tag. -/
theorem getLast?_of_writesTag {element : Element} (plain : element.IsPlain) {tag : List Char}
    (written : WritesTag element tag) : tag.getLast? ≠ some '/' := by
  cases written with
  | @tag row attributes space rowOf writtenRow isSpace =>
    refine getLast?_append_ne (getLast?_append_ne ?_ ?_) ?_
    · exact getLast?_ne_of_not_mem (plain.named.1.not_mem (by decide))
    · clear rowOf
      induction writtenRow with
      | done => simp
      | more quoted _ inductionHypothesis =>
        refine getLast?_append_ne ?_ inductionHypothesis
        cases quoted with
        | @quoted _ _ _ quote _ _ _ _ opens =>
          rw [List.getLast?_concat]
          rcases opens with rfl | rfl <;> decide
    · apply getLast?_ne_of_not_mem
      intro member
      exact absurd (isSpace member) (by decide)

end Markup
end MuseumRecord
