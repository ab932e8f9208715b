import MuseumRecord.Proofs.Schema.Walk

/-!
# Turns of problems

What is found wrong with one element is told in turns: its place among its siblings, its namespace,
the attributes that are written, those that are not, and its text.  Only problems of attributes
share a turn; they come in the order in which the attributes are written or declared.
-/

namespace MuseumRecord
namespace Schema

open Markup (Element)

namespace Problem

/-- The turn of a problem among those of one element.  A gap is told of among the children. -/
def turn : Problem → Nat
  | .wrongRoot _ _ => 0
  | .outOfOrder _ _ => 0
  | .unexpectedElement _ _ => 0
  | .tooMany _ _ _ => 0
  | .noNamespace _ _ => 1
  | .otherNamespace _ _ _ => 1
  | .unexpectedAttribute _ _ => 2
  | .badAttribute _ _ _ => 2
  | .missingAttribute _ _ => 3
  | .badText _ _ => 4
  | .childrenInText _ => 4
  | .textAmongChildren _ => 4
  | .missingElement _ _ => 5

/-- The name of the written attribute that a problem is about. -/
def attribute? : Problem → Option String
  | .unexpectedAttribute key _ => some key
  | .badAttribute key _ _ => some key
  | _ => none

/-- The name of the attribute that is not written. -/
def absentAttribute? : Problem → Option String
  | .missingAttribute key _ => some key
  | _ => none

/-- One problem of an element comes in front of another: in an earlier turn, or in the same turn
when it is one of attributes. -/
def Precedes (problem other : Problem) : Prop :=
  problem.turn < other.turn ∨ problem.turn = other.turn ∧ (problem.turn = 2 ∨ problem.turn = 3)

theorem isAboutPlace_eq_false {problem : Problem} (late : problem.turn ≠ 0) :
    problem.isAboutPlace = false := by
  cases problem with
  | outOfOrder name parent => exact absurd rfl late
  | unexpectedElement name parent => exact absurd rfl late
  | tooMany name most parent => exact absurd rfl late
  | _ => rfl

theorem attribute?_eq_none {problem : Problem} (other : problem.turn ≠ 2) :
    problem.attribute? = none := by
  cases problem with
  | unexpectedAttribute key element => exact absurd rfl other
  | badAttribute key type value => exact absurd rfl other
  | _ => rfl

theorem absentAttribute?_eq_none {problem : Problem} (other : problem.turn ≠ 3) :
    problem.absentAttribute? = none := by
  cases problem with
  | missingAttribute key element => exact absurd rfl other
  | _ => rfl

theorem turn_of_isAboutGap {problem : Problem} (gap : problem.isAboutGap = true) :
    problem.turn = 5 := by
  cases problem with
  | missingElement name parent => rfl
  | _ => cases gap

end Problem

/-- All findings have a turn. -/
def AreOfTurn (turn : Nat) (findings : List Finding) : Prop :=
  ∀ finding ∈ findings, finding.problem.turn = turn

/-- The findings come in turns, none of which is earlier than the first one. -/
structure ComeInTurns (first : Nat) (findings : List Finding) : Prop where
  /-- Every problem precedes those told behind it. -/
  sorted : findings.Pairwise fun finding other => finding.problem.Precedes other.problem
  /-- The first turn is the earliest. -/
  late : ∀ finding ∈ findings, first ≤ finding.problem.turn

namespace ComeInTurns

variable {turn first : Nat} {left right : List Finding}

theorem nil (first : Nat) : ComeInTurns first [] :=
  ⟨.nil, List.forall_mem_nil _⟩

/-- Findings of one turn come in front of those of later turns. -/
theorem append (ofTurn : AreOfTurn turn left)
    (sharable : left.length ≤ 1 ∨ turn = 2 ∨ turn = 3) (rest : ComeInTurns first right)
    (later : turn < first) : ComeInTurns turn (left ++ right) where
  sorted := by
    rw [List.pairwise_append]
    refine ⟨?_, rest.sorted, fun finding member other behind => .inl ?_⟩
    · rcases sharable with single | shared
      · match left, single with
        | [], _ => exact .nil
        | [only], _ => exact List.pairwise_singleton _ _
      · refine List.pairwise_of_forall_mem_list fun finding member other member' => .inr ?_
        rw [ofTurn finding member, ofTurn other member']
        exact ⟨rfl, shared⟩
    · rw [ofTurn finding member]
      exact Nat.lt_of_lt_of_le later (rest.late other behind)
  late := by
    intro finding member
    rcases List.mem_append.mp member with front | behind
    · exact Nat.le_of_eq (ofTurn finding front).symm
    · exact Nat.le_trans (Nat.le_of_lt later) (rest.late finding behind)

end ComeInTurns

/-! ## The findings of one element -/

section Element

variable {expected name text : String} {address : Address} {above found : Option String}
  {attributes : List (String × String)} {element : Element}

theorem areOfTurn_single {problem : Problem} :
    AreOfTurn problem.turn [⟨address, problem⟩] :=
  List.forall_mem_singleton.mpr rfl

theorem areOfTurn_namespaceFindings :
    AreOfTurn 1 (namespaceFindings expected address above name found) ∧
      (namespaceFindings expected address above name found).length ≤ 1 := by
  unfold namespaceFindings
  split
  · exact ⟨List.forall_mem_nil _, Nat.zero_le _⟩
  · cases found with
    | none => exact ⟨areOfTurn_single, Nat.le_refl _⟩
    | some other => exact ⟨areOfTurn_single, Nat.le_refl _⟩

theorem areOfTurn_attributeFindings {declared : List AttributeDeclaration}
    (written : String × String) :
    AreOfTurn 2 (attributeFindings address name declared written) := by
  unfold attributeFindings
  split
  · exact areOfTurn_single
  · split
    · exact List.forall_mem_nil _
    · exact areOfTurn_single

theorem areOfTurn_flatMap {declared : List AttributeDeclaration} :
    AreOfTurn 2 (attributes.flatMap (attributeFindings address name declared)) := by
  intro finding member
  obtain ⟨written, _, inside⟩ := List.mem_flatMap.mp member
  exact areOfTurn_attributeFindings written finding inside

theorem areOfTurn_strayAttributes : AreOfTurn 2 (strayAttributes address name attributes) := by
  intro finding member
  obtain ⟨written, _, rfl⟩ := List.mem_map.mp member
  rfl

theorem areOfTurn_absentAttributes {declared : List AttributeDeclaration} :
    AreOfTurn 3 (absentAttributes address name declared attributes) := by
  intro finding member
  obtain ⟨declaration, _, rfl⟩ := List.mem_map.mp member
  rfl

theorem areOfTurn_textFindings {type : ValueType} {children : List Element} :
    AreOfTurn 4 (textFindings address name type text children) ∧
      (textFindings address name type text children).length ≤ 1 := by
  unfold textFindings
  split
  · exact ⟨areOfTurn_single, Nat.le_refl _⟩
  · split
    · exact ⟨List.forall_mem_nil _, Nat.zero_le _⟩
    · exact ⟨areOfTurn_single, Nat.le_refl _⟩

theorem areOfTurn_mixedTextFindings :
    AreOfTurn 4 (mixedTextFindings address name text) ∧
      (mixedTextFindings address name text).length ≤ 1 := by
  unfold mixedTextFindings
  split
  · exact ⟨List.forall_mem_nil _, Nat.zero_le _⟩
  · exact ⟨areOfTurn_single, Nat.le_refl _⟩

theorem areOfTurn_limitFindings {parent : String} {overLimit : Option Nat} :
    AreOfTurn 0 (limitFindings address name parent overLimit) ∧
      (limitFindings address name parent overLimit).length ≤ 1 := by
  cases overLimit with
  | none => exact ⟨List.forall_mem_nil _, Nat.zero_le _⟩
  | some most => exact ⟨areOfTurn_single, Nat.le_refl _⟩

/-- The findings of an element with declared children come in turns. -/
theorem comeInTurns_ownFindings {declared : List AttributeDeclaration} :
    ComeInTurns 1 (ownFindings expected declared address above element) := by
  have ofText := ComeInTurns.append
    (@areOfTurn_mixedTextFindings element.name element.text address).1
    (.inl areOfTurn_mixedTextFindings.2) (.nil 5) (by decide)
  rw [List.append_nil] at ofText
  have absent := ComeInTurns.append (@areOfTurn_absentAttributes element.name address
    element.attributes declared) (.inr (.inr rfl)) ofText (by decide)
  have written := ComeInTurns.append (@areOfTurn_flatMap element.name address element.attributes
    declared) (.inr (.inl rfl)) absent (by decide)
  unfold ownFindings
  rw [List.append_assoc]
  exact .append areOfTurn_namespaceFindings.1 (.inl areOfTurn_namespaceFindings.2) written
    (by decide)

/-- The findings of an element with declared text come in turns. -/
theorem comeInTurns_elementFindings_simple {occurrence : Occurrence} {type : ValueType} :
    ComeInTurns 1
      (elementFindings expected (.simple name occurrence type) address above element) := by
  cases element with
  | mk name namespaceName attributes text children =>
    have ofText := ComeInTurns.append (@areOfTurn_textFindings name text address type children).1
      (.inl areOfTurn_textFindings.2) (.nil 5) (by decide)
    rw [List.append_nil] at ofText
    have written := ComeInTurns.append (@areOfTurn_strayAttributes name address attributes)
      (.inr (.inl rfl)) ofText (by decide)
    rw [elementFindings]
    exact .append areOfTurn_namespaceFindings.1 (.inl areOfTurn_namespaceFindings.2) written
      (by decide)

end Element

/-! ## Names of attributes -/

/-- The names of the declared attributes. -/
def Declaration.attributeNames : Declaration → List String
  | .simple _ _ _ => []
  | .complex _ _ _ attributes _ => attributes.map AttributeDeclaration.name

/-- The written attributes that findings are about. -/
def writtenNames (findings : List Finding) : List String :=
  findings.filterMap fun finding => finding.problem.attribute?

/-- The attributes that findings miss. -/
def absentNames (findings : List Finding) : List String :=
  findings.filterMap fun finding => finding.problem.absentAttribute?

section Names

variable {expected name text : String} {address : Address} {above found : Option String}
  {element : Element} {left right : List Finding}

theorem writtenNames_append (left right : List Finding) :
    writtenNames (left ++ right) = writtenNames left ++ writtenNames right :=
  List.filterMap_append

theorem absentNames_append (left right : List Finding) :
    absentNames (left ++ right) = absentNames left ++ absentNames right :=
  List.filterMap_append

theorem writtenNames_eq_nil {turn : Nat} (ofTurn : AreOfTurn turn left) (other : turn ≠ 2) :
    writtenNames left = [] := by
  rw [writtenNames, List.filterMap_eq_nil_iff]
  intro finding member
  exact Problem.attribute?_eq_none (ofTurn finding member ▸ other)

theorem absentNames_eq_nil {turn : Nat} (ofTurn : AreOfTurn turn left) (other : turn ≠ 3) :
    absentNames left = [] := by
  rw [absentNames, List.filterMap_eq_nil_iff]
  intro finding member
  exact Problem.absentAttribute?_eq_none (ofTurn finding member ▸ other)

theorem writtenNames_attributeFindings {declared : List AttributeDeclaration}
    (written : String × String) :
    (writtenNames (attributeFindings address name declared written)).Sublist [written.1] := by
  unfold attributeFindings
  split
  · exact List.Sublist.refl _
  · split
    · exact List.nil_sublist _
    · exact List.Sublist.refl _

/-- The attributes that are found wrong are told in written order. -/
theorem writtenNames_flatMap (declared : List AttributeDeclaration)
    (attributes : List (String × String)) :
    (writtenNames (attributes.flatMap (attributeFindings address name declared))).Sublist
      (attributes.map Prod.fst) := by
  induction attributes with
  | nil => exact List.nil_sublist _
  | cons written rest inductionHypothesis =>
    rw [List.flatMap_cons, writtenNames_append, List.map_cons, ← List.singleton_append]
    exact (writtenNames_attributeFindings written).append inductionHypothesis

theorem writtenNames_strayAttributes (attributes : List (String × String)) :
    writtenNames (strayAttributes address name attributes) = attributes.map Prod.fst := by
  unfold writtenNames strayAttributes
  rw [List.filterMap_map, ← List.filterMap_eq_map]
  rfl

theorem absentNames_map (absent : List AttributeDeclaration) :
    absentNames (absent.map fun declaration =>
        ⟨address, .missingAttribute declaration.name name⟩) =
      absent.map AttributeDeclaration.name := by
  unfold absentNames
  rw [List.filterMap_map, ← List.filterMap_eq_map]
  rfl

/-- The attributes that are missed are told in declared order. -/
theorem absentNames_absentAttributes (declared : List AttributeDeclaration)
    (attributes : List (String × String)) :
    (absentNames (absentAttributes address name declared attributes)).Sublist
      (declared.map AttributeDeclaration.name) := by
  unfold absentAttributes
  dsimp only
  rw [absentNames_map]
  exact List.filter_sublist.map _

theorem writtenNames_ownFindings (declared : List AttributeDeclaration) :
    (writtenNames (ownFindings expected declared address above element)).Sublist
      (element.attributes.map Prod.fst) := by
  unfold ownFindings
  rw [writtenNames_append, writtenNames_append, writtenNames_append,
    writtenNames_eq_nil areOfTurn_namespaceFindings.1 (by decide),
    writtenNames_eq_nil areOfTurn_absentAttributes (by decide),
    writtenNames_eq_nil areOfTurn_mixedTextFindings.1 (by decide), List.nil_append,
    List.append_nil, List.append_nil]
  exact writtenNames_flatMap declared element.attributes

theorem absentNames_ownFindings (declared : List AttributeDeclaration) :
    (absentNames (ownFindings expected declared address above element)).Sublist
      (declared.map AttributeDeclaration.name) := by
  unfold ownFindings
  rw [absentNames_append, absentNames_append, absentNames_append,
    absentNames_eq_nil areOfTurn_namespaceFindings.1 (by decide),
    absentNames_eq_nil areOfTurn_flatMap (by decide),
    absentNames_eq_nil areOfTurn_mixedTextFindings.1 (by decide), List.nil_append,
    List.nil_append, List.append_nil]
  exact absentNames_absentAttributes declared element.attributes

theorem names_elementFindings_simple {occurrence : Occurrence} {type : ValueType} :
    (writtenNames (elementFindings expected (.simple name occurrence type) address above
        element)).Sublist (element.attributes.map Prod.fst) ∧
      absentNames (elementFindings expected (.simple name occurrence type) address above element) =
        [] := by
  cases element with
  | mk name namespaceName attributes text children =>
    rw [elementFindings, writtenNames_append, writtenNames_append, absentNames_append,
      absentNames_append, writtenNames_eq_nil areOfTurn_namespaceFindings.1 (by decide),
      writtenNames_eq_nil areOfTurn_textFindings.1 (by decide),
      absentNames_eq_nil areOfTurn_namespaceFindings.1 (by decide),
      absentNames_eq_nil areOfTurn_strayAttributes (by decide),
      absentNames_eq_nil areOfTurn_textFindings.1 (by decide), List.nil_append, List.append_nil,
      writtenNames_strayAttributes]
    exact ⟨List.Sublist.refl _, rfl⟩

end Names

end Schema
end MuseumRecord
