import MuseumRecord.Proofs.Schema.OutlineRow

/-!
# Outlines and their schemas

The rows of an outline are a listing of the declared elements and attributes, each with its depth.
Where an element ends is told by the depth of the row behind it, so that the rows determine all that
is declared.  The names of the types of elements with children are not shown.
-/

namespace MuseumRecord
namespace Schema

open Text

/-! ## Plain declarations -/

mutual

/-- All names and values in a declaration are words. -/
def Declaration.IsPlain : Declaration → Prop
  | .simple name _ type => IsName name ∧ type.IsPlain
  | .complex name _ _ attributes children =>
    IsName name ∧ (∀ declared ∈ attributes, declared.IsPlain) ∧ Declaration.ArePlain children

/-- All names and values in a row of declarations are words. -/
def Declaration.ArePlain : List Declaration → Prop
  | [] => True
  | declaration :: rest => declaration.IsPlain ∧ Declaration.ArePlain rest

end

mutual

/-- Whether a declaration is plain can be computed. -/
def Declaration.decideIsPlain : (declaration : Declaration) → Decidable declaration.IsPlain
  | .simple name _ type => inferInstanceAs (Decidable (IsName name ∧ type.IsPlain))
  | .complex name _ _ attributes children =>
    have := Declaration.decideArePlain children
    inferInstanceAs (Decidable (IsName name ∧ (∀ declared ∈ attributes, declared.IsPlain) ∧
      Declaration.ArePlain children))

/-- Whether a row of declarations is plain can be computed. -/
def Declaration.decideArePlain :
    (declarations : List Declaration) → Decidable (Declaration.ArePlain declarations)
  | [] => isTrue trivial
  | declaration :: rest =>
    have := Declaration.decideIsPlain declaration
    have := Declaration.decideArePlain rest
    inferInstanceAs (Decidable (declaration.IsPlain ∧ Declaration.ArePlain rest))

end

instance (declaration : Declaration) : Decidable declaration.IsPlain :=
  declaration.decideIsPlain

mutual

/-- The declaration without the names of the types of elements with children. -/
def Declaration.unnamed : Declaration → Declaration
  | .simple name occurrence type => .simple name occurrence type
  | .complex name occurrence _ attributes children =>
    .complex name occurrence "" attributes (Declaration.unnamedAll children)

/-- The row of declarations without such names. -/
def Declaration.unnamedAll : List Declaration → List Declaration
  | [] => []
  | declaration :: rest => declaration.unnamed :: Declaration.unnamedAll rest

end

/-! ## Rows of a declaration -/

namespace Declaration

mutual

/-- The rows of an element at a depth. -/
def rows (depth : Nat) : Declaration → List (Nat × OutlineRow)
  | .simple name occurrence type => [(depth, .ofElement name occurrence (some type))]
  | .complex name occurrence _ attributes children =>
    (depth, .ofElement name occurrence none) ::
      (attributes.map fun declared => (depth + 1, .ofAttribute declared)) ++
        rowsAll (depth + 1) children

/-- The rows of a row of elements at a depth. -/
def rowsAll (depth : Nat) : List Declaration → List (Nat × OutlineRow)
  | [] => []
  | declaration :: rest => declaration.rows depth ++ rowsAll depth rest

end

/-- Rows with a line feed behind each. -/
def textOf (rows : List (Nat × OutlineRow)) : String :=
  String.join ((rows.map OutlineRow.line).map (· ++ "\n"))

theorem textOf_nil : textOf [] = "" :=
  rfl

theorem textOf_cons (row : Nat × OutlineRow) (rows : List (Nat × OutlineRow)) :
    textOf (row :: rows) = OutlineRow.line row ++ "\n" ++ textOf rows :=
  String.join_cons

theorem textOf_append (front back : List (Nat × OutlineRow)) :
    textOf (front ++ back) = textOf front ++ textOf back := by
  induction front with
  | nil => rw [List.nil_append, textOf_nil, String.empty_append]
  | cons row front inductionHypothesis =>
    rw [List.cons_append, textOf_cons, textOf_cons, inductionHypothesis]
    simp only [String.append_assoc]

theorem simple_outline_eq (depth : Nat) (name : String) (occurrence : Occurrence)
    (type : ValueType) :
    (simple name occurrence type).outline depth =
      OutlineRow.line (depth, .ofElement name occurrence (some type)) ++ "\n" := by
  apply String.toList_injective
  simp [outline, OutlineRow.line, OutlineRow.text, toString]

theorem complex_outline_eq (depth : Nat) (name typeName : String) (occurrence : Occurrence)
    (attributes : List AttributeDeclaration) (children : List Declaration) :
    (complex name occurrence typeName attributes children).outline depth =
      OutlineRow.line (depth, .ofElement name occurrence none) ++ "\n" ++
        String.join (attributes.map fun declared => declared.outline depth) ++
        outlineAll (depth + 1) children := by
  apply String.toList_injective
  simp [outline, OutlineRow.line, OutlineRow.text, toString]

/-- An attribute stands as deep as the children of its element. -/
theorem attributes_outline_eq (depth : Nat) (attributes : List AttributeDeclaration) :
    String.join (attributes.map fun declared => declared.outline depth) =
      textOf (attributes.map fun declared => (depth + 1, .ofAttribute declared)) := by
  induction attributes with
  | nil => rfl
  | cons declared attributes inductionHypothesis =>
    rw [List.map_cons, List.map_cons, textOf_cons, String.join_cons, inductionHypothesis]
    apply String.toList_injective
    simp [AttributeDeclaration.outline, OutlineRow.line, OutlineRow.text, indent, requirement,
      Nat.mul_succ, List.replicate_add, toString]

mutual

theorem outline_eq : (declaration : Declaration) → ∀ depth,
    declaration.outline depth = textOf (declaration.rows depth)
  | .simple name occurrence type, depth => by
    rw [simple_outline_eq, rows, textOf_cons, textOf_nil, String.append_empty]
  | .complex name occurrence typeName attributes children, depth => by
    rw [complex_outline_eq, outlineAll_eq children, attributes_outline_eq, rows, textOf_append,
      textOf_cons]

theorem outlineAll_eq : (declarations : List Declaration) → ∀ depth,
    outlineAll depth declarations = textOf (rowsAll depth declarations)
  | [], _ => rfl
  | declaration :: rest, depth => by
    rw [outlineAll, rowsAll, outline_eq declaration, outlineAll_eq rest, textOf_append]

end

mutual

theorem rows_unnamed : (declaration : Declaration) → ∀ depth,
    declaration.unnamed.rows depth = declaration.rows depth
  | .simple _ _ _, _ => rfl
  | .complex _ _ _ _ children, depth => by
    rw [unnamed, rows, rows, rowsAll_unnamedAll children]

theorem rowsAll_unnamedAll : (declarations : List Declaration) → ∀ depth,
    rowsAll depth (unnamedAll declarations) = rowsAll depth declarations
  | [], _ => rfl
  | declaration :: rest, depth => by
    rw [unnamedAll, rowsAll, rowsAll, rows_unnamed declaration, rowsAll_unnamedAll rest]

end

mutual

theorem IsPlain.rows : {declaration : Declaration} → declaration.IsPlain → ∀ depth,
    ∀ row ∈ declaration.rows depth, row.2.IsPlain
  | .simple _ _ _, plain, depth => by
    rw [Declaration.rows, List.forall_mem_singleton]
    exact ⟨plain.1, fun type typed => Option.some.inj typed ▸ plain.2⟩
  | .complex _ _ _ attributes children, plain, depth => by
    rw [Declaration.rows, List.forall_mem_append, List.forall_mem_cons, List.forall_mem_map]
    exact ⟨⟨⟨plain.1, fun _ absent => nomatch absent⟩, plain.2.1⟩,
      ArePlain.rowsAll plain.2.2 (depth + 1)⟩

theorem ArePlain.rowsAll : {declarations : List Declaration} → ArePlain declarations → ∀ depth,
    ∀ row ∈ rowsAll depth declarations, row.2.IsPlain
  | [], _, _ => List.forall_mem_nil _
  | _ :: _, plain, depth => List.forall_mem_append.mpr
    ⟨IsPlain.rows plain.1 depth, ArePlain.rowsAll plain.2 depth⟩

end

/-! ## Declarations from rows -/

/-- The first row of an element is its own. -/
theorem exists_rows_eq_cons (declaration : Declaration) (depth : Nat) :
    ∃ top behind, declaration.rows depth = (depth, top) :: behind ∧ top.isAttribute = false := by
  cases declaration with
  | simple name occurrence type => exact ⟨_, _, rfl, rfl⟩
  | complex name occurrence typeName attributes children => exact ⟨_, _, rfl, rfl⟩

/-- What stands first in the rest of the rows is an element less deep than given. -/
def EndsAbove (depth : Nat) (rest : List (Nat × OutlineRow)) : Prop :=
  ∀ row ∈ rest.head?, row.1 < depth ∧ row.2.isAttribute = false

theorem endsAbove_rowsAll (depth : Nat) (declarations : List Declaration)
    {rest : List (Nat × OutlineRow)} (ends : EndsAbove depth rest) :
    EndsAbove (depth + 1) (rowsAll depth declarations ++ rest) := by
  intro row head
  cases declarations with
  | nil => exact (ends row head).imp_left Nat.lt_succ_of_lt
  | cons declaration others =>
    obtain ⟨top, behind, shape, notAttribute⟩ := declaration.exists_rows_eq_cons depth
    rw [rowsAll, shape] at head
    cases head
    exact ⟨Nat.lt_succ_self depth, notAttribute⟩

theorem eq_nil_of_endsAbove {depth : Nat} {declarations : List Declaration}
    {rest other : List (Nat × OutlineRow)} (ends : EndsAbove depth rest)
    (same : rest = rowsAll depth declarations ++ other) : declarations = [] := by
  cases declarations with
  | nil => rfl
  | cons declaration others =>
    obtain ⟨top, behind, shape, _⟩ := declaration.exists_rows_eq_cons depth
    rw [rowsAll, shape] at same
    exact absurd (ends (depth, top) (same ▸ rfl)).1 (Nat.lt_irrefl depth)

-- The rest of the rows is arbitrary: the children of an element end where the next element is no
-- deeper than it, and its attributes where the first element stands.
mutual

theorem eq_of_rows : (left right : Declaration) → ∀ {depth : Nat}
    {rest other : List (Nat × OutlineRow)},
    EndsAbove (depth + 1) rest → EndsAbove (depth + 1) other →
    left.rows depth ++ rest = right.rows depth ++ other →
    left.unnamed = right.unnamed ∧ rest = other
  | .simple _ _ _, .simple _ _ _, _, _, _, _, _, same => by
    obtain ⟨top, behind⟩ := List.cons.inj same
    cases top
    exact ⟨rfl, behind⟩
  | .simple _ _ _, .complex _ _ _ _ _, _, _, _, _, _, same => nomatch (List.cons.inj same).1
  | .complex _ _ _ _ _, .simple _ _ _, _, _, _, _, _, same => nomatch (List.cons.inj same).1
  | .complex _ _ _ attributes children, .complex _ _ _ others more, depth, rest, other, ends,
      otherEnds, same => by
    rw [rows, rows, List.append_assoc, List.append_assoc, List.cons_append, List.cons_append]
      at same
    obtain ⟨top, behind⟩ := List.cons.inj same
    cases top
    have below := endsAbove_rowsAll (depth + 1) children ends
    have otherBelow := endsAbove_rowsAll (depth + 1) more otherEnds
    have shows (row : List AttributeDeclaration) : ∀ shown ∈ row.map fun declared =>
        (depth + 1, OutlineRow.ofAttribute declared), shown.2.isAttribute = true :=
      List.forall_mem_map.mpr fun _ _ => rfl
    obtain ⟨shown, behind⟩ := eq_of_append_scan (shows attributes) (shows others)
      (fun row head => (below row head).2) (fun row head => (otherBelow row head).2) behind
    obtain ⟨sameChildren, sameRest⟩ := eq_of_rowsAll children more ends otherEnds behind
    have sameAttributes : attributes = others :=
      List.map_injective_iff.mpr (fun _ _ equal => by cases equal; rfl) shown
    rw [unnamed, unnamed, sameAttributes, sameChildren]
    exact ⟨rfl, sameRest⟩

theorem eq_of_rowsAll : (left right : List Declaration) → ∀ {depth : Nat}
    {rest other : List (Nat × OutlineRow)},
    EndsAbove depth rest → EndsAbove depth other →
    rowsAll depth left ++ rest = rowsAll depth right ++ other →
    unnamedAll left = unnamedAll right ∧ rest = other
  | [], [], _, _, _, _, _, same => ⟨rfl, same⟩
  | [], _ :: _, _, _, _, ends, _, same => nomatch eq_nil_of_endsAbove ends same
  | _ :: _, [], _, _, _, _, otherEnds, same => nomatch eq_nil_of_endsAbove otherEnds same.symm
  | declaration :: others, second :: more, depth, rest, other, ends, otherEnds, same => by
    rw [rowsAll, rowsAll, List.append_assoc, List.append_assoc] at same
    obtain ⟨first, behind⟩ := eq_of_rows declaration second (endsAbove_rowsAll depth others ends)
      (endsAbove_rowsAll depth more otherEnds) same
    obtain ⟨remaining, sameRest⟩ := eq_of_rowsAll others more ends otherEnds behind
    rw [unnamedAll, unnamedAll, first, remaining]
    exact ⟨rfl, sameRest⟩

end

/-- The rows of an outline determine all that is declared but the names of types. -/
theorem unnamed_eq_of_rows {left right : Declaration} {depth : Nat}
    (same : left.rows depth = right.rows depth) : left.unnamed = right.unnamed := by
  have nothing : EndsAbove (depth + 1) [] := fun _ head => nomatch head
  exact (eq_of_rows left right nothing nothing (congrArg (· ++ []) same)).1

end Declaration

/-! ## Outlines -/

/-- Rows of words are determined by their lines. -/
theorem OutlineRow.eq_of_map_line {left right : List (Nat × OutlineRow)}
    (leftPlain : ∀ row ∈ left, row.2.IsPlain) (rightPlain : ∀ row ∈ right, row.2.IsPlain)
    (same : left.map line = right.map line) : left = right := by
  induction left generalizing right with
  | nil => exact (List.map_eq_nil_iff.mp same.symm).symm
  | cons row left inductionHypothesis =>
    obtain ⟨other, others, rfl, sameLine, sameLines⟩ := List.map_eq_cons_iff.mp same.symm
    rw [List.forall_mem_cons] at leftPlain rightPlain
    obtain ⟨depths, rows⟩ := line_injective leftPlain.1 rightPlain.1 sameLine.symm
    rw [Prod.ext depths rows, inductionHypothesis leftPlain.2 rightPlain.2 sameLines.symm]

/-- The namespace of a schema takes one line, and all names and values in it are words. -/
structure IsPlain (schema : Schema) : Prop where
  /-- The namespace holds no line feed. -/
  namespaceName : IsSingleLine schema.namespaceName
  /-- The names and values are words. -/
  root : schema.root.IsPlain

instance (schema : Schema) : Decidable schema.IsPlain :=
  decidable_of_iff (IsSingleLine schema.namespaceName ∧ schema.root.IsPlain)
    ⟨fun both => ⟨both.1, both.2⟩, fun plain => ⟨plain.1, plain.2⟩⟩

variable {schema : Schema}

theorem outline_eq_textOf (schema : Schema) :
    schema.outline =
      "namespace: " ++ schema.namespaceName ++ "\n" ++ Declaration.textOf (schema.root.rows 0) := by
  apply String.toList_injective
  simp [outline, Declaration.outline_eq, toString]

/-- The lines of an outline are the namespace, the rows, and what stands behind the last feed. -/
theorem IsPlain.lines_outline (plain : schema.IsPlain) :
    lines schema.outline = ("namespace: " ++ schema.namespaceName) ::
      ((schema.root.rows 0).map OutlineRow.line ++ lines "") := by
  have first : IsSingleLine ("namespace: " ++ schema.namespaceName) :=
    isSingleLine_append.mpr ⟨by decide, plain.namespaceName⟩
  have rows : ∀ line ∈ (schema.root.rows 0).map OutlineRow.line, IsSingleLine line :=
    List.forall_mem_map.mpr fun row member =>
      OutlineRow.isSingleLine_line (plain.root.rows 0 row member)
  have body := lines_join_append ((schema.root.rows 0).map OutlineRow.line) ""
  rw [String.append_empty, flatMap_lines rows] at body
  rw [outline_eq_textOf, lines_append_feed, lines_of_isSingleLine first, Declaration.textOf, body,
    List.singleton_append]

/-- The outline of a schema determines its namespace and all that it declares, at every depth, but
the names of the types of elements with children; and it shows nothing else. -/
theorem outlines_determine_schemas {left right : Schema} (leftPlain : left.IsPlain)
    (rightPlain : right.IsPlain) :
    left.outline = right.outline ↔
      left.namespaceName = right.namespaceName ∧ left.root.unnamed = right.root.unnamed := by
  constructor
  · intro same
    have shown := congrArg lines same
    rw [leftPlain.lines_outline, rightPlain.lines_outline] at shown
    obtain ⟨namespaces, behind⟩ := List.cons.inj shown
    refine ⟨(String.append_right_inj _).mp namespaces, ?_⟩
    exact Declaration.unnamed_eq_of_rows (OutlineRow.eq_of_map_line (leftPlain.root.rows 0)
      (rightPlain.root.rows 0) (List.append_cancel_right behind))
  · rintro ⟨namespaces, roots⟩
    rw [outline_eq_textOf, outline_eq_textOf, namespaces, ← Declaration.rows_unnamed left.root,
      ← Declaration.rows_unnamed right.root, roots]

/-- The schema of exhibit records without the names of its types. -/
def anonymousExhibit : Schema :=
  ⟨exhibit.namespaceName, exhibit.root.unnamed⟩

/-- The outline of the exhibit schema leaves the names of its types open, and nothing else. -/
theorem exhibit_outline_eq_anonymous :
    exhibit.IsPlain ∧ anonymousExhibit.IsPlain ∧
      exhibit.outline = anonymousExhibit.outline := by
  have plain : exhibit.IsPlain := by decide +kernel
  have anonymousPlain : anonymousExhibit.IsPlain := by decide +kernel
  exact ⟨plain, anonymousPlain, (outlines_determine_schemas plain anonymousPlain).mpr ⟨rfl, rfl⟩⟩

end Schema
end MuseumRecord
