import Mathlib.Data.List.Nodup
import Mathlib.Data.List.TakeWhile
import MuseumRecord.Schema.Sequence

/-!
# Rows of children

What a row of declarations asks of the names of the children, said without a cursor, and the proof
that a cursor finds nothing wrong with exactly these names.
-/

namespace MuseumRecord
namespace Schema

/-- The occurrence allows a number of children. -/
def Occurrence.Allows (occurrence : Occurrence) (count : Nat) : Prop :=
  occurrence.least ≤ count ∧ ∀ most, occurrence.most? = some most → count ≤ most

/-- The names are copies of the declared names in the order of the declarations, each in an allowed
number. -/
inductive IsRow : List Declaration → List String → Prop
  | nil : IsRow [] []
  | copies {declaration : Declaration} {rest : List Declaration} {count : Nat}
      {names : List String} :
      declaration.occurrence.Allows count → IsRow rest names →
      IsRow (declaration :: rest) (List.replicate count declaration.name ++ names)

/-- The occurrence bounds a number of children from above. -/
def Occurrence.Bounds (occurrence : Occurrence) (count : Nat) : Prop :=
  ∀ most, occurrence.most? = some most → count ≤ most

/-- Every occurrence allows that there is no child. -/
theorem Occurrence.bounds_zero (occurrence : Occurrence) : occurrence.Bounds 0 := by
  intro most _
  exact Nat.zero_le most

namespace IsRow

/-- A row of declarations followed by names is a first number of copies and a row of the rest. -/
theorem cons_iff {declaration : Declaration} {rest : List Declaration} {names : List String} :
    IsRow (declaration :: rest) names ↔
      ∃ count tail, declaration.occurrence.Allows count ∧ IsRow rest tail ∧
        names = List.replicate count declaration.name ++ tail := by
  constructor
  · intro row
    cases row with
    | copies allowed tailRow => exact ⟨_, _, allowed, tailRow, rfl⟩
  · rintro ⟨count, tail, allowed, tailRow, rfl⟩
    exact .copies allowed tailRow

/-- Every name in a row is declared. -/
theorem mem_names {declarations : List Declaration} {names : List String}
    (row : IsRow declarations names) {name : String} (member : name ∈ names) :
    name ∈ declarations.map Declaration.name := by
  induction row with
  | nil => cases member
  | copies allowed tailRow inductionHypothesis =>
    rcases List.mem_append.mp member with copied | later
    · rw [List.eq_of_mem_replicate copied]
      exact List.mem_cons_self
    · exact List.mem_cons_of_mem _ (inductionHypothesis later)

end IsRow

/-- The names go on a row of which the first declaration has `count` children already. -/
def Continues (count : Nat) (declarations : List Declaration) (names : List String) : Prop :=
  match declarations with
  | [] => names = []
  | declaration :: rest =>
    ∃ more tail, declaration.occurrence.Allows (count + more) ∧ IsRow rest tail ∧
      names = List.replicate more declaration.name ++ tail

/-- The first declaration of a row may have `count` children. -/
def BoundsFirst (count : Nat) (declarations : List Declaration) : Prop :=
  ∀ first, declarations.head? = some first → first.occurrence.Bounds count

/-- A row with no child yet is gone on by the names of a whole row. -/
theorem continues_zero_iff {declarations : List Declaration} {names : List String} :
    Continues 0 declarations names ↔ IsRow declarations names := by
  cases declarations with
  | nil =>
    constructor
    · intro empty
      rw [empty]
      exact .nil
    · intro row
      cases row
      rfl
  | cons declaration rest =>
    rw [IsRow.cons_iff]
    simp only [Continues, Nat.zero_add]

/-- Every name that goes on a row is declared there. -/
theorem Continues.mem_names {count : Nat} {declarations : List Declaration} {names : List String}
    (continues : Continues count declarations names) {name : String} (member : name ∈ names) :
    name ∈ declarations.map Declaration.name := by
  cases declarations with
  | nil =>
    rw [show names = [] from continues] at member
    cases member
  | cons declaration rest =>
    obtain ⟨more, tail, _, row, rfl⟩ := continues
    rcases List.mem_append.mp member with copied | later
    · rw [List.eq_of_mem_replicate copied]
      exact List.mem_cons_self
    · exact List.mem_cons_of_mem _ (row.mem_names later)

/-- A name of a later declaration leaves the first one behind, which must have enough children. -/
theorem continues_cons_of_ne {count : Nat} {first : Declaration} {rest : List Declaration}
    {name : String} {names : List String} (other : first.name ≠ name)
    (bounded : first.occurrence.Bounds count) :
    Continues count (first :: rest) (name :: names) ↔
      first.occurrence.least ≤ count ∧ Continues 0 rest (name :: names) := by
  rw [continues_zero_iff]
  constructor
  · rintro ⟨more, tail, allowed, row, equal⟩
    cases more with
    | zero =>
      rw [List.replicate_zero, List.nil_append] at equal
      exact ⟨allowed.1, equal ▸ row⟩
    | succ more =>
      rw [List.replicate_succ, List.cons_append] at equal
      exact absurd (List.cons.inj equal).1.symm other
  · rintro ⟨enough, row⟩
    exact ⟨0, name :: names, ⟨enough, bounded⟩, row, rfl⟩

/-- A name of the first declaration counts as one more child of it. -/
theorem continues_cons_self {count : Nat} {first : Declaration} {rest : List Declaration}
    {names : List String} (fresh : first.name ∉ rest.map Declaration.name) :
    Continues count (first :: rest) (first.name :: names) ↔
      first.occurrence.Bounds (count + 1) ∧ Continues (count + 1) (first :: rest) names := by
  constructor
  · rintro ⟨more, tail, allowed, row, equal⟩
    cases more with
    | zero =>
      rw [List.replicate_zero, List.nil_append] at equal
      exact absurd (row.mem_names (equal ▸ List.mem_cons_self)) fresh
    | succ more =>
      rw [List.replicate_succ, List.cons_append] at equal
      have total : count + (more + 1) = count + 1 + more := by omega
      rw [total] at allowed
      refine ⟨fun most limit => ?_, more, tail, allowed, row, (List.cons.inj equal).2⟩
      exact Nat.le_trans (Nat.le_add_right _ _) (allowed.2 most limit)
  · rintro ⟨_, more, tail, allowed, row, rfl⟩
    have total : count + 1 + more = count + (more + 1) := by omega
    rw [total] at allowed
    exact ⟨more + 1, tail, allowed, row, rfl⟩

namespace Cursor

/-- The limit is told of when one more child is more than the declaration allows. -/
theorem limitPassed_eq_none_iff {declaration : Declaration} {count : Nat}
    (bounded : declaration.occurrence.Bounds count) :
    limitPassed declaration (count + 1) = none ↔ declaration.occurrence.Bounds (count + 1) := by
  unfold limitPassed
  rw [Option.filter_eq_none_iff]
  constructor
  · intro within most limit
    have differs := within most limit
    have below := bounded most limit
    simp only [beq_iff_eq] at differs
    omega
  · intro within most limit
    have below := within most limit
    simp only [beq_iff_eq]
    omega

/-- No declaration wants a child when the row may end here. -/
theorem wanting_eq_nil_iff {count : Nat} {declarations : List Declaration}
    (bounded : BoundsFirst count declarations) :
    wanting count declarations = [] ↔ Continues count declarations [] := by
  induction declarations generalizing count with
  | nil => simp [wanting, Continues]
  | cons first rest inductionHypothesis =>
    have rest_iff : wanting 0 rest = [] ↔ Continues 0 rest [] :=
      inductionHypothesis fun next _ => next.occurrence.bounds_zero
    have firstBounds := bounded first rfl
    rw [continues_zero_iff] at rest_iff
    unfold wanting
    split
    · next few =>
      simp only [reduceCtorEq, false_iff]
      rintro ⟨more, tail, allowed, _, equal⟩
      have noMore : more = 0 := by
        have lengths := congrArg List.length equal
        simp only [List.length_nil, List.length_append, List.length_replicate] at lengths
        omega
      subst noMore
      exact absurd allowed.1 (Nat.not_le.mpr few)
    · next enough =>
      rw [rest_iff]
      constructor
      · intro row
        exact ⟨0, [], ⟨Nat.le_of_not_lt enough, firstBounds⟩, row, rfl⟩
      · rintro ⟨more, tail, _, row, equal⟩
        rw [(List.append_eq_nil_iff.mp equal.symm).2] at row
        exact row

/-- A name behind skipped declarations goes on a row when none of those wants a child and the name
goes on the rest. -/
theorem continues_append_iff {count : Nat} {skipped after : List Declaration}
    {declaration : Declaration} {names : List String}
    (fresh : declaration.name ∉ skipped.map Declaration.name)
    (bounded : BoundsFirst count (skipped ++ declaration :: after)) :
    Continues count (skipped ++ declaration :: after) (declaration.name :: names) ↔
      wanting count skipped = [] ∧
        Continues (if skipped.isEmpty then count else 0) (declaration :: after)
          (declaration.name :: names) := by
  induction skipped generalizing count with
  | nil => simp [wanting]
  | cons first rest inductionHypothesis =>
    rw [List.map_cons, List.mem_cons, not_or] at fresh
    have restBounded : BoundsFirst 0 (rest ++ declaration :: after) :=
      fun next _ => next.occurrence.bounds_zero
    rw [List.cons_append, continues_cons_of_ne (Ne.symm fresh.1) (bounded first rfl),
      inductionHypothesis fresh.2 restBounded]
    have restart : (if rest.isEmpty then 0 else 0) = 0 := ite_self 0
    simp only [List.isEmpty_cons, Bool.false_eq_true, if_false, restart, wanting]
    split
    · next few => simp [Nat.not_le.mpr few]
    · next enough => simp [Nat.le_of_not_lt enough]

/-- The number of children of the next declaration when some declarations are skipped. -/
def countBehind (cursor : Cursor) (skipped : List Declaration) : Nat :=
  if skipped.isEmpty then cursor.count else 0

/-- The cursor after a child of the first declaration behind the skipped ones. -/
def advance (cursor : Cursor) (skipped : List Declaration) (declaration : Declaration)
    (after : List Declaration) : Cursor :=
  ⟨cursor.passed ++ skipped.map Declaration.name, declaration :: after,
    cursor.countBehind skipped + 1⟩

/-- A declared name is found at its first declaration. -/
theorem exists_skipped {declarations : List Declaration} {name : String}
    (member : name ∈ declarations.map Declaration.name) :
    ∃ skipped declaration after, declarations = skipped ++ declaration :: after ∧
      declaration.name = name ∧ name ∉ skipped.map Declaration.name := by
  obtain ⟨earlier, later, division, fresh⟩ := List.eq_append_cons_of_mem member
  obtain ⟨skipped, others, rfl, rfl, named⟩ := List.map_eq_append_iff.mp division
  obtain ⟨declaration, after, rfl, found, rfl⟩ := List.map_eq_cons_iff.mp named
  exact ⟨skipped, declaration, after, rfl, found, fresh⟩

/-- A name that is not ahead leaves the cursor where it is. -/
theorem step_of_absent {cursor : Cursor} {name : String}
    (absent : name ∉ cursor.ahead.map Declaration.name) :
    cursor.step name =
      (if cursor.passed.contains name then .outOfOrder else .unexpected, cursor) := by
  have allOthers : cursor.ahead.dropWhile (fun declaration => declaration.name != name) = [] := by
    rw [List.dropWhile_eq_nil_iff]
    intro declaration member
    have differs : declaration.name ≠ name := fun equal =>
      absent (equal ▸ List.mem_map_of_mem member)
    simpa using differs
  unfold step
  simp only [allOthers]
  split <;> rfl

/-- A name that is ahead moves the cursor to its first declaration. -/
theorem step_of_ahead {cursor : Cursor} {skipped after : List Declaration}
    {declaration : Declaration} (ahead : cursor.ahead = skipped ++ declaration :: after)
    (fresh : declaration.name ∉ skipped.map Declaration.name) :
    cursor.step declaration.name =
      (.placed (wanting cursor.count skipped)
          (limitPassed declaration (cursor.countBehind skipped + 1)) declaration,
        cursor.advance skipped declaration after) := by
  have others : ∀ other ∈ skipped, (other.name != declaration.name) = true := by
    intro other member
    have differs : other.name ≠ declaration.name := fun equal =>
      fresh (equal ▸ List.mem_map_of_mem member)
    simpa using differs
  have taken : cursor.ahead.takeWhile (fun other => other.name != declaration.name) = skipped := by
    rw [ahead, List.takeWhile_append_of_pos others]
    simp
  have dropped : cursor.ahead.dropWhile (fun other => other.name != declaration.name) =
      declaration :: after := by
    rw [ahead, List.dropWhile_append_of_pos others]
    simp
  unfold step
  rw [dropped, taken]
  rfl

/-- A name that is not ahead is placed nowhere; one that is moves the cursor to its first
declaration. -/
theorem step_cases (cursor : Cursor) (name : String) :
    (∃ placement, cursor.step name = (placement, cursor) ∧
      (placement = .outOfOrder ∨ placement = .unexpected)) ∨
    ∃ skipped declaration after, cursor.ahead = skipped ++ declaration :: after ∧
      declaration.name = name ∧
      cursor.step name =
        (.placed (wanting cursor.count skipped)
            (limitPassed declaration (cursor.countBehind skipped + 1)) declaration,
          cursor.advance skipped declaration after) := by
  by_cases member : name ∈ cursor.ahead.map Declaration.name
  · obtain ⟨skipped, declaration, after, ahead, rfl, fresh⟩ := exists_skipped member
    exact .inr ⟨skipped, declaration, after, ahead, rfl, step_of_ahead ahead fresh⟩
  · refine .inl ⟨_, step_of_absent member, ?_⟩
    split
    · exact .inl rfl
    · exact .inr rfl

/-- What a cursor expects of the names of the children that are left. -/
def Expects (cursor : Cursor) (names : List String) : Prop :=
  Continues cursor.count cursor.ahead names

/-- The declaration reached has no more children than it may have. -/
def IsBounded (cursor : Cursor) : Prop :=
  BoundsFirst cursor.count cursor.ahead

theorem isBounded_start (declarations : List Declaration) : (start declarations).IsBounded :=
  fun first _ => first.occurrence.bounds_zero

theorem expects_start_iff {declarations : List Declaration} {names : List String} :
    (start declarations).Expects names ↔ IsRow declarations names :=
  continues_zero_iff

theorem missing_eq_nil_iff {cursor : Cursor} (bounded : cursor.IsBounded) :
    cursor.missing = [] ↔ cursor.Expects [] :=
  wanting_eq_nil_iff bounded

/-- The next declaration has no more children than it may have, whatever is skipped. -/
theorem IsBounded.countBehind {cursor : Cursor} (bounded : cursor.IsBounded)
    {skipped after : List Declaration} {declaration : Declaration}
    (ahead : cursor.ahead = skipped ++ declaration :: after) :
    declaration.occurrence.Bounds (cursor.countBehind skipped) := by
  unfold Cursor.countBehind
  cases skipped with
  | nil => exact bounded declaration (by rw [ahead]; rfl)
  | cons _ _ => exact declaration.occurrence.bounds_zero

/-- One step keeps what is expected: a name is expected when no skipped declaration wants a child,
the limit is not passed, and the cursor expects the other names after the step. -/
theorem expects_cons_iff {cursor : Cursor} {skipped after : List Declaration}
    {declaration : Declaration} {names : List String} (bounded : cursor.IsBounded)
    (distinct : (cursor.ahead.map Declaration.name).Nodup)
    (ahead : cursor.ahead = skipped ++ declaration :: after) :
    cursor.Expects (declaration.name :: names) ↔
      wanting cursor.count skipped = [] ∧
        limitPassed declaration (cursor.countBehind skipped + 1) = none ∧
        (cursor.advance skipped declaration after).Expects names := by
  rw [ahead, List.map_append, List.map_cons, List.nodup_append] at distinct
  obtain ⟨_, aheadDistinct, apart⟩ := distinct
  have freshBefore : declaration.name ∉ skipped.map Declaration.name := fun member =>
    apart _ member _ List.mem_cons_self rfl
  have freshAfter : declaration.name ∉ after.map Declaration.name :=
    (List.nodup_cons.mp aheadDistinct).1
  have boundedBehind := bounded.countBehind ahead
  unfold IsBounded at bounded
  unfold Expects
  rw [ahead] at bounded ⊢
  rw [continues_append_iff freshBefore bounded, limitPassed_eq_none_iff boundedBehind]
  rw [show (if skipped.isEmpty then cursor.count else 0) = cursor.countBehind skipped from rfl,
    continues_cons_self freshAfter]
  rfl

/-- A cursor stays within the limit of the declaration reached as long as it tells of no limit. -/
theorem isBounded_advance {cursor : Cursor} {skipped after : List Declaration}
    {declaration : Declaration} (bounded : cursor.IsBounded)
    (ahead : cursor.ahead = skipped ++ declaration :: after)
    (within : limitPassed declaration (cursor.countBehind skipped + 1) = none) :
    (cursor.advance skipped declaration after).IsBounded := by
  have boundedBehind := bounded.countBehind ahead
  intro first head
  cases head
  exact (limitPassed_eq_none_iff boundedBehind).mp within

end Cursor

end Schema
end MuseumRecord
