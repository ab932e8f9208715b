import MuseumRecord.Proofs.Schema.Row
import MuseumRecord.Schema.Finding

/-!
# Places of children

Which children of a row find a place among its declarations can be told from the names alone: those
that are declared, and of which no elder sibling is declared further behind.  A cursor gives a place
to exactly these, since the declarations that it has passed are the ones in front of a name that it
has read.
-/

namespace MuseumRecord
namespace Schema

/-- A name is declared in front of one that was read earlier. -/
def IsLate (declared earlier : List String) (name : String) : Prop :=
  ∃ other ∈ earlier, [name, other].Sublist declared

/-- A name is declared, and none that was read earlier is declared further behind. -/
def HasPlace (declared earlier : List String) (name : String) : Prop :=
  name ∈ declared ∧ ¬IsLate declared earlier name

instance (declared earlier : List String) (name : String) :
    Decidable (IsLate declared earlier name) :=
  inferInstanceAs (Decidable (∃ other ∈ earlier, [name, other].Sublist declared))

instance (declared earlier : List String) (name : String) :
    Decidable (HasPlace declared earlier name) :=
  inferInstanceAs (Decidable (name ∈ declared ∧ ¬IsLate declared earlier name))

/-- The steps to the children of a name that find a place, when other names were read before. -/
def takenSteps (declared : List String) (name : String) (earlier : List String) :
    List String → List AddressStep
  | [] => []
  | own :: later =>
    if own = name ∧ HasPlace declared earlier own then
      .toChild own earlier later :: takenSteps declared name (earlier ++ [own]) later
    else
      takenSteps declared name (earlier ++ [own]) later

section Names

variable {declared earlier later : List String} {name own : String}

/-- In a list without repeats a pair stands in its order when the first stands in front of the
second. -/
theorem pair_sublist_iff {front behind : List String}
    (distinct : (front ++ own :: behind).Nodup) :
    [name, own].Sublist (front ++ own :: behind) ↔ name ∈ front := by
  constructor
  · intro pair
    obtain ⟨left, right, division, leftInside, rightInside⟩ := List.sublist_append_iff.mp pair
    rw [List.nodup_append] at distinct
    obtain ⟨_, behindDistinct, apart⟩ := distinct
    match left, division with
    | [], division =>
      rw [List.nil_append] at division
      subst division
      have inside : own ∈ behind := by
        cases rightInside with
        | cons _ pairBehind => exact pairBehind.subset (by simp)
        | cons_cons _ ownBehind => exact List.singleton_sublist.mp ownBehind
      exact absurd inside (List.nodup_cons.mp behindDistinct).1
    | [only], division =>
      obtain ⟨rfl, _⟩ := List.cons.inj division
      exact List.singleton_sublist.mp leftInside
    | first :: second :: others, division =>
      obtain ⟨rfl, tail⟩ := List.cons.inj division
      obtain ⟨rfl, _⟩ := List.cons.inj tail
      exact absurd rfl (apart own (leftInside.subset (by simp)) own List.mem_cons_self)
  · intro member
    have before : [name].Sublist front := List.singleton_sublist.mpr member
    have after : [own].Sublist (own :: behind) := List.singleton_sublist.mpr List.mem_cons_self
    exact before.append after

/-- What is late stays late. -/
theorem IsLate.append (late : IsLate declared earlier name) (more : List String) :
    IsLate declared (earlier ++ more) name := by
  obtain ⟨other, member, pair⟩ := late
  exact ⟨other, List.mem_append_left _ member, pair⟩

theorem isLate_append_singleton_iff :
    IsLate declared (earlier ++ [own]) name ↔
      IsLate declared earlier name ∨ [name, own].Sublist declared := by
  unfold IsLate
  constructor
  · rintro ⟨other, member, pair⟩
    rcases List.mem_append.mp member with before | last
    · exact .inl ⟨other, before, pair⟩
    · exact .inr (List.mem_singleton.mp last ▸ pair)
  · rintro (late | pair)
    · exact IsLate.append late [own]
    · exact ⟨own, by simp, pair⟩

theorem takenSteps_cons_of_place (place : HasPlace declared earlier name) :
    takenSteps declared name earlier (name :: later) =
      .toChild name earlier later :: takenSteps declared name (earlier ++ [name]) later :=
  if_pos ⟨rfl, place⟩

theorem takenSteps_cons_of_other (other : ¬(own = name ∧ HasPlace declared earlier own)) :
    takenSteps declared name earlier (own :: later) =
      takenSteps declared name (earlier ++ [own]) later :=
  if_neg other

/-- No child of a late name finds a place. -/
theorem takenSteps_of_late (late : IsLate declared earlier name) :
    takenSteps declared name earlier later = [] := by
  induction later generalizing earlier with
  | nil => rfl
  | cons own later inductionHypothesis =>
    rw [takenSteps_cons_of_other]
    · exact inductionHypothesis (late.append [own])
    · rintro ⟨rfl, place⟩
      exact place.2 late

end Names

namespace Cursor

/-- The number of children that the declaration of a name has got, if it can still get more. -/
def countOf (cursor : Cursor) (name : String) : Nat :=
  match cursor.ahead with
  | [] => 0
  | first :: _ => if first.name = name then cursor.count else 0

/-- The names that a cursor has read brought it where it is: what it has passed are the declarations
in front of one of these names. -/
structure Reached (declared : List Declaration) (earlier : List String) (cursor : Cursor) : Prop where
  division : declared.map Declaration.name = cursor.passed ++ cursor.ahead.map Declaration.name
  suffix : cursor.ahead <:+ declared
  passed_iff : ∀ name,
    name ∈ cursor.passed ↔ IsLate (declared.map Declaration.name) earlier name

theorem reached_start (declared : List Declaration) : Reached declared [] (start declared) where
  division := rfl
  suffix := List.suffix_rfl
  passed_iff := by
    intro name
    simp [start, IsLate]

section Count

variable {cursor : Cursor} {skipped after : List Declaration} {declaration other : Declaration}

theorem countOf_start (declarations : List Declaration) (name : String) :
    (start declarations).countOf name = 0 := by
  unfold countOf start
  cases declarations with
  | nil => rfl
  | cons first rest => exact ite_self 0

/-- Declarations behind the first one ahead have no child yet. -/
theorem countOf_of_ne {name : String}
    (different : ∀ first, cursor.ahead.head? = some first → first.name ≠ name) :
    cursor.countOf name = 0 := by
  unfold countOf
  cases ahead : cursor.ahead with
  | nil => rfl
  | cons first rest => exact if_neg (different first (by rw [ahead]; rfl))

/-- A declaration that a cursor moves towards without reaching it has no child yet. -/
theorem countOf_of_not_skipped {name : String}
    (ahead : cursor.ahead = skipped ++ declaration :: after) (different : declaration.name ≠ name)
    (notSkipped : name ∉ skipped.map Declaration.name) : cursor.countOf name = 0 := by
  apply countOf_of_ne
  intro first head
  rw [ahead] at head
  cases skipped with
  | nil => exact Option.some.inj head ▸ different
  | cons other rest =>
    rw [List.map_cons, List.mem_cons, not_or] at notSkipped
    exact Option.some.inj head ▸ Ne.symm notSkipped.1

/-- The next declaration has the children that a cursor gives it when it moves there. -/
theorem countOf_eq_countBehind (ahead : cursor.ahead = skipped ++ declaration :: after)
    (fresh : declaration.name ∉ skipped.map Declaration.name) :
    cursor.countOf declaration.name = cursor.countBehind skipped := by
  unfold countOf countBehind
  rw [ahead]
  cases skipped with
  | nil => exact if_pos rfl
  | cons first rest =>
    rw [List.map_cons, List.mem_cons, not_or] at fresh
    exact if_neg (Ne.symm fresh.1)

theorem countOf_advance_self :
    (cursor.advance skipped declaration after).countOf declaration.name =
      cursor.countBehind skipped + 1 :=
  if_pos rfl

theorem countOf_advance_of_ne (different : declaration.name ≠ other.name) :
    (cursor.advance skipped declaration after).countOf other.name = 0 :=
  if_neg different

/-- The declarations that want children are those with fewer than they need. -/
theorem wanting_eq_filter {row : List Declaration} (distinct : (row.map Declaration.name).Nodup)
    {behind : List Declaration} (ahead : cursor.ahead = row ++ behind) :
    wanting cursor.count row =
      row.filter fun declaration =>
        decide (cursor.countOf declaration.name < declaration.occurrence.least) := by
  have none (rest : List Declaration) :
      wanting 0 rest = rest.filter fun declaration => decide (0 < declaration.occurrence.least) := by
    induction rest with
    | nil => rfl
    | cons first rest inductionHypothesis =>
      rw [wanting, inductionHypothesis, List.filter_cons]
      simp only [decide_eq_true_eq]
  cases row with
  | nil => rfl
  | cons first rest =>
    have head : cursor.ahead.head? = some first := by
      rw [ahead]
      rfl
    have firstCount : cursor.countOf first.name = cursor.count := by
      unfold countOf
      rw [ahead]
      exact if_pos rfl
    have restCount : ∀ declaration ∈ rest, cursor.countOf declaration.name = 0 := by
      intro declaration member
      apply countOf_of_ne
      intro other found same
      obtain rfl := Option.some.inj (head.symm.trans found)
      exact (List.nodup_cons.mp distinct).1 (same ▸ List.mem_map_of_mem member)
    rw [wanting, none, List.filter_cons, firstCount]
    have same : rest.filter (fun declaration => decide (0 < declaration.occurrence.least)) =
        rest.filter fun declaration =>
          decide (cursor.countOf declaration.name < declaration.occurrence.least) := by
      apply List.filter_congr
      intro declaration member
      rw [restCount declaration member]
    rw [same]
    simp only [decide_eq_true_eq]

end Count

namespace Reached

variable {declared : List Declaration} {earlier : List String} {cursor : Cursor} {name : String}

theorem nodup_ahead (reached : Reached declared earlier cursor)
    (distinct : (declared.map Declaration.name).Nodup) :
    (cursor.ahead.map Declaration.name).Nodup :=
  distinct.sublist (reached.suffix.sublist.map _)

/-- The declarations ahead are those of names that still find a place. -/
theorem mem_ahead_iff (reached : Reached declared earlier cursor)
    (distinct : (declared.map Declaration.name).Nodup) :
    name ∈ cursor.ahead.map Declaration.name ↔
      HasPlace (declared.map Declaration.name) earlier name := by
  unfold HasPlace
  rw [← reached.passed_iff]
  rw [reached.division] at distinct ⊢
  obtain ⟨_, _, apart⟩ := List.nodup_append.mp distinct
  constructor
  · intro ahead
    exact ⟨List.mem_append_right _ ahead, fun passed => apart _ passed _ ahead rfl⟩
  · rintro ⟨member, notPassed⟩
    exact (List.mem_append.mp member).resolve_left notPassed

/-- A name that finds no place leaves the cursor where it is. -/
theorem step_of_not_hasPlace (reached : Reached declared earlier cursor)
    (distinct : (declared.map Declaration.name).Nodup)
    (noPlace : ¬HasPlace (declared.map Declaration.name) earlier name) :
    cursor.step name =
      (if IsLate (declared.map Declaration.name) earlier name then .outOfOrder else .unexpected,
        cursor) := by
  rw [step_of_absent (mt (reached.mem_ahead_iff distinct).mp noPlace)]
  simp only [List.contains_iff_mem, reached.passed_iff]

/-- A name that finds no place changes nothing about the places of others. -/
theorem skip (reached : Reached declared earlier cursor)
    (distinct : (declared.map Declaration.name).Nodup)
    (noPlace : ¬HasPlace (declared.map Declaration.name) earlier name) :
    Reached declared (earlier ++ [name]) cursor where
  division := reached.division
  suffix := reached.suffix
  passed_iff := by
    intro other
    rw [isLate_append_singleton_iff, ← reached.passed_iff]
    refine ⟨.inl, ?_⟩
    rintro (passed | pair)
    · exact passed
    · -- The later name of the pair is itself behind the cursor.
      have listed : name ∈ declared.map Declaration.name := pair.subset (by simp)
      have passed : name ∈ cursor.passed := by
        rw [reached.passed_iff]
        by_contra timely
        exact noPlace ⟨listed, timely⟩
      obtain ⟨front, behind, division⟩ := List.append_of_mem passed
      rw [reached.division, division, List.append_assoc, List.cons_append] at pair distinct
      rw [division]
      exact List.mem_append_left _ ((pair_sublist_iff distinct).mp pair)

/-- A name that finds its place brings the cursor to its declaration. -/
theorem advance (reached : Reached declared earlier cursor)
    (distinct : (declared.map Declaration.name).Nodup)
    {skipped after : List Declaration} {declaration : Declaration}
    (ahead : cursor.ahead = skipped ++ declaration :: after) :
    Reached declared (earlier ++ [declaration.name])
      (cursor.advance skipped declaration after) where
  division := by
    rw [reached.division, ahead]
    simp [Cursor.advance]
  suffix := List.IsSuffix.trans ⟨skipped, ahead.symm⟩ reached.suffix
  passed_iff := by
    intro other
    have whole : declared.map Declaration.name =
        (cursor.passed ++ skipped.map Declaration.name) ++
          declaration.name :: after.map Declaration.name := by
      rw [reached.division, ahead]
      simp
    rw [isLate_append_singleton_iff, ← reached.passed_iff]
    rw [whole] at distinct ⊢
    rw [pair_sublist_iff distinct]
    simp only [Cursor.advance, List.mem_append]
    tauto

/-- A name that finds its place moves the cursor to its declaration. -/
theorem step_of_hasPlace (reached : Reached declared earlier cursor)
    (distinct : (declared.map Declaration.name).Nodup)
    (place : HasPlace (declared.map Declaration.name) earlier name) :
    ∃ skipped declaration after, cursor.ahead = skipped ++ declaration :: after ∧
      declaration.name = name ∧ name ∉ skipped.map Declaration.name ∧
      cursor.step name =
        (.placed (wanting cursor.count skipped)
            (limitPassed declaration (cursor.countBehind skipped + 1)) declaration,
          cursor.advance skipped declaration after) := by
  obtain ⟨skipped, declaration, after, ahead, rfl, fresh⟩ :=
    exists_skipped ((reached.mem_ahead_iff distinct).mpr place)
  exact ⟨skipped, declaration, after, ahead, rfl, fresh, step_of_ahead ahead fresh⟩

/-- Every row of names brings a cursor somewhere. -/
theorem run (reached : Reached declared earlier cursor)
    (distinct : (declared.map Declaration.name).Nodup) (names : List String) :
    Reached declared (earlier ++ names) (cursor.run names).2 := by
  induction names generalizing earlier cursor with
  | nil =>
    rw [List.append_nil]
    exact reached
  | cons name names inductionHypothesis =>
    have next : Reached declared (earlier ++ [name]) (cursor.step name).2 := by
      by_cases place : HasPlace (declared.map Declaration.name) earlier name
      · obtain ⟨skipped, declaration, after, ahead, rfl, _, step⟩ :=
          reached.step_of_hasPlace distinct place
        rw [step]
        exact reached.advance distinct ahead
      · rw [reached.step_of_not_hasPlace distinct place]
        exact reached.skip distinct place
    have final := inductionHypothesis next
    rw [List.append_assoc, List.singleton_append] at final
    exact final

/-- The declarations that a cursor moves over get no more children. -/
theorem takenSteps_of_skipped (reached : Reached declared earlier cursor)
    (distinct : (declared.map Declaration.name).Nodup)
    {skipped after : List Declaration} {declaration : Declaration}
    (ahead : cursor.ahead = skipped ++ declaration :: after)
    (member : name ∈ skipped.map Declaration.name) (later : List String) :
    takenSteps (declared.map Declaration.name) name (earlier ++ [declaration.name]) later = [] := by
  apply takenSteps_of_late
  rw [← (reached.advance distinct ahead).passed_iff]
  exact List.mem_append_right _ member

end Reached

/-- The declarations ahead that will have fewer children than they need when more names are read. -/
def wanted (cursor : Cursor) (declared earlier later : List String) : List Declaration :=
  cursor.ahead.filter fun declaration =>
    decide (cursor.countOf declaration.name +
      (takenSteps declared declaration.name earlier later).length < declaration.occurrence.least)

section Wanted

variable {declared : List Declaration} {earlier later : List String} {cursor : Cursor}
  {name : String}

theorem wanted_nil (reached : Reached declared earlier cursor)
    (distinct : (declared.map Declaration.name).Nodup) :
    cursor.wanted (declared.map Declaration.name) earlier [] = cursor.missing := by
  have all : cursor.ahead = cursor.ahead ++ [] := (List.append_nil _).symm
  rw [missing, wanting_eq_filter (reached.nodup_ahead distinct) all]
  rfl

theorem wanted_cons_of_not_hasPlace
    (noPlace : ¬HasPlace (declared.map Declaration.name) earlier name) :
    cursor.wanted (declared.map Declaration.name) earlier (name :: later) =
      cursor.wanted (declared.map Declaration.name) (earlier ++ [name]) later := by
  unfold wanted
  apply List.filter_congr
  intro declaration _
  rw [takenSteps_cons_of_other fun taken => noPlace taken.2]

/-- What a moving cursor skips and what is wanted afterwards is what was wanted before. -/
theorem wanted_cons_of_ahead (reached : Reached declared earlier cursor)
    (distinct : (declared.map Declaration.name).Nodup)
    {skipped after : List Declaration} {declaration : Declaration}
    (ahead : cursor.ahead = skipped ++ declaration :: after) :
    cursor.wanted (declared.map Declaration.name) earlier (declaration.name :: later) =
      wanting cursor.count skipped ++
        (cursor.advance skipped declaration after).wanted (declared.map Declaration.name)
          (earlier ++ [declaration.name]) later := by
  have aheadDistinct := reached.nodup_ahead distinct
  rw [ahead, List.map_append, List.map_cons] at aheadDistinct
  obtain ⟨skippedDistinct, behindDistinct, apart⟩ := List.nodup_append.mp aheadDistinct
  have fresh : declaration.name ∉ skipped.map Declaration.name := fun member =>
    apart _ member _ List.mem_cons_self rfl
  have place : HasPlace (declared.map Declaration.name) earlier declaration.name := by
    rw [← reached.mem_ahead_iff distinct, ahead, List.map_append]
    exact List.mem_append_right _ List.mem_cons_self
  have otherSteps {other : Declaration} (different : declaration.name ≠ other.name) :
      takenSteps (declared.map Declaration.name) other.name earlier (declaration.name :: later) =
        takenSteps (declared.map Declaration.name) other.name (earlier ++ [declaration.name])
          later :=
    takenSteps_cons_of_other fun taken => different taken.1
  unfold wanted
  rw [ahead, List.filter_append, wanting_eq_filter skippedDistinct ahead]
  congr 1
  · apply List.filter_congr
    intro other member
    have named := List.mem_map_of_mem (f := Declaration.name) member
    rw [otherSteps (Ne.symm (apart _ named _ List.mem_cons_self)),
      reached.takenSteps_of_skipped distinct ahead named later]
    rfl
  · apply List.filter_congr
    intro other member
    rcases List.mem_cons.mp member with rfl | behind
    · rw [takenSteps_cons_of_place place, countOf_eq_countBehind ahead fresh,
        countOf_advance_self, List.length_cons]
      congr 2
      omega
    · have named := List.mem_map_of_mem (f := Declaration.name) behind
      have different : declaration.name ≠ other.name := fun same =>
        (List.nodup_cons.mp behindDistinct).1 (same ▸ named)
      have notSkipped : other.name ∉ skipped.map Declaration.name := fun member =>
        apart _ member _ (List.mem_cons_of_mem _ named) rfl
      rw [otherSteps different, countOf_advance_of_ne different,
        countOf_of_not_skipped ahead different notSkipped]

end Wanted

end Cursor

end Schema
end MuseumRecord
