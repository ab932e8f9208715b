import MuseumRecord.Proofs.Schema.WalkedPlace

/-!
# Numbers of declarations

Every child that is walked is walked against the declaration with some number, also when several
declarations have one name.  In the order of these numbers the walk of a row of children tells of
the children walked against a declaration, and then of the gap if the declaration got too few.
-/

namespace MuseumRecord
namespace Schema

open Markup (Element Place)

/-- The declaration that a child is walked against. -/
def Placement.declaration? : Placement → Option Declaration
  | .placed _ _ declaration => some declaration
  | .outOfOrder => none
  | .unexpected => none

theorem Placement.declaration?_eq_some_iff {placement : Placement} {declaration : Declaration} :
    placement.declaration? = some declaration ↔
      ∃ skipped overLimit, placement = .placed skipped overLimit declaration := by
  constructor
  · intro placed
    cases placement with
    | placed skipped overLimit other =>
      cases placed
      exact ⟨skipped, overLimit, rfl⟩
    | outOfOrder => cases placed
    | unexpected => cases placed
  · rintro ⟨skipped, overLimit, rfl⟩
    rfl

namespace Cursor

/-- The numbers of the declarations that the children of a row are walked against. -/
def numbers (cursor : Cursor) : List String → List (Option Nat)
  | [] => []
  | name :: rest =>
    let (placement, next) := cursor.step name
    (placement.declaration?.map fun _ => next.passed.length) :: next.numbers rest

/-- The cursor stands in a row of declarations, at the number of those it has passed. -/
def StandsIn (cursor : Cursor) (declared : List Declaration) : Prop :=
  cursor.ahead = declared.drop cursor.passed.length

variable {cursor : Cursor} {declared skipped after : List Declaration} {declaration : Declaration}
  {name : String} {names : List String}

theorem standsIn_start (declared : List Declaration) : (start declared).StandsIn declared :=
  List.drop_zero.symm

theorem length_passed_advance :
    (cursor.advance skipped declaration after).passed.length =
      cursor.passed.length + skipped.length := by
  rw [advance, List.length_append, List.length_map]

theorem StandsIn.advance (stands : cursor.StandsIn declared)
    (ahead : cursor.ahead = skipped ++ declaration :: after) :
    (cursor.advance skipped declaration after).StandsIn declared := by
  unfold StandsIn at stands ⊢
  rw [length_passed_advance, ← List.drop_drop, ← stands, ahead, List.drop_left]
  rfl

theorem StandsIn.run (stands : cursor.StandsIn declared) (names : List String) :
    (cursor.run names).2.StandsIn declared := by
  induction names generalizing cursor with
  | nil => exact stands
  | cons name rest inductionHypothesis =>
    rw [Cursor.run]
    apply inductionHypothesis
    rcases cursor.step_cases name with
      ⟨placement, step, _⟩ | ⟨skipped, declaration, after, ahead, _, step⟩
    · rw [step]
      exact stands
    · rw [step]
      exact stands.advance ahead

/-- A child that is placed is walked against the declaration with its number. -/
theorem StandsIn.getElem?_of_placed (stands : cursor.StandsIn declared)
    (placed : (cursor.step name).1.declaration? = some declaration) :
    declared[(cursor.step name).2.passed.length]? = some declaration := by
  rcases cursor.step_cases name with
    ⟨placement, step, unplaced⟩ | ⟨skipped, found, after, ahead, _, step⟩
  · rw [step] at placed
    rcases unplaced with rfl | rfl <;> cases placed
  · have head := congrArg List.head? (stands.advance ahead)
    rw [List.head?_drop] at head
    rw [step] at placed ⊢
    cases placed
    exact head.symm

/-- Numbers do not fall below the number of declarations passed. -/
theorem length_passed_le {number : Nat} (member : some number ∈ cursor.numbers names) :
    cursor.passed.length ≤ number := by
  induction names generalizing cursor with
  | nil => cases member
  | cons name rest inductionHypothesis =>
    rw [numbers, List.mem_cons] at member
    have bound : cursor.passed.length ≤ (cursor.step name).2.passed.length := by
      rcases cursor.step_cases name with
        ⟨placement, step, _⟩ | ⟨skipped, declaration, after, _, _, step⟩
      · rw [step]
      · rw [step, length_passed_advance]
        exact Nat.le_add_right _ _
    rcases member with here | later
    · obtain ⟨_, _, rfl⟩ := Option.map_eq_some_iff.mp here.symm
      exact bound
    · exact Nat.le_trans bound (inductionHypothesis later)

theorem count_numbers_of_passed {number : Nat} (passed : number < cursor.passed.length) :
    (cursor.numbers names).count (some number) = 0 :=
  List.count_eq_zero.mpr fun member => Nat.not_le_of_lt passed (length_passed_le member)

/-- The number of a child is that of the step that reads its name. -/
theorem getElem?_numbers (cursor : Cursor) (earlier later : List String) (name : String) :
    (cursor.numbers (earlier ++ name :: later))[earlier.length]? =
      some (((cursor.run earlier).2.step name).1.declaration?.map fun _ =>
        ((cursor.run earlier).2.step name).2.passed.length) := by
  induction earlier generalizing cursor with
  | nil => rfl
  | cons first rest inductionHypothesis => exact inductionHypothesis (cursor.step first).2

/-- The cursor has counted the elder siblings with their numbers: those of the declaration reached,
and none of a later one. -/
def Counts (cursor : Cursor) (elder : List (Option Nat)) : Prop :=
  ∀ number, cursor.passed.length ≤ number →
    elder.count (some number) = if number = cursor.passed.length then cursor.count else 0

theorem counts_start (declared : List Declaration) : (start declared).Counts [] := by
  intro number _
  exact (ite_self 0).symm

namespace Counts

variable {elder : List (Option Nat)}

theorem skip (counts : cursor.Counts elder) : cursor.Counts (elder ++ [none]) := by
  intro number bound
  rw [List.count_append, counts number bound]
  rfl

theorem count_next (counts : cursor.Counts elder) (skipped : List Declaration) :
    elder.count (some (cursor.passed.length + skipped.length)) = cursor.countBehind skipped := by
  rw [counts _ (Nat.le_add_right _ _)]
  cases skipped with
  | nil => exact if_pos rfl
  | cons first others => exact if_neg (by rw [List.length_cons]; omega)

theorem advance (counts : cursor.Counts elder) :
    (cursor.advance skipped declaration after).Counts
      (elder ++ [some (cursor.advance skipped declaration after).passed.length]) := by
  intro number bound
  rw [length_passed_advance] at bound ⊢
  by_cases same : number = cursor.passed.length + skipped.length
  · rw [same, List.count_append, counts.count_next, List.count_singleton_self, if_pos rfl]
    rfl
  · have different : some number ∉ [some (cursor.passed.length + skipped.length)] := by
      simpa using same
    rw [List.count_append, counts number (by omega), List.count_eq_zero.mpr different,
      if_neg (by omega), if_neg same]

/-- Of a declaration that is skipped no child follows. -/
theorem count_of_skipped (counts : cursor.Counts elder) {number : Nat}
    (bound : cursor.passed.length ≤ number)
    (limit : number < (cursor.advance skipped declaration after).passed.length) :
    (elder ++ some (cursor.advance skipped declaration after).passed.length ::
        (cursor.advance skipped declaration after).numbers names).count (some number) =
      if number = cursor.passed.length then cursor.count else 0 := by
  have different :
      ¬some (cursor.advance skipped declaration after).passed.length = some number := by
    rw [Option.some.injEq]
    omega
  rw [List.count_append, List.count_cons_of_ne different, count_numbers_of_passed limit,
    Nat.add_zero, counts number bound]

end Counts

/-- Of two declarations of one name a child takes the first that is not passed. -/
example :
    (start [.free "Note" .optional, .free "Date" .optional, .free "Note" .optional]).numbers
      ["Note", "Date", "Date", "Note", "Date"] = [some 0, some 1, some 1, some 2, none] := by
  decide

end Cursor

/-! ## The children that are counted -/

/-- The child of the element at a place that another place lies in. -/
def childBelow? (place other : Place) : Option Nat :=
  if place <+: other then other[place.length]? else none

/-- The number of the declaration that the child with a sighting in it is walked against. -/
def Sighting.number? (place : Place) (numbers : List (Option Nat)) (sighting : Sighting) :
    Option Nat :=
  (childBelow? place sighting.place).bind fun child => numbers[child]?.join

/-- Whether a sighting is a gap of the element at a place, or lies in a child that is walked. -/
def Sighting.isCounted (place : Place) (numbers : List (Option Nat)) (sighting : Sighting) : Bool :=
  decide (sighting.place = place) && sighting.finding.problem.isAboutGap ||
    (sighting.number? place numbers).isSome

/-- What is seen in the children that are walked against the declaration with a number. -/
def seenWith (place : Place) (numbers : List (Option Nat)) (number : Nat)
    (sightings : List Sighting) : List Sighting :=
  sightings.filter fun sighting => decide (sighting.number? place numbers = some number)

/-- The gap of a declaration that got too few children. -/
def gapOf (place : Place) (address : Address) (parent : String) (numbers : List (Option Nat))
    (declaration : Declaration) (number : Nat) : List Sighting :=
  if numbers.count (some number) < declaration.occurrence.least then
    [⟨place, ⟨address, .missingElement declaration.name parent⟩⟩]
  else
    []

section Counting

variable {expected parent : String} {place : Place} {address : Address}
  {namespaceName : Option String} {numbers front : List (Option Nat)} {sighting : Sighting}
  {number child : Nat}

theorem number?_of_here (here : sighting.place = place) :
    sighting.number? place numbers = none := by
  rw [Sighting.number?, childBelow?, here, if_pos List.prefix_rfl, List.getElem?_length]
  rfl

theorem number?_of_below (below : place ++ [child] <+: sighting.place) :
    sighting.number? place numbers = numbers[child]?.join := by
  obtain ⟨more, whole⟩ := below
  have inside : place <+: sighting.place := ⟨[child] ++ more, by rw [← whole, List.append_assoc]⟩
  have step : sighting.place[place.length]? = some child := by
    rw [← whole, List.append_assoc, List.getElem?_append_right (Nat.le_refl _), Nat.sub_self]
    rfl
  rw [Sighting.number?, childBelow?, if_pos inside, step]
  rfl

theorem isCounted_of_below (below : place ++ [child] <+: sighting.place) :
    sighting.isCounted place numbers = (numbers[child]?.join).isSome := by
  have elsewhere : sighting.place ≠ place := fun here =>
    not_step_prefix_self place child (here ▸ below)
  rw [Sighting.isCounted, number?_of_below below, decide_eq_false elsewhere, Bool.false_and,
    Bool.false_or]

theorem seenWith_append (left right : List Sighting) :
    seenWith place numbers number (left ++ right) =
      seenWith place numbers number left ++ seenWith place numbers number right :=
  List.filter_append left right

theorem seenWith_eq_nil {sightings : List Sighting}
    (others : ∀ sighting ∈ sightings, sighting.number? place numbers ≠ some number) :
    seenWith place numbers number sightings = [] := by
  rw [seenWith, List.filter_eq_nil_iff]
  exact fun sighting member same => others sighting member (of_decide_eq_true same)

theorem seenWith_seenAt (findings : List Finding) :
    seenWith place numbers number (seenAt place findings) = [] := by
  apply seenWith_eq_nil
  intro sighting member same
  rw [number?_of_here (place_of_mem_seenAt member).1] at same
  cases same

theorem filter_isCounted_gaps (missing : List Declaration) :
    (seenAt place (missingFindings address parent missing)).filter
        (Sighting.isCounted place numbers) =
      seenAt place (missingFindings address parent missing) := by
  rw [List.filter_eq_self]
  intro sighting member
  obtain ⟨here, gap⟩ := place_of_mem_seenAt member
  rw [Sighting.isCounted, decide_eq_true here, isAboutGap_of_mem_missingFindings gap]
  rfl

/-- Declarations of which all but the first got no children have the gaps that a cursor tells of
when it passes them. -/
theorem flatMap_gapOf {first count : Nat} {declarations : List Declaration}
    (counts : ∀ number, first ≤ number → number < first + declarations.length →
      numbers.count (some number) = if number = first then count else 0) :
    ((declarations.zipIdx first).flatMap fun numbered =>
        gapOf place address parent numbers numbered.1 numbered.2) =
      seenAt place (missingFindings address parent (Cursor.wanting count declarations)) := by
  induction declarations generalizing first count with
  | nil => rfl
  | cons declaration rest inductionHypothesis =>
    have here := counts first (Nat.le_refl _) (by rw [List.length_cons]; omega)
    rw [if_pos rfl] at here
    have behind := @inductionHypothesis (first + 1) 0 fun number bound limit => by
      rw [counts number (by omega) (by rw [List.length_cons]; omega), if_neg (by omega), ite_self]
    rw [List.zipIdx_cons, List.flatMap_cons, behind, gapOf, here, Cursor.wanting]
    split
    · rfl
    · rfl

/-! ## The order of what is counted -/

theorem filter_isCounted_of_below {sightings : List Sighting}
    (below : ∀ sighting ∈ sightings, place ++ [child] <+: sighting.place) :
    sightings.filter (Sighting.isCounted place numbers) =
      if (numbers[child]?.join).isSome then sightings else [] := by
  split
  · next counted =>
    rw [List.filter_eq_self]
    intro sighting member
    rw [isCounted_of_below (below sighting member), counted]
  · next uncounted =>
    rw [List.filter_eq_nil_iff]
    intro sighting member
    rw [isCounted_of_below (below sighting member)]
    exact uncounted

theorem seenWith_of_below {sightings : List Sighting}
    (below : ∀ sighting ∈ sightings, place ++ [child] <+: sighting.place) :
    seenWith place numbers number sightings =
      if numbers[child]?.join = some number then sightings else [] := by
  split
  · next same =>
    rw [seenWith, List.filter_eq_self]
    intro sighting member
    rw [number?_of_below (below sighting member), same]
    exact decide_eq_true rfl
  · next other =>
    apply seenWith_eq_nil
    intro sighting member
    rw [number?_of_below (below sighting member)]
    exact other

/-- In a row of children nothing is walked against a declaration that is passed. -/
theorem seenWith_childSightings_eq_nil {cursor : Cursor} {before : List String}
    {children : List Element}
    (whole : numbers = front ++ cursor.numbers (children.map Element.name))
    (length : front.length = before.length) (passed : number < cursor.passed.length) :
    seenWith place numbers number
      (childSightings expected place address parent namespaceName cursor before children) = [] := by
  apply seenWith_eq_nil
  intro sighting member same
  rcases mem_childSightings member with ⟨here, _⟩ | ⟨child, bound, below⟩
  · rw [number?_of_here here] at same
    cases same
  · rw [number?_of_below below, Option.join_eq_some_iff, whole,
      List.getElem?_append_right (length ▸ bound)] at same
    exact Nat.not_le_of_lt passed (Cursor.length_passed_le (List.mem_of_getElem? same))

/-- When a child is walked against a declaration ahead, the gaps of the skipped declarations come
first, then the child, and then what comes later in the order of the other declarations. -/
theorem flatMap_of_placed {placed later : List Sighting} {skipped after : List Declaration}
    {declaration : Declaration} {first count : Nat}
    (passed : ∀ number, number < first + skipped.length →
      seenWith place numbers number later = [])
    (counts : ∀ number, first ≤ number → number < first + skipped.length →
      numbers.count (some number) = if number = first then count else 0) :
    (((skipped ++ declaration :: after).zipIdx first).flatMap fun numbered =>
        (if some (first + skipped.length) = some numbered.2 then placed else []) ++
          seenWith place numbers numbered.2 later ++
          gapOf place address parent numbers numbered.1 numbered.2) =
      seenAt place (missingFindings address parent (Cursor.wanting count skipped)) ++ placed ++
        ((declaration :: after).zipIdx (first + skipped.length)).flatMap fun numbered =>
          seenWith place numbers numbered.2 later ++
            gapOf place address parent numbers numbered.1 numbered.2 := by
  have gaps : ((skipped.zipIdx first).flatMap fun numbered =>
      (if some (first + skipped.length) = some numbered.2 then placed else []) ++
        seenWith place numbers numbered.2 later ++
        gapOf place address parent numbers numbered.1 numbered.2) =
      seenAt place (missingFindings address parent (Cursor.wanting count skipped)) := by
    rw [← flatMap_gapOf counts]
    apply List.flatMap_congr
    rintro ⟨other, number⟩ member
    have bound := (List.mem_zipIdx member).2.1
    rw [if_neg (by rw [Option.some.injEq]; omega), passed number bound, List.nil_append,
      List.nil_append]
  have behind : ((after.zipIdx (first + skipped.length + 1)).flatMap fun numbered =>
      (if some (first + skipped.length) = some numbered.2 then placed else []) ++
        seenWith place numbers numbered.2 later ++
        gapOf place address parent numbers numbered.1 numbered.2) =
      (after.zipIdx (first + skipped.length + 1)).flatMap fun numbered =>
        seenWith place numbers numbered.2 later ++
          gapOf place address parent numbers numbered.1 numbered.2 := by
    apply List.flatMap_congr
    rintro ⟨other, number⟩ member
    have bound := (List.mem_zipIdx member).1
    rw [if_neg (by rw [Option.some.injEq]; omega), List.nil_append]
  rw [List.zipIdx_append, List.flatMap_append, gaps, List.zipIdx_cons, List.flatMap_cons,
    List.flatMap_cons, behind, if_pos rfl]
  simp only [List.append_assoc]

theorem join_getElem?_of_division {entry : Option Nat} {rest : List (Option Nat)} {index : Nat}
    (whole : numbers = front ++ entry :: rest) (length : front.length = index) :
    numbers[index]?.join = entry := by
  rw [whole, ← length, List.getElem?_append_right (Nat.le_refl _), Nat.sub_self]
  rfl

/-- The walk of a row of children tells in the order of the declarations ahead of the children that
are walked against one, and then of its gap; `front` are the numbers of the elder siblings. -/
theorem filter_isCounted_childSightings {cursor : Cursor} {before : List String}
    {children : List Element}
    (whole : numbers = front ++ cursor.numbers (children.map Element.name))
    (length : front.length = before.length) (counts : cursor.Counts front) :
    let row := childSightings expected place address parent namespaceName cursor before children
    row.filter (Sighting.isCounted place numbers) =
      (cursor.ahead.zipIdx cursor.passed.length).flatMap fun numbered =>
        seenWith place numbers numbered.2 row ++
          gapOf place address parent numbers numbered.1 numbered.2 := by
  dsimp only
  -- The number of every child joins those of its elder siblings, so that all numbers stay the same.
  induction children generalizing front cursor before with
  | nil =>
    rw [List.map_nil, Cursor.numbers, List.append_nil] at whole
    rw [childSightings, filter_isCounted_gaps]
    simp only [seenWith_seenAt, List.nil_append]
    exact (flatMap_gapOf fun number bound _ => whole ▸ counts number bound).symm
  | cons child rest inductionHypothesis =>
    have below : ∀ sighting ∈ placedSightings expected (place ++ [before.length])
        (address ++ [.toChild child.name before (rest.map Element.name)]) parent namespaceName child
        (cursor.step child.name).1, place ++ [before.length] <+: sighting.place :=
      fun _ => prefix_of_mem_placedSightings
    have longer (entry : Option Nat) :
        (front ++ [entry]).length = (before ++ [child.name]).length := by
      rw [List.length_append, List.length_append, length]
      rfl
    rw [List.map_cons, Cursor.numbers] at whole
    dsimp only at whole
    rw [childSightings_cons]
    simp only [List.filter_append, seenWith_append, seenWith_seenAt, filter_isCounted_gaps,
      List.nil_append, filter_isCounted_of_below below, seenWith_of_below below]
    rcases cursor.step_cases child.name with
      ⟨placement, step, nowhere⟩ | ⟨skipped, declaration, after, ahead, _, step⟩
    · have unplaced : placement.declaration? = none ∧ placement.skipped = [] := by
        rcases nowhere with rfl | rfl <;> exact ⟨rfl, rfl⟩
      rw [step] at whole
      dsimp only at whole
      rw [unplaced.1, Option.map_none] at whole
      have entry := join_getElem?_of_division whole length
      rw [← List.singleton_append, ← List.append_assoc] at whole
      have others := inductionHypothesis whole (longer none) counts.skip
      simp only [entry, step, unplaced.2, others]
      rfl
    · rw [step] at whole
      dsimp only [Placement.declaration?, Option.map_some] at whole
      have size : (cursor.advance skipped declaration after).passed.length =
          cursor.passed.length + skipped.length := Cursor.length_passed_advance
      have entry := join_getElem?_of_division whole length
      have gaps : ∀ number, cursor.passed.length ≤ number →
          number < cursor.passed.length + skipped.length →
          numbers.count (some number) =
            if number = cursor.passed.length then cursor.count else 0 :=
        fun number bound limit => whole ▸ counts.count_of_skipped bound (size ▸ limit)
      rw [← List.singleton_append, ← List.append_assoc] at whole
      have others := inductionHypothesis whole (longer _) counts.advance
      rw [size] at entry others
      simp only [entry, step, ahead, Option.isSome_some, if_true, others]
      rw [flatMap_of_placed _ gaps]
      · rfl
      · exact fun number bound =>
          seenWith_childSightings_eq_nil whole (longer _) (size ▸ bound)

end Counting

/-! ## Walked elements -/

/-- The declared children. -/
def Declaration.children : Declaration → List Declaration
  | .simple _ _ _ => []
  | .complex _ _ _ _ children => children

/-- The numbers of the declarations that the children of an element are walked against. -/
def Declaration.numbersOf (declaration : Declaration) (element : Element) : List (Option Nat) :=
  (Cursor.start declaration.children).numbers (element.children.map Element.name)

section Walked

variable {schema : Schema} {root element child : Element} {place : Place} {address : Address}
  {above : Option String} {declaration : Declaration} {earlier later : List Element}
  {numbers : List (Option Nat)} {sightings : List Sighting} {sighting : Sighting}

/-- What selects only sightings within a place need not look at others. -/
theorem filter_inside {select : Sighting → Bool}
    (inside : ∀ sighting, select sighting = true → place <+: sighting.place) :
    (sightings.filter fun sighting => decide (place <+: sighting.place)).filter select =
      sightings.filter select := by
  rw [List.filter_filter]
  apply List.filter_congr
  intro sighting _
  cases selected : select sighting with
  | false => rfl
  | true => exact decide_eq_true (inside sighting selected)

theorem prefix_of_number? {number : Nat}
    (numbered : sighting.number? place numbers = some number) : place <+: sighting.place := by
  by_contra outside
  rw [Sighting.number?, childBelow?, if_neg outside] at numbered
  cases numbered

theorem prefix_of_isCounted (counted : sighting.isCounted place numbers = true) :
    place <+: sighting.place := by
  rw [Sighting.isCounted, Bool.or_eq_true, Bool.and_eq_true, decide_eq_true_iff] at counted
  rcases counted with ⟨here, _⟩ | below
  · exact here ▸ List.prefix_rfl
  · obtain ⟨number, numbered⟩ := Option.isSome_iff_exists.mp below
    exact prefix_of_number? numbered

/-- Findings of an element that are no gaps are not counted. -/
theorem filter_isCounted_seenAt {findings : List Finding}
    (noGaps : ∀ finding ∈ findings, finding.problem.isAboutGap = false) :
    (seenAt place findings).filter (Sighting.isCounted place numbers) = [] := by
  rw [List.filter_eq_nil_iff]
  intro sighting member
  obtain ⟨here, inside⟩ := place_of_mem_seenAt member
  rw [Sighting.isCounted, noGaps _ inside, Bool.and_false, Bool.false_or, number?_of_here here]
  exact Bool.false_ne_true

theorem noGaps_limitFindings {name parent : String} {overLimit : Option Nat} :
    ∀ finding ∈ limitFindings address name parent overLimit,
      finding.problem.isAboutGap = false := by
  intro finding member
  obtain ⟨_, most, problem⟩ := mem_limitFindings member
  rw [problem]
  rfl

/-- In a walked element the walk tells in the order of the declarations of the children that are
walked against one, and then of its gap. -/
theorem Walks.filter_isCounted
    (walks : Walks schema root (addressOf root place) above declaration element)
    (found : root.elementAt? place = some element) :
    (schema.sightings root).filter
        (Sighting.isCounted place (declaration.numbersOf element)) =
      declaration.children.zipIdx.flatMap fun numbered =>
        seenWith place (declaration.numbersOf element) numbered.2 (schema.sightings root) ++
          gapOf place (addressOf root place) element.name (declaration.numbersOf element)
            numbered.1 numbered.2 := by
  obtain ⟨overLimit, parent, inside⟩ := walks.filter_sightings found
  have only (number : Nat) :
      seenWith place (declaration.numbersOf element) number (schema.sightings root) =
        seenWith place (declaration.numbersOf element) number
          (elementSightings schema.namespaceName declaration place (addressOf root place) above
            element) := by
    rw [seenWith, ← filter_inside fun sighting same =>
      prefix_of_number? (of_decide_eq_true same), inside]
    change seenWith place _ number _ = _
    rw [seenWith_append, seenWith_seenAt, List.nil_append]
  rw [← filter_inside fun sighting => prefix_of_isCounted, inside, List.filter_append,
    filter_isCounted_seenAt noGaps_limitFindings, List.nil_append]
  simp only [only]
  cases declaration with
  | simple name occurrence type =>
    rw [elementSightings_simple]
    exact filter_isCounted_seenAt fun finding member =>
      (areOwn_elementFindings_simple finding member).2.2
  | complex name occurrence typeName attributes declared =>
    have row := @filter_isCounted_childSightings schema.namespaceName element.name place
      (addressOf root place) element.namespaceName _ [] (.start declared) [] element.children rfl
      rfl (Cursor.counts_start declared)
    rw [elementSightings_complex, List.filter_append,
      filter_isCounted_seenAt fun finding member => (areOwn_ownFindings finding member).2.2,
      List.nil_append]
    simp only [seenWith_append, seenWith_seenAt, List.nil_append]
    exact row

/-- A child is walked exactly against the declaration with its number. -/
theorem Walks.child_iff
    (walks : Walks schema root (addressOf root place) above declaration element)
    (found : root.elementAt? place = some element)
    (division : element.children = earlier ++ child :: later) {above' : Option String}
    {against : Declaration} :
    Walks schema root (addressOf root (place ++ [earlier.length])) above' against child ↔
      above' = element.namespaceName ∧
        ∃ number, (declaration.numbersOf element)[earlier.length]? = some (some number) ∧
          declaration.children[number]? = some against := by
  have entry := (Cursor.start declaration.children).getElem?_numbers (earlier.map Element.name)
    (later.map Element.name) child.name
  rw [← List.map_cons, ← List.map_append, ← division, List.length_map] at entry
  have stands := (Cursor.standsIn_start declaration.children).run (earlier.map Element.name)
  rw [addressOf_append_of_division found division, walks_child_iff found division,
    Declaration.numbersOf, entry]
  refine and_congr_right fun _ => ⟨?_, ?_⟩
  · rintro ⟨_, _, _, _, _, declared, parent, skipped, overLimit, placed⟩
    obtain ⟨_, rfl, _⟩ := walks.unique parent
    have same := Placement.declaration?_eq_some_iff.mpr ⟨skipped, overLimit, placed⟩
    rw [placementBehind] at same
    exact ⟨_, congrArg (fun found => some (Option.map _ found)) same,
      stands.getElem?_of_placed same⟩
  · rintro ⟨number, mapped, atNumber⟩
    obtain ⟨other, placed, rfl⟩ := Option.map_eq_some_iff.mp (Option.some.inj mapped)
    cases (stands.getElem?_of_placed placed).symm.trans atNumber
    cases declaration with
    | simple name occurrence type => cases atNumber
    | complex name occurrence typeName attributes declared =>
      exact ⟨_, _, _, _, _, _, walks, Placement.declaration?_eq_some_iff.mp placed⟩

end Walked

end Schema
end MuseumRecord
