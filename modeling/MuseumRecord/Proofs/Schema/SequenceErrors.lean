import MuseumRecord.Proofs.Schema.Conforming
import MuseumRecord.Proofs.Schema.Placement
import MuseumRecord.Proofs.Schema.Walk

/-!
# Errors of sequences

What the walk finds wrong with the sequence of children of an element, said without a cursor: which
children are misplaced can be told from the names of their elder siblings, and what is missing or
too many from the number of children that are not misplaced.
-/

namespace MuseumRecord
namespace Schema

open Markup (Element)

/-- Whether a problem is a child that finds no place among its siblings. -/
def Problem.isMisplacement : Problem → Bool
  | .outOfOrder _ _ => true
  | .unexpectedElement _ _ => true
  | _ => false

/-- Whether a problem is one of too many children of a name. -/
def Problem.isLimitOf (name : String) : Problem → Bool
  | .tooMany other _ _ => other == name
  | _ => false

/-- What is found missing in the element at an address. -/
def gapsAt (address : Address) (findings : List Finding) : List Finding :=
  findings.filter fun finding =>
    decide (finding.address = address) && finding.problem.isAboutGap

/-- What is found too many among the children of a name in the element at an address. -/
def limitsBelow (address : Address) (name : String) (findings : List Finding) : List Finding :=
  findings.filter fun finding =>
    decide (finding.address.dropLast = address) && finding.problem.isLimitOf name

/-- Nothing is selected when whatever is in the place is something else. -/
theorem filter_and_eq_nil {findings : List Finding} {inPlace : Finding → Prop}
    [DecidablePred inPlace] {select : Finding → Bool}
    (absent : ∀ finding ∈ findings, inPlace finding → select finding = false) :
    findings.filter (fun finding => decide (inPlace finding) && select finding) = [] := by
  rw [List.filter_eq_nil_iff]
  intro finding member selected
  rw [Bool.and_eq_true, decide_eq_true_iff] at selected
  rw [absent finding member selected.1] at selected
  exact Bool.false_ne_true selected.2

/-! ## Placements -/

section Placements

variable {declared : List Declaration} {earlier : List String} {name : String}

theorem placementBehind_of_not_declared (distinct : (declared.map Declaration.name).Nodup)
    (absent : name ∉ declared.map Declaration.name) :
    placementBehind declared earlier name = .unexpected := by
  have reached := (Cursor.reached_start declared).run distinct earlier
  have timely : ¬IsLate (declared.map Declaration.name) ([] ++ earlier) name := by
    rintro ⟨other, _, pair⟩
    exact absent (pair.subset List.mem_cons_self)
  unfold placementBehind
  rw [reached.step_of_not_hasPlace distinct fun place => absent place.1, if_neg timely]

theorem placementBehind_of_isLate (distinct : (declared.map Declaration.name).Nodup)
    (late : IsLate (declared.map Declaration.name) earlier name) :
    placementBehind declared earlier name = .outOfOrder := by
  have reached := (Cursor.reached_start declared).run distinct earlier
  rw [List.nil_append] at reached
  unfold placementBehind
  rw [reached.step_of_not_hasPlace distinct fun place => place.2 late, if_pos late]

theorem placementBehind_of_hasPlace (distinct : (declared.map Declaration.name).Nodup)
    {declaration : Declaration} (member : declaration ∈ declared)
    (timely : ¬IsLate (declared.map Declaration.name) earlier declaration.name) :
    ∃ skipped overLimit,
      placementBehind declared earlier declaration.name =
        .placed skipped overLimit declaration := by
  have reached := (Cursor.reached_start declared).run distinct earlier
  rw [List.nil_append] at reached
  obtain ⟨skipped, found, after, ahead, named, _, step⟩ :=
    reached.step_of_hasPlace distinct ⟨List.mem_map_of_mem member, timely⟩
  have inside : found ∈ declared :=
    reached.suffix.subset (ahead ▸ List.mem_append_right _ List.mem_cons_self)
  obtain rfl := List.inj_on_of_nodup_map distinct inside member named
  unfold placementBehind
  rw [step]
  exact ⟨_, _, rfl⟩

/-- Only a child with a place is placed. -/
theorem hasPlace_of_placed (distinct : (declared.map Declaration.name).Nodup)
    {skipped : List Declaration} {overLimit : Option Nat} {declaration : Declaration}
    (placed : placementBehind declared earlier name = .placed skipped overLimit declaration) :
    HasPlace (declared.map Declaration.name) earlier name := by
  refine ⟨?_, fun late => ?_⟩
  · by_contra absent
    rw [placementBehind_of_not_declared distinct absent] at placed
    cases placed
  · rw [placementBehind_of_isLate distinct late] at placed
    cases placed

end Placements

/-! ## What is missing -/

section Gaps

variable {expected parent : String} {address : Address} {above namespaceName : Option String}

theorem gapsAt_append (left right : List Finding) :
    gapsAt address (left ++ right) = gapsAt address left ++ gapsAt address right :=
  List.filter_append left right

theorem gapsAt_missingFindings (missing : List Declaration) :
    gapsAt address (missingFindings address parent missing) =
      missingFindings address parent missing := by
  rw [gapsAt, List.filter_eq_self]
  intro finding member
  obtain ⟨declaration, _, rfl⟩ := List.mem_map.mp member
  simp [Problem.isAboutGap]

theorem gapsAt_eq_nil {findings : List Finding}
    (absent : ∀ finding ∈ findings, finding.address = address →
      finding.problem.isAboutGap = false) : gapsAt address findings = [] :=
  filter_and_eq_nil absent

theorem gapsAt_placedFindings {step : AddressStep} {child : Element} {placement : Placement} :
    gapsAt address
      (placedFindings expected (address ++ [step]) parent namespaceName child placement) = [] := by
  apply gapsAt_eq_nil
  intro finding member here
  have below := prefix_of_mem_placedFindings
    (fun declaration above finding => isInside_of_mem_elementFindings) member
  exact absurd (here ▸ below) (not_step_prefix_self _ _)

/-- The gaps in a row of children are the declarations that get too few children altogether, told
once each and in the order of the declarations. -/
theorem gapsAt_childFindings {declared : List Declaration} {before : List String} {cursor : Cursor}
    (distinct : (declared.map Declaration.name).Nodup) (reached : cursor.Reached declared before)
    (children : List Element) :
    gapsAt address (childFindings expected address parent namespaceName cursor before children) =
      missingFindings address parent
        (cursor.wanted (declared.map Declaration.name) before (children.map Element.name)) := by
  induction children generalizing cursor before with
  | nil =>
    rw [childFindings, gapsAt_missingFindings, List.map_nil, Cursor.wanted_nil reached distinct]
  | cons child rest inductionHypothesis =>
    rw [childFindings_cons, gapsAt_append, gapsAt_append, gapsAt_missingFindings,
      gapsAt_placedFindings, List.append_nil, List.map_cons]
    by_cases place : HasPlace (declared.map Declaration.name) before child.name
    · obtain ⟨skipped, declaration, after, ahead, named, _, step⟩ :=
        reached.step_of_hasPlace distinct place
      have next := reached.advance distinct ahead
      rw [step, ← named, inductionHypothesis next,
        Cursor.wanted_cons_of_ahead reached distinct ahead]
      unfold missingFindings
      rw [List.map_append]
      rfl
    · have next := reached.skip distinct place
      rw [reached.step_of_not_hasPlace distinct place, inductionHypothesis next,
        Cursor.wanted_cons_of_not_hasPlace place]
      split <;> rfl

end Gaps

/-! ## What is too many -/

/-- What is found about the limit of a declaration when children at some steps come after `count`
others: one finding at the first of them that is over the limit. -/
def limitAmong (address : Address) (parent : String) (declaration : Declaration) (count : Nat)
    (steps : List AddressStep) : List Finding :=
  match declaration.occurrence.most? with
  | none => []
  | some most =>
    if most < count then []
    else steps[most - count]?.toList.map fun step =>
      ⟨address ++ [step], .tooMany declaration.name most parent⟩

section Limits

variable {expected parent : String} {address : Address} {above namespaceName : Option String}
  {declaration : Declaration} {name : String}

theorem limitAmong_nil (count : Nat) : limitAmong address parent declaration count [] = [] := by
  unfold limitAmong
  split
  · rfl
  · split
    · rfl
    · rw [List.getElem?_nil]
      rfl

/-- One more child is told of when it is the first over the limit. -/
theorem limitAmong_cons (count : Nat) (step : AddressStep) (steps : List AddressStep) :
    limitAmong address parent declaration count (step :: steps) =
      limitFindings (address ++ [step]) declaration.name parent
          (Cursor.limitPassed declaration (count + 1)) ++
        limitAmong address parent declaration (count + 1) steps := by
  unfold limitAmong Cursor.limitPassed limitFindings
  cases declaration.occurrence.most? with
  | none => rfl
  | some most =>
    rcases Nat.lt_trichotomy most count with beyond | rfl | within
    · have other : (count + 1 == most + 1) = false := by
        rw [beq_eq_false_iff_ne]
        omega
      simp only [if_pos beyond, if_pos (Nat.lt_succ_of_lt beyond), Option.filter, other,
        Bool.false_eq_true, if_false]
      rfl
    · simp [Option.filter]
    · obtain ⟨more, rfl⟩ := Nat.exists_eq_add_of_lt within
      have other : (count + 1 == count + more + 1 + 1) = false := by
        rw [beq_eq_false_iff_ne]
        omega
      have index : count + more + 1 - count = more + 1 := by omega
      have nextIndex : count + more + 1 - (count + 1) = more := by omega
      simp only [if_neg (Nat.not_lt_of_gt within), Option.filter, other, Bool.false_eq_true,
        if_false, index, nextIndex, List.getElem?_cons_succ]
      rw [if_neg (by omega)]
      rfl

theorem limitsBelow_append (left right : List Finding) :
    limitsBelow address name (left ++ right) =
      limitsBelow address name left ++ limitsBelow address name right :=
  List.filter_append left right

theorem limitsBelow_eq_nil {findings : List Finding}
    (absent : ∀ finding ∈ findings, finding.address.dropLast = address →
      finding.problem.isLimitOf name = false) : limitsBelow address name findings = [] :=
  filter_and_eq_nil absent

theorem isLimitOf_eq_false {problem : Problem} (elsewhere : problem.isAboutPlace = false) :
    problem.isLimitOf name = false := by
  cases problem with
  | tooMany other most parent => cases elsewhere
  | _ => rfl

/-- Inside a child nothing is found about the limits of its parent. -/
theorem limitsBelow_elementFindings {step : AddressStep} {element : Element} :
    limitsBelow address name
      (elementFindings expected declaration (address ++ [step]) above element) = [] := by
  apply limitsBelow_eq_nil
  intro finding member here
  obtain ⟨⟨more, division⟩, place⟩ := isInside_of_mem_elementFindings member
  cases more with
  | nil =>
    rw [List.append_nil] at division
    exact isLimitOf_eq_false (place division.symm)
  | cons next more =>
    have lengths := congrArg List.length here
    rw [← division, List.length_dropLast] at lengths
    simp at lengths

theorem limitsBelow_limitFindings {step : AddressStep} {other : String}
    {overLimit : Option Nat} :
    limitsBelow address name (limitFindings (address ++ [step]) other parent overLimit) =
      if other = name then limitFindings (address ++ [step]) other parent overLimit else [] := by
  split
  · next same =>
    rw [limitsBelow, List.filter_eq_self]
    intro finding member
    obtain ⟨most, _, rfl⟩ := List.mem_map.mp member
    simp [Problem.isLimitOf, same]
  · next different =>
    apply limitsBelow_eq_nil
    intro finding member _
    obtain ⟨most, _, rfl⟩ := List.mem_map.mp member
    exact beq_eq_false_iff_ne.mpr different

theorem limitsBelow_missingFindings {missing : List Declaration} :
    limitsBelow address name (missingFindings address parent missing) = [] := by
  apply limitsBelow_eq_nil
  intro finding member _
  exact isLimitOf_eq_false (mem_missingFindings member).2

/-- A placement tells of the limit of the child's own name alone. -/
theorem limitsBelow_placedFindings {step : AddressStep} {child : Element}
    {placement : Placement} :
    limitsBelow address name
        (placedFindings expected (address ++ [step]) parent namespaceName child placement) =
      if child.name = name then
        limitFindings (address ++ [step]) child.name parent placement.overLimit
      else [] := by
  have noLimit : limitFindings (address ++ [step]) child.name parent none = [] := rfl
  cases placement with
  | placed skipped overLimit declaration =>
    rw [placedFindings, limitsBelow_append, limitsBelow_elementFindings, List.append_nil,
      limitsBelow_limitFindings, Placement.overLimit]
  | outOfOrder =>
    rw [Placement.overLimit, noLimit, ite_self]
    exact limitsBelow_eq_nil (List.forall_mem_singleton.mpr fun _ => rfl)
  | unexpected =>
    rw [Placement.overLimit, noLimit, ite_self]
    exact limitsBelow_eq_nil (List.forall_mem_singleton.mpr fun _ => rfl)

/-- The limit of a declaration is told of once in a row of children, at the first child with a place
that is over it. -/
theorem limitsBelow_childFindings {declared : List Declaration} {before : List String}
    {cursor : Cursor} (distinct : (declared.map Declaration.name).Nodup)
    (reached : cursor.Reached declared before) (member : declaration ∈ declared)
    (children : List Element) :
    limitsBelow address declaration.name
        (childFindings expected address parent namespaceName cursor before children) =
      limitAmong address parent declaration (cursor.countOf declaration.name)
        (takenSteps (declared.map Declaration.name) declaration.name before
          (children.map Element.name)) := by
  induction children generalizing cursor before with
  | nil => rw [childFindings, limitsBelow_missingFindings, List.map_nil, takenSteps, limitAmong_nil]
  | cons child rest inductionHypothesis =>
    rw [childFindings_cons, limitsBelow_append, limitsBelow_append, limitsBelow_missingFindings,
      List.nil_append, List.map_cons, limitsBelow_placedFindings]
    by_cases place : HasPlace (declared.map Declaration.name) before child.name
    · obtain ⟨skipped, found, after, ahead, named, fresh, step⟩ :=
        reached.step_of_hasPlace distinct place
      have next := reached.advance distinct ahead
      rw [named] at next
      rw [step, inductionHypothesis next, Placement.overLimit]
      by_cases same : found = declaration
      · subst same
        rw [← named] at place fresh ⊢
        rw [if_pos rfl, Cursor.countOf_advance_self, takenSteps_cons_of_place place,
          limitAmong_cons, Cursor.countOf_eq_countBehind ahead fresh]
      · have foundInside : found ∈ declared :=
          reached.suffix.subset (ahead ▸ List.mem_append_right _ List.mem_cons_self)
        have different : found.name ≠ declaration.name := fun equal =>
          same (List.inj_on_of_nodup_map distinct foundInside member equal)
        rw [if_neg (named ▸ different), List.nil_append, Cursor.countOf_advance_of_ne different,
          takenSteps_cons_of_other fun taken => different (named.trans taken.1)]
        by_cases passed : declaration.name ∈ skipped.map Declaration.name
        · have late := reached.takenSteps_of_skipped distinct ahead passed
            (rest.map Element.name)
          rw [named] at late
          rw [late, limitAmong_nil, limitAmong_nil]
        · rw [Cursor.countOf_of_not_skipped ahead different passed]
    · have next := reached.skip distinct place
      have noLimit : (cursor.step child.name).1.overLimit = none := by
        rw [reached.step_of_not_hasPlace distinct place]
        split <;> rfl
      rw [noLimit, limitFindings, Option.toList_none, List.map_nil, ite_self, List.nil_append,
        reached.step_of_not_hasPlace distinct place, inductionHypothesis next,
        takenSteps_cons_of_other fun taken => place taken.2]

end Limits

/-! ## Errors in a document -/

section Document

variable {schema : Schema} {root element : Element} {address : Address} {above : Option String}
  {name typeName : String} {occurrence : Occurrence} {attributes : List AttributeDeclaration}
  {declared : List Declaration}

theorem gapsAt_findings
    (walks : Walks schema root address above
      (.complex name occurrence typeName attributes declared) element)
    (distinct : (declared.map Declaration.name).Nodup) :
    gapsAt address (schema.findings root) =
      missingFindings address element.name
        ((Cursor.start declared).wanted (declared.map Declaration.name) []
          (element.children.map Element.name)) := by
  rw [← gapsAt_childFindings distinct (Cursor.reached_start declared)]
  apply walks.filter_findings
  · intro finding selected
    rw [Bool.and_eq_true, decide_eq_true_iff] at selected
    exact selected.1 ▸ List.prefix_rfl
  · intro finding _ gap
    rw [gap, Bool.and_false]

theorem limitsBelow_findings
    (walks : Walks schema root address above
      (.complex name occurrence typeName attributes declared) element)
    (distinct : (declared.map Declaration.name).Nodup) {declaration : Declaration}
    (member : declaration ∈ declared) :
    limitsBelow address declaration.name (schema.findings root) =
      limitAmong address element.name declaration 0
        (takenSteps (declared.map Declaration.name) declaration.name []
          (element.children.map Element.name)) := by
  rw [← Cursor.countOf_start declared declaration.name,
    ← limitsBelow_childFindings distinct (Cursor.reached_start declared) member]
  apply walks.filter_findings
  · intro finding selected
    rw [Bool.and_eq_true, decide_eq_true_iff] at selected
    exact selected.1 ▸ List.dropLast_prefix _
  · intro finding here _
    -- The element's own address lies below another.
    have lower : finding.address.dropLast ≠ address := by
      intro same
      have lengths := congrArg List.length same
      have positive := List.length_pos_iff.mpr walks.address_ne_nil
      rw [List.length_dropLast, here] at lengths
      omega
    rw [decide_eq_false lower, Bool.false_and]

/-- A declaration wants children in the end when it needs one and no child had a place there. -/
theorem wanted_start :
    (Cursor.start declared).wanted (declared.map Declaration.name) []
        (element.children.map Element.name) =
      declared.filter fun declaration =>
        decide (declaration.occurrence.least = 1 ∧
          takenSteps (declared.map Declaration.name) declaration.name []
            (element.children.map Element.name) = []) := by
  unfold Cursor.wanted
  apply List.filter_congr
  intro declaration _
  rw [Cursor.countOf_start, Nat.zero_add, decide_eq_decide, ← List.length_eq_zero_iff]
  cases declaration.occurrence <;> simp [Occurrence.least]

/-- At the address of a placed child there is no finding that it is misplaced. -/
theorem not_isMisplacement_of_placed {expected parent : String} {namespaceName : Option String}
    {child : Element} {skipped : List Declaration} {overLimit : Option Nat}
    {declaration : Declaration} {finding : Finding}
    (member : finding ∈ placedFindings expected address parent namespaceName child
      (.placed skipped overLimit declaration)) (here : finding.address = address) :
    finding.problem.isMisplacement = false := by
  rcases List.mem_append.mp member with limit | inside
  · obtain ⟨_, most, problem⟩ := mem_limitFindings limit
    rw [problem]
    rfl
  · have elsewhere := (isInside_of_mem_elementFindings inside).2 here
    cases problem : finding.problem with
    | outOfOrder name parent => rw [problem] at elsewhere; cases elsewhere
    | unexpectedElement name parent => rw [problem] at elsewhere; cases elsewhere
    | _ => rfl

/-- Errors of sequences are exact in every walked element whose declared children have distinct
names.  Within the address of a child there is one finding and no walk if the child is not declared
or declared in front of an elder sibling, and otherwise the child is walked beside its declaration
and not found misplaced.  A declaration is found missing once if it needs a child and none had a
place there, and found exceeded once, at the first child over the limit, if more children had a
place there than it allows. -/
theorem sequence_errors_are_exact
    (walks : Walks schema root address above
      (.complex name occurrence typeName attributes declared) element)
    (distinct : (declared.map Declaration.name).Nodup) :
    let names := declared.map Declaration.name
    let childNames := element.children.map Element.name
    (∀ earlier child later, element.children = earlier ++ child :: later →
      let below := address ++ [stepTo earlier child later]
      let inside := within below (schema.findings root)
      let elder := earlier.map Element.name
      (child.name ∉ names →
        inside = [⟨below, .unexpectedElement child.name element.name⟩]) ∧
      (child.name ∈ names → IsLate names elder child.name →
        inside = [⟨below, .outOfOrder child.name element.name⟩]) ∧
      (¬HasPlace names elder child.name →
        ∀ above' declaration met, ¬Walks schema root below above' declaration met) ∧
      (∀ declaration ∈ declared, declaration.name = child.name →
        ¬IsLate names elder child.name →
        Walks schema root below element.namespaceName declaration child ∧
          (∃ overLimit, inside = limitFindings below child.name element.name overLimit ++
            elementFindings schema.namespaceName declaration below element.namespaceName child) ∧
          ∀ finding ∈ inside, finding.address = below →
            finding.problem.isMisplacement = false)) ∧
    gapsAt address (schema.findings root) =
      missingFindings address element.name (declared.filter fun declaration =>
        decide (declaration.occurrence.least = 1 ∧
          takenSteps names declaration.name [] childNames = [])) ∧
    (∀ declaration ∈ declared,
      limitsBelow address declaration.name (schema.findings root) =
        (declaration.occurrence.most?.bind fun most =>
          (takenSteps names declaration.name [] childNames)[most]?.map fun step =>
            ⟨address ++ [step], .tooMany declaration.name most element.name⟩).toList) ∧
    ∀ policy problem, Problem.isAboutPlace problem = true ∨ problem.isAboutGap = true →
      severity? policy problem = some .error := by
  intro names childNames
  refine ⟨?_, ?_, ?_, ?_⟩
  · intro earlier child later division below inside elder
    have found := walks.within_child division
    refine ⟨fun absent => ?_, fun _ late => ?_, fun noPlace above' declaration met met => ?_, ?_⟩
    · rw [placementBehind_of_not_declared distinct absent] at found
      exact found
    · rw [placementBehind_of_isLate distinct late] at found
      exact found
    · obtain ⟨_, _, placed⟩ := walks.placed_of_step division met
      exact noPlace (hasPlace_of_placed distinct placed)
    · intro declaration member named timely
      rw [← named] at timely
      obtain ⟨skipped, overLimit, placed⟩ :=
        placementBehind_of_hasPlace distinct member timely
      rw [named] at placed
      rw [placed] at found
      refine ⟨.child walks division placed, ⟨overLimit, found⟩, fun finding member here => ?_⟩
      rw [show inside = _ from found] at member
      exact not_isMisplacement_of_placed member here
  · rw [gapsAt_findings walks distinct, wanted_start]
  · intro declaration member
    rw [limitsBelow_findings walks distinct member, limitAmong]
    cases declaration.occurrence.most? with
    | none => rfl
    | some most =>
      simp only [Nat.not_lt_zero, if_false, Nat.sub_zero, Option.bind_some, Option.toList_map]
      rfl
  · intro policy problem aboutSequence
    apply severity?_eq_error
    rcases aboutSequence with place | gap
    · cases problem with
      | noNamespace name expected => cases place
      | otherNamespace name found expected => cases place
      | _ => rfl
    · cases problem with
      | noNamespace name expected => cases gap
      | otherNamespace name found expected => cases gap
      | _ => rfl

end Document

/-- A technical part with its children in disorder: the material stands behind the condition, which
comes twice, and there is a child of a strange name. -/
def disorderedPart : Element :=
  exhibitElement "Technical" [] ""
    [exhibitElement "Condition" [] "Good" [], exhibitElement "Material" [] "Clay" [],
      exhibitElement "Condition" [] "Poor" [], exhibitElement "Glaze" [] "Slip" []]

/-- A record with a technical part in disorder and nothing else. -/
def disorderedRecord : Element :=
  exhibitElement "Exhibit" [] "" [disorderedPart]

theorem disorderedPart_errors :
    Walks exhibit disorderedRecord [⟨"Exhibit", none⟩, ⟨"Technical", none⟩]
        (some Exhibit.namespaceName) Exhibit.technical disorderedPart ∧
      gapsAt [⟨"Exhibit", none⟩, ⟨"Technical", none⟩] (exhibit.findings disorderedRecord) =
        [⟨[⟨"Exhibit", none⟩, ⟨"Technical", none⟩], .missingElement "Material" "Technical"⟩] ∧
      limitsBelow [⟨"Exhibit", none⟩, ⟨"Technical", none⟩] "Condition"
          (exhibit.findings disorderedRecord) =
        [⟨[⟨"Exhibit", none⟩, ⟨"Technical", none⟩, ⟨"Condition", some 2⟩],
          .tooMany "Condition" 1 "Technical"⟩] ∧
      within [⟨"Exhibit", none⟩, ⟨"Technical", none⟩, ⟨"Material", none⟩]
          (exhibit.findings disorderedRecord) =
        [⟨[⟨"Exhibit", none⟩, ⟨"Technical", none⟩, ⟨"Material", none⟩],
          .outOfOrder "Material" "Technical"⟩] := by
  have walks : Walks exhibit disorderedRecord [⟨"Exhibit", none⟩, ⟨"Technical", none⟩]
      (some Exhibit.namespaceName) Exhibit.technical disorderedPart := by
    have division : disorderedRecord.children = [] ++ disorderedPart :: [] := rfl
    have placed : placementBehind
        [Exhibit.basicInfo, Exhibit.description, Exhibit.technical, Exhibit.location,
          Exhibit.history, Exhibit.media] [] disorderedPart.name =
        .placed [Exhibit.basicInfo, Exhibit.description] none Exhibit.technical := rfl
    have top : Walks exhibit disorderedRecord [⟨disorderedRecord.name, none⟩] none Exhibit.record
        disorderedRecord := .root rfl
    exact top.child division placed
  obtain ⟨children, missing, limits, _⟩ := sequence_errors_are_exact walks (by decide)
  refine ⟨walks, missing, ?_, ?_⟩
  · apply limits (.simple "Condition" .once (.enumeration Exhibit.condition))
    simp
  · apply (children [exhibitElement "Condition" [] "Good" []] _ _ rfl).2.1
    · decide
    · decide

end Schema
end MuseumRecord
