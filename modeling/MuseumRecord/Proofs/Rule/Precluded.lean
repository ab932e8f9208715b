import MuseumRecord.Proofs.Schema.Conforming
import MuseumRecord.Proofs.Schema.ValueGrammar
import MuseumRecord.Rule.Group

/-!
# Violations that the schema precludes

Where a record has no structural error, some violations of the curatorial rules cannot occur: the
first child and the first attribute of a name, which the rules read, were checked by the schema.
-/

namespace MuseumRecord
namespace Schema

open Markup (Element)

/-- A declaration that wants a child finds its name in the row. -/
theorem IsRow.mem_of_least_pos {declarations : List Declaration} {names : List String}
    (row : IsRow declarations names) {declaration : Declaration}
    (member : declaration ∈ declarations) (wanted : 0 < declaration.occurrence.least) :
    declaration.name ∈ names := by
  induction row with
  | nil => cases member
  | @copies first rest count tail allowed tailRow inductionHypothesis =>
    rcases List.mem_cons.mp member with rfl | later
    · have positive : count ≠ 0 := by
        have enough := allowed.1
        omega
      exact List.mem_append_left _ (List.mem_replicate.mpr ⟨positive, rfl⟩)
    · exact List.mem_append_right _ (inductionHypothesis later)

namespace Conforms

variable {name typeName key : String} {occurrence : Occurrence}
  {attributes : List AttributeDeclaration} {children : List Declaration} {element : Element}

/-- The first child of a declared name conforms to the declaration. -/
theorem child_conforms
    (conforms : Conforms (.complex name occurrence typeName attributes children) element)
    {declaration : Declaration} (declared : declaration ∈ children) {child : Element}
    (found : element.child? declaration.name = some child) : Conforms declaration child := by
  have named : declaration.name = child.name := by
    have same := List.find?_some found
    simpa using (beq_iff_eq.mp same).symm
  exact (conforms_complex_iff.mp conforms).2.2.2.2 child (List.mem_of_find?_eq_some found)
    declaration declared named

/-- A declaration that wants a child has a first one, and that one conforms. -/
theorem exists_child
    (conforms : Conforms (.complex name occurrence typeName attributes children) element)
    {declaration : Declaration} (declared : declaration ∈ children)
    (wanted : 0 < declaration.occurrence.least) :
    ∃ child, element.child? declaration.name = some child ∧ Conforms declaration child := by
  have present := (conforms_complex_iff.mp conforms).2.2.2.1.mem_of_least_pos declared wanted
  obtain ⟨some_, member, named⟩ := List.mem_map.mp present
  cases found : element.child? declaration.name with
  | none =>
    have absent := List.find?_eq_none.mp found some_ member
    simp [named] at absent
  | some child => exact ⟨child, rfl, conforms.child_conforms declared found⟩

/-- The text of the first child of a declared name is of the declared type. -/
theorem accepts_childText
    (conforms : Conforms (.complex name occurrence typeName attributes children) element)
    {childOccurrence : Occurrence} {type : ValueType}
    (declared : .simple key childOccurrence type ∈ children) {text : String}
    (found : element.childText? key = some text) : type.accepts text = true := by
  obtain ⟨child, first, rfl⟩ := Option.map_eq_some_iff.mp found
  exact (conforms_simple_iff.mp (conforms.child_conforms declared first)).2.2

/-- A wanted child has a text of the declared type. -/
theorem exists_childText
    (conforms : Conforms (.complex name occurrence typeName attributes children) element)
    {childOccurrence : Occurrence} {type : ValueType}
    (declared : .simple key childOccurrence type ∈ children)
    (wanted : 0 < childOccurrence.least) :
    ∃ text, element.childText? key = some text ∧ type.accepts text = true := by
  obtain ⟨child, first, conforming⟩ := conforms.exists_child declared wanted
  have found : element.childText? key = some child.text := congrArg (Option.map Element.text) first
  exact ⟨child.text, found, conforms.accepts_childText declared found⟩

/-- A required attribute has a value of the declared type. -/
theorem exists_attribute
    (conforms : Conforms (.complex name occurrence typeName attributes children) element)
    (distinct : (attributes.map AttributeDeclaration.name).Nodup)
    {declared : AttributeDeclaration} (member : declared ∈ attributes)
    (required : declared.required = true) :
    ∃ value, element.attribute? declared.name = some value ∧
      declared.type.accepts value = true := by
  obtain ⟨checked, present, _⟩ := conforms_complex_iff.mp conforms
  obtain ⟨written, writtenMember, named⟩ := present declared member required
  unfold Element.attribute?
  cases found : element.attributes.find? fun pair => pair.1 == declared.name with
  | none =>
    have absent := List.find?_eq_none.mp found written writtenMember
    simp [named] at absent
  | some first =>
    obtain ⟨other, otherMember, otherNamed, accepted⟩ :=
      checked first (List.mem_of_find?_eq_some found)
    have firstNamed : first.1 = declared.name := by simpa using List.find?_some found
    have same := List.inj_on_of_nodup_map distinct otherMember member
      (otherNamed.trans firstNamed)
    exact ⟨first.2, rfl, same ▸ accepted⟩

end Conforms

end Schema

namespace Rule

open Markup (Element)
open Schema

/-- The violations that conforming to the schema of exhibits rules out. -/
def Violation.isPrecluded : Violation → Bool
  | .missingSection part => ["BasicInfo", "Location", "Technical"].contains part
  | .missingField part field =>
    [("BasicInfo", "Category"), ("Dimensions", "unit"), ("Location", "onDisplay"),
      ("Technical", "Condition")].contains (part, field)
  | .unknownUnit _ => true
  | .notANumber _ _ => true
  | .unknownCondition _ => true
  | _ => false

/-- A possible violation that the schema does not preclude. -/
def IsOpen (violation : Option Violation) : Prop :=
  ∀ found, violation = some found → found.isPrecluded = false

theorem isOpen_none : IsOpen none := by
  intro found equal
  cases equal

theorem isOpen_some_iff {violation : Violation} :
    IsOpen (some violation) ↔ violation.isPrecluded = false := by
  constructor
  · intro isOpen
    exact isOpen violation rfl
  · rintro other found ⟨⟩
    exact other

theorem IsOpen.orElse {first second : Option Violation} (firstOpen : IsOpen first)
    (secondOpen : IsOpen second) : IsOpen (first <|> second) := by
  intro found equal
  cases first with
  | none => exact secondOpen found equal
  | some violation => exact firstOpen found equal

theorem IsOpen.bind {α : Type} {value : Option α} {violation : α → Option Violation}
    (each : ∀ inner, value = some inner → IsOpen (violation inner)) :
    IsOpen (value.bind violation) := by
  cases value with
  | none => exact isOpen_none
  | some inner => exact each inner rfl

theorem isOpen_blankField {part field : String} {value : Option String}
    (other : (Violation.missingField part field).isPrecluded = false ∨
      ∃ text, value = some text ∧ Text.isBlankString text = false) :
    IsOpen (blankField part field value) := by
  unfold blankField
  split
  · next blank =>
    rcases other with harmless | ⟨text, rfl, filled⟩
    · exact isOpen_some_iff.mpr harmless
    · simp [filled] at blank
  · exact isOpen_none

theorem isOpen_emptyField {part field : String} {value : Option String}
    (filled : ∃ text, value = some text ∧ text ≠ "") :
    IsOpen (emptyField part field value) := by
  obtain ⟨text, rfl, notEmpty⟩ := filled
  unfold emptyField
  split
  · next empty => exact absurd (by simpa using empty) notEmpty
  · exact isOpen_none

theorem isOpen_overlong {field : String} {value : Option String} :
    IsOpen (overlong field value) := by
  unfold overlong
  split
  · split
    · exact isOpen_some_iff.mpr rfl
    · exact isOpen_none
  · exact isOpen_none

/-! ## Groups that raise no precluded violation on any record -/

theorem isOpen_identifierViolation (exhibit : Exhibit) : IsOpen (identifierViolation exhibit) := by
  unfold identifierViolation
  split
  · exact isOpen_some_iff.mpr rfl
  · split
    · exact isOpen_some_iff.mpr rfl
    · split
      · exact isOpen_none
      · exact isOpen_some_iff.mpr rfl

theorem isOpen_exhibitionsViolation (number : Nat) (exhibitions : List Exhibition) :
    IsOpen (exhibitionsViolation number exhibitions) := by
  induction exhibitions generalizing number with
  | nil => exact isOpen_none
  | cons exhibition rest inductionHypothesis =>
    refine IsOpen.orElse ?_ (inductionHypothesis (number + 1))
    unfold exhibitionViolation
    split
    · split
      · split
        · exact isOpen_none
        · exact isOpen_some_iff.mpr rfl
      · exact isOpen_none
    · exact isOpen_none

theorem isOpen_historyViolation (now : Calendar.Moment) (exhibit : Exhibit) :
    IsOpen (historyViolation now exhibit) := by
  refine IsOpen.bind fun history _ => IsOpen.orElse (IsOpen.bind fun acquisition _ => ?_)
    (isOpen_exhibitionsViolation 1 _)
  refine IsOpen.orElse (IsOpen.bind fun date _ => ?_) (IsOpen.bind fun price _ => ?_)
  · unfold acquisitionDateViolation
    split
    · exact isOpen_some_iff.mpr rfl
    · split
      · exact isOpen_some_iff.mpr rfl
      · exact isOpen_none
  · unfold priceViolation
    split
    · exact isOpen_none
    · exact isOpen_some_iff.mpr rfl

theorem isOpen_findSome? {α : Type} {items : List α} {violation : α → Option Violation}
    (each : ∀ item ∈ items, IsOpen (violation item)) : IsOpen (items.findSome? violation) := by
  intro found equal
  obtain ⟨item, member, raised⟩ := List.exists_of_findSome?_eq_some equal
  exact each item member found raised

theorem isOpen_mediaViolation (exhibit : Exhibit) : IsOpen (mediaViolation exhibit) := by
  refine IsOpen.bind fun media _ => IsOpen.orElse ?_ (isOpen_findSome? fun image _ => ?_)
  · unfold primaryViolation
    dsimp only
    split
    · exact isOpen_some_iff.mpr rfl
    · exact isOpen_none
  · refine IsOpen.orElse (isOpen_blankField (.inl (by decide)))
      (IsOpen.orElse ?_ isOpen_overlong)
    unfold endingViolation
    split
    · split
      · exact isOpen_none
      · exact isOpen_some_iff.mpr rfl
    · exact isOpen_none

/-! ## Groups that rely on the schema -/

/-- Whatever the schema takes for a number can be read as a binary number. -/
theorem isSome_read?_of_isDouble {text : List Char} (double : ValueType.isDouble text = true) :
    (Number.Binary64.read? text).isSome = true :=
  Number.Binary64.isSome_read?_iff.mpr (isDouble_iff.mp double).spellsBinary64

/-- A value of a closed set is no blank when none of the set is. -/
theorem isBlankString_eq_false_of_mem {set : Enumeration} {value : String}
    (filled : ∀ known ∈ set.values, Text.isBlankString known = false)
    (accepted : ValueType.accepts (.enumeration set) value = true) :
    Text.isBlankString value = false :=
  filled value (List.contains_iff_mem.mp accepted)

theorem isOpen_basicInfoViolation {root : Element} (conforms : Conforms Schema.exhibit.root root)
    (now : Calendar.Moment) : IsOpen (basicInfoViolation now (Exhibit.ofElement root)) := by
  obtain ⟨part, found, inside⟩ := conforms.exists_child
    (show Schema.Exhibit.basicInfo ∈ _ by simp) (by decide)
  have view : (Exhibit.ofElement root).basicInfo = some (BasicInfo.ofElement part) :=
    congrArg (Option.map BasicInfo.ofElement) found
  obtain ⟨category, written, accepted⟩ := inside.exists_childText
    (show Declaration.simple "Category" .once (.enumeration Schema.Exhibit.category) ∈ _ by simp)
    (by decide)
  unfold basicInfoViolation
  rw [view]
  refine IsOpen.orElse (isOpen_blankField (.inl (by decide))) (IsOpen.orElse isOpen_overlong
    (IsOpen.orElse (isOpen_blankField (.inr ⟨category, written, ?_⟩)) ?_))
  · exact isBlankString_eq_false_of_mem (by decide) accepted
  · unfold creationDateViolation
    split
    · exact isOpen_none
    · split
      · exact isOpen_none
      · split
        · exact isOpen_none
        · exact isOpen_some_iff.mpr rfl

theorem isOpen_locationViolation {root : Element} (conforms : Conforms Schema.exhibit.root root) :
    IsOpen (locationViolation (Exhibit.ofElement root)) := by
  obtain ⟨part, found, inside⟩ := conforms.exists_child
    (show Schema.Exhibit.location ∈ _ by simp) (by decide)
  have view : (Exhibit.ofElement root).location = some (Location.ofElement part) :=
    congrArg (Option.map Location.ofElement) found
  obtain ⟨onDisplay, written, accepted⟩ := inside.exists_attribute (by simp)
    (show AttributeDeclaration.mk "onDisplay" .boolean true ∈ _ by simp) rfl
  unfold locationViolation
  rw [view]
  refine IsOpen.orElse (isOpen_emptyField ⟨onDisplay, written, ?_⟩)
    (IsOpen.orElse (isOpen_blankField (.inl (by decide)))
      (IsOpen.orElse (isOpen_blankField (.inl (by decide))) ?_))
  · rintro rfl
    exact absurd accepted (by decide)
  · unfold displayViolation
    split
    · exact isOpen_some_iff.mpr rfl
    · exact isOpen_none

theorem isOpen_conditionViolation {root : Element} (conforms : Conforms Schema.exhibit.root root) :
    IsOpen (conditionViolation (Exhibit.ofElement root)) := by
  obtain ⟨part, found, inside⟩ := conforms.exists_child
    (show Schema.Exhibit.technical ∈ _ by simp) (by decide)
  have view : (Exhibit.ofElement root).technical = some (Technical.ofElement part) :=
    congrArg (Option.map Technical.ofElement) found
  obtain ⟨condition, written, accepted⟩ := inside.exists_childText
    (show Declaration.simple "Condition" .once (.enumeration Schema.Exhibit.condition) ∈ _ by simp)
    (by decide)
  unfold conditionViolation
  rw [view]
  refine IsOpen.orElse (isOpen_blankField (.inr ⟨condition, written, ?_⟩)) ?_
  · exact isBlankString_eq_false_of_mem (by decide) accepted
  · rw [show (Technical.ofElement part).condition = some condition from written]
    unfold conditionNameViolation
    dsimp only
    rw [if_pos (show Schema.Exhibit.condition.values.contains condition = true from accepted)]
    exact isOpen_none

theorem isOpen_measuredViolation {element : Element}
    (conforms : Conforms Schema.Exhibit.dimensions element) :
    IsOpen (measuredViolation (Dimensions.ofElement element)) := by
  obtain ⟨unit, written, accepted⟩ := conforms.exists_attribute (by simp)
    (show AttributeDeclaration.mk "unit" (.enumeration Schema.Exhibit.unit) true ∈ _ by simp) rfl
  have known : Schema.Exhibit.unit.values.contains unit = true := accepted
  refine IsOpen.orElse (isOpen_emptyField ⟨unit, written, ?_⟩)
    (IsOpen.orElse ?_ (IsOpen.orElse (isOpen_findSome? ?_) ?_))
  · rintro rfl
    exact absurd known (by decide)
  · rw [show (Dimensions.ofElement element).unit = some unit from written]
    unfold unitViolation
    dsimp only
    rw [if_pos known]
    exact isOpen_none
  · intro measurement member
    have declared : ∃ field, measurement = (field, element.childText? field) ∧
        Declaration.simple field .optional .double ∈
          [Declaration.simple "Height" .optional .double, .simple "Width" .optional .double,
            .simple "Depth" .optional .double, .simple "Diameter" .optional .double] := by
      simp only [Dimensions.measurements, Dimensions.ofElement, List.mem_cons, List.not_mem_nil,
        or_false] at member
      rcases member with rfl | rfl | rfl | rfl <;> exact ⟨_, rfl, by simp⟩
    obtain ⟨field, rfl, listed⟩ := declared
    refine IsOpen.bind fun value found => ?_
    have number := isSome_read?_of_isDouble (conforms.accepts_childText listed found)
    unfold measurementViolation
    split
    · next unreadable => simp [unreadable] at number
    · split
      · exact isOpen_none
      · exact isOpen_some_iff.mpr rfl
  · split
    · exact isOpen_some_iff.mpr rfl
    · exact isOpen_none

theorem isOpen_dimensionsViolation {root : Element} (conforms : Conforms Schema.exhibit.root root) :
    IsOpen (dimensionsViolation (Exhibit.ofElement root)) := by
  refine IsOpen.bind fun dimensions viewed => ?_
  obtain ⟨technical, technicalViewed, dimensionsViewed⟩ := Option.bind_eq_some_iff.mp viewed
  obtain ⟨part, found, rfl⟩ := Option.map_eq_some_iff.mp technicalViewed
  obtain ⟨inner, innerFound, rfl⟩ := Option.map_eq_some_iff.mp dimensionsViewed
  have inside := conforms.child_conforms
    (show Schema.Exhibit.technical ∈ _ by simp) found
  exact isOpen_measuredViolation
    (inside.child_conforms (show Schema.Exhibit.dimensions ∈ _ by simp) innerFound)

/-- No group of rules raises a precluded violation on a conforming record. -/
theorem isOpen_violation? {root : Element} (conforms : Conforms Schema.exhibit.root root)
    (now : Calendar.Moment) (group : RuleGroup) :
    IsOpen (group.violation? now (Exhibit.ofElement root)) := by
  cases group with
  | identifier => exact isOpen_identifierViolation _
  | basicInfo => exact isOpen_basicInfoViolation conforms now
  | dimensions => exact isOpen_dimensionsViolation conforms
  | location => exact isOpen_locationViolation conforms
  | history => exact isOpen_historyViolation now _
  | media => exact isOpen_mediaViolation _
  | condition => exact isOpen_conditionViolation conforms

/-- A record without structural errors keeps every rule that the schema states already: no group
finds a missing section, a missing category, unit, display mark or condition, an unknown unit or
condition, or a measurement that is no number.  Every text that the schema takes for a measurement
is read as a number. -/
theorem violation_not_precluded (policy : NamespacePolicy) (now : Calendar.Moment) (root : Element)
    (accepted : ∀ diagnostic ∈ Schema.exhibit.diagnostics policy root,
      diagnostic.isError = false) :
    (∀ group violation,
      RuleGroup.violation? now (Exhibit.ofElement root) group = some violation →
        violation.isPrecluded = false) ∧
      ∀ value, ValueType.double.accepts value = true →
        (Number.Binary64.read? (Text.trim value.toList)).isSome = true := by
  have conforms : Conforms Schema.exhibit.root root :=
    ((tolerates_findings_iff exhibit_unambiguous (by decide)).mp
      (diagnostics_free_of_errors_iff_tolerates.mp accepted)).2.1
  refine ⟨fun group violation raised => ?_, fun value double => ?_⟩
  · exact isOpen_violation? conforms now group violation raised
  · exact isSome_read?_of_isDouble double

/-- The negative height of the sample record is a violation, but no precluded one. -/
theorem sampleRecord_violation_not_precluded :
    (∀ diagnostic ∈ Schema.exhibit.diagnostics .require sampleRecord,
      diagnostic.isError = false) ∧
      (∀ group violation,
        RuleGroup.violation? (.midnight ⟨2024, 6, 1, by decide, by decide⟩)
            (Exhibit.ofElement sampleRecord) group = some violation →
          violation.isPrecluded = false) ∧
      (Number.Binary64.read? (Text.trim " -.5E+3 ".toList)).isSome = true := by
  have accepted : ∀ diagnostic ∈ Schema.exhibit.diagnostics .require sampleRecord,
      diagnostic.isError = false := by
    decide +kernel
  have kept := violation_not_precluded .require
    (.midnight ⟨2024, 6, 1, by decide, by decide⟩) sampleRecord accepted
  exact ⟨accepted, kept.1, kept.2 " -.5E+3 " (by decide +kernel)⟩

end Rule
end MuseumRecord
