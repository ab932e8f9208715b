import MuseumRecord.Proofs.HistoricalDate.Refusal
import MuseumRecord.Proofs.Rule.Precluded
import MuseumRecord.Proofs.Schema.Unbroken

/-!
# Violations on one line

A violation quotes the identifier, the texts of a few elements and the numbers that these denote.
Of a record that conforms to the schema these are the values and texts that may be quoted, so a
violation takes one line if they do.
-/

namespace MuseumRecord

open Text

/-! ## Refused identifiers -/

/-- What a refusal quotes of the identifier. -/
def IdentifierError.quoted : IdentifierError → List String
  | .empty => []
  | .wrongLetters text => [text]
  | .wrongLength text => [text]
  | .notPositive text => [text]

theorem IdentifierError.isSingleLine_message {cause : IdentifierError}
    (single : ∀ text ∈ cause.quoted, IsSingleLine text) : IsSingleLine cause.message := by
  cases cause with
  | empty => exact isSingleLine_ofList.mpr (by decide)
  | _ text =>
    have told : IsSingleLine text := List.forall_mem_singleton.mp single
    change IsSingleLine (_ ++ _)
    simp only [isSingleLine_append, isSingleLine_toString, told, and_true]
    and_intros <;> exact isSingleLine_ofList.mpr (by decide)

/-- What is said about a refused identifier of one line takes one line. -/
theorem Identifier.isSingleLine_of_refused {text : String} {cause : IdentifierError}
    (single : IsSingleLine text) (refused : Identifier.parse text = .error cause) :
    IsSingleLine cause.message := by
  apply IdentifierError.isSingleLine_message
  unfold Identifier.parse at refused
  split at refused
  · cases refused
    exact List.forall_mem_nil _
  · split at refused
    · cases refused
      exact List.forall_mem_singleton.mpr single
    · next suffix leading =>
      have behind : IsSingleLine (String.ofList suffix) := by
        rw [isSingleLine_ofList]
        intro member
        apply single
        rw [append_of_isPrefixOf? leading]
        exact List.mem_append_right _ member
      split at refused
      · cases refused
        exact List.forall_mem_singleton.mpr single
      · split at refused
        · cases refused
          exact List.forall_mem_singleton.mpr behind
        · unfold Identifier.ofNumber at refused
          split at refused
          · cases refused
          · cases refused
            exact List.forall_mem_singleton.mpr behind

/-! ## Numbers -/

namespace Number

theorem Shortest.feed_not_mem_positional (units : Nat) (power : Int) :
    '\n' ∉ positional units power := by
  have row : '\n' ∉ digits units := not_mem_digits rfl units
  have kept (count : Nat) : '\n' ∉ (digits units).take count :=
    fun member => row (List.mem_of_mem_take member)
  unfold positional
  dsimp only
  split
  · simp [kept]
  · split
    · intro member
      rcases List.mem_append.mp member with front | back
      · exact kept _ (List.mem_of_mem_take front)
      · rcases List.mem_cons.mp back with point | behind
        · cases point
        · exact kept _ (List.mem_of_mem_drop behind)
    · simp [kept]

theorem Binary64.isSingleLine_text (number : Binary64) : IsSingleLine number.text := by
  cases number with
  | undefined => exact isSingleLine_ofList.mpr (by decide)
  | infinite negative => cases negative <;> exact isSingleLine_ofList.mpr (by decide)
  | finite negative mantissa exponent =>
    have magnitude : '\n' ∉ if mantissa = 0 then ['0'] else Shortest.text mantissa exponent := by
      split
      · decide
      · exact Shortest.feed_not_mem_positional _ _
    rw [Binary64.text, isSingleLine_ofList]
    split
    · rw [List.mem_cons, not_or]
      exact ⟨by decide, magnitude⟩
    · exact magnitude

end Number

/-! ## What is said about a violation -/

namespace Rule

/-- What a violation quotes. -/
def Violation.quoted : Violation → List String
  | .badIdentifier cause => [cause.message]
  | .missingSection part => [part]
  | .missingField part field => [part, field]
  | .tooLong field _ => [field]
  | .badCreationDate value cause => [value, cause.message]
  | .unknownUnit unit => [unit]
  | .notANumber field value => [field, value]
  | .outOfRange field _ => [field]
  | .badAcquisitionDate value => [value]
  | .futureAcquisition value => [value]
  | .badPrice value => [value]
  | .exhibitionOrder _ start finish => [start, finish]
  | .notAnImageFile fileName => [fileName]
  | .unknownCondition condition => [condition]
  | _ => []

/-- All that a violation quotes takes one line. -/
def Violation.IsUnbroken (violation : Violation) : Prop :=
  ∀ text ∈ violation.quoted, IsSingleLine text

theorem isSingleLine_allowed {set : Schema.Enumeration}
    (listed : set ∈ Schema.Exhibit.enumerations) : IsSingleLine (allowed set) := by
  have between : IsSingleLine ", " := isSingleLine_ofList.mpr (by decide)
  have values :=
    isSingleLine_intercalate between (Schema.isSingleLine_of_mem_enumerations set listed).2
  simp only [allowed, isSingleLine_append, values, and_true]
  and_intros <;> exact isSingleLine_ofList.mpr (by decide)

theorem Violation.IsUnbroken.isSingleLine_message {violation : Violation}
    (single : violation.IsUnbroken) : IsSingleLine violation.message := by
  have units : IsSingleLine (allowed Schema.Exhibit.unit) :=
    isSingleLine_allowed (by simp [Schema.Exhibit.enumerations])
  have conditions : IsSingleLine (allowed Schema.Exhibit.condition) :=
    isSingleLine_allowed (by simp [Schema.Exhibit.enumerations])
  cases violation with
  | badIdentifier cause => exact List.forall_mem_singleton.mp single
  | missingIdentifier | noMeasurements | noDisplayCase =>
    exact isSingleLine_ofList.mpr (by decide)
  | _ =>
    simp only [IsUnbroken, quoted, List.forall_mem_cons] at single
    change IsSingleLine (_ ++ _)
    simp only [isSingleLine_append, isSingleLine_toString, isSingleLine_number,
      Number.Binary64.isSingleLine_text, single, units, conditions, and_true, true_and]
    and_intros <;> exact isSingleLine_ofList.mpr (by decide)

end Rule

/-! ## What is quoted of a record -/

/-- The date of making takes one line. -/
def BasicInfo.IsUnbroken (basicInfo : BasicInfo) : Prop :=
  ∀ date ∈ basicInfo.dateCreated, IsSingleLine date

/-- The unit and the measurements take one line each. -/
structure Dimensions.IsUnbroken (dimensions : Dimensions) : Prop where
  unit : ∀ name ∈ dimensions.unit, IsSingleLine name
  measurements : ∀ measurement ∈ dimensions.measurements,
    IsSingleLine measurement.1 ∧ ∀ value ∈ measurement.2, IsSingleLine value

/-- The measurements and the state of preservation take one line. -/
structure Technical.IsUnbroken (technical : Technical) : Prop where
  dimensions : ∀ dimensions ∈ technical.dimensions, dimensions.IsUnbroken
  condition : ∀ name ∈ technical.condition, IsSingleLine name

/-- The day and the price take one line each. -/
structure Acquisition.IsUnbroken (acquisition : Acquisition) : Prop where
  date : ∀ date ∈ acquisition.date, IsSingleLine date
  price : ∀ price ∈ acquisition.price, IsSingleLine price

/-- The two days take one line each. -/
structure Exhibition.IsUnbroken (exhibition : Exhibition) : Prop where
  start : ∀ date ∈ exhibition.startDate, IsSingleLine date
  finish : ∀ date ∈ exhibition.endDate, IsSingleLine date

/-- The days and the price in a history take one line each. -/
structure History.IsUnbroken (history : History) : Prop where
  acquisition : ∀ acquisition ∈ history.acquisition, acquisition.IsUnbroken
  exhibitions : ∀ exhibition ∈ history.exhibitions, exhibition.IsUnbroken

/-- The name of the file takes one line. -/
def Image.IsUnbroken (image : Image) : Prop :=
  ∀ fileName ∈ image.fileName, IsSingleLine fileName

/-- All that the rules quote of a record takes one line. -/
structure Exhibit.IsUnbroken (exhibit : Exhibit) : Prop where
  id : ∀ id ∈ exhibit.id, IsSingleLine id
  basicInfo : ∀ basicInfo ∈ exhibit.basicInfo, basicInfo.IsUnbroken
  technical : ∀ technical ∈ exhibit.technical, technical.IsUnbroken
  history : ∀ history ∈ exhibit.history, history.IsUnbroken
  media : ∀ media ∈ exhibit.media, ∀ image ∈ media.images, image.IsUnbroken

namespace Rule

variable {exhibit : Exhibit} {violation : Violation} {value : Option String} {part field : String}

theorem raised_of_orElse {first second : Option Violation}
    (raised : (first <|> second) = some violation) :
    first = some violation ∨ second = some violation := by
  cases first with
  | none => exact .inr raised
  | some other => exact .inl raised

theorem isUnbroken_of_blankField (raised : blankField part field value = some violation)
    (parted : IsSingleLine part) (named : IsSingleLine field) : violation.IsUnbroken := by
  unfold blankField at raised
  split at raised
  · cases raised
    simp [Violation.IsUnbroken, Violation.quoted, parted, named]
  · cases raised

theorem isUnbroken_of_emptyField (raised : emptyField part field value = some violation)
    (parted : IsSingleLine part) (named : IsSingleLine field) : violation.IsUnbroken := by
  unfold emptyField at raised
  split at raised
  · cases raised
    simp [Violation.IsUnbroken, Violation.quoted, parted, named]
  · cases raised

theorem isUnbroken_of_overlong (raised : overlong field value = some violation)
    (named : IsSingleLine field) : violation.IsUnbroken := by
  unfold overlong at raised
  split at raised
  · split at raised
    · cases raised
      exact List.forall_mem_singleton.mpr named
    · cases raised
  · cases raised

theorem isUnbroken_of_missingSection (parted : IsSingleLine part) :
    (Violation.missingSection part).IsUnbroken :=
  List.forall_mem_singleton.mpr parted

/-! ## Groups -/

theorem isUnbroken_of_identifierViolation (unbroken : exhibit.IsUnbroken)
    (raised : identifierViolation exhibit = some violation) : violation.IsUnbroken := by
  unfold identifierViolation at raised
  split at raised
  · cases raised
    exact List.forall_mem_nil _
  · next id written =>
    split at raised
    · cases raised
      exact List.forall_mem_nil _
    · split at raised
      · cases raised
      · next refused =>
        cases raised
        exact List.forall_mem_singleton.mpr
          (Identifier.isSingleLine_of_refused (unbroken.id id written) refused)

theorem isUnbroken_of_creationDateViolation {now : Calendar.Moment}
    (single : ∀ date ∈ value, IsSingleLine date)
    (raised : creationDateViolation now value = some violation) : violation.IsUnbroken := by
  unfold creationDateViolation at raised
  split at raised
  · cases raised
  · next written =>
    split at raised
    · cases raised
    · split at raised
      · cases raised
      · next refused =>
        have told := single written rfl
        cases raised
        have cause := HistoricalDate.isSingleLine_of_refused told refused
        simp [Violation.IsUnbroken, Violation.quoted, told, cause]

theorem isUnbroken_of_basicInfoViolation {now : Calendar.Moment} (unbroken : exhibit.IsUnbroken)
    (raised : basicInfoViolation now exhibit = some violation) : violation.IsUnbroken := by
  have parted : IsSingleLine "BasicInfo" := isSingleLine_ofList.mpr (by decide)
  have title : IsSingleLine "Title" := isSingleLine_ofList.mpr (by decide)
  have category : IsSingleLine "Category" := isSingleLine_ofList.mpr (by decide)
  unfold basicInfoViolation at raised
  split at raised
  · cases raised
    exact isUnbroken_of_missingSection parted
  · next basicInfo viewed =>
    rcases raised_of_orElse raised with untitled | raised
    · exact isUnbroken_of_blankField untitled parted title
    rcases raised_of_orElse raised with long | raised
    · exact isUnbroken_of_overlong long title
    rcases raised_of_orElse raised with uncategorised | undated
    · exact isUnbroken_of_blankField uncategorised parted category
    · exact isUnbroken_of_creationDateViolation (unbroken.basicInfo basicInfo viewed) undated

theorem isUnbroken_of_measurementViolation {measured : String} (named : IsSingleLine field)
    (single : IsSingleLine measured)
    (raised : measurementViolation field measured = some violation) : violation.IsUnbroken := by
  unfold measurementViolation at raised
  split at raised
  · cases raised
    simp [Violation.IsUnbroken, Violation.quoted, named, single]
  · split at raised
    · cases raised
    · cases raised
      exact List.forall_mem_singleton.mpr named

theorem isUnbroken_of_measuredViolation {dimensions : Dimensions} (unbroken : dimensions.IsUnbroken)
    (raised : measuredViolation dimensions = some violation) : violation.IsUnbroken := by
  rcases raised_of_orElse raised with unitless | raised
  · exact isUnbroken_of_emptyField unitless (isSingleLine_ofList.mpr (by decide))
      (isSingleLine_ofList.mpr (by decide))
  rcases raised_of_orElse raised with foreign | raised
  · unfold unitViolation at foreign
    split at foreign
    · next name written =>
      split at foreign
      · cases foreign
      · cases foreign
        exact List.forall_mem_singleton.mpr (unbroken.unit name written)
    · cases foreign
  rcases raised_of_orElse raised with misfit | raised
  · obtain ⟨measurement, member, found⟩ := List.exists_of_findSome?_eq_some misfit
    obtain ⟨measured, written, found⟩ := Option.bind_eq_some_iff.mp found
    obtain ⟨named, single⟩ := unbroken.measurements measurement member
    exact isUnbroken_of_measurementViolation named (single measured written) found
  · split at raised
    · cases raised
      exact List.forall_mem_nil _
    · cases raised

theorem isUnbroken_of_dimensionsViolation (unbroken : exhibit.IsUnbroken)
    (raised : dimensionsViolation exhibit = some violation) : violation.IsUnbroken := by
  obtain ⟨dimensions, viewed, raised⟩ := Option.bind_eq_some_iff.mp raised
  obtain ⟨technical, present, measured⟩ := Option.bind_eq_some_iff.mp viewed
  exact isUnbroken_of_measuredViolation
    ((unbroken.technical technical present).dimensions dimensions measured) raised

theorem isUnbroken_of_locationViolation (raised : locationViolation exhibit = some violation) :
    violation.IsUnbroken := by
  have parted : IsSingleLine "Location" := isSingleLine_ofList.mpr (by decide)
  unfold locationViolation at raised
  split at raised
  · cases raised
    exact isUnbroken_of_missingSection parted
  · rcases raised_of_orElse raised with unmarked | raised
    · exact isUnbroken_of_emptyField unmarked parted (isSingleLine_ofList.mpr (by decide))
    rcases raised_of_orElse raised with unhoused | raised
    · exact isUnbroken_of_blankField unhoused parted (isSingleLine_ofList.mpr (by decide))
    rcases raised_of_orElse raised with roomless | hidden
    · exact isUnbroken_of_blankField roomless parted (isSingleLine_ofList.mpr (by decide))
    · unfold displayViolation at hidden
      split at hidden
      · cases hidden
        exact List.forall_mem_nil _
      · cases hidden

theorem isUnbroken_of_acquisitionViolation {now : Calendar.Moment} {acquisition : Acquisition}
    (unbroken : acquisition.IsUnbroken)
    (raised : acquisitionViolation now acquisition = some violation) : violation.IsUnbroken := by
  rcases raised_of_orElse raised with misdated | overpriced
  · obtain ⟨date, written, raised⟩ := Option.bind_eq_some_iff.mp misdated
    have told := unbroken.date date written
    unfold acquisitionDateViolation at raised
    split at raised
    · cases raised
      exact List.forall_mem_singleton.mpr told
    · split at raised
      · cases raised
        exact List.forall_mem_singleton.mpr told
      · cases raised
  · obtain ⟨price, written, raised⟩ := Option.bind_eq_some_iff.mp overpriced
    unfold priceViolation at raised
    split at raised
    · cases raised
    · cases raised
      exact List.forall_mem_singleton.mpr (unbroken.price price written)

theorem isUnbroken_of_exhibitionViolation {number : Nat} {exhibition : Exhibition}
    (unbroken : exhibition.IsUnbroken)
    (raised : exhibitionViolation number exhibition = some violation) : violation.IsUnbroken := by
  unfold exhibitionViolation at raised
  split at raised
  · next start finish starts ends =>
    split at raised
    · split at raised
      · cases raised
      · cases raised
        simp [Violation.IsUnbroken, Violation.quoted, unbroken.start start starts,
          unbroken.finish finish ends]
    · cases raised
  · cases raised

theorem isUnbroken_of_exhibitionsViolation {number : Nat} {exhibitions : List Exhibition}
    (unbroken : ∀ exhibition ∈ exhibitions, exhibition.IsUnbroken)
    (raised : exhibitionsViolation number exhibitions = some violation) :
    violation.IsUnbroken := by
  induction exhibitions generalizing number with
  | nil => cases raised
  | cons exhibition rest inductionHypothesis =>
    rw [List.forall_mem_cons] at unbroken
    rcases raised_of_orElse raised with here | later
    · exact isUnbroken_of_exhibitionViolation unbroken.1 here
    · exact inductionHypothesis unbroken.2 later

theorem isUnbroken_of_historyViolation {now : Calendar.Moment} (unbroken : exhibit.IsUnbroken)
    (raised : historyViolation now exhibit = some violation) : violation.IsUnbroken := by
  obtain ⟨history, present, raised⟩ := Option.bind_eq_some_iff.mp raised
  have inside := unbroken.history history present
  rcases raised_of_orElse raised with acquired | shown
  · obtain ⟨acquisition, viewed, raised⟩ := Option.bind_eq_some_iff.mp acquired
    exact isUnbroken_of_acquisitionViolation (inside.acquisition acquisition viewed) raised
  · exact isUnbroken_of_exhibitionsViolation inside.exhibitions shown

theorem isUnbroken_of_imageViolation {image : Image} (unbroken : image.IsUnbroken)
    (raised : imageViolation image = some violation) : violation.IsUnbroken := by
  have named : IsSingleLine "FileName" := isSingleLine_ofList.mpr (by decide)
  rcases raised_of_orElse raised with nameless | raised
  · exact isUnbroken_of_blankField nameless (isSingleLine_ofList.mpr (by decide)) named
  rcases raised_of_orElse raised with ending | long
  · unfold endingViolation at ending
    split at ending
    · next name written =>
      split at ending
      · cases ending
      · cases ending
        exact List.forall_mem_singleton.mpr (unbroken name written)
    · cases ending
  · exact isUnbroken_of_overlong long named

theorem isUnbroken_of_mediaViolation (unbroken : exhibit.IsUnbroken)
    (raised : mediaViolation exhibit = some violation) : violation.IsUnbroken := by
  obtain ⟨media, present, raised⟩ := Option.bind_eq_some_iff.mp raised
  rcases raised_of_orElse raised with several | flawed
  · unfold primaryViolation at several
    dsimp only at several
    split at several
    · cases several
      exact List.forall_mem_nil _
    · cases several
  · obtain ⟨image, member, found⟩ := List.exists_of_findSome?_eq_some flawed
    exact isUnbroken_of_imageViolation (unbroken.media media present image member) found

theorem isUnbroken_of_conditionViolation (unbroken : exhibit.IsUnbroken)
    (raised : conditionViolation exhibit = some violation) : violation.IsUnbroken := by
  have parted : IsSingleLine "Technical" := isSingleLine_ofList.mpr (by decide)
  unfold conditionViolation at raised
  split at raised
  · cases raised
    exact isUnbroken_of_missingSection parted
  · next technical present =>
    rcases raised_of_orElse raised with absent | unknown
    · exact isUnbroken_of_blankField absent parted (isSingleLine_ofList.mpr (by decide))
    · unfold conditionNameViolation at unknown
      split at unknown
      · next name written =>
        split at unknown
        · cases unknown
        · cases unknown
          exact List.forall_mem_singleton.mpr
            ((unbroken.technical technical present).condition name written)
      · cases unknown

/-- All that a violation quotes of a record takes one line if it does in the record. -/
theorem isUnbroken_of_violation? {now : Calendar.Moment} {group : RuleGroup}
    (unbroken : exhibit.IsUnbroken) (raised : group.violation? now exhibit = some violation) :
    violation.IsUnbroken := by
  cases group with
  | identifier => exact isUnbroken_of_identifierViolation unbroken raised
  | basicInfo => exact isUnbroken_of_basicInfoViolation unbroken raised
  | dimensions => exact isUnbroken_of_dimensionsViolation unbroken raised
  | location => exact isUnbroken_of_locationViolation raised
  | history => exact isUnbroken_of_historyViolation unbroken raised
  | media => exact isUnbroken_of_mediaViolation unbroken raised
  | condition => exact isUnbroken_of_conditionViolation unbroken raised

end Rule

/-! ## Conforming records -/

namespace Schema

open Markup

/-- An element conforms to its declaration, and what may be said about it and what is inside takes
one line. -/
structure Suits (declaration : Declaration) (element : Element) : Prop where
  conforms : Conforms declaration element
  unbroken : element.Everywhere Element.IsUnbroken

namespace Suits

variable {name typeName key value : String} {occurrence : Occurrence}
  {attributes : List AttributeDeclaration} {children : List Declaration}
  {declaration : Declaration} {element child : Element}

/-- The first child of a declared name suits the declaration. -/
theorem ofChild (suits : Suits (.complex name occurrence typeName attributes children) element)
    (declared : declaration ∈ children) (found : element.child? declaration.name = some child) :
    Suits declaration child where
  conforms := suits.conforms.child_conforms declared found
  unbroken := (Element.everywhere_iff.mp suits.unbroken).2 child (List.mem_of_find?_eq_some found)

/-- Every child of a declared name suits the declaration. -/
theorem ofChildNamed (suits : Suits (.complex name occurrence typeName attributes children) element)
    (declared : declaration ∈ children)
    (found : child ∈ element.childrenNamed declaration.name) : Suits declaration child where
  conforms := by
    obtain ⟨member, named⟩ := List.mem_filter.mp found
    exact (conforms_complex_iff.mp suits.conforms).2.2.2.2 child member declaration declared
      (beq_iff_eq.mp named).symm
  unbroken := (Element.everywhere_iff.mp suits.unbroken).2 child (List.mem_of_mem_filter found)

theorem isSingleLine_attribute (suits : Suits declaration element)
    (quoted : key ∈ quotedAttributes) : ∀ value ∈ element.attribute? key, IsSingleLine value := by
  intro value found
  obtain ⟨written, first, rfl⟩ := Option.map_eq_some_iff.mp found
  have named : written.1 = key := by simpa using List.find?_some first
  exact (Element.everywhere_iff.mp suits.unbroken).1.values written
    (List.mem_of_find?_eq_some first) (named ▸ quoted)

theorem isSingleLine_childText
    (suits : Suits (.complex name occurrence typeName attributes children) element)
    {childOccurrence : Occurrence} {type : ValueType}
    (declared : .simple key childOccurrence type ∈ children) (quoted : key ∈ quotedElements) :
    ∀ text ∈ element.childText? key, IsSingleLine text := by
  intro text found
  obtain ⟨child, first, rfl⟩ := Option.map_eq_some_iff.mp found
  have inside := suits.ofChild declared first
  have named : child.name = key := by simpa using List.find?_some first
  exact (Element.everywhere_iff.mp inside.unbroken).1.text
    (conforms_simple_iff.mp inside.conforms).2.1 (named ▸ quoted)

/-! ### Parts of a record -/

theorem isUnbroken_basicInfo (suits : Suits Exhibit.basicInfo element) :
    (BasicInfo.ofElement element).IsUnbroken :=
  suits.isSingleLine_childText (show Declaration.free "DateCreated" .optional ∈ _ by simp)
    (by simp [quotedElements])

theorem isUnbroken_dimensions (suits : Suits Exhibit.dimensions element) :
    (Dimensions.ofElement element).IsUnbroken where
  unit := suits.isSingleLine_attribute (by simp [quotedAttributes])
  measurements := by
    intro measurement member
    have declared : ∃ field, measurement = (field, element.childText? field) ∧
        field ∈ quotedElements ∧ IsSingleLine field ∧
        Declaration.simple field .optional .double ∈
          [Declaration.simple "Height" .optional .double, .simple "Width" .optional .double,
            .simple "Depth" .optional .double, .simple "Diameter" .optional .double] := by
      simp only [Dimensions.measurements, Dimensions.ofElement, List.mem_cons, List.not_mem_nil,
        or_false] at member
      rcases member with rfl | rfl | rfl | rfl <;>
        exact ⟨_, rfl, by simp [quotedElements], isSingleLine_ofList.mpr (by decide), by simp⟩
    obtain ⟨field, rfl, quoted, named, listed⟩ := declared
    exact ⟨named, suits.isSingleLine_childText listed quoted⟩

theorem isUnbroken_technical (suits : Suits Exhibit.technical element) :
    (Technical.ofElement element).IsUnbroken where
  dimensions := by
    intro dimensions viewed
    obtain ⟨part, found, rfl⟩ := Option.map_eq_some_iff.mp viewed
    exact isUnbroken_dimensions (suits.ofChild (show Exhibit.dimensions ∈ _ by simp) found)
  condition := suits.isSingleLine_childText
    (show Declaration.simple "Condition" .once (.enumeration Exhibit.condition) ∈ _ by simp)
    (by simp [quotedElements])

theorem isUnbroken_acquisition (suits : Suits Exhibit.acquisition element) :
    (Acquisition.ofElement element).IsUnbroken where
  date := suits.isSingleLine_childText (show Declaration.simple "Date" .once .date ∈ _ by simp)
    (by simp [quotedElements])
  price := suits.isSingleLine_childText
    (show Declaration.simple "Price" .optional .decimal ∈ _ by simp) (by simp [quotedElements])

theorem isUnbroken_exhibition (suits : Suits Exhibit.exhibition element) :
    (Exhibition.ofElement element).IsUnbroken where
  start := suits.isSingleLine_childText
    (show Declaration.simple "StartDate" .once .date ∈ _ by simp) (by simp [quotedElements])
  finish := suits.isSingleLine_childText
    (show Declaration.simple "EndDate" .once .date ∈ _ by simp) (by simp [quotedElements])

theorem isUnbroken_history (suits : Suits Exhibit.history element) :
    (History.ofElement element).IsUnbroken where
  acquisition := by
    intro acquisition viewed
    obtain ⟨part, found, rfl⟩ := Option.map_eq_some_iff.mp viewed
    exact isUnbroken_acquisition (suits.ofChild (show Exhibit.acquisition ∈ _ by simp) found)
  exhibitions := by
    intro exhibition member
    simp only [History.ofElement] at member
    split at member
    · next part found =>
      obtain ⟨child, inside, rfl⟩ := List.mem_map.mp member
      have suitsPart := suits.ofChild (show Exhibit.exhibitions ∈ _ by simp) found
      exact isUnbroken_exhibition
        (suitsPart.ofChildNamed (show Exhibit.exhibition ∈ _ by simp) inside)
    · cases member

theorem isUnbroken_image (suits : Suits Exhibit.image element) :
    (Image.ofElement element).IsUnbroken :=
  suits.isSingleLine_childText (show Declaration.free "FileName" .once ∈ _ by simp)
    (by simp [quotedElements])

/-- All that the rules quote of a record takes one line if what may be quoted of its document
does. -/
theorem isUnbroken_record (suits : Suits Exhibit.record element) :
    (MuseumRecord.Exhibit.ofElement element).IsUnbroken where
  id := suits.isSingleLine_attribute (by simp [quotedAttributes])
  basicInfo := by
    intro basicInfo viewed
    obtain ⟨part, found, rfl⟩ := Option.map_eq_some_iff.mp viewed
    exact isUnbroken_basicInfo (suits.ofChild (show Exhibit.basicInfo ∈ _ by simp) found)
  technical := by
    intro technical viewed
    obtain ⟨part, found, rfl⟩ := Option.map_eq_some_iff.mp viewed
    exact isUnbroken_technical (suits.ofChild (show Exhibit.technical ∈ _ by simp) found)
  history := by
    intro history viewed
    obtain ⟨part, found, rfl⟩ := Option.map_eq_some_iff.mp viewed
    exact isUnbroken_history (suits.ofChild (show Exhibit.history ∈ _ by simp) found)
  media := by
    intro media viewed image member
    obtain ⟨part, found, rfl⟩ := Option.map_eq_some_iff.mp viewed
    obtain ⟨child, inside, rfl⟩ := List.mem_map.mp member
    have suitsPart := suits.ofChild (show Exhibit.media ∈ _ by simp) found
    exact isUnbroken_image (suitsPart.ofChildNamed (show Exhibit.image ∈ _ by simp) inside)

end Suits
end Schema
end MuseumRecord
