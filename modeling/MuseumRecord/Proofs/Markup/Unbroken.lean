import MuseumRecord.Markup.Message
import MuseumRecord.Proofs.Markup.AttributeNames
import MuseumRecord.Proofs.Text.Lines

/-!
# Names on one line

A line feed ends a name, so the names of elements and of attributes take one line.  What is said
about a text that is no document takes one line too, unless it quotes the name in an end tag or an
unknown reference, which may be written over several lines.
-/

namespace MuseumRecord
namespace Markup

open Text

/-! ## Names -/

theorem feed_not_mem_localName {name : List Char} (unbroken : '\n' ∉ name) :
    '\n' ∉ (QualifiedName.split name).localName := by
  intro member
  apply unbroken
  rw [← QualifiedName.text_split name, QualifiedName.text]
  split
  · exact member
  · exact List.mem_append_right _ (List.mem_cons_of_mem _ member)

theorem feed_not_mem_nameOf (body : List Char) : '\n' ∉ StartTag.nameOf body := by
  intro member
  cases List.mem_takeWhile_imp member

/-! ## Attributes of a tag -/

/-- What is said about a fault takes one line, if the quote that is not closed is no line feed. -/
theorem AttributeFault.isSingleLine_message {fault : AttributeFault}
    (quoted : ∀ place quote, fault = .unclosedQuote place quote → quote ≠ '\n') :
    IsSingleLine fault.message := by
  cases fault with
  | unclosedQuote place quote =>
    have mark : IsSingleLine (toString quote) :=
      isSingleLine_singleton.mpr (quoted place quote rfl)
    change IsSingleLine (_ ++ _)
    simp only [isSingleLine_append, isSingleLine_toString, isSingleLine_number, mark, and_true]
    and_intros <;> exact isSingleLine_ofList.mpr (by decide)
  | _ =>
    change IsSingleLine (_ ++ _)
    simp only [isSingleLine_append, isSingleLine_toString, isSingleLine_number, and_true]
    and_intros <;> exact isSingleLine_ofList.mpr (by decide)

namespace ScannedAttribute

/-- The key takes one line, and so does what is said about a fault. -/
def IsUnbroken : ScannedAttribute → Prop
  | .whole _ key _ => '\n' ∉ key
  | .valueless _ _ fault => IsSingleLine fault.message
  | .keyless fault => IsSingleLine fault.message

theorem feed_not_mem_keyOf {first : Char} (solid : first ≠ '\n') (rest : List Char) :
    '\n' ∉ keyOf first rest := by
  intro member
  rcases List.mem_cons.mp member with rfl | behind
  · exact solid rfl
  · cases List.mem_takeWhile_imp behind

theorem isUnbroken_scanValue {key : List Char} (unbroken : '\n' ∉ key) (place offset : Nat)
    (text : List Char) : (scanValue place key offset text).1.IsUnbroken := by
  unfold scanValue
  dsimp only
  split
  · exact AttributeFault.isSingleLine_message (by simp)
  · next quote rest _ =>
    split
    · next opens =>
      split
      · refine AttributeFault.isSingleLine_message fun _ _ same => ?_
        cases same
        rcases opens with rfl | rfl <;> decide
      · exact unbroken
    · exact AttributeFault.isSingleLine_message (by simp)

theorem isUnbroken_scanOne {first : Char} (solid : first ≠ '\n') (offset : Nat)
    (rest : List Char) : (scanOne offset first rest).1.IsUnbroken := by
  unfold scanOne
  dsimp only
  split
  · exact isUnbroken_scanValue (feed_not_mem_keyOf solid rest) _ _ _
  · exact AttributeFault.isSingleLine_message (by simp)

theorem isUnbroken_of_mem_scan {fuel offset : Nat} {text : List Char} :
    ∀ scanned ∈ scan fuel offset text, scanned.IsUnbroken := by
  induction fuel generalizing offset text with
  | zero => exact List.forall_mem_nil _
  | succ fuel inductionHypothesis =>
    unfold scan
    dsimp only
    split
    · exact List.forall_mem_nil _
    · next first rest behind =>
      have solid : first ≠ '\n' := by
        rintro rfl
        cases not_accepts_of_drop_takeWhile behind
      have one := isUnbroken_scanOne solid (offset + byteSize (text.takeWhile isTagSpace)) rest
      split
      · next place key value finish after scanned =>
        rw [scanned] at one
        exact List.forall_mem_cons.mpr ⟨one, inductionHypothesis⟩
      · next faulty _ _ _ scanned =>
        rw [scanned] at one
        exact List.forall_mem_singleton.mpr one

theorem isUnbroken_of_mem_rejectRepeats {row : List ScannedAttribute}
    (unbroken : ∀ scanned ∈ row, scanned.IsUnbroken) (seen : List (List Char × Nat)) :
    ∀ scanned ∈ rejectRepeats seen row, scanned.IsUnbroken := by
  induction row generalizing seen with
  | nil => exact List.forall_mem_nil _
  | cons scanned row inductionHypothesis =>
    rw [List.forall_mem_cons] at unbroken
    have repeated (place earlier : Nat) (key : List Char) :
        ∀ scanned ∈ [valueless place key (.repeatedKey place earlier)], scanned.IsUnbroken :=
      List.forall_mem_singleton.mpr (AttributeFault.isSingleLine_message (by simp))
    cases scanned with
    | whole place key value =>
      rw [rejectRepeats]
      split
      · exact repeated _ _ _
      · exact List.forall_mem_cons.mpr ⟨unbroken.1, inductionHypothesis unbroken.2 _⟩
    | valueless place key fault =>
      rw [rejectRepeats]
      split
      · exact repeated _ _ _
      · exact List.forall_mem_singleton.mpr unbroken.1
    | keyless fault => exact List.forall_mem_singleton.mpr unbroken.1

end ScannedAttribute

/-! ## Tags -/

namespace StartTag

/-- The names of a tag take one line, and so does what is said about a fault of its attributes. -/
structure IsUnbroken (tag : StartTag) : Prop where
  name : '\n' ∉ tag.localName
  attributes : ∀ written ∈ tag.attributes, '\n' ∉ written.localName
  fault : ∀ fault, tag.fault = some fault → IsSingleLine fault.message

theorem feed_not_mem_of_resolveAttributes {scope : Scope} {row : List ScannedAttribute}
    (unbroken : ∀ scanned ∈ row, scanned.IsUnbroken) :
    ∀ written ∈ resolveAttributes scope row, '\n' ∉ written.localName := by
  induction row with
  | nil => exact List.forall_mem_nil _
  | cons scanned row inductionHypothesis =>
    rw [List.forall_mem_cons] at unbroken
    cases scanned with
    | whole place key value =>
      exact List.forall_mem_cons.mpr
        ⟨feed_not_mem_localName unbroken.1, inductionHypothesis unbroken.2⟩
    | valueless place key fault => exact List.forall_mem_nil _
    | keyless fault => exact List.forall_mem_nil _

theorem isSingleLine_of_faultOf {row : List ScannedAttribute} {fault : AttributeFault}
    (unbroken : ∀ scanned ∈ row, scanned.IsUnbroken) (found : faultOf row = some fault) :
    IsSingleLine fault.message := by
  induction row with
  | nil => cases found
  | cons scanned row inductionHypothesis =>
    rw [List.forall_mem_cons] at unbroken
    cases scanned with
    | whole place key value => exact inductionHypothesis unbroken.2 found
    | valueless place key other =>
      cases found
      exact unbroken.1
    | keyless other =>
      cases found
      exact unbroken.1

theorem isUnbroken_of_read {outer : Scope} {body : List Char} {frame : Frame} {tag : StartTag}
    (read : StartTag.read outer body = .ok (frame, tag)) :
    '\n' ∉ frame.name ∧ tag.IsUnbroken := by
  simp only [StartTag.read] at read
  split at read
  · cases read
  · next scope declared =>
    cases read
    have row : ∀ scanned ∈ ScannedAttribute.rejectRepeats []
        (ScannedAttribute.scanTag (byteSize (nameOf body)) (body.drop (nameOf body).length)),
        scanned.IsUnbroken :=
      ScannedAttribute.isUnbroken_of_mem_rejectRepeats ScannedAttribute.isUnbroken_of_mem_scan []
    refine ⟨feed_not_mem_nameOf body, feed_not_mem_localName (feed_not_mem_nameOf body),
      feed_not_mem_of_resolveAttributes row, fun fault found => isSingleLine_of_faultOf row found⟩

end StartTag

/-! ## What is said about faults of the markup -/

/-- A text in quotes is visible ASCII. -/
theorem isSingleLine_quotedBytes (text : List Char) : IsSingleLine (quotedBytes text) := by
  have shown : ∀ byte : Fin 256, '\n' ∉ (
      if byte.val = 34 then ['\\', '"']
      else if 32 ≤ byte.val ∧ byte.val ≤ 126 then [Char.ofNat byte.val]
      else '0' :: 'x' :: hexDigits byte.val) := by
    decide +kernel
  rw [quotedBytes, isSingleLine_ofList]
  simp only [List.mem_cons, List.mem_append, List.mem_flatMap, not_or, not_exists, not_and]
  refine ⟨by decide, fun byte _ => ?_, by decide, List.not_mem_nil⟩
  exact shown ⟨byte.toNat, byte.toNat_lt⟩

/-- The names in end tags that are quoted when the markup is at fault. -/
def MarkupFault.quoted : MarkupFault → List String
  | .mismatchedEnd _ found => [String.ofList found]
  | .unmatchedEnd found => [String.ofList found]
  | _ => []

/-- What is said takes one line unless a quoted name takes several. -/
def MarkupFault.BreaksOnlyQuoting (fault : MarkupFault) : Prop :=
  (∀ name ∈ fault.quoted, IsSingleLine name) → IsSingleLine fault.message

theorem MarkupFault.breaksOnlyQuoting {fault : MarkupFault}
    (named : ∀ expected found, fault = .mismatchedEnd expected found → '\n' ∉ expected) :
    fault.BreaksOnlyQuoting := by
  intro single
  cases fault with
  | mismatchedEnd expected found =>
    have whole := isSingleLine_ofList.mpr (named expected found rfl)
    have other : IsSingleLine (String.ofList found) := List.forall_mem_singleton.mp single
    change IsSingleLine (_ ++ _)
    simp only [isSingleLine_append, isSingleLine_toString, whole, other, and_true]
    and_intros <;> exact isSingleLine_ofList.mpr (by decide)
  | unmatchedEnd found =>
    have other : IsSingleLine (String.ofList found) := List.forall_mem_singleton.mp single
    change IsSingleLine (_ ++ _)
    simp only [isSingleLine_append, isSingleLine_toString, other, and_true]
    and_intros <;> exact isSingleLine_ofList.mpr (by decide)
  | reservedBinding fault =>
    change IsSingleLine (_ ++ _)
    simp only [isSingleLine_append, isSingleLine_toString, isSingleLine_quotedBytes, and_true]
    and_intros <;> exact isSingleLine_ofList.mpr (by decide)
  | unclosedInstruction =>
    refine isSingleLine_append.mpr ?_
    and_intros <;> exact isSingleLine_ofList.mpr (by decide)
  | _ => exact isSingleLine_ofList.mpr (by decide)

/-! ## The events of a text -/

theorem Construct.ne_mismatchedEnd_of_readDeclaration {text expected found : List Char} :
    readDeclaration text ≠ .error (.mismatchedEnd expected found) := by
  intro failed
  unfold readDeclaration at failed
  split at failed
  · split at failed <;> cases failed
  · split at failed <;> cases failed
  · split at failed
    · split at failed
      · split at failed
        · split at failed <;> cases failed
        · cases failed
      · cases failed
    · cases failed
  · cases failed

/-- A construct is read without regard to the open elements. -/
theorem Construct.ne_mismatchedEnd_of_read {text expected found : List Char} :
    Construct.read text ≠ .error (.mismatchedEnd expected found) := by
  intro failed
  unfold Construct.read at failed
  split at failed
  · exact ne_mismatchedEnd_of_readDeclaration failed
  · unfold readInstruction at failed
    split at failed
    · cases failed
    · split at failed <;> cases failed
  · split at failed <;> cases failed
  · split at failed <;> cases failed

namespace Event

variable {frames inner : List Frame} {first : Char} {rest after : List Char} {event : Event}

/-- The names of the open elements take one line. -/
theorem feed_not_mem_of_next (named : ∀ frame ∈ frames, '\n' ∉ frame.name)
    (found : next frames first rest = .ok (event, inner, after)) :
    ∀ frame ∈ inner, '\n' ∉ frame.name := by
  rcases next_cases found with ⟨body, frame, tag, read, ⟨_, rfl⟩ | ⟨_, rfl⟩⟩ | ⟨_, suffix⟩
  · exact named
  · exact List.forall_mem_cons.mpr ⟨(StartTag.isUnbroken_of_read read).1, named⟩
  · exact fun frame member => named frame (suffix.subset member)

theorem breaksOnlyQuoting_of_next (named : ∀ frame ∈ frames, '\n' ∉ frame.name)
    {fault : MarkupFault} (failed : next frames first rest = .error fault) :
    fault.BreaksOnlyQuoting := by
  apply MarkupFault.breaksOnlyQuoting
  rintro expected found rfl
  unfold next at failed
  split at failed
  · split at failed
    · next unread =>
      cases failed
      exact absurd unread Construct.ne_mismatchedEnd_of_read
    · split at failed
      · next unresolved =>
        cases failed
        unfold ofConstruct at unresolved
        split at unresolved
        · split at unresolved
          · split at unresolved <;> cases unresolved
          · split at unresolved <;> cases unresolved
        · split at unresolved
          · cases unresolved
          · next frame outer =>
            split at unresolved
            · cases unresolved
            · cases unresolved
              exact named frame List.mem_cons_self
        · cases unresolved
        · cases unresolved
      · cases failed
  · cases failed

end Event

/-- The markup of a text is at fault without a break, unless a name in an end tag has one. -/
theorem Transcript.breaksOnlyQuoting_of_read {offset place : Nat} {frames : List Frame}
    {text : List Char} (named : ∀ frame ∈ frames, '\n' ∉ frame.name) {fault : MarkupFault}
    (failed : (Transcript.read offset frames text).failure = some (place, fault)) :
    fault.BreaksOnlyQuoting := by
  fun_induction Transcript.read offset frames text with
  | case1 => cases failed
  | case2 offset frames first rest other found =>
    cases failed
    exact Event.breaksOnlyQuoting_of_next named found
  | case3 offset frames first rest event inner after found remaining inductionHypothesis =>
    exact inductionHypothesis (Event.feed_not_mem_of_next named found) failed

theorem Transcript.breaksOnlyQuoting_of_ofText {text : List Char} {place : Nat}
    {fault : MarkupFault} (failed : (Transcript.ofText text).failure = some (place, fault)) :
    fault.BreaksOnlyQuoting := by
  unfold Transcript.ofText at failed
  split at failed <;> exact breaksOnlyQuoting_of_read (List.forall_mem_nil _) failed

theorem Transcript.isUnbroken_of_mem_row {text : List Char} {event : Event}
    (member : event ∈ (Transcript.ofText text).row) {tag : StartTag}
    (isTag : event.tag? = some tag) : tag.IsUnbroken := by
  obtain ⟨scope, body, frame, read⟩ := exists_read_of_mem_row member isTag
  exact (StartTag.isUnbroken_of_read read).2

/-! ## What is said about faults of a document -/

theorem CharacterFault.isSingleLine_message (fault : CharacterFault) :
    IsSingleLine fault.message := by
  cases fault with
  | noCharacter code =>
    change IsSingleLine (_ ++ _)
    simp only [isSingleLine_append, isSingleLine_toString, isSingleLine_number, and_true]
    and_intros <;> exact isSingleLine_ofList.mpr (by decide)
  | _ => exact isSingleLine_ofList.mpr (by decide)

/-- The names of unknown references that are quoted. -/
def ReferenceFault.quoted : ReferenceFault → List String
  | .unknownName _ _ name => [name]
  | _ => []

theorem ReferenceFault.isSingleLine_message {fault : ReferenceFault}
    (single : ∀ name ∈ fault.quoted, IsSingleLine name) : IsSingleLine fault.message := by
  cases fault with
  | unknownName start finish name =>
    have quoted : IsSingleLine name := List.forall_mem_singleton.mp single
    change IsSingleLine (_ ++ _)
    simp only [isSingleLine_append, isSingleLine_toString, isSingleLine_number, quoted, and_true]
    and_intros <;> exact isSingleLine_ofList.mpr (by decide)
  | unterminated start finish =>
    change IsSingleLine (_ ++ _)
    simp only [isSingleLine_append, isSingleLine_toString, isSingleLine_number, and_true]
    and_intros <;> exact isSingleLine_ofList.mpr (by decide)
  | badNumber fault =>
    change IsSingleLine (_ ++ _)
    simp only [isSingleLine_append, isSingleLine_toString, fault.isSingleLine_message, and_true]
    exact isSingleLine_ofList.mpr (by decide)

/-- What is quoted of a value that cannot be read. -/
def ValueFault.quoted : ValueFault → List String
  | .badAttribute _ => []
  | .badReference fault => fault.quoted

/-- What is said takes one line unless a quoted name takes several. -/
def ValueFault.BreaksOnlyQuoting (fault : ValueFault) : Prop :=
  (∀ name ∈ fault.quoted, IsSingleLine name) → IsSingleLine fault.message

theorem ValueFault.breaksOnlyQuoting_badReference (fault : ReferenceFault) :
    (ValueFault.badReference fault).BreaksOnlyQuoting :=
  fun single => ReferenceFault.isSingleLine_message single

namespace ParseError

/-- What is quoted of a text that is no document and may take several lines: the name in an end tag
that is out of place, or in a reference that is unknown. -/
def quoted : ParseError → List String
  | .malformed _ fault => fault.quoted
  | .badValue _ fault => fault.quoted
  | _ => []

/-- Nothing but what is quoted takes several lines. -/
def IsUnbroken : ParseError → Prop
  | .malformed _ fault => fault.BreaksOnlyQuoting
  | .badValue _ fault => fault.BreaksOnlyQuoting
  | .secondRoot name => IsSingleLine name
  | .unclosed name => IsSingleLine name
  | _ => True

theorem IsUnbroken.isSingleLine_message {fault : ParseError} (unbroken : fault.IsUnbroken)
    (single : ∀ name ∈ fault.quoted, IsSingleLine name) : IsSingleLine fault.message := by
  cases fault with
  | malformed place fault =>
    have told : IsSingleLine fault.message := unbroken single
    change IsSingleLine (_ ++ _)
    simp only [isSingleLine_append, isSingleLine_toString, isSingleLine_number, told, and_true]
    and_intros <;> exact isSingleLine_ofList.mpr (by decide)
  | badValue place fault =>
    have told : IsSingleLine fault.message := unbroken single
    change IsSingleLine (_ ++ _)
    simp only [isSingleLine_append, isSingleLine_toString, isSingleLine_number, told, and_true]
    and_intros <;> exact isSingleLine_ofList.mpr (by decide)
  | noRoot => exact isSingleLine_ofList.mpr (by decide)
  | secondRoot name =>
    have told : IsSingleLine name := unbroken
    change IsSingleLine (_ ++ _)
    simp only [isSingleLine_append, isSingleLine_toString, told, and_true]
    and_intros <;> exact isSingleLine_ofList.mpr (by decide)
  | textOutsideRoot place =>
    change IsSingleLine (_ ++ _)
    simp only [isSingleLine_append, isSingleLine_toString, isSingleLine_number, and_true]
    exact isSingleLine_ofList.mpr (by decide)
  | unclosed name =>
    have told : IsSingleLine name := unbroken
    change IsSingleLine (_ ++ _)
    simp only [isSingleLine_append, isSingleLine_toString, told, and_true]
    and_intros <;> exact isSingleLine_ofList.mpr (by decide)

end ParseError

/-! ## The document that events build -/

namespace Builder

variable {builder next : Builder} {place : Nat} {event : Event} {fault : ParseError}

/-- The names of the open elements take one line. -/
def IsUnbroken (builder : Builder) : Prop :=
  ∀ element ∈ builder.openElements, IsSingleLine element.name

theorem isSingleLine_of_openTag {tag : StartTag} {element : Element} (unbroken : tag.IsUnbroken)
    (opened : builder.openTag place tag = .ok element) : IsSingleLine element.name := by
  have opens := (opens_of_elementOf (openTag_eq_ok opened).2).2.1
  rw [opens.named, isSingleLine_ofList]
  exact unbroken.name

theorem isUnbroken_of_refused_tag {tag : StartTag} (unbroken : tag.IsUnbroken)
    (failed : builder.openTag place tag = .error fault) : fault.IsUnbroken := by
  unfold openTag at failed
  split at failed
  · cases failed
    exact isSingleLine_ofList.mpr unbroken.name
  · split at failed
    · cases failed
    · next unread =>
      cases failed
      unfold elementOf at unread
      split at unread
      · cases unread
        exact ValueFault.breaksOnlyQuoting_badReference _
      · split at unread
        · next faulty =>
          cases unread
          exact fun _ => unbroken.fault _ faulty
        · cases unread

theorem isUnbroken_close {element : Element} {outer : List Element}
    (names : ∀ element ∈ outer, IsSingleLine element.name) : (close element outer).IsUnbroken := by
  cases outer with
  | nil => exact List.forall_mem_nil _
  | cons parent others =>
    rw [List.forall_mem_cons] at names
    exact List.forall_mem_cons.mpr names

theorem isUnbroken_addText {text : List Char} (unbroken : builder.IsUnbroken)
    (added : builder.addText place text = .ok next) : next.IsUnbroken := by
  unfold IsUnbroken at unbroken
  unfold addText at added
  split at added
  · next opened =>
    cases added
    rw [opened, List.forall_mem_cons] at unbroken
    exact List.forall_mem_cons.mpr unbroken
  · split at added
    · cases added
      exact unbroken
    · cases added

theorem isUnbroken_of_refused_text {text : List Char}
    (failed : builder.addText place text = .error fault) : fault.IsUnbroken := by
  unfold addText at failed
  split at failed
  · cases failed
  · split at failed
    · cases failed
    · cases failed
      exact trivial

/-- An event leaves names of one line. -/
theorem isUnbroken_step (unbroken : builder.IsUnbroken)
    (named : ∀ tag, event.tag? = some tag → tag.IsUnbroken)
    (stepped : builder.step place event = .ok next) : next.IsUnbroken := by
  cases event with
  | opened tag =>
    simp only [step] at stepped
    split at stepped
    · next opened =>
      cases stepped
      exact List.forall_mem_cons.mpr ⟨isSingleLine_of_openTag (named tag rfl) opened, unbroken⟩
    · cases stepped
  | empty tag =>
    simp only [step] at stepped
    split at stepped
    · cases stepped
      exact isUnbroken_close unbroken
    · cases stepped
  | closed =>
    simp only [step] at stepped
    split at stepped
    · next opened =>
      cases stepped
      unfold IsUnbroken at unbroken
      rw [opened, List.forall_mem_cons] at unbroken
      exact isUnbroken_close unbroken.2
    · cases stepped
      exact unbroken
  | characters written =>
    simp only [step] at stepped
    split at stepped
    · exact isUnbroken_addText unbroken stepped
    · cases stepped
  | characterData text => exact isUnbroken_addText unbroken stepped
  | aside =>
    cases stepped
    exact unbroken

theorem isUnbroken_of_refused_event (named : ∀ tag, event.tag? = some tag → tag.IsUnbroken)
    (failed : builder.step place event = .error fault) : fault.IsUnbroken := by
  cases event with
  | opened tag =>
    simp only [step] at failed
    split at failed
    · cases failed
    · next refused =>
      cases failed
      exact isUnbroken_of_refused_tag (named tag rfl) refused
  | empty tag =>
    simp only [step] at failed
    split at failed
    · cases failed
    · next refused =>
      cases failed
      exact isUnbroken_of_refused_tag (named tag rfl) refused
  | closed =>
    simp only [step] at failed
    split at failed <;> cases failed
  | characters written =>
    simp only [step] at failed
    split at failed
    · exact isUnbroken_of_refused_text failed
    · cases failed
      exact ValueFault.breaksOnlyQuoting_badReference _
  | characterData text => exact isUnbroken_of_refused_text failed
  | aside => cases failed

/-- A row of events leaves names of one line, or a fault in which only what is quoted takes
several. -/
theorem isUnbroken_run {row : List (Nat × Event)} (unbroken : builder.IsUnbroken)
    (named : ∀ standing ∈ row, ∀ tag, standing.2.tag? = some tag → tag.IsUnbroken) :
    (∀ final, builder.run row = .ok final → final.IsUnbroken) ∧
      ∀ fault, builder.run row = .error fault → fault.IsUnbroken := by
  induction row generalizing builder with
  | nil =>
    refine ⟨fun final ran => ?_, fun fault failed => ?_⟩
    · cases ran
      exact unbroken
    · cases failed
  | cons standing rest inductionHypothesis =>
    obtain ⟨place, event⟩ := standing
    rw [List.forall_mem_cons] at named
    rw [run]
    cases stepped : builder.step place event with
    | ok next => exact inductionHypothesis (isUnbroken_step unbroken named.1 stepped) named.2
    | error refused =>
      refine ⟨fun final ran => ?_, fun fault failed => ?_⟩
      · cases ran
      · cases failed
        exact isUnbroken_of_refused_event named.1 stepped

end Builder

/-! ## Texts -/

/-- What is said of a text that is no document takes one line, unless it quotes a name of several
lines in an end tag or in a reference. -/
theorem isUnbroken_of_parse {text : String} {fault : ParseError}
    (failed : parse text = .error fault) : fault.IsUnbroken := by
  have named : ∀ standing ∈ (Transcript.ofText text.toList).events, ∀ tag,
      standing.2.tag? = some tag → tag.IsUnbroken := fun standing member _ isTag =>
    Transcript.isUnbroken_of_mem_row (List.mem_map_of_mem member) isTag
  obtain ⟨unbroken, refused⟩ := Builder.isUnbroken_run
    (show ({} : Builder).IsUnbroken from List.forall_mem_nil _) named
  unfold parse Transcript.document at failed
  split at failed
  · next ran =>
    cases failed
    exact refused _ ran
  · next final ran =>
    split at failed
    · next broken =>
      cases failed
      exact Transcript.breaksOnlyQuoting_of_ofText broken
    · unfold Builder.finish at failed
      split at failed
      · next opened =>
        cases failed
        exact unbroken final ran _ (opened ▸ List.mem_cons_self)
      · cases failed
      · cases failed
        exact trivial

/-- The names of an element and of its attributes take one line. -/
structure Element.HasUnbrokenNames (element : Element) : Prop where
  name : IsSingleLine element.name
  attributes : ∀ written ∈ element.attributes, IsSingleLine written.1

theorem StartTag.Opens.hasUnbrokenNames {tag : StartTag} {element : Element}
    (opens : tag.Opens element) (unbroken : tag.IsUnbroken) : element.HasUnbrokenNames := by
  constructor
  · rw [opens.named, isSingleLine_ofList]
    exact unbroken.name
  · intro written member
    have listed := List.mem_map_of_mem (f := Prod.fst) member
    rw [opens.names_eq, List.map_map] at listed
    obtain ⟨source, inside, same⟩ := List.mem_map.mp listed
    rw [← same]
    exact isSingleLine_ofList.mpr (unbroken.attributes source (List.mem_of_mem_filter inside))

/-- The names in a document take one line. -/
theorem hasUnbrokenNames_of_parse {text : String} {root : Element}
    (read : parse text = .ok root) : root.Everywhere Element.HasUnbrokenNames := by
  have accounts := (Transcript.accounts_of_document read).2
  apply Element.everywhere_of_listing
  intro node member
  obtain ⟨number, inside, rfl⟩ := List.getElem_of_mem member
  have opened : number < (openings (Transcript.ofText text.toList).row).length :=
    accounts.elements.length_eq ▸ inside
  obtain ⟨_, opens⟩ := accounts.elements.get opened inside
  obtain ⟨event, listed, isTag⟩ := exists_event_of_mem_openings (List.getElem_mem opened)
  exact opens.hasUnbrokenNames (Transcript.isUnbroken_of_mem_row listed isTag)

end Markup
end MuseumRecord
