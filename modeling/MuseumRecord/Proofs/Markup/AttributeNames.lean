import MuseumRecord.Proofs.Markup.Faithful
import MuseumRecord.Proofs.Markup.Tag

/-!
# Names of attributes

A key stands once in a tag, but an element knows its attributes by their local names alone.  So two
attributes of an element have one name exactly when they are written with different qualifiers, and
then the one that is written first is found under the name.
-/

namespace MuseumRecord
namespace Markup

open Text

/-! ## Qualified names -/

namespace QualifiedName

/-- The name as it is written. -/
def text (name : QualifiedName) : List Char :=
  match name.qualifier with
  | none => name.localName
  | some qualifier => qualifier ++ ':' :: name.localName

theorem split_of_qualified {qualifier : List Char} (fresh : ':' ∉ qualifier)
    (localName : List Char) :
    split (qualifier ++ ':' :: localName) = ⟨some qualifier, localName⟩ := by
  unfold split
  simp only [takeWhile_ne_append fresh, List.drop_left]

/-- A name is not changed by its division. -/
theorem text_split (name : List Char) : (split name).text = name := by
  by_cases qualified : ':' ∈ name
  · obtain ⟨qualifier, localName, rfl, fresh⟩ := List.eq_append_cons_of_mem qualified
    rw [split_of_qualified fresh]
    rfl
  · rw [split_of_plain qualified]
    rfl

theorem split_injective : Function.Injective split :=
  Function.LeftInverse.injective text_split

end QualifiedName

/-! ## Keys of a tag -/

namespace EventAttribute

/-- The qualifier of the name. -/
def qualifier (written : EventAttribute) : Option (List Char) :=
  (QualifiedName.split written.key).qualifier

/-- What the attribute says, with references replaced. -/
def reading? (written : EventAttribute) : Option String :=
  (Reference.expand written.value).toOption.map String.ofList

/-- The name is the one of the key, and without a qualifier it is in no namespace. -/
structure IsNamedByKey (written : EventAttribute) : Prop where
  localName_eq : written.localName = (QualifiedName.split written.key).localName
  unqualified : written.qualifier = none → written.namespaceName = none

theorem reading?_of_gives {written : EventAttribute} {given : String × String}
    (gives : written.Gives given) : written.reading? = some given.2 := by
  rw [reading?, gives.2]
  exact congrArg some String.ofList_toList

end EventAttribute

namespace StartTag

/-- The attributes are named by their keys, and no key stands there twice. -/
structure HasDistinctKeys (tag : StartTag) : Prop where
  named : ∀ written ∈ tag.attributes, written.IsNamedByKey
  distinct : (tag.attributes.map EventAttribute.key).Nodup

theorem isNamedByKey_of_mem {scope : Scope} {row : List ScannedAttribute}
    {written : EventAttribute} (member : written ∈ resolveAttributes scope row) :
    written.IsNamedByKey := by
  induction row with
  | nil => cases member
  | cons scanned row inductionHypothesis =>
    cases scanned with
    | whole place key value =>
      rcases List.mem_cons.mp member with rfl | behind
      · refine ⟨rfl, fun unqualified => ?_⟩
        change (QualifiedName.split key).qualifier = none at unqualified
        change Scope.attributeNamespace? scope (QualifiedName.split key) = none
        rw [Scope.attributeNamespace?, unqualified]
      · exact inductionHypothesis behind
    | valueless place key fault => cases member
    | keyless fault => cases member

/-- What is left of a row without its repeats has distinct keys, none of them seen before. -/
theorem nodup_keys_of_rejectRepeats (scope : Scope) (row : List ScannedAttribute)
    (seen : List (List Char × Nat)) :
    ((resolveAttributes scope (ScannedAttribute.rejectRepeats seen row)).map
        EventAttribute.key).Nodup ∧
      ∀ written ∈ resolveAttributes scope (ScannedAttribute.rejectRepeats seen row),
        seen.lookup written.key = none := by
  have nothing : (([] : List EventAttribute).map EventAttribute.key).Nodup ∧
      ∀ written ∈ ([] : List EventAttribute), seen.lookup written.key = none :=
    ⟨List.nodup_nil, List.forall_mem_nil _⟩
  induction row generalizing seen with
  | nil => exact nothing
  | cons scanned row inductionHypothesis =>
    cases scanned with
    | whole place key value =>
      rw [ScannedAttribute.rejectRepeats]
      split
      · exact nothing
      · next fresh =>
        obtain ⟨distinct, unseen⟩ := inductionHypothesis ((key, place) :: seen)
          ⟨List.nodup_nil, List.forall_mem_nil _⟩
        have others : ∀ written ∈ resolveAttributes scope
            (ScannedAttribute.rejectRepeats ((key, place) :: seen) row),
            written.key ≠ key ∧ seen.lookup written.key = none := by
          intro written member
          have unfound := unseen written member
          rw [List.lookup_cons] at unfound
          by_cases same : written.key = key
          · rw [same, beq_self_eq_true] at unfound
            cases unfound
          · rw [beq_eq_false_iff_ne.mpr same] at unfound
            exact ⟨same, unfound⟩
        refine ⟨List.nodup_cons.mpr ⟨?_, distinct⟩, List.forall_mem_cons.mpr ⟨fresh, ?_⟩⟩
        · intro repeated
          obtain ⟨written, member, same⟩ := List.mem_map.mp repeated
          exact (others written member).1 same
        · exact fun written member => (others written member).2
    | valueless place key fault =>
      rw [ScannedAttribute.rejectRepeats]
      split <;> exact nothing
    | keyless fault => exact nothing

theorem hasDistinctKeys_of_read {outer : Scope} {body : List Char} {frame : Frame}
    {tag : StartTag} (read : StartTag.read outer body = .ok (frame, tag)) :
    tag.HasDistinctKeys := by
  simp only [StartTag.read] at read
  split at read
  · cases read
  · next scope declared =>
    cases read
    exact ⟨fun written member => isNamedByKey_of_mem member,
      (nodup_keys_of_rejectRepeats scope _ []).1⟩

end StartTag

/-! ## Tags of a text -/

/-- What the event of a construct can be: a tag, read inside the bindings that hold there, or
something that opens no element. -/
theorem Event.ofConstruct_cases {frames inner : List Frame} {construct : Construct} {event : Event}
    (resolved : Event.ofConstruct frames construct = .ok (event, inner)) :
    (∃ body frame tag, StartTag.read (currentScope frames) body = .ok (frame, tag) ∧
        (event = .empty tag ∧ inner = frames ∨ event = .opened tag ∧ inner = frame :: frames)) ∨
      (event.tag? = none ∧ inner <:+ frames) := by
  cases construct with
  | startTag body =>
    simp only [Event.ofConstruct] at resolved
    split at resolved
    · split at resolved
      · next read =>
        cases resolved
        exact .inl ⟨_, _, _, read, .inl ⟨rfl, rfl⟩⟩
      · cases resolved
    · split at resolved
      · next read =>
        cases resolved
        exact .inl ⟨_, _, _, read, .inr ⟨rfl, rfl⟩⟩
      · cases resolved
  | endTag body =>
    simp only [Event.ofConstruct] at resolved
    split at resolved
    · cases resolved
    · split at resolved
      · cases resolved
        exact .inr ⟨rfl, List.suffix_cons _ _⟩
      · cases resolved
  | characterData text =>
    cases resolved
    exact .inr ⟨rfl, List.suffix_rfl⟩
  | aside =>
    cases resolved
    exact .inr ⟨rfl, List.suffix_rfl⟩

/-- What the first event of a text can be. -/
theorem Event.next_cases {frames inner : List Frame} {first : Char} {rest after : List Char}
    {event : Event} (found : Event.next frames first rest = .ok (event, inner, after)) :
    (∃ body frame tag, StartTag.read (currentScope frames) body = .ok (frame, tag) ∧
        (event = .empty tag ∧ inner = frames ∨ event = .opened tag ∧ inner = frame :: frames)) ∨
      (event.tag? = none ∧ inner <:+ frames) := by
  unfold Event.next at found
  split at found
  · split at found
    · cases found
    · split at found
      · cases found
      · next resolved =>
        cases found
        exact ofConstruct_cases resolved
  · cases found
    exact .inr ⟨rfl, List.suffix_rfl⟩

theorem Event.exists_read_of_next {frames inner : List Frame} {first : Char}
    {rest after : List Char} {event : Event}
    (found : Event.next frames first rest = .ok (event, inner, after)) {tag : StartTag}
    (isTag : event.tag? = some tag) :
    ∃ scope body frame, StartTag.read scope body = .ok (frame, tag) := by
  rcases next_cases found with ⟨body, frame, other, read, ⟨rfl, _⟩ | ⟨rfl, _⟩⟩ | ⟨noTag, _⟩
  · cases isTag
    exact ⟨_, body, frame, read⟩
  · cases isTag
    exact ⟨_, body, frame, read⟩
  · rw [noTag] at isTag
    cases isTag

theorem Transcript.exists_read_of_mem_read {offset : Nat} {frames : List Frame}
    {text : List Char} {standing : Nat × Event}
    (member : standing ∈ (Transcript.read offset frames text).events) {tag : StartTag}
    (isTag : standing.2.tag? = some tag) :
    ∃ scope body frame, StartTag.read scope body = .ok (frame, tag) := by
  fun_induction Transcript.read offset frames text with
  | case1 => cases member
  | case2 => cases member
  | case3 offset frames first rest event inner after found remaining inductionHypothesis =>
    rcases List.mem_cons.mp member with rfl | behind
    · exact Event.exists_read_of_next found isTag
    · exact inductionHypothesis behind

/-- Every tag of a text is read from a body inside some bindings. -/
theorem Transcript.exists_read_of_mem_row {text : List Char} {event : Event}
    (member : event ∈ (Transcript.ofText text).row) {tag : StartTag}
    (isTag : event.tag? = some tag) :
    ∃ scope body frame, StartTag.read scope body = .ok (frame, tag) := by
  obtain ⟨standing, inside, rfl⟩ := List.mem_map.mp member
  unfold Transcript.ofText at inside
  split at inside <;> exact exists_read_of_mem_read inside isTag

/-- No tag of a text has a key twice. -/
theorem Transcript.hasDistinctKeys_of_mem_row {text : List Char} {event : Event}
    (member : event ∈ (Transcript.ofText text).row) {tag : StartTag}
    (isTag : event.tag? = some tag) : tag.HasDistinctKeys := by
  obtain ⟨scope, body, frame, read⟩ := exists_read_of_mem_row member isTag
  exact StartTag.hasDistinctKeys_of_read read

theorem map_snd_placed (position : Position) (events : List Event) :
    (placed position events).map Prod.snd = events := by
  induction events generalizing position with
  | nil => rfl
  | cons event rest inductionHypothesis => exact congrArg _ (inductionHypothesis _)

theorem exists_event_of_mem_openings {events : List Event} {opening : Nat × StartTag}
    (member : opening ∈ openings events) : ∃ event ∈ events, event.tag? = some opening.2 := by
  obtain ⟨standing, inside, found⟩ := List.mem_filterMap.mp member
  obtain ⟨tag, isTag, rfl⟩ := Option.map_eq_some_iff.mp found
  have listed := List.mem_map_of_mem (f := Prod.snd) inside
  rw [map_snd_placed] at listed
  exact ⟨standing.2, listed, isTag⟩

/-! ## Names of an element's attributes -/

namespace StartTag

variable {tag : StartTag} {element : Element}

/-- The attributes of the record that have a local name, whatever their qualifiers. -/
def namesakes (tag : StartTag) (name : String) : List EventAttribute :=
  tag.content.filter fun written => String.ofList written.localName == name

theorem HasDistinctKeys.nodup_content (keys : tag.HasDistinctKeys) :
    (tag.content.map EventAttribute.key).Nodup :=
  keys.distinct.sublist (List.filter_sublist.map _)

theorem HasDistinctKeys.isNamedByKey (keys : tag.HasDistinctKeys) {written : EventAttribute}
    (member : written ∈ tag.content) : written.IsNamedByKey :=
  keys.named written (List.mem_of_mem_filter member)

/-- An attribute is known by its qualifier and its local name. -/
theorem HasDistinctKeys.eq_of_names (keys : tag.HasDistinctKeys) {written other : EventAttribute}
    (member : written ∈ tag.content) (memberOther : other ∈ tag.content)
    (sameName : written.localName = other.localName)
    (sameQualifier : written.qualifier = other.qualifier) : written = other := by
  have name : (QualifiedName.split written.key).localName =
      (QualifiedName.split other.key).localName := by
    rw [← (keys.isNamedByKey member).localName_eq, sameName,
      (keys.isNamedByKey memberOther).localName_eq]
  have whole : QualifiedName.split written.key = QualifiedName.split other.key := by
    cases split : QualifiedName.split written.key
    cases splitOther : QualifiedName.split other.key
    rw [split, splitOther] at name
    rw [EventAttribute.qualifier, EventAttribute.qualifier, split, splitOther] at sameQualifier
    exact QualifiedName.mk.injEq .. ▸ ⟨sameQualifier, name⟩
  exact List.inj_on_of_nodup_map keys.nodup_content member memberOther
    (QualifiedName.split_injective whole)

namespace Opens

theorem names_eq (opens : tag.Opens element) :
    element.attributes.map Prod.fst =
      (tag.content.map EventAttribute.localName).map String.ofList := by
  have names := opens.attributed
  rw [List.map_map]
  generalize tag.content = content at names
  generalize element.attributes = attributes at names
  induction names with
  | nil => rfl
  | cons gives _ inductionHypothesis =>
    rw [List.map_cons, List.map_cons, inductionHypothesis, gives.1]
    rfl

/-- The attributes of a name are what the namesakes in the tag give. -/
theorem gives_named (opens : tag.Opens element) (name : String) :
    List.Forall₂ EventAttribute.Gives (tag.namesakes name)
      (element.attributes.filter fun given => given.1 == name) := by
  refine List.rel_filter ?_ opens.attributed
  intro written given gives
  simp only [gives.1]

/-- Under a name the first attribute of the name is found, whatever its qualifier. -/
theorem attribute?_eq (opens : tag.Opens element) (name : String) :
    element.attribute? name = (tag.namesakes name).head?.bind EventAttribute.reading? := by
  have named := opens.gives_named name
  have first : element.attribute? name =
      (element.attributes.filter fun given => given.1 == name).head?.map Prod.snd := by
    rw [List.head?_filter]
    rfl
  rw [first]
  generalize tag.namesakes name = namesakes at named
  generalize element.attributes.filter (fun given => given.1 == name) = attributes at named
  cases named with
  | nil => rfl
  | cons gives _ => exact (EventAttribute.reading?_of_gives gives).symm

/-- The names of an element's attributes are distinct when qualifiers tell nothing apart. -/
theorem nodup_names_iff (opens : tag.Opens element) (keys : tag.HasDistinctKeys) :
    (element.attributes.map Prod.fst).Nodup ↔
      ∀ written ∈ tag.content, ∀ other ∈ tag.content,
        written.localName = other.localName → written.qualifier = other.qualifier := by
  have content : tag.content.Nodup := keys.nodup_content.of_map
  rw [opens.names_eq, List.nodup_map_iff fun _ _ => String.ofList_injective,
    List.nodup_map_iff_inj_on content]
  constructor
  · intro distinct written member other memberOther same
    rw [distinct written member other memberOther same]
  · intro told written member other memberOther same
    exact keys.eq_of_names member memberOther same (told written member other memberOther same)

/-- An element has one attribute of a name when all its namesakes have one qualifier. -/
theorem attributes_named (opens : tag.Opens element) (keys : tag.HasDistinctKeys) {name : String}
    (same : ∀ written ∈ tag.namesakes name, ∀ other ∈ tag.namesakes name,
      written.qualifier = other.qualifier) :
    (element.attributes.filter fun given => given.1 == name) =
      (element.attribute? name).toList.map fun value => (name, value) := by
  have named := opens.gives_named name
  have found := opens.attribute?_eq name
  have distinct : (tag.namesakes name).Nodup := keys.nodup_content.of_map.filter _
  have equal : ∀ written ∈ tag.namesakes name, ∀ other ∈ tag.namesakes name, written = other := by
    intro written member other memberOther
    obtain ⟨inside, isNamed⟩ := List.mem_filter.mp member
    obtain ⟨insideOther, isNamedOther⟩ := List.mem_filter.mp memberOther
    have names := (beq_iff_eq.mp isNamed).trans (beq_iff_eq.mp isNamedOther).symm
    exact keys.eq_of_names inside insideOther (String.ofList_injective names)
      (same written member other memberOther)
  rw [found]
  have isNamed : ∀ given ∈ element.attributes.filter fun given => given.1 == name,
      given.1 = name := fun given member => beq_iff_eq.mp (List.mem_filter.mp member).2
  generalize tag.namesakes name = namesakes at named distinct equal
  generalize element.attributes.filter (fun given => given.1 == name) = attributes at named isNamed
  cases named with
  | nil => rfl
  | @cons written given namesakes attributes gives others =>
    cases others with
    | nil =>
      have key := isNamed given List.mem_cons_self
      rw [List.head?_cons, Option.bind_some, EventAttribute.reading?_of_gives gives]
      cases given
      cases key
      rfl
    | @cons other _ _ _ _ _ =>
      have repeated := equal written List.mem_cons_self other
        (List.mem_cons_of_mem _ List.mem_cons_self)
      rw [repeated] at distinct
      exact absurd List.mem_cons_self (List.nodup_cons.mp distinct).1

end Opens
end StartTag

/-! ## Documents -/

/-- The attributes of an element are those of its tag that belong to the record, in their order, and
no two of these are written with one name.  Only an attribute with a qualifier can be in a
namespace.  The local names are distinct exactly when no two attributes differ in their qualifiers
alone.  Under a name the first attribute of that local name is found, and it is the only one when
all of that local name are written with one qualifier or all without. -/
theorem attribute_names_are_unique_as_written {text : String} {root : Element}
    (read : parse text = .ok root) {number depth : Nat} {element : Element}
    (listed : (root.listing 0)[number]? = some (depth, element)) :
    ∃ tag, (openings (Transcript.ofText text.toList).row)[number]? = some (depth, tag) ∧
      tag.Opens element ∧
      (tag.content.map EventAttribute.key).Nodup ∧
      (∀ written ∈ tag.content, written.IsNamedByKey) ∧
      ((element.attributes.map Prod.fst).Nodup ↔
        ∀ written ∈ tag.content, ∀ other ∈ tag.content,
          written.localName = other.localName → written.qualifier = other.qualifier) ∧
      ∀ name,
        element.attribute? name = (tag.namesakes name).head?.bind EventAttribute.reading? ∧
          ((∀ written ∈ tag.namesakes name, ∀ other ∈ tag.namesakes name,
              written.qualifier = other.qualifier) →
            (element.attributes.filter fun given => given.1 == name) =
              (element.attribute? name).toList.map fun value => (name, value)) := by
  have accounts := (Transcript.accounts_of_document read).2
  obtain ⟨inside, here⟩ := List.getElem?_eq_some_iff.mp listed
  have opened : number < (openings (Transcript.ofText text.toList).row).length :=
    accounts.elements.length_eq ▸ inside
  obtain ⟨sameDepth, opens⟩ := accounts.elements.get opened inside
  rw [List.get_eq_getElem, List.get_eq_getElem, here] at sameDepth opens
  obtain ⟨event, member, isTag⟩ := exists_event_of_mem_openings (List.getElem_mem opened)
  have keys := Transcript.hasDistinctKeys_of_mem_row member isTag
  refine ⟨_, ?_, opens, keys.nodup_content, fun _ => keys.isNamedByKey, opens.nodup_names_iff keys,
    fun name => ⟨opens.attribute?_eq name, opens.attributes_named keys⟩⟩
  rw [List.getElem?_eq_getElem opened]
  exact congrArg some (Prod.ext sameDepth rfl)

/-- Behind the record's own attribute one of a foreign namespace is not found under their name, and
under another name it is the only one. -/
theorem own_attribute_in_front_is_found :
    ∃ root, parse "<a xmlns:p='urn:p' id='1' p:id='2' p:status='3'/>" = .ok root ∧
      (root.listing 0)[0]? = some (0, root) ∧ root.attribute? "id" = some "1" ∧
      (root.attributes.filter fun given => given.1 == "status") =
        (root.attribute? "status").toList.map fun value => ("status", value) := by
  have accepted :
      (parse "<a xmlns:p='urn:p' id='1' p:id='2' p:status='3'/>").isOk = true := by decide +kernel
  have first : ((openings (Transcript.ofText
      "<a xmlns:p='urn:p' id='1' p:id='2' p:status='3'/>".toList).row)[0]?.all fun opening =>
        decide ((opening.2.namesakes "id").head?.bind EventAttribute.reading? = some "1" ∧
          ∀ written ∈ opening.2.namesakes "status", ∀ other ∈ opening.2.namesakes "status",
            written.qualifier = other.qualifier)) = true := by decide +kernel
  cases read : parse "<a xmlns:p='urn:p' id='1' p:id='2' p:status='3'/>" with
  | error fault => rw [read] at accepted; cases accepted
  | ok root =>
    have listed : (root.listing 0)[0]? = some (0, root) := by
      cases root
      rfl
    obtain ⟨tag, opening, _, _, _, _, found⟩ :=
      attribute_names_are_unique_as_written read listed
    rw [opening, Option.all_some, decide_eq_true_iff] at first
    exact ⟨root, rfl, listed, (found "id").1.trans first.1, (found "status").2 first.2⟩

/-- An attribute of a foreign namespace has the name of the record's own behind it, and is found
instead. -/
theorem foreign_attribute_shadows_own :
    ∃ root, parse "<a xmlns:p='urn:p' p:id='1' id='2'/>" = .ok root ∧
      ¬(root.attributes.map Prod.fst).Nodup ∧ root.attribute? "id" = some "1" := by
  have shadowed : (parse "<a xmlns:p='urn:p' p:id='1' id='2'/>").toOption.any (fun root =>
      decide (¬(root.attributes.map Prod.fst).Nodup ∧ root.attribute? "id" = some "1")) =
        true := by decide +kernel
  cases read : parse "<a xmlns:p='urn:p' p:id='1' id='2'/>" with
  | error fault => rw [read] at shadowed; cases shadowed
  | ok root =>
    rw [read] at shadowed
    exact ⟨root, rfl, of_decide_eq_true shadowed⟩

end Markup
end MuseumRecord
