import Mathlib.Data.List.Forall2
import Mathlib.Data.List.Infix
import MuseumRecord.Markup.Document
import MuseumRecord.Proofs.Markup.Listing
import MuseumRecord.Proofs.Text.Cut

/-!
# Accounts of a document

A document accounts for the events of its text.  Its elements are the tags of the row of events, in
order and at the depth at which they stand, and the text of an element is what the runs of text say
whose innermost open element it is.
-/

namespace MuseumRecord
namespace Markup

open Text

/-! ## What events say -/

/-- The references of a written value can be replaced. -/
def unescapes (written : List Char) : Bool :=
  (Reference.expand written).isOk

namespace EventAttribute

/-- A namespace declaration, or an attribute of the namespace of schema hints. -/
def IsMarkup (written : EventAttribute) : Prop :=
  written.key = "xmlns".toList ∨ "xmlns:".toList <+: written.key ∨
    written.namespaceName = some Builder.schemaHints

instance (written : EventAttribute) : Decidable written.IsMarkup :=
  inferInstanceAs (Decidable (_ ∨ _ ∨ _))

/-- The attribute of an element that an attribute of a tag gives. -/
def Gives (written : EventAttribute) (given : String × String) : Prop :=
  given.1 = String.ofList written.localName ∧
    Reference.expand written.value = .ok given.2.toList

theorem gives_rightUnique : Relator.RightUnique Gives := by
  rintro written given other ⟨name, value⟩ ⟨otherName, otherValue⟩
  have same := value.symm.trans otherValue
  rw [Except.ok.injEq, String.toList_inj] at same
  exact Prod.ext (name.trans otherName.symm) same

end EventAttribute

namespace StartTag

/-- The attributes of a tag that belong to the record. -/
def content (tag : StartTag) : List EventAttribute :=
  tag.attributes.filter fun written => ¬written.IsMarkup

/-- The row of attributes is without fault, and what belongs to the record can be read. -/
def isReadable (tag : StartTag) : Bool :=
  tag.fault.isNone && tag.content.all fun written => unescapes written.value

/-- The element has the names and the attributes of the tag. -/
structure Opens (tag : StartTag) (element : Element) : Prop where
  /-- The name is the local name of the tag. -/
  named : element.name = String.ofList tag.localName
  /-- The namespace is the one that the name of the tag resolves to. -/
  inNamespace : element.namespaceName = tag.namespaceName.map String.ofList
  /-- The attributes are those that belong to the record, in their order. -/
  attributed : List.Forall₂ EventAttribute.Gives tag.content element.attributes

/-- Elements that a tag opens differ only in their content. -/
theorem Opens.alone_eq {tag : StartTag} {element other : Element} (opens : tag.Opens element)
    (opensOther : tag.Opens other) (text : element.text = other.text) :
    element.alone = other.alone := by
  have name := opens.named.trans opensOther.named.symm
  have namespaceName := opens.inNamespace.trans opensOther.inNamespace.symm
  have attributes := EventAttribute.gives_rightUnique.forall₂ opens.attributed
    opensOther.attributed
  rw [Element.alone, Element.alone, name, namespaceName, attributes, text]

end StartTag

namespace Event

/-- The tag that opens an element. -/
def tag? : Event → Option StartTag
  | .opened tag => some tag
  | .empty tag => some tag
  | _ => none

/-- A run of text or a section of plain character data. -/
def isText : Event → Bool
  | .characters _ => true
  | .characterData _ => true
  | _ => false

/-- What a run of text or a section of plain character data says, with references replaced. -/
def text? : Event → Option (List Char)
  | .characters written => (Reference.expand written).toOption
  | .characterData text => some text
  | _ => none

/-- What the event says can be read. -/
def isReadable : Event → Bool
  | .opened tag => tag.isReadable
  | .empty tag => tag.isReadable
  | .characters written => unescapes written
  | _ => true

/-- Every attribute, declarations among them, and every run of text can be unescaped. -/
def unescapesWhole : Event → Bool
  | .opened tag => tag.attributes.all fun written => unescapes written.value
  | .empty tag => tag.attributes.all fun written => unescapes written.value
  | .characters written => unescapes written
  | _ => true

end Event

/-! ## Where events stand -/

/-- The place of an event in the tree: the open elements, innermost first, each by its number in the
order of their tags, and how many elements have been opened. -/
structure Position where
  /-- The numbers of the open elements. -/
  openElements : List Nat := []
  /-- How many elements have been opened. -/
  opened : Nat := 0

namespace Position

/-- The place behind an event. -/
def behind (position : Position) : Event → Position
  | .opened _ => ⟨position.opened :: position.openElements, position.opened + 1⟩
  | .empty _ => ⟨position.openElements, position.opened + 1⟩
  | .closed => ⟨position.openElements.tail, position.opened⟩
  | _ => position

/-- The place behind a row of events. -/
def atEnd (events : List Event) : Position :=
  events.foldl behind {}

end Position

/-- Events with their places, the first of which is given. -/
def placed (position : Position) : List Event → List (Position × Event)
  | [] => []
  | event :: rest => (position, event) :: placed (position.behind event) rest

/-- The tags of a row of events, each with its depth. -/
def openings (events : List Event) : List (Nat × StartTag) :=
  (placed {} events).filterMap fun standing =>
    standing.2.tag?.map fun tag => (standing.1.openElements.length, tag)

/-- The runs of text whose innermost open element has a number, or those outside every element. -/
def textsIn (owner : Option Nat) (events : List Event) : List Event :=
  ((placed {} events).filter fun standing =>
    standing.2.isText && standing.1.openElements.head? == owner).map Prod.snd

/-- What the runs of text of an element say together. -/
def textOf (owner : Option Nat) (events : List Event) : Option (List Char) :=
  ((textsIn owner events).mapM Event.text?).map List.flatten

theorem placed_append (position : Position) (left right : List Event) :
    placed position (left ++ right) =
      placed position left ++ placed (left.foldl Position.behind position) right := by
  induction left generalizing position with
  | nil => rfl
  | cons event left inductionHypothesis =>
    exact congrArg (_ :: ·) (inductionHypothesis (position.behind event))

theorem Position.atEnd_snoc (events : List Event) (event : Event) :
    atEnd (events ++ [event]) = (atEnd events).behind event :=
  List.foldl_append

theorem openings_sublist (left right : List Event) :
    (openings left).Sublist (openings (left ++ right)) := by
  rw [openings, openings, placed_append, List.filterMap_append]
  exact List.sublist_append_left _ _

theorem textsIn_subset (owner : Option Nat) (left right : List Event) :
    textsIn owner left ⊆ textsIn owner (left ++ right) := by
  rw [textsIn, textsIn, placed_append, List.filter_append, List.map_append]
  exact List.subset_append_left _ _

theorem openings_snoc (events : List Event) (event : Event) :
    openings (events ++ [event]) = openings events ++
      (event.tag?.map fun tag => ((Position.atEnd events).openElements.length, tag)).toList := by
  rw [openings, placed_append, List.filterMap_append]
  change _ ++ List.filterMap _ [(Position.atEnd events, event)] = _
  cases tag : event.tag? <;> simp [tag, openings]

theorem textsIn_snoc (owner : Option Nat) (events : List Event) (event : Event) :
    textsIn owner (events ++ [event]) = textsIn owner events ++
      if event.isText && (Position.atEnd events).openElements.head? == owner then [event]
      else [] := by
  rw [textsIn, placed_append, List.filter_append, List.map_append]
  change _ ++ List.map Prod.snd (List.filter _ [(Position.atEnd events, event)]) = _
  rw [List.filter_cons, List.filter_nil, apply_ite (List.map Prod.snd)]
  rfl

theorem textsIn_snoc_of_other {owner : Option Nat} {events : List Event} {event : Event}
    (other : (event.isText && (Position.atEnd events).openElements.head? == owner) = false) :
    textsIn owner (events ++ [event]) = textsIn owner events := by
  rw [textsIn_snoc, other, if_neg Bool.false_ne_true, List.append_nil]

theorem textOf_snoc_of_other {owner : Option Nat} {events : List Event} {event : Event}
    (other : (event.isText && (Position.atEnd events).openElements.head? == owner) = false) :
    textOf owner (events ++ [event]) = textOf owner events := by
  rw [textOf, textsIn_snoc_of_other other]
  rfl

theorem textOf_snoc_of_own {owner : Option Nat} {events : List Event} {event : Event}
    {text more : List Char} (isText : event.isText = true)
    (own : (Position.atEnd events).openElements.head? = owner)
    (before : textOf owner events = some text) (meaning : event.text? = some more) :
    textOf owner (events ++ [event]) = some (text ++ more) := by
  obtain ⟨pieces, said, rfl⟩ := Option.map_eq_some_iff.mp before
  rw [textOf, textsIn_snoc, isText, own, beq_self_eq_true, Bool.and_self, if_pos rfl]
  simp [List.mapM_append, said, meaning]

/-! ## Documents and their events -/

/-- The events of a transcript in their order. -/
def Transcript.row (transcript : Transcript) : List Event :=
  transcript.events.map Prod.snd

/-- A transcript of a document, given which events can be read. -/
structure Transcript.IsDocument (isReadable : Event → Bool) (transcript : Transcript) : Prop where
  /-- The end of the text is reached. -/
  complete : transcript.failure = none
  /-- Every event can be read. -/
  readable : ∀ event ∈ transcript.row, isReadable event = true
  /-- One element is opened outside every other. -/
  single : (openings transcript.row).countP (fun opening => opening.1 == 0) = 1
  /-- All text outside every element is blank. -/
  blank : ∀ event ∈ textsIn none transcript.row, event.text?.any allBlank = true
  /-- Every element is closed. -/
  closed : (Position.atEnd transcript.row).openElements = []

/-- Elements with their depths account for a row of events. -/
structure Accounts (nodes : List (Nat × Element)) (events : List Event) : Prop where
  /-- The elements are those that the tags open, each at its depth. -/
  elements : List.Forall₂ (fun opening node => opening.1 = node.1 ∧ opening.2.Opens node.2)
    (openings events) nodes
  /-- The text of each is what its own runs of text say. -/
  texts : ∀ number node, nodes[number]? = some node →
    textOf (some number) events = some node.2.text.toList
  /-- No run of text belongs to an element that is not there. -/
  owned : ∀ number, textsIn (some number) events ≠ [] → number < nodes.length

theorem tag?_of_isText {event : Event} (isText : event.isText = true) : event.tag? = none := by
  cases event with
  | characters | characterData => rfl
  | opened | empty | closed | aside => cases isText

/-- In a row that is related to another an entry may give way to one with the same relations. -/
theorem forall₂_exchange {α β : Type} {relation : α → β → Prop} {left : List α}
    {front back : List β} {old new : β} (kept : ∀ entry, relation entry old → relation entry new)
    (related : List.Forall₂ relation left (front ++ old :: back)) :
    List.Forall₂ relation left (front ++ new :: back) := by
  induction front generalizing left with
  | nil =>
    cases related with
    | cons first rest => exact .cons (kept _ first) rest
  | cons entry front inductionHypothesis =>
    cases related with
    | cons first rest => exact .cons first (inductionHypothesis rest)

namespace Accounts

variable {nodes front back : List (Nat × Element)} {events : List Event} {event : Event}
  {element : Element} {depth : Nat}

theorem nil : Accounts [] [] where
  elements := .nil
  texts := fun _ _ found => nomatch found
  owned := fun _ present => absurd rfl present

theorem alone_iff :
    Accounts (nodes.map fun node => (node.1, node.2.alone)) events ↔ Accounts nodes events := by
  constructor
  · intro accounts
    refine ⟨?_, fun number node found => ?_, fun number present => ?_⟩
    · refine (List.forall₂_map_right_iff.mp accounts.elements).imp ?_
      rintro opening node ⟨sameDepth, opens⟩
      exact ⟨sameDepth, opens.named, opens.inNamespace, opens.attributed⟩
    · exact accounts.texts number (node.1, node.2.alone) (by rw [List.getElem?_map, found]; rfl)
    · simpa using accounts.owned number present
  · intro accounts
    refine ⟨?_, fun number node found => ?_, fun number present => ?_⟩
    · refine List.forall₂_map_right_iff.mpr (accounts.elements.imp ?_)
      rintro opening node ⟨sameDepth, opens⟩
      exact ⟨sameDepth, opens.named, opens.inNamespace, opens.attributed⟩
    · rw [List.getElem?_map] at found
      obtain ⟨whole, inner, rfl⟩ := Option.map_eq_some_iff.mp found
      exact accounts.texts number whole inner
    · simpa using accounts.owned number present

/-- An event that neither opens an element nor says anything leaves the account as it is. -/
theorem silent (accounts : Accounts nodes events) (noTag : event.tag? = none)
    (noText : event.isText = false) : Accounts nodes (events ++ [event]) := by
  refine ⟨?_, fun number node found => ?_, fun number present => ?_⟩
  · rw [openings_snoc, noTag]
    simpa using accounts.elements
  · rw [textOf_snoc_of_other (by rw [noText]; rfl)]
    exact accounts.texts number node found
  · rw [textsIn_snoc, noText] at present
    exact accounts.owned number (by simpa using present)

/-- A tag adds its element at the end. -/
theorem opened (accounts : Accounts nodes events) {tag : StartTag} (isTag : event.tag? = some tag)
    (noText : event.isText = false) (opens : tag.Opens element) (empty : element.text = "")
    (here : (Position.atEnd events).openElements.length = depth) :
    Accounts (nodes ++ [(depth, element)]) (events ++ [event]) := by
  have unsaid (number : Nat) : textOf (some number) (events ++ [event]) =
      textOf (some number) events := textOf_snoc_of_other (by rw [noText]; rfl)
  refine ⟨?_, fun number node found => ?_, fun number present => ?_⟩
  · rw [openings_snoc, isTag]
    exact List.rel_append accounts.elements (.cons ⟨here, opens⟩ .nil)
  · rw [unsaid]
    rcases Nat.lt_or_ge number nodes.length with listed | behind
    · rw [List.getElem?_append_left listed] at found
      exact accounts.texts number node found
    · have nothing : textsIn (some number) events = [] := by
        by_contra present
        exact absurd (accounts.owned number present) (Nat.not_lt.mpr behind)
      rw [List.getElem?_append_right behind] at found
      obtain rfl : node = (depth, element) := (List.mem_singleton.mp (List.mem_of_getElem? found))
      rw [textOf, nothing, empty]
      rfl
  · rw [textsIn_snoc, noText] at present
    have bound := accounts.owned number (by simpa using present)
    rw [List.length_append]
    exact Nat.lt_add_right 1 bound

/-- A run of text adds to the text of the innermost open element. -/
theorem said (accounts : Accounts (front ++ (depth, element) :: back) events)
    (isText : event.isText = true) {text : List Char} (meaning : event.text? = some text)
    (here : (Position.atEnd events).openElements.head? = some front.length) :
    Accounts (front ++ (depth, element.appendText (String.ofList text)) :: back)
      (events ++ [event]) := by
  refine ⟨?_, fun number node found => ?_, fun number present => ?_⟩
  · rw [openings_snoc, tag?_of_isText isText, Option.map_none, Option.toList_none, List.append_nil]
    refine forall₂_exchange ?_ accounts.elements
    rintro opening ⟨sameDepth, opens⟩
    exact ⟨sameDepth, opens.named, opens.inNamespace, opens.attributed⟩
  · by_cases own : number = front.length
    · subst own
      rw [List.getElem?_append_right (Nat.le_refl _), Nat.sub_self] at found
      cases found
      have before := accounts.texts front.length (depth, element) (by simp)
      rw [textOf_snoc_of_own isText here before meaning]
      simp [Element.appendText]
    · have other : (some front.length == some number) = false := by
        simpa using Ne.symm own
      rw [textOf_snoc_of_other (by rw [here, other, Bool.and_false])]
      have changed : front ++ (depth, element.appendText (String.ofList text)) :: back =
          (front ++ (depth, element) :: back).set front.length
            (depth, element.appendText (String.ofList text)) := by simp
      rw [changed, List.getElem?_set_ne (Ne.symm own)] at found
      exact accounts.texts number node found
  · rw [List.length_append, List.length_cons]
    rw [textsIn_snoc, isText, here] at present
    by_cases own : front.length = number
    · omega
    · have other : (some front.length == some number) = false := by simpa using own
      have bound := accounts.owned number (by simpa [other] using present)
      simpa using bound

/-- A run of text outside every element belongs to none. -/
theorem outside (accounts : Accounts nodes events)
    (here : (Position.atEnd events).openElements = []) (noTag : event.tag? = none) :
    Accounts nodes (events ++ [event]) := by
  have unsaid (number : Nat) : (event.isText &&
      (Position.atEnd events).openElements.head? == some number) = false := by
    rw [here]
    exact Bool.and_false _
  refine ⟨?_, fun number node found => ?_, fun number present => ?_⟩
  · rw [openings_snoc, noTag]
    simpa using accounts.elements
  · rw [textOf_snoc_of_other (unsaid number)]
    exact accounts.texts number node found
  · rw [textsIn_snoc, unsaid] at present
    exact accounts.owned number (by simpa using present)

/-- A row of events is accounted for in one way. -/
theorem unique {others : List (Nat × Element)} (accounts : Accounts nodes events)
    (accountsOthers : Accounts others events) :
    nodes.map (fun node => (node.1, node.2.alone)) =
      others.map fun node => (node.1, node.2.alone) := by
  have length : nodes.length = others.length :=
    accounts.elements.length_eq.symm.trans accountsOthers.elements.length_eq
  refine List.ext_getElem (by simpa using length) fun number bound otherBound => ?_
  rw [List.length_map] at bound otherBound
  have opening : number < (openings events).length := accounts.elements.length_eq ▸ bound
  obtain ⟨depth, opens⟩ := accounts.elements.get opening bound
  obtain ⟨otherDepth, otherOpens⟩ := accountsOthers.elements.get opening otherBound
  have text := accounts.texts number nodes[number] (List.getElem?_eq_getElem bound)
  rw [accountsOthers.texts number others[number] (List.getElem?_eq_getElem otherBound),
    Option.some.injEq, String.toList_inj] at text
  rw [List.getElem_map, List.getElem_map]
  exact Prod.ext (depth.symm.trans otherDepth) (opens.alone_eq otherOpens text.symm)

/-- The tags stand at the depths of the elements. -/
theorem countP_depth (accounts : Accounts nodes events) (depth : Nat) :
    (openings events).countP (fun opening => opening.1 == depth) =
      nodes.countP (fun node => node.1 == depth) := by
  have depths : (openings events).map Prod.fst = nodes.map Prod.fst :=
    List.forall₂_eq_eq_eq ▸ List.forall₂_map_left_iff.mpr
      (List.forall₂_map_right_iff.mpr (accounts.elements.imp fun _ _ same => same.1))
  have counts := congrArg (List.countP (· == depth)) depths
  rwa [List.countP_map, List.countP_map] at counts

end Accounts

/-! ## Tags and their elements -/

theorem unescapes_iff {written : List Char} :
    unescapes written = true ↔ ∃ text, Reference.expand written = .ok text := by
  unfold unescapes
  cases Reference.expand written with
  | error fault => simp [Except.isOk, Except.toBool]
  | ok text => simp [Except.isOk, Except.toBool]

theorem declared?_eq_none_iff {key : List Char} :
    Scope.declared? key = none ↔ key ≠ "xmlns".toList ∧ ¬"xmlns:".toList <+: key := by
  have shape (rest : List Char) : "xmlns:".toList ++ rest = "xmlns".toList ++ ':' :: rest := rfl
  constructor
  · intro undeclared
    refine ⟨?_, ?_⟩
    · rintro rfl
      cases undeclared
    · rintro ⟨rest, rfl⟩
      rw [shape, Scope.declared?, isPrefixOf?_append] at undeclared
      cases undeclared
  · rintro ⟨other, unqualified⟩
    unfold Scope.declared?
    split
    · next found => exact absurd (by simpa using append_of_isPrefixOf? found) other
    · next qualifier found =>
      exact absurd ⟨qualifier, (append_of_isPrefixOf? found).symm⟩ unqualified
    · rfl

theorem isKept_iff {written : EventAttribute} :
    Builder.isKept written = true ↔ ¬written.IsMarkup := by
  simp only [Builder.isKept, EventAttribute.IsMarkup, Bool.and_eq_true, Option.isNone_iff_eq_none,
    declared?_eq_none_iff, bne_iff_ne, not_or, and_assoc]

theorem gives_of_attributesOf {row : List EventAttribute} {given : List (String × String)}
    (read : Builder.attributesOf row = .ok given) :
    List.Forall₂ EventAttribute.Gives (row.filter fun written => ¬written.IsMarkup) given := by
  induction row generalizing given with
  | nil =>
    cases read
    exact .nil
  | cons written row inductionHypothesis =>
    rw [Builder.attributesOf] at read
    by_cases markup : written.IsMarkup
    · rw [if_neg (mt isKept_iff.mp (not_not_intro markup))] at read
      rw [List.filter_cons_of_neg (by simpa using markup)]
      exact inductionHypothesis read
    · rw [if_pos (isKept_iff.mpr markup)] at read
      rw [List.filter_cons_of_pos (by simpa using markup)]
      split at read
      · cases read
      · next value expanded =>
        split at read
        · cases read
        · next others readOthers =>
          cases read
          exact .cons ⟨rfl, by rw [String.toList_ofList]; exact expanded⟩
            (inductionHypothesis readOthers)

theorem unescapes_of_gives {row : List EventAttribute} {given : List (String × String)}
    (gives : List.Forall₂ EventAttribute.Gives row given) :
    ∀ written ∈ row, unescapes written.value = true := by
  induction gives with
  | nil => exact fun _ member => nomatch member
  | cons first _ inductionHypothesis =>
    exact List.forall_mem_cons.mpr ⟨unescapes_iff.mpr ⟨_, first.2⟩, inductionHypothesis⟩

theorem exists_attributesOf {row : List EventAttribute}
    (readable : ∀ written ∈ row, ¬written.IsMarkup → unescapes written.value = true) :
    ∃ given, Builder.attributesOf row = .ok given := by
  induction row with
  | nil => exact ⟨[], rfl⟩
  | cons written row inductionHypothesis =>
    obtain ⟨here, behind⟩ := List.forall_mem_cons.mp readable
    obtain ⟨others, readOthers⟩ := inductionHypothesis behind
    rw [Builder.attributesOf]
    by_cases markup : written.IsMarkup
    · rw [if_neg (mt isKept_iff.mp (not_not_intro markup))]
      exact ⟨others, readOthers⟩
    · obtain ⟨value, expanded⟩ := unescapes_iff.mp (here markup)
      rw [if_pos (isKept_iff.mpr markup), expanded, readOthers]
      exact ⟨_, rfl⟩

/-- What a tag opens is read from the tag, and is still empty. -/
theorem opens_of_elementOf {tag : StartTag} {element : Element}
    (read : Builder.elementOf tag = .ok element) :
    tag.isReadable = true ∧ tag.Opens element ∧ element.text = "" ∧ element.children = [] := by
  unfold Builder.elementOf at read
  split at read
  · cases read
  · next given readRow =>
    split at read
    · cases read
    · next faultless =>
      cases read
      have gives := gives_of_attributesOf readRow
      refine ⟨?_, ⟨rfl, rfl, gives⟩, rfl, rfl⟩
      rw [StartTag.isReadable, faultless, Option.isNone_none, Bool.true_and, List.all_eq_true]
      exact unescapes_of_gives gives

theorem exists_elementOf {tag : StartTag} (readable : tag.isReadable = true) :
    ∃ element, Builder.elementOf tag = .ok element := by
  rw [StartTag.isReadable, Bool.and_eq_true, Option.isNone_iff_eq_none, List.all_eq_true]
    at readable
  obtain ⟨faultless, values⟩ := readable
  have kept : ∀ written ∈ tag.attributes, ¬written.IsMarkup → unescapes written.value = true :=
    fun written member content =>
      values written (List.mem_filter.mpr ⟨member, by simpa using content⟩)
  obtain ⟨given, read⟩ := exists_attributesOf kept
  unfold Builder.elementOf
  rw [read, faultless]
  exact ⟨_, rfl⟩

end Markup
end MuseumRecord
