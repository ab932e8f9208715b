import MuseumRecord.Proofs.Markup.Account

/-!
# Faithful documents

While its events are taken in, an unfinished document accounts for those already taken: the open
elements and what is in them, read from the outermost inwards, are what the tags have opened so far.
A text is a document exactly when its row of events is that of a document, and then the document is
the only tree that accounts for the row.
-/

namespace MuseumRecord
namespace Markup

open Text

namespace Builder

/-! ## What an unfinished document lists -/

/-- The listing of open elements, given innermost first, with what is in them so far. -/
def openFaces : List Element → List (Nat × Element)
  | [] => []
  | element :: outer => openFaces outer ++ element.faces outer.length

/-- The places of the open elements in their listing. -/
def numbers : List Element → List Nat
  | [] => []
  | _ :: outer => (openFaces outer).length :: numbers outer

/-- The listing of an unfinished document. -/
def faces (builder : Builder) : List (Nat × Element) :=
  openFaces builder.openElements ++ builder.root.toList.flatMap (Element.faces 0)

theorem length_numbers (openElements : List Element) :
    (numbers openElements).length = openElements.length := by
  induction openElements with
  | nil => rfl
  | cons element outer inductionHypothesis => exact congrArg Nat.succ inductionHypothesis

theorem faces_of_rootless (openElements : List Element) :
    faces ⟨openElements, none⟩ = openFaces openElements :=
  List.append_nil _

/-- A closed element is listed where it was listed open. -/
theorem faces_close (element : Element) (outer : List Element) :
    (close element outer).faces = openFaces outer ++ element.faces outer.length := by
  cases outer with
  | nil => simp [close, faces, openFaces]
  | cons parent others =>
    rw [close, faces_of_rootless, openFaces, Element.faces_appendChild, openFaces,
      List.append_assoc]
    rfl

theorem numbers_close (element : Element) (outer : List Element) :
    numbers (close element outer).openElements = numbers outer := by
  cases outer <;> rfl

theorem settled_close (element : Element) (outer : List Element) :
    (close element outer).root = none ∨ (close element outer).openElements = [] := by
  cases outer with
  | nil => exact .inr rfl
  | cons parent others => exact .inl rfl

/-- The document that events have built, and what it says of them. -/
structure Reflects (builder : Builder) (events : List Event) : Prop where
  /-- No element is open behind the root. -/
  settled : builder.root = none ∨ builder.openElements = []
  /-- The open elements are those that the tags leave open. -/
  position : Position.atEnd events = ⟨numbers builder.openElements, builder.faces.length⟩
  /-- Every event was read. -/
  readable : ∀ event ∈ events, event.isReadable = true
  /-- All text outside every element was blank. -/
  blank : ∀ event ∈ textsIn none events, event.text?.any allBlank = true
  /-- The listing accounts for the events. -/
  accounts : Accounts builder.faces events

variable {builder next : Builder} {events : List Event} {event : Event} {place : Nat}

theorem openTag_eq_ok {tag : StartTag} {element : Element}
    (opened : builder.openTag place tag = .ok element) :
    builder.root = none ∧ elementOf tag = .ok element := by
  unfold openTag at opened
  split at opened
  · cases opened
  · next rootless =>
    split at opened
    · next read =>
      cases opened
      exact ⟨by simpa using rootless, read⟩
    · cases opened

namespace Reflects

theorem start : Reflects {} [] where
  settled := .inl rfl
  position := rfl
  readable := fun _ member => nomatch member
  blank := fun _ member => nomatch member
  accounts := .nil

theorem depth (reflects : builder.Reflects events) :
    (Position.atEnd events).openElements.length = builder.openElements.length := by
  rw [reflects.position]
  exact length_numbers _

theorem head (reflects : builder.Reflects events) :
    (Position.atEnd events).openElements.head? = (numbers builder.openElements).head? := by
  rw [reflects.position]

theorem readable_snoc (reflects : builder.Reflects events) (readable : event.isReadable = true) :
    ∀ other ∈ events ++ [event], other.isReadable = true := by
  intro other member
  rcases List.mem_append.mp member with before | last
  · exact reflects.readable other before
  · exact List.mem_singleton.mp last ▸ readable

theorem blank_snoc (reflects : builder.Reflects events) (noText : event.isText = false) :
    ∀ other ∈ textsIn none (events ++ [event]), other.text?.any allBlank = true := by
  rw [textsIn_snoc_of_other (by rw [noText]; rfl)]
  exact reflects.blank

/-- An event that changes no listing. -/
theorem silent (reflects : builder.Reflects events) (noTag : event.tag? = none)
    (noText : event.isText = false) (readable : event.isReadable = true)
    (settled : next.root = none ∨ next.openElements = []) (faces : next.faces = builder.faces)
    (position : (Position.atEnd events).behind event =
      ⟨numbers next.openElements, next.faces.length⟩) :
    next.Reflects (events ++ [event]) where
  settled := settled
  position := by rw [Position.atEnd_snoc, position]
  readable := reflects.readable_snoc readable
  blank := reflects.blank_snoc noText
  accounts := faces ▸ reflects.accounts.silent noTag noText

/-- A tag that opens an element behind all that is listed. -/
theorem opened (reflects : builder.Reflects events) {tag : StartTag} {element : Element}
    (isTag : event.tag? = some tag) (noText : event.isText = false)
    (sameReading : event.isReadable = tag.isReadable) (read : elementOf tag = .ok element)
    (settled : next.root = none ∨ next.openElements = [])
    (faces : next.faces = builder.faces ++ element.faces builder.openElements.length)
    (position : (Position.atEnd events).behind event =
      ⟨numbers next.openElements, builder.faces.length + 1⟩) :
    next.Reflects (events ++ [event]) := by
  obtain ⟨readable, opens, empty, childless⟩ := opens_of_elementOf read
  have single : element.faces builder.openElements.length =
      [(builder.openElements.length, element)] := by
    rw [Element.faces_eq, childless, Element.facesAll_nil]
    cases element
    cases childless
    rfl
  rw [single] at faces
  exact {
    settled := settled
    position := by rw [Position.atEnd_snoc, position, faces, List.length_append]; rfl
    readable := reflects.readable_snoc (sameReading.trans readable)
    blank := reflects.blank_snoc noText
    accounts := faces ▸ reflects.accounts.opened isTag noText opens empty reflects.depth }

variable {text : List Char}

/-- Blank text outside every element is passed over. -/
theorem outside (reflects : builder.Reflects events) (isText : event.isText = true)
    (readable : event.isReadable = true) (meaning : event.text? = some text)
    (unmoved : ∀ position : Position, position.behind event = position)
    (closed : builder.openElements = []) (blank : allBlank text = true) :
    builder.Reflects (events ++ [event]) := by
  have position : (Position.atEnd events).openElements = [] := by
    rw [reflects.position, closed]
    rfl
  refine ⟨reflects.settled, ?_, reflects.readable_snoc readable, ?_,
    reflects.accounts.outside position (tag?_of_isText isText)⟩
  · rw [Position.atEnd_snoc, unmoved, reflects.position]
  · rw [textsIn_snoc]
    intro other member
    rcases List.mem_append.mp member with before | last
    · exact reflects.blank other before
    · split at last
      · rw [List.mem_singleton.mp last, meaning]
        exact blank
      · cases last

/-- Text inside an element is taken in by the innermost one that is open. -/
theorem inside {element : Element} {outer : List Element}
    (reflects : Reflects ⟨element :: outer, none⟩ events) (isText : event.isText = true)
    (readable : event.isReadable = true) (meaning : event.text? = some text)
    (unmoved : ∀ position : Position, position.behind event = position) :
    Reflects ⟨element.appendText (String.ofList text) :: outer, none⟩ (events ++ [event]) := by
  have innermost : (Position.atEnd events).openElements.head? = some (openFaces outer).length :=
    reflects.head
  have noOwner : (event.isText &&
      (Position.atEnd events).openElements.head? == none) = false := by
    rw [innermost]
    exact Bool.and_false _
  have before : faces ⟨element :: outer, none⟩ = openFaces outer ++
      (outer.length, element.alone) :: Element.facesAll (outer.length + 1) element.children := by
    rw [faces_of_rootless, openFaces, Element.faces_eq]
  have after : faces ⟨element.appendText (String.ofList text) :: outer, none⟩ =
      openFaces outer ++ (outer.length, element.alone.appendText (String.ofList text)) ::
        Element.facesAll (outer.length + 1) element.children := by
    rw [faces_of_rootless, openFaces, Element.faces_eq]
    rfl
  refine ⟨.inl rfl, ?_, reflects.readable_snoc readable, ?_, ?_⟩
  · rw [Position.atEnd_snoc, unmoved, reflects.position, before, after]
    simp [numbers]
  · rw [textsIn_snoc_of_other noOwner]
    exact reflects.blank
  · rw [after]
    exact (before ▸ reflects.accounts).said isText meaning innermost

/-- Text that is added is taken in or passed over. -/
theorem addText (reflects : builder.Reflects events) (isText : event.isText = true)
    (readable : event.isReadable = true) (meaning : event.text? = some text)
    (unmoved : ∀ position : Position, position.behind event = position)
    (added : builder.addText place text = .ok next) : next.Reflects (events ++ [event]) := by
  obtain ⟨openElements, root⟩ := builder
  cases openElements with
  | nil =>
    simp only [Builder.addText] at added
    split at added
    · next blank =>
      cases added
      exact reflects.outside isText readable meaning unmoved rfl blank
    · cases added
  | cons element outer =>
    cases added
    have rootless : root = none := reflects.settled.resolve_right (List.cons_ne_nil _ _)
    subst rootless
    exact reflects.inside isText readable meaning unmoved

/-- Every step keeps the account. -/
theorem step (reflects : builder.Reflects events) (step : builder.step place event = .ok next) :
    next.Reflects (events ++ [event]) := by
  have here := reflects.position
  cases event with
  | opened tag =>
    simp only [Builder.step] at step
    split at step
    · next element opened =>
      obtain ⟨rootless, read⟩ := openTag_eq_ok opened
      cases step
      obtain ⟨openElements, root⟩ := builder
      cases rootless
      refine reflects.opened rfl rfl rfl read (.inl rfl) ?_ ?_
      · rw [faces_of_rootless, faces_of_rootless, openFaces]
      · rw [here, faces_of_rootless]
        rfl
    · cases step
  | empty tag =>
    simp only [Builder.step] at step
    split at step
    · next element opened =>
      obtain ⟨rootless, read⟩ := openTag_eq_ok opened
      cases step
      obtain ⟨openElements, root⟩ := builder
      cases rootless
      refine reflects.opened rfl rfl rfl read (settled_close _ _) ?_ ?_
      · rw [faces_close, faces_of_rootless]
      · rw [here, numbers_close]
        rfl
    · cases step
  | closed =>
    obtain ⟨openElements, root⟩ := builder
    cases openElements with
    | nil =>
      cases step
      refine reflects.silent rfl rfl rfl reflects.settled rfl ?_
      rw [here]
      rfl
    | cons element outer =>
      cases step
      have rootless : root = none := reflects.settled.resolve_right (List.cons_ne_nil _ _)
      subst rootless
      have faces : (close element outer).faces = Builder.faces ⟨element :: outer, none⟩ := by
        rw [faces_close, faces_of_rootless, openFaces]
      refine reflects.silent rfl rfl rfl (settled_close _ _) faces ?_
      rw [here, numbers_close, faces]
      rfl
  | characters written =>
    simp only [Builder.step] at step
    split at step
    · next text expanded =>
      refine reflects.addText rfl (unescapes_iff.mpr ⟨text, expanded⟩) ?_ (fun _ => rfl) step
      rw [Event.text?, expanded]
      rfl
    · cases step
  | characterData text => exact reflects.addText rfl rfl rfl (fun _ => rfl) step
  | aside =>
    cases step
    exact reflects.silent rfl rfl rfl reflects.settled rfl here

/-- What a row of events builds accounts for the whole row. -/
theorem run {row : List (Nat × Event)} {final : Builder} (reflects : builder.Reflects events)
    (ran : builder.run row = .ok final) : final.Reflects (events ++ row.map Prod.snd) := by
  induction row generalizing builder events with
  | nil =>
    cases ran
    rwa [List.map_nil, List.append_nil]
  | cons first rest inductionHypothesis =>
    rw [Builder.run] at ran
    split at ran
    · next next stepped =>
      have behind := inductionHypothesis (reflects.step stepped) ran
      rwa [List.append_assoc] at behind
    · cases ran

/-! ## Rows that are taken in -/

/-- A second element outside every other is the only reason not to open an element. -/
theorem rootless (reflects : builder.Reflects events) {tag : StartTag}
    (isTag : event.tag? = some tag)
    (single : (openings (events ++ [event])).countP (fun opening => opening.1 == 0) ≤ 1) :
    builder.root = none := by
  cases rooted : builder.root with
  | none => rfl
  | some root =>
    have closed : builder.openElements = [] := by
      refine reflects.settled.resolve_left ?_
      rw [rooted]
      exact Option.some_ne_none root
    have listing : builder.faces = root.faces 0 := by
      simp [faces, closed, rooted, openFaces]
    have before := reflects.accounts.countP_depth 0
    have outside := reflects.depth
    rw [listing, Element.countP_depth_faces] at before
    rw [closed, List.length_nil] at outside
    rw [openings_snoc, isTag, outside, List.countP_append, before] at single
    exact absurd single (by simp)

theorem exists_openTag (reflects : builder.Reflects events) {tag : StartTag}
    (isTag : event.tag? = some tag) (readable : tag.isReadable = true)
    (single : (openings (events ++ [event])).countP (fun opening => opening.1 == 0) ≤ 1)
    (place : Nat) : ∃ element, builder.openTag place tag = .ok element := by
  obtain ⟨element, read⟩ := exists_elementOf readable
  refine ⟨element, ?_⟩
  rw [openTag, reflects.rootless isTag single, read]
  rfl

theorem exists_addText (reflects : builder.Reflects events) (isText : event.isText = true)
    (meaning : event.text? = some text)
    (blank : ∀ other ∈ textsIn none (events ++ [event]), other.text?.any allBlank = true)
    (place : Nat) : ∃ next, builder.addText place text = .ok next := by
  unfold Builder.addText
  split
  · exact ⟨_, rfl⟩
  · next outside =>
    have head := reflects.head
    rw [outside] at head
    have member : event ∈ textsIn none (events ++ [event]) := by
      rw [textsIn_snoc, isText, head]
      exact List.mem_append_right _ List.mem_cons_self
    have isBlank := blank event member
    rw [meaning] at isBlank
    exact ⟨builder, if_pos isBlank⟩

/-- An event that can be read is taken in where it may stand. -/
theorem exists_step (reflects : builder.Reflects events) (readable : event.isReadable = true)
    (single : (openings (events ++ [event])).countP (fun opening => opening.1 == 0) ≤ 1)
    (blank : ∀ other ∈ textsIn none (events ++ [event]), other.text?.any allBlank = true)
    (place : Nat) : ∃ next, builder.step place event = .ok next := by
  cases event with
  | opened tag =>
    obtain ⟨element, opened⟩ := reflects.exists_openTag rfl readable single place
    exact ⟨_, by rw [Builder.step, opened]⟩
  | empty tag =>
    obtain ⟨element, opened⟩ := reflects.exists_openTag rfl readable single place
    exact ⟨_, by rw [Builder.step, opened]⟩
  | closed =>
    cases found : builder.openElements with
    | nil => exact ⟨builder, by rw [Builder.step, found]⟩
    | cons element outer => exact ⟨close element outer, by rw [Builder.step, found]⟩
  | characters written =>
    obtain ⟨text, expanded⟩ := unescapes_iff.mp readable
    have meaning : Event.text? (.characters written) = some text := by
      rw [Event.text?, expanded]
      rfl
    obtain ⟨next, added⟩ := reflects.exists_addText rfl meaning blank place
    exact ⟨next, by rw [Builder.step, expanded]; exact added⟩
  | characterData text => exact reflects.exists_addText rfl rfl blank place
  | aside => exact ⟨builder, rfl⟩

theorem exists_run (reflects : builder.Reflects events) (row : List (Nat × Event))
    (readable : ∀ event ∈ row.map Prod.snd, event.isReadable = true)
    (single : (openings (events ++ row.map Prod.snd)).countP (fun opening => opening.1 == 0) ≤ 1)
    (blank : ∀ event ∈ textsIn none (events ++ row.map Prod.snd),
      event.text?.any allBlank = true) : ∃ final, builder.run row = .ok final := by
  induction row generalizing builder events with
  | nil => exact ⟨builder, rfl⟩
  | cons first rest inductionHypothesis =>
    obtain ⟨place, event⟩ := first
    obtain ⟨here, behind⟩ := List.forall_mem_cons.mp readable
    rw [List.map_cons, List.append_cons] at single blank
    obtain ⟨next, stepped⟩ := reflects.exists_step here
      (Nat.le_trans (openings_sublist _ _).countP_le single)
      (fun other member => blank other (textsIn_subset none _ _ member)) place
    rw [Builder.run, stepped]
    exact inductionHypothesis (reflects.step stepped) behind single blank

end Reflects

theorem finish_eq_ok {root : Element} :
    builder.finish = .ok root ↔ builder.openElements = [] ∧ builder.root = some root := by
  unfold finish
  split
  · next isOpen => simp [isOpen]
  · next closed rooted => simp [closed, rooted]
  · next closed rootless => simp [closed, rootless]

end Builder

/-! ## Documents -/

theorem Transcript.document_eq_ok {transcript : Transcript} {root : Element} :
    transcript.document = .ok root ↔ transcript.failure = none ∧
      ∃ final, Builder.run {} transcript.events = .ok final ∧ final.finish = .ok root := by
  unfold Transcript.document
  split
  · next fault failed => simp [failed]
  · next builder ran =>
    split
    · next found => simp [found]
    · next complete => simp [complete, ran]

theorem Transcript.accounts_of_document {transcript : Transcript} {root : Element}
    (read : transcript.document = .ok root) :
    transcript.IsDocument Event.isReadable ∧ Accounts (root.listing 0) transcript.row := by
  obtain ⟨complete, final, ran, finished⟩ := document_eq_ok.mp read
  obtain ⟨closed, rooted⟩ := Builder.finish_eq_ok.mp finished
  have reflects : final.Reflects transcript.row := Builder.Reflects.start.run ran
  have listing : final.faces = root.faces 0 := by
    simp [Builder.faces, closed, rooted, Builder.openFaces]
  have accounts := listing ▸ reflects.accounts
  refine ⟨⟨complete, reflects.readable, ?_, reflects.blank, ?_⟩, Accounts.alone_iff.mp accounts⟩
  · rw [accounts.countP_depth, Element.countP_depth_faces]
  · rw [reflects.position, closed]
    rfl

theorem Transcript.exists_document {transcript : Transcript}
    (isDocument : transcript.IsDocument Event.isReadable) :
    ∃ root, transcript.document = .ok root := by
  obtain ⟨final, ran⟩ := Builder.Reflects.start.exists_run transcript.events isDocument.readable
    (Nat.le_of_eq isDocument.single) isDocument.blank
  have reflects : final.Reflects transcript.row := Builder.Reflects.start.run ran
  have closed : final.openElements = [] := by
    have depth := reflects.depth
    rw [isDocument.closed] at depth
    exact List.length_eq_zero_iff.mp depth.symm
  cases rooted : final.root with
  | some root =>
    exact ⟨root, document_eq_ok.mpr ⟨isDocument.complete, final, ran,
      Builder.finish_eq_ok.mpr ⟨closed, rooted⟩⟩⟩
  | none =>
    -- Nothing is listed, although one element was opened.
    have single := reflects.accounts.countP_depth 0
    rw [isDocument.single] at single
    simp [Builder.faces, closed, rooted, Builder.openFaces] at single

/-- A row of events is accounted for by one tree. -/
theorem Accounts.tree_unique {left right : Element} {events : List Event}
    (accounts : Accounts (left.listing 0) events)
    (accountsRight : Accounts (right.listing 0) events) : left = right :=
  Element.faces_injective (accounts.unique accountsRight)

/-- A text is read exactly when its row of events is that of a document, and what is read is the one
tree whose listing accounts for the row: every element, attribute and run of text is in it once and
in its place.  Namespace declarations and schema hints leave no attribute, and they alone may hold
references that cannot be replaced. -/
theorem parse_accounts_for_events (text : String) :
    ((∃ root, parse text = .ok root) ↔
        (Transcript.ofText text.toList).IsDocument Event.isReadable) ∧
      ∀ root, parse text = .ok root ↔
        (Transcript.ofText text.toList).IsDocument Event.isReadable ∧
          Accounts (root.listing 0) (Transcript.ofText text.toList).row := by
  refine ⟨⟨?_, Transcript.exists_document⟩, fun root => ⟨Transcript.accounts_of_document, ?_⟩⟩
  · rintro ⟨root, read⟩
    exact (Transcript.accounts_of_document read).1
  · rintro ⟨isDocument, accounts⟩
    obtain ⟨other, read⟩ := Transcript.exists_document isDocument
    obtain rfl := accounts.tree_unique (Transcript.accounts_of_document read).2
    exact read

/-- A declaration whose value holds an unknown reference is passed over, and a key that is written
twice is a fault although both values are plain. -/
theorem parse_differs_from_unescaping :
    ((∃ root, parse "<a xmlns='&bad;'/>" = .ok root) ∧
        ¬(Transcript.ofText "<a xmlns='&bad;'/>".toList).IsDocument Event.unescapesWhole) ∧
      (¬∃ root, parse "<a b='1' b='2'/>" = .ok root) ∧
        (Transcript.ofText "<a b='1' b='2'/>".toList).IsDocument Event.unescapesWhole := by
  refine ⟨⟨?_, fun isDocument => ?_⟩, ?_, ?_⟩
  · have accepted : (parse "<a xmlns='&bad;'/>").isOk = true := by decide +kernel
    cases read : parse "<a xmlns='&bad;'/>" with
    | error fault => rw [read] at accepted; cases accepted
    | ok root => exact ⟨root, rfl⟩
  · have unreadable : ¬∀ event ∈ (Transcript.ofText "<a xmlns='&bad;'/>".toList).row,
        event.unescapesWhole = true := by decide +kernel
    exact unreadable isDocument.readable
  · rintro ⟨root, read⟩
    have refused : (parse "<a b='1' b='2'/>").isOk = false := by decide +kernel
    rw [read] at refused
    cases refused
  · exact ⟨by decide +kernel, by decide +kernel, by decide +kernel, by decide +kernel,
      by decide +kernel⟩

end Markup
end MuseumRecord
