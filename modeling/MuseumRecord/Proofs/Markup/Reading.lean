import MuseumRecord.Proofs.Markup.Tag

/-!
# Reading of a text event by event

A text is read from a row of open elements and an unfinished document.  Places are left out here:
they show in faults only, and a text that is read to its end has none.
-/

namespace MuseumRecord
namespace Markup

open Text

/-- The text is read to its end and gives the root, wherever it stands. -/
inductive Reads : List Frame → Builder → List Char → Element → Prop
  | done {frames : List Frame} {builder : Builder} {root : Element} :
      builder.finish = .ok root → Reads frames builder [] root
  | step {frames inner : List Frame} {builder next : Builder} {first : Char}
      {rest after : List Char} {event : Event} {root : Element} :
      Event.next frames first rest = .ok (event, inner, after) →
      (∀ place, builder.step place event = .ok next) → Reads inner next after root →
      Reads frames builder (first :: rest) root

theorem transcript_of_next {offset : Nat} {frames inner : List Frame} {first : Char}
    {rest after : List Char} {event : Event}
    (found : Event.next frames first rest = .ok (event, inner, after)) :
    Transcript.read offset frames (first :: rest) =
      let remaining := Transcript.read (offset + bytesRead (first :: rest) after) inner after
      ⟨(offset, event) :: remaining.events, remaining.failure⟩ := by
  rw [Transcript.read]
  split
  · next fault failed =>
    rw [found] at failed
    cases failed
  · next others =>
    rw [found] at others
    cases others
    rfl

/-- What is read is what the events of the text build. -/
theorem Reads.run {frames : List Frame} {builder : Builder} {text : List Char} {root : Element}
    (reads : Reads frames builder text root) (offset : Nat) :
    ∃ final, builder.run (Transcript.read offset frames text).events = .ok final ∧
      (Transcript.read offset frames text).failure = none ∧ final.finish = .ok root := by
  induction reads generalizing offset with
  | @done frames builder root finished =>
    rw [Transcript.read]
    exact ⟨builder, rfl, rfl, finished⟩
  | @step frames inner builder next first rest after event root found step _ inductionHypothesis =>
    obtain ⟨final, events, failure, finished⟩ :=
      inductionHypothesis (offset + bytesRead (first :: rest) after)
    rw [transcript_of_next found]
    refine ⟨final, ?_, failure, finished⟩
    simp only [Builder.run, step]
    exact events

theorem Builder.openTag_place {builder : Builder} {place : Nat} {tag : StartTag}
    {element : Element} (opened : builder.openTag place tag = .ok element) (other : Nat) :
    builder.openTag other tag = .ok element := by
  unfold Builder.openTag at opened ⊢
  split at opened
  · cases opened
  · next rootless =>
    split at opened
    · rw [if_neg rootless]
      exact opened
    · cases opened

theorem Builder.addText_place {builder next : Builder} {place : Nat} {text : List Char}
    (added : builder.addText place text = .ok next) (other : Nat) :
    builder.addText other text = .ok next := by
  unfold Builder.addText at added ⊢
  split at added
  · exact added
  · split at added
    · next blank =>
      rw [if_pos blank]
      exact added
    · cases added

/-- What is taken in without a fault is taken in alike in every place. -/
theorem Builder.step_place {builder next : Builder} {place : Nat} {event : Event}
    (step : builder.step place event = .ok next) (other : Nat) :
    builder.step other event = .ok next := by
  cases event with
  | opened tag =>
    simp only [Builder.step] at step ⊢
    split at step
    · next element opened =>
      rw [Builder.openTag_place opened other]
      exact step
    · cases step
  | empty tag =>
    simp only [Builder.step] at step ⊢
    split at step
    · next element opened =>
      rw [Builder.openTag_place opened other]
      exact step
    · cases step
  | closed => exact step
  | characters written =>
    simp only [Builder.step] at step ⊢
    split at step
    · exact Builder.addText_place step other
    · cases step
  | characterData text => exact Builder.addText_place step other
  | aside => exact step

/-- Whatever the events of a text build without a fault is read from the text. -/
theorem reads_of_run {offset : Nat} {frames : List Frame} {builder final : Builder}
    {text : List Char} {root : Element}
    (events : builder.run (Transcript.read offset frames text).events = .ok final)
    (failure : (Transcript.read offset frames text).failure = none)
    (finished : final.finish = .ok root) : Reads frames builder text root := by
  induction offset, frames, text using Transcript.read.induct generalizing builder with
  | case1 offset frames =>
    rw [Transcript.read] at events
    cases events
    exact .done finished
  | case2 offset frames first rest fault found =>
    rw [Transcript.read] at failure
    split at failure
    · cases failure
    · next other =>
      rw [found] at other
      cases other
  | case3 offset frames first rest event inner after found inductionHypothesis =>
    rw [transcript_of_next found] at events failure
    simp only [Builder.run] at events
    split at events
    · next next step =>
      exact .step found (Builder.step_place step) (inductionHypothesis events failure)
    · cases events

/-- The text behind a byte order mark, if there is one. -/
def behindMark : List Char → List Char
  | '\uFEFF' :: text => text
  | text => text

theorem ofText_eq (text : List Char) :
    Transcript.ofText text = Transcript.read 0 [] (behindMark text) := by
  unfold Transcript.ofText
  split
  · rfl
  · rw [behindMark]
    assumption

theorem behindMark_eq_self {text : List Char}
    (noMark : ∀ character ∈ text.head?, character ≠ '\uFEFF') : behindMark text = text := by
  unfold behindMark
  split
  · next rest => exact absurd rfl (noMark '\uFEFF' rfl)
  · rfl

/-- A document is what is read from its text behind the byte order mark. -/
theorem parse_eq_ok_iff {text : String} {root : Element} :
    parse text = .ok root ↔ Reads [] {} (behindMark text.toList) root := by
  unfold Markup.parse Transcript.document
  rw [ofText_eq]
  constructor
  · intro parsed
    split at parsed
    · cases parsed
    · next builder events =>
      split at parsed
      · cases parsed
      · next failure => exact reads_of_run events failure parsed
  · intro reads
    obtain ⟨final, events, failure, finished⟩ := reads.run 0
    rw [events, failure]
    exact finished

theorem Reads.parse {text : String} {root : Element} (reads : Reads [] {} text.toList root)
    (noMark : ∀ character ∈ text.toList.head?, character ≠ '\uFEFF') : parse text = .ok root := by
  rw [parse_eq_ok_iff, behindMark_eq_self noMark]
  exact reads

/-! ## Constructs -/

theorem next_of_read {frames inner : List Frame} {rest after : List Char} {construct : Construct}
    {event : Event} (read : Construct.read rest = .ok (construct, after))
    (resolved : Event.ofConstruct frames construct = .ok (event, inner)) :
    Event.next frames '<' rest = .ok (event, inner, after) := by
  simp only [Event.next, if_true, read, resolved]

theorem Reads.aside {frames : List Frame} {builder : Builder} {written after : List Char}
    {root : Element} (aside : WritesAside written) (reads : Reads frames builder after root) :
    Reads frames builder (written ++ after) root := by
  obtain ⟨rest, rfl, read⟩ := Construct.read_aside aside
  exact .step (next_of_read (read after) rfl) (fun _ => rfl) reads

theorem Reads.characterData {frames : List Frame} {builder next : Builder}
    {piece after : List Char} {root : Element} (free : ¬ "]]>".toList <:+: piece)
    (added : ∀ place, builder.addText place piece = .ok next)
    (reads : Reads frames next after root) :
    Reads frames builder ("<![CDATA[".toList ++ piece ++ "]]>".toList ++ after) root :=
  .step (next_of_read (Construct.read_characterData free after) rfl) added reads

/-! ## Text -/

theorem Builder.addText_nil (builder : Builder) (place : Nat) :
    builder.addText place [] = .ok builder := by
  obtain ⟨openElements, root⟩ := builder
  cases openElements with
  | nil => rfl
  | cons element outer =>
    cases element
    simp [Builder.addText, Element.appendText]

theorem Builder.addText_append {builder next last : Builder} {place : Nat}
    {left right : List Char} (first : builder.addText place left = .ok next)
    (second : next.addText place right = .ok last) :
    builder.addText place (left ++ right) = .ok last := by
  obtain ⟨openElements, root⟩ := builder
  cases openElements with
  | nil =>
    simp only [Builder.addText] at first
    split at first
    · next blankLeft =>
      cases first
      simp only [Builder.addText] at second ⊢
      split at second
      · next blankRight =>
        have blank : allBlank (left ++ right) = true := by
          rw [allBlank, List.all_append]
          exact Bool.and_eq_true_iff.mpr ⟨blankLeft, blankRight⟩
        rw [if_pos blank]
        exact second
      · cases second
    · cases first
  | cons element outer =>
    cases first
    cases second
    simp [Builder.addText, Element.appendText, String.append_assoc]

theorem next_of_characters {frames : List Frame} {first : Char} {run after : List Char}
    (noTag : '<' ∉ first :: run) (stops : ∀ character ∈ after.head?, character = '<') :
    Event.next frames first (run ++ after) = .ok (.characters (first :: run), frames, after) := by
  have whole : (run ++ after).takeWhile (fun character => character != '<') = run := by
    apply takeWhile_append_stop
    · exact bne_of_not_mem fun member => noTag (.tail _ member)
    · intro character head
      simpa using stops character head
  have different : first ≠ '<' := fun same => noTag (same ▸ List.mem_cons_self)
  simp only [Event.next, different, if_false, whole, List.drop_left]

theorem exists_run (text : List Char) :
    ∃ run after, text = run ++ after ∧ '<' ∉ run ∧ ∀ character ∈ after.head?, character = '<' := by
  induction text with
  | nil => exact ⟨[], [], rfl, by simp, by simp⟩
  | cons first rest inductionHypothesis =>
    by_cases tag : first = '<'
    · exact ⟨[], first :: rest, rfl, by simp, by simp [tag]⟩
    · obtain ⟨run, after, rfl, noTag, stops⟩ := inductionHypothesis
      exact ⟨first :: run, after, rfl, by simp [Ne.symm tag, noTag], stops⟩

/-- Text in front of a text that is read joins the text that follows it. -/
theorem Reads.characters {frames : List Frame} {builder next : Builder}
    {piece written after : List Char} {root : Element} (noTag : '<' ∉ written)
    (expansion : Reference.Expansion written piece)
    (added : ∀ place, builder.addText place piece = .ok next)
    (reads : Reads frames next after root) : Reads frames builder (written ++ after) root := by
  cases written with
  | nil =>
    -- Nothing is written, so that there is no event to read.
    cases expansion
    have same : next = builder := by
      have equal := (added 0).symm.trans (builder.addText_nil 0)
      cases equal
      rfl
    exact same ▸ reads
  | cons first run =>
    by_cases stops : ∀ character ∈ after.head?, character = '<'
    · refine .step (next_of_characters noTag stops) (fun place => ?_) reads
      simp only [Builder.step, expansion.expand, added]
    · cases reads with
      | done => simp at stops
      | @step _ inner _ last second rest remaining event _ found step reads =>
        -- What follows was read as a run of its own; together the two are one event.
        have noTagBehind : second ≠ '<' := by simpa using stops
        obtain ⟨others, behind, rfl, noTagAfter, stopsBehind⟩ := exists_run rest
        have fresh : '<' ∉ second :: others := by simp [Ne.symm noTagBehind, noTagAfter]
        rw [next_of_characters fresh stopsBehind] at found
        cases found
        have joined : Event.next frames first (run ++ second :: (others ++ remaining)) =
            .ok (.characters (first :: run ++ second :: others), frames, remaining) := by
          have both : '<' ∉ first :: (run ++ second :: others) := by
            rw [← List.cons_append, List.mem_append]
            exact not_or.mpr ⟨noTag, fresh⟩
          simpa using next_of_characters both stopsBehind
        refine .step joined (fun place => ?_) reads
        have stepped := step place
        simp only [Builder.step] at stepped ⊢
        split at stepped
        · next text expanded =>
          have whole := expansion.append (Reference.expansion_of_expandFrom expanded)
          rw [whole.expand]
          exact Builder.addText_append (added place) stepped
        · cases stepped

theorem Reads.text {frames : List Frame} {builder next : Builder} {piece written after : List Char}
    {root : Element} (escaped : Escapes piece written)
    (added : ∀ place, builder.addText place piece = .ok next)
    (reads : Reads frames next after root) : Reads frames builder (written ++ after) root :=
  .characters (Reference.tag_not_mem_of_escapes escaped) (Reference.expansion_of_escapes escaped)
    added reads

/-! ## Tags -/

theorem read_startTag {body : List Char} (inside : Construct.IsInsideTag body)
    (starts : ∃ first ∈ body.head?, isNameCharacter first) (after : List Char) :
    Construct.read (body ++ '>' :: after) = .ok (.startTag body, after) := by
  obtain ⟨first, head, isName⟩ := starts
  obtain ⟨rest, rfl⟩ := List.head?_eq_some_iff.mp head
  have ended := Construct.tagBody?_append inside after
  rw [List.cons_append] at ended ⊢
  unfold Construct.read
  split
  · next same =>
    cases same
    exact absurd isName (by decide)
  · next same =>
    cases same
    exact absurd isName (by decide)
  · next same =>
    cases same
    exact absurd isName (by decide)
  · rw [ended]

theorem head_of_writesTag {element : Element} (plain : element.IsPlain) {tag : List Char}
    (written : WritesTag element tag) (after : List Char) :
    ∃ first ∈ (tag ++ after).head?, isNameCharacter first := by
  cases written with
  | tag =>
    obtain ⟨first, rest, whole, _⟩ := plain.named.1.exists_cons
    refine ⟨first, ?_, plain.named.1.2 first (by rw [whole]; exact List.mem_cons_self)⟩
    rw [whole]
    rfl

theorem openTag_of_bare {outer : List Element} {tag : StartTag} {element : Element}
    (read : Builder.elementOf tag = .ok element) (place : Nat) :
    Builder.openTag ⟨outer, none⟩ place tag = .ok element := by
  simp [Builder.openTag, read]

/-- A start tag opens its element, whatever is bound inside. -/
theorem Reads.opened {frames : List Frame} {outer : List Element} {element root : Element}
    {tag after : List Char} (plain : element.IsPlain) (written : WritesTag element tag)
    (reads : ∀ scope, Reads (⟨element.name.toList, scope⟩ :: frames)
      ⟨element.bare :: outer, none⟩ after root) :
    Reads frames ⟨outer, none⟩ ('<' :: tag ++ '>' :: after) root := by
  obtain ⟨scope, startTag, read, built⟩ := read_writesTag plain written (currentScope frames)
  have construct := read_startTag (Construct.isInsideTag_of_writesTag plain written)
    (by simpa using head_of_writesTag plain written []) after
  have resolved : Event.ofConstruct frames (.startTag tag) =
      .ok (.opened startTag, ⟨element.name.toList, scope⟩ :: frames) := by
    simp only [Event.ofConstruct, getLast?_of_writesTag plain written, if_false, read]
  refine .step (next_of_read construct resolved) (fun place => ?_) (reads scope)
  simp only [Builder.step, openTag_of_bare built]

/-- An empty-element tag opens and closes its element. -/
theorem Reads.empty {frames : List Frame} {outer : List Element} {element root : Element}
    {tag after : List Char} (plain : element.IsPlain) (written : WritesTag element tag)
    (reads : Reads frames (Builder.close element.bare outer) after root) :
    Reads frames ⟨outer, none⟩ ('<' :: tag ++ "/>".toList ++ after) root := by
  obtain ⟨scope, startTag, read, built⟩ := read_writesTag plain written (currentScope frames)
  have slash : Construct.IsInsideTag ['/'] := Construct.isInsideTag_of_plain (by simp)
  have construct := read_startTag
    ((Construct.isInsideTag_of_writesTag plain written).append slash)
    (head_of_writesTag plain written ['/']) after
  have resolved : Event.ofConstruct frames (.startTag (tag ++ ['/'])) =
      .ok (.empty startTag, frames) := by
    simp only [Event.ofConstruct, List.getLast?_concat, if_true, List.dropLast_concat, read]
  have shape : '<' :: tag ++ "/>".toList ++ after = '<' :: (tag ++ ['/'] ++ '>' :: after) := by
    simp
  rw [shape]
  refine .step (next_of_read construct resolved) (fun place => ?_) reads
  simp only [Builder.step, openTag_of_bare built]

theorem endName_append {name space : List Char} (isName : IsName name) (isSpace : IsSpace space) :
    Event.endName (name ++ space) = name := by
  cases backwards : name.reverse with
  | nil =>
    obtain ⟨first, rest, rfl, _⟩ := isName.exists_cons
    simp at backwards
  | cons last others =>
    have member : last ∈ name := List.mem_reverse.mp (backwards ▸ List.mem_cons_self)
    have kept : isTagSpace last = false := isTagSpace_of_isNameCharacter (isName.2 last member)
    have passed : ∀ character ∈ space.reverse, isTagSpace character :=
      fun character inside => isSpace.isTagSpace character (List.mem_reverse.mp inside)
    unfold Event.endName
    rw [List.reverse_append, List.dropWhile_append_of_pos passed, backwards,
      List.dropWhile_cons_of_neg (by simp [kept])]
    simp only [← backwards, List.reverse_reverse]

/-- The end tag of the innermost open element closes it. -/
theorem Reads.closed {frames : List Frame} {scope : Scope} {outer : List Element}
    {element root : Element} {space after : List Char} (plain : element.IsPlain)
    (isSpace : IsSpace space) (reads : Reads frames (Builder.close element outer) after root) :
    Reads (⟨element.name.toList, scope⟩ :: frames) ⟨element :: outer, none⟩
      ("</".toList ++ (element.name.toList ++ space) ++ '>' :: after) root := by
  have inside : Construct.IsInsideTag (element.name.toList ++ space) :=
    .append (Construct.isInsideTag_of_isName plain.named.1)
      (Construct.isInsideTag_of_isSpace isSpace)
  have construct : Construct.read ('/' :: (element.name.toList ++ space ++ '>' :: after)) =
      .ok (.endTag (element.name.toList ++ space), after) := by
    simp only [Construct.read, Construct.tagBody?_append inside]
  have resolved : Event.ofConstruct (⟨element.name.toList, scope⟩ :: frames)
      (.endTag (element.name.toList ++ space)) = .ok (.closed, frames) := by
    simp only [Event.ofConstruct, endName_append plain.named.1 isSpace, if_true]
  exact .step (next_of_read construct resolved) (fun _ => rfl) reads

end Markup
end MuseumRecord
