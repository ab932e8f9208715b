import MuseumRecord.Markup.Sanitized
import MuseumRecord.Proofs.Markup.Locality
import MuseumRecord.Proofs.Markup.Reading

/-!
# Sanitized documents

Sanitizing looks for the marks of comments and instructions wherever they stand.  A document keeps
its meaning as long as each of its constructs that holds such a mark begins with it; inside the
quotes of a tag, in character data or in another aside the marks are taken for what they are not.
-/

namespace MuseumRecord
namespace Markup

open Text

/-! ## Constructs of a text -/

/-- The constructs of a text as they are written, up to the first that cannot be read. -/
def constructs (text : List Char) : List (List Char) :=
  match text with
  | [] => []
  | first :: rest =>
    if first = '<' then
      match _found : Construct.read rest with
      | .error _ => []
      | .ok (_, after) =>
        (first :: rest.take (rest.length - after.length)) :: constructs after
    else
      constructs rest
termination_by text.length
decreasing_by
  · exact Nat.lt_succ_of_le (Construct.length_of_read _found)
  · exact Nat.lt_succ_self _

/-- A construct that sanitizing leaves as it is or takes out as a whole. -/
def isSound (written : List Char) : Bool :=
  "<!--".toList.isPrefixOf written ||
    !contains "<!--".toList written &&
      ("<?".toList.isPrefixOf written || !contains "<?".toList written)

theorem constructs_of_read {front after : List Char} {construct : Construct}
    (read : Construct.read (front ++ '>' :: after) = .ok (construct, after)) :
    constructs ('<' :: front ++ '>' :: after) = ('<' :: front ++ ['>']) :: constructs after := by
  have width : (front ++ '>' :: after).length - after.length = (front ++ ['>']).length := by
    simp
    omega
  have taken : (front ++ '>' :: after).take (front ++ ['>']).length = front ++ ['>'] := by
    rw [show front ++ '>' :: after = front ++ ['>'] ++ after by simp, List.take_left]
  rw [List.cons_append, constructs, if_pos rfl]
  split
  · next failed =>
    rw [read] at failed
    cases failed
  · next others =>
    rw [read] at others
    cases others
    rw [width, taken, List.cons_append]

theorem constructs_append {run : List Char} (noTag : '<' ∉ run) (text : List Char) :
    constructs (run ++ text) = constructs text := by
  induction run with
  | nil => rfl
  | cons first run inductionHypothesis =>
    obtain ⟨different, others⟩ := not_or.mp (List.mem_cons.not.mp noTag)
    rw [List.cons_append, constructs, if_neg (Ne.symm different), inductionHypothesis others]

/-! ## Reading by pieces -/

/-- The first event of a text is that of a construct or of a run of text. -/
theorem next_cases {frames inner : List Frame} {first : Char} {rest after : List Char}
    {event : Event} (found : Event.next frames first rest = .ok (event, inner, after)) :
    (first = '<' ∧ ∃ construct, Construct.read rest = .ok (construct, after) ∧
      Event.ofConstruct frames construct = .ok (event, inner)) ∨
    ∃ run, rest = run ++ after ∧ '<' ∉ first :: run ∧ (∀ character ∈ after.head?, character = '<') ∧
      event = .characters (first :: run) ∧ inner = frames := by
  by_cases tag : first = '<'
  · left
    simp only [Event.next, if_pos tag] at found
    split at found
    · cases found
    · next construct behind read =>
      split at found
      · cases found
      · next resolved =>
        cases found
        exact ⟨tag, construct, read, resolved⟩
  · right
    obtain ⟨run, behind, rfl, noTag, stops⟩ := exists_run rest
    have fresh : '<' ∉ first :: run := by simp [Ne.symm tag, noTag]
    rw [next_of_characters fresh stops] at found
    cases found
    exact ⟨run, rfl, fresh, stops, rfl, rfl⟩

/-- What holds of the end of a text and passes over constructs and runs of text holds of every text
that is read. -/
@[elab_as_elim] theorem Reads.pieces {root : Element}
    {motive : ∀ {frames builder text}, Reads frames builder text root → Prop}
    (done : ∀ {frames : List Frame} {builder : Builder} (whole : Reads frames builder [] root),
      builder.finish = .ok root → motive whole)
    (construct : ∀ {frames inner : List Frame} {builder next : Builder} {front after : List Char}
      {found : Construct} {event : Event}
      (whole : Reads frames builder ('<' :: front ++ '>' :: after) root)
      (reads : Reads inner next after root),
      (∀ other, Construct.read (front ++ '>' :: other) = .ok (found, other)) →
      Event.ofConstruct frames found = .ok (event, inner) →
      (∀ place, builder.step place event = .ok next) → motive reads → motive whole)
    (characters : ∀ {frames : List Frame} {builder next : Builder} {run after piece : List Char}
      (whole : Reads frames builder (run ++ after) root) (reads : Reads frames next after root),
      '<' ∉ run → (∀ character ∈ after.head?, character = '<') →
      Reference.Expansion run piece → (∀ place, builder.addText place piece = .ok next) →
      motive reads → motive whole)
    {frames : List Frame} {builder : Builder} {text : List Char}
    (reads : Reads frames builder text root) : motive reads := by
  induction reads with
  | done finished => exact done (.done finished) finished
  | @step frames inner builder next first rest after event root found step reads
      inductionHypothesis =>
    have whole := Reads.step found step reads
    rcases next_cases found with ⟨rfl, kind, read, resolved⟩ | ⟨run, rfl, noTag, stops, rfl, rfl⟩
    · obtain ⟨front, rfl, again⟩ := Construct.read_local read
      exact construct whole reads again resolved step
        (inductionHypothesis done construct characters)
    · have stepped := step 0
      simp only [Builder.step] at stepped
      split at stepped
      · next piece expanded =>
        exact characters whole reads noTag stops (Reference.expansion_of_expandFrom expanded)
          (Builder.addText_place stepped) (inductionHypothesis done construct characters)
      · cases stepped

/-! ## Taking enclosed constructs out -/

/-- Constructs that begin with `<` and the given tail end at the closing mark and leave nothing. -/
def Encloses (tail closing : List Char) : Prop :=
  '>' ∉ tail ∧ ∀ {inside after construct},
    Construct.read (tail ++ inside) = .ok (construct, after) →
      construct = .aside ∧ ∃ within, cut closing inside = some (within, after)

theorem encloses_comment : Encloses "!--".toList "-->".toList := by
  refine ⟨by decide, fun {inside after construct} read => ?_⟩
  have shape : "!--".toList ++ inside = '!' :: '-' :: '-' :: inside := rfl
  have opened : ("--".toList.isPrefixOf? ('-' :: '-' :: inside)).bind (cut "-->".toList) =
      cut "-->".toList inside := rfl
  rw [shape, Construct.read, Construct.readDeclaration, opened] at read
  split at read
  · next within behind division =>
    cases read
    exact ⟨rfl, within, division⟩
  · cases read

theorem encloses_instruction : Encloses "?".toList "?>".toList := by
  refine ⟨by decide, fun {inside after construct} read => ?_⟩
  have unfolded : Construct.read ("?".toList ++ inside) = Construct.readInstruction inside := rfl
  rw [unfolded, Construct.readInstruction.eq_def] at read
  split at read
  · cases read
  · split at read
    · next within behind division =>
      cases read
      exact ⟨rfl, within, division⟩
    · cases read

/-- Where every construct that holds an opening mark begins with it, taking the enclosed stretches
out takes out these constructs, and what is read stays the same. -/
theorem Reads.withoutEnclosed {tail closing text : List Char} {frames : List Frame}
    {builder : Builder} {root : Element} (encloses : Encloses tail closing)
    (reads : Reads frames builder text root)
    (sound : ∀ written ∈ constructs text, '<' :: tail <+: written ∨ ¬ '<' :: tail <:+: written) :
    Reads frames builder (Text.withoutEnclosed ('<' :: tail) closing text) root ∧
      constructs (Text.withoutEnclosed ('<' :: tail) closing text) =
        (constructs text).filter fun written => !('<' :: tail).isPrefixOf written := by
  have nonempty : '<' :: tail ≠ [] := List.cons_ne_nil _ _
  induction reads using Reads.pieces with
  | done _ finished =>
    rw [withoutEnclosed_of_uncut rfl]
    exact ⟨.done finished, by simp [constructs]⟩
  | @construct frames inner builder next front after found event _ _ again resolved step
      inductionHypothesis =>
    rw [constructs_of_read (again after)] at sound ⊢
    obtain ⟨here, others⟩ := List.forall_mem_cons.mp sound
    obtain ⟨behind, kept⟩ := inductionHypothesis others
    by_cases opens : '<' :: tail <+: '<' :: front ++ ['>']
    · obtain ⟨inside, written⟩ := opens
      have same : front ++ '>' :: after = tail ++ (inside ++ after) := by
        have inner : tail ++ inside = front ++ ['>'] := (List.cons.inj written).2
        rw [← List.append_assoc, inner]
        simp
      obtain ⟨rfl, within, closed⟩ := encloses.2 (same ▸ again after)
      cases resolved
      have unchanged : builder = next := by
        have equal := step 0
        cases equal
        rfl
      have dropped : ('<' :: tail).isPrefixOf ('<' :: front ++ ['>']) = true :=
        List.isPrefixOf_iff_prefix.mpr ⟨inside, written⟩
      have taken := withoutEnclosed_leading nonempty closed
      rw [List.cons_append, ← same] at taken
      rw [List.cons_append, taken, unchanged, List.filter_cons_of_neg (by rw [dropped]; decide)]
      exact ⟨behind, kept⟩
    · have clear : IsClear ('<' :: tail) ('<' :: front ++ ['>']) :=
        isClear_of_last (by simpa using encloses.1) (here.resolve_left opens)
      have stays : ('<' :: tail).isPrefixOf ('<' :: front ++ ['>']) = false :=
        Bool.eq_false_iff.mpr fun begins => opens (List.isPrefixOf_iff_prefix.mp begins)
      have shape (rest : List Char) :
          '<' :: front ++ ['>'] ++ rest = '<' :: front ++ '>' :: rest := by simp
      rw [← shape, withoutEnclosed_append nonempty clear, shape,
        List.filter_cons_of_pos (by rw [stays]; rfl)]
      refine ⟨.step (next_of_read (again _) resolved) step behind, ?_⟩
      rw [constructs_of_read (again _), kept]
  | @characters frames builder next run after piece _ _ noTag stops expansion added
      inductionHypothesis =>
    rw [constructs_append noTag] at sound ⊢
    obtain ⟨behind, kept⟩ := inductionHypothesis sound
    rw [withoutEnclosed_append nonempty (isClear_of_not_mem noTag), constructs_append noTag]
    exact ⟨.characters noTag expansion added behind, kept⟩

/-! ## Trimming -/

/-- Outside every element a text begins with a blank, a reference or a construct. -/
theorem Reads.exists_after_blank {frames : List Frame} {rooted : Option Element} {first : Char}
    {rest : List Char} {root : Element} (reads : Reads frames ⟨[], rooted⟩ (first :: rest) root)
    (noTag : first ≠ '<') (noReference : first ≠ '&') :
    isBlank first = true ∧ Reads frames ⟨[], rooted⟩ rest root := by
  cases reads with
  | @step _ inner _ next _ _ after event _ found step reads =>
    rcases next_cases found with ⟨tag, _⟩ | ⟨run, rfl, fresh, _, rfl, rfl⟩
    · exact absurd tag noTag
    · have stepped := step 0
      simp only [Builder.step] at stepped
      split at stepped
      · next piece expanded =>
        cases Reference.expansion_of_expandFrom expanded with
        | reference => exact absurd rfl noReference
        | @plain _ _ text _ expansion =>
          simp only [Builder.addText] at stepped
          split at stepped
          · next blank =>
            cases stepped
            obtain ⟨here, others⟩ := Bool.and_eq_true_iff.mp blank
            have added (place : Nat) :
                Builder.addText ⟨[], rooted⟩ place text = .ok ⟨[], rooted⟩ := if_pos others
            exact ⟨here, .characters (fun member => fresh (.tail _ member)) expansion added reads⟩
          · cases stepped
      · cases stepped

theorem Reads.trimStart {frames : List Frame} {rooted : Option Element} {text : List Char}
    {root : Element} (reads : Reads frames ⟨[], rooted⟩ text root) :
    Reads frames ⟨[], rooted⟩ (Text.trimStart text) root := by
  induction text with
  | nil => exact reads
  | cons first rest inductionHypothesis =>
    by_cases blank : isBlank first = true
    · have noTag : first ≠ '<' := by
        rintro rfl
        exact absurd blank (by decide)
      have noReference : first ≠ '&' := by
        rintro rfl
        exact absurd blank (by decide)
      have dropped : Text.trimStart (first :: rest) = Text.trimStart rest :=
        List.dropWhile_cons_of_pos blank
      rw [dropped]
      exact inductionHypothesis (reads.exists_after_blank noTag noReference).2
    · have kept : Text.trimStart (first :: rest) = first :: rest :=
        List.dropWhile_cons_of_neg blank
      rw [kept]
      exact reads

theorem Builder.addText_empty {builder next : Builder} {place : Nat} {text : List Char}
    (added : builder.addText place text = .ok next) (closed : next.openElements = []) :
    next = builder ∧ allBlank text = true ∧ builder.openElements = [] := by
  obtain ⟨openElements, root⟩ := builder
  cases openElements with
  | nil =>
    simp only [Builder.addText] at added
    split at added
    · next blank =>
      cases added
      exact ⟨rfl, blank, rfl⟩
    · cases added
  | cons element outer =>
    cases added
    cases closed

/-- Blanks behind the last construct stand outside every element. -/
theorem Reads.trimEnd {frames : List Frame} {builder : Builder} {text : List Char}
    {root : Element} (reads : Reads frames builder text root) :
    Reads frames builder (Text.trimEnd text) root := by
  induction reads using Reads.pieces with
  | done whole _ => exact whole
  | @construct frames inner builder next front after found event _ _ again resolved step
      inductionHypothesis =>
    rw [trimEnd_append_of_solid _ (show isBlank '>' = false from rfl)]
    exact .step (next_of_read (again _) resolved) step inductionHypothesis
  | @characters frames builder next run after piece _ reads noTag stops expansion added
      inductionHypothesis =>
    cases after with
    | cons head rest =>
      obtain rfl : head = '<' := stops head rfl
      have solid : isBlank '<' = false := rfl
      rw [trimEnd_append_of_solid run solid]
      rw [trimEnd_cons_of_solid solid] at inductionHypothesis
      exact .characters noTag expansion added inductionHypothesis
    | nil =>
      cases reads with
      | done finished =>
        have closed : next.openElements = [] := by
          unfold Builder.finish at finished
          split at finished
          · cases finished
          · assumption
          · cases finished
        obtain ⟨rfl, blank, outside⟩ := Builder.addText_empty (added 0) closed
        obtain ⟨blanks, whole, allBlanks⟩ := exists_trimEnd run
        have absent {special : Char} (solid : isBlank special = false) : special ∉ blanks := by
          intro member
          rw [allBlanks special member] at solid
          cases solid
        rw [whole] at expansion noTag
        obtain ⟨front, rfl, kept⟩ := expansion.exists_of_append (absent rfl) (absent rfl)
        have frontBlank : allBlank front = true := by
          rw [allBlank, List.all_append] at blank
          exact (Bool.and_eq_true_iff.mp blank).1
        have frontAdded (place : Nat) : next.addText place front = .ok next := by
          simp only [Builder.addText, outside, if_pos frontBlank]
        have fresh : '<' ∉ Text.trimEnd run := fun member => noTag (List.mem_append_left _ member)
        have joined : Reads frames next (Text.trimEnd run ++ []) root :=
          .characters fresh kept frontAdded (.done finished)
        rw [List.append_nil] at joined ⊢
        exact joined

/-! ## Sanitizing -/

theorem isSound_iff {written : List Char} :
    isSound written = true ↔ "<!--".toList <+: written ∨
      ¬ "<!--".toList <:+: written ∧
        ("<?".toList <+: written ∨ ¬ "<?".toList <:+: written) := by
  simp only [isSound, Bool.or_eq_true, Bool.and_eq_true, Bool.not_eq_true', List.isPrefixOf_iff_prefix,
    ← Bool.not_eq_true, contains_iff]

/-- Text that is read and whose constructs are sound is read alike without its comments and without
its instructions. -/
theorem Reads.withoutAsides {frames : List Frame} {builder : Builder} {text : List Char}
    {root : Element} (reads : Reads frames builder text root)
    (sound : ∀ written ∈ constructs text, isSound written = true) :
    Reads frames builder (withoutInstructions (withoutComments text)) root := by
  have comments : ∀ written ∈ constructs text,
      '<' :: "!--".toList <+: written ∨ ¬ '<' :: "!--".toList <:+: written := by
    intro written member
    rcases isSound_iff.mp (sound written member) with begins | ⟨free, _⟩
    · exact .inl begins
    · exact .inr free
  obtain ⟨uncommented, kept⟩ := reads.withoutEnclosed encloses_comment comments
  refine (uncommented.withoutEnclosed encloses_instruction fun written member => ?_).1
  rw [kept, List.mem_filter] at member
  rcases isSound_iff.mp (sound written member.1) with begins | ⟨_, rest⟩
  · have dropped : ('<' :: "!--".toList).isPrefixOf written = true :=
      List.isPrefixOf_iff_prefix.mpr begins
    simp only [dropped, Bool.not_true, Bool.false_eq_true] at member
    exact member.2.elim
  · exact rest

theorem sanitized_behind_mark (text : List Char) :
    sanitized ('\uFEFF' :: text) =
      '\uFEFF' :: Text.trimEnd (withoutInstructions (withoutComments text)) := by
  have fresh : '<' ∉ ['\uFEFF'] := by decide
  have comments : withoutComments ('\uFEFF' :: text) = '\uFEFF' :: withoutComments text :=
    withoutEnclosed_append (List.cons_ne_nil _ _) (isClear_of_not_mem fresh) text
  have instructions (rest : List Char) :
      withoutInstructions ('\uFEFF' :: rest) = '\uFEFF' :: withoutInstructions rest :=
    withoutEnclosed_append (List.cons_ne_nil _ _) (isClear_of_not_mem fresh) rest
  have solid : isBlank '\uFEFF' = false := by decide
  rw [sanitized, comments, instructions, trim, Text.trimStart,
    List.dropWhile_cons_of_neg (by simp [solid]), trimEnd_cons_of_solid solid]

/-- A document whose constructs are sound says the same when it is sanitized. -/
theorem parse_sanitize {text : String} {root : Element} (parsed : parse text = .ok root)
    (sound : ∀ written ∈ constructs text.toList, isSound written = true) :
    parse (sanitize text) = .ok root := by
  rw [parse_eq_ok_iff] at parsed ⊢
  rw [sanitize, String.toList_ofList]
  by_cases marked : text.toList.head? = some '\uFEFF'
  · obtain ⟨rest, whole⟩ := List.head?_eq_some_iff.mp marked
    have fresh : '<' ∉ ['\uFEFF'] := by decide
    have same : constructs text.toList = constructs rest := by
      rw [whole]
      exact constructs_append fresh rest
    rw [whole] at parsed ⊢
    rw [same] at sound
    rw [sanitized_behind_mark]
    exact (Reads.withoutAsides parsed sound).trimEnd
  · have noMark : ∀ character ∈ text.toList.head?, character ≠ '\uFEFF' := by
      rintro character head rfl
      exact marked head
    rw [behindMark_eq_self noMark] at parsed
    have reads : Reads [] {} (sanitized text.toList) root :=
      (parsed.withoutAsides sound).trimStart.trimEnd
    rw [behindMark_eq_self]
    · exact reads
    · rintro character head rfl
      -- A byte order mark that only came to the front would be text outside every element.
      obtain ⟨rest, begins⟩ := List.head?_eq_some_iff.mp head
      rw [begins] at reads
      have blank := (reads.exists_after_blank (by decide) (by decide)).1
      exact absurd blank (by decide)

/-- A document with a declaration, comments, an instruction and blanks around it. -/
def commentedText : String :=
  "<?xml?>\n<!-- <b> --> <a b='c'>x<!-- ?> -->y<?p -?></a>\n"

theorem parse_sanitize_commentedText :
    ∃ root, parse commentedText = .ok root ∧ parse (sanitize commentedText) = .ok root := by
  cases parsed : parse commentedText with
  | error fault =>
    have readable : (parse commentedText).isOk = true := by decide +kernel
    rw [parsed] at readable
    cases readable
  | ok root => exact ⟨root, rfl, parse_sanitize parsed (by decide +kernel)⟩

/-- Character data that looks like a comment is taken out of the text it belongs to, and a mark in
the quotes of a tag takes the tag with it. -/
theorem sanitize_loses_text :
    (parse "<a><![CDATA[<!--x-->]]></a>").toOption.map Element.text = some "<!--x-->" ∧
      (parse (sanitize "<a><![CDATA[<!--x-->]]></a>")).toOption.map Element.text = some "" ∧
      (parse "<a b='<!--'/><!-- -->").isOk = true ∧
      (parse (sanitize "<a b='<!--'/><!-- -->")).isOk = false := by
  decide +kernel

end Markup
end MuseumRecord
