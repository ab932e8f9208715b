import MuseumRecord.Proofs.Markup.Reading

/-!
# Parsing undoes writing

Whatever way a tree is written, its text is parsed to that tree: text comes back character for
character, children come back in order, and the bindings of an element end with it.
-/

namespace MuseumRecord
namespace Markup

open Text

/-! ## Content -/

/-- The element with more text and more children at its end. -/
def Element.grown (element : Element) (text : List Char) (children : List Element) : Element :=
  { element with
    text := element.text ++ String.ofList text
    children := element.children ++ children }

theorem Element.grown_nil (element : Element) : element.grown [] [] = element := by
  cases element
  simp [grown]

theorem Element.grown_appendText (element : Element) (piece text : List Char)
    (children : List Element) :
    (element.appendText (String.ofList piece)).grown text children =
      element.grown (piece ++ text) children := by
  simp [grown, appendText, String.append_assoc]

theorem Element.grown_appendChild (element child : Element) (text : List Char)
    (children : List Element) :
    (element.appendChild child).grown text children = element.grown text (child :: children) := by
  simp [grown, appendChild]

theorem Element.grown_bare (element : Element) :
    element.bare.grown element.text.toList element.children = element := by
  cases element
  simp [grown, bare]

-- Both theorems follow the derivation of the writing, an element and its content in turn.  The
-- open elements and the bindings around are arbitrary, so that what an element declares is
-- forgotten with its end tag.
mutual

/-- A written element is read as one more child, or as the root. -/
theorem Writes.reads : {element : Element} → {written : List Char} → Writes element written →
    element.Everywhere Element.IsPlain → ∀ {frames : List Frame} {outer : List Element}
      {after : List Char} {root : Element},
      Reads frames (Builder.close element outer) after root →
      Reads frames ⟨outer, none⟩ (written ++ after) root
  | element, _, .empty noText noChildren opened, .node plain _, _, _, _, _, reads => by
    have same : element.bare = element := by
      cases element
      cases noText
      cases noChildren
      rfl
    exact Reads.empty plain opened (same.symm ▸ reads)
  | _, _, .full opened content isSpace, .node plain below, _, _, _, _, reads => by
    simp only [List.append_assoc, List.cons_append, List.nil_append]
    apply Reads.opened plain opened
    intro scope
    apply WritesContent.reads content below
    rw [Element.grown_bare]
    simpa using Reads.closed plain isSpace reads

/-- Written content is read as text and children of the innermost open element. -/
theorem WritesContent.reads : {text : List Char} → {children : List Element} →
    {content : List Char} → WritesContent text children content →
    (∀ child ∈ children, child.Everywhere Element.IsPlain) → ∀ {frames : List Frame}
      {parent : Element} {outer : List Element} {after : List Char} {root : Element},
      Reads frames ⟨parent.grown text children :: outer, none⟩ after root →
      Reads frames ⟨parent :: outer, none⟩ (content ++ after) root
  | _, _, _, .done, _, _, _, _, _, _, reads => by
    rwa [Element.grown_nil] at reads
  | _, _, _, .text escaped rest, below, _, _, _, _, _, reads => by
    rw [← Element.grown_appendText] at reads
    rw [List.append_assoc]
    exact Reads.text escaped (fun _ => rfl) (WritesContent.reads rest below reads)
  | _, _, _, .characterData free rest, below, _, _, _, _, _, reads => by
    rw [← Element.grown_appendText] at reads
    rw [List.append_assoc]
    exact Reads.characterData free (fun _ => rfl) (WritesContent.reads rest below reads)
  | _, _, _, .aside written rest, below, _, _, _, _, _, reads => by
    rw [List.append_assoc]
    exact Reads.aside written (WritesContent.reads rest below reads)
  | _, _, _, .child written rest, below, _, _, _, _, _, reads => by
    rw [← Element.grown_appendChild] at reads
    rw [List.append_assoc]
    have others := WritesContent.reads rest (fun child member => below child (.tail _ member)) reads
    exact Writes.reads written (below _ List.mem_cons_self) others

end

/-! ## Documents -/

theorem isBlank_of_mem {character : Char} (space : character ∈ spaceCharacters) :
    isBlank character := by
  have every : spaceCharacters.all isBlank = true := by decide
  exact List.all_eq_true.mp every character space

/-- What stands around the root leaves no trace. -/
theorem WritesSurroundings.reads {written after : List Char} {builder : Builder} {root : Element}
    (around : WritesSurroundings written) (outside : builder.openElements = [])
    (reads : Reads [] builder after root) : Reads [] builder (written ++ after) root := by
  induction around with
  | done => exact reads
  | @space character rest space _ inductionHypothesis =>
    have noReference : character ≠ '&' := fun same => absurd (same ▸ space) (by decide)
    have noTag : character ≠ '<' := fun same => absurd (same ▸ space) (by decide)
    have added (place : Nat) : builder.addText place [character] = .ok builder := by
      simp [Builder.addText, outside, allBlank, isBlank_of_mem space]
    have single : Escapes [character] [character] := .plain noReference noTag .done
    have joined := Reads.text single added inductionHypothesis
    exact joined
  | aside written _ inductionHypothesis =>
    rw [List.append_assoc]
    exact Reads.aside written inductionHypothesis

/-- A written document begins with a space or with a bracket. -/
theorem head_of_writesDocument {root : Element} {text : List Char}
    (written : WritesDocument root text) :
    ∀ character ∈ text.head?, character ∈ spaceCharacters ∨ character = '<' := by
  intro character head
  cases written with
  | document before element _ =>
    cases before with
    | done => cases element <;> exact .inr (by simpa using head.symm)
    | space space _ => exact .inl (by simpa using (by simpa using head : _ = character) ▸ space)
    | aside aside _ => cases aside <;> exact .inr (by simpa using head.symm)

/-- Parsing undoes writing: a text in which every element of the tree declares its namespace,
values are quoted and escaped, and the text of an element is cut into pieces among its children,
is parsed to that very tree. -/
theorem parse_of_writesDocument {tree : Element} {text : String}
    (plain : tree.Everywhere Element.IsPlain) (written : WritesDocument tree text.toList) :
    parse text = .ok tree := by
  apply Reads.parse
  · revert written
    generalize text.toList = characters
    rintro ⟨before, element, behind⟩
    rw [List.append_assoc]
    apply before.reads rfl
    apply element.reads plain
    have final : Reads [] (Builder.close tree []) [] tree := .done rfl
    simpa using behind.reads rfl final
  · intro character head mark
    rcases head_of_writesDocument written character head with space | bracket
    · exact absurd (mark ▸ space) (by decide)
    · exact absurd (mark.symm.trans bracket) (by decide)

theorem parse_sampleText :
    sampleTree.Everywhere Element.IsPlain ∧ WritesDocument sampleTree sampleText.toList ∧
      parse sampleText = .ok sampleTree :=
  ⟨sampleTree_plain, sampleText_written,
    parse_of_writesDocument sampleTree_plain sampleText_written⟩

end Markup
end MuseumRecord
