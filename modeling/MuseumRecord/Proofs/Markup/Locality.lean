import MuseumRecord.Markup.Construct
import MuseumRecord.Proofs.Text.Enclosed

/-!
# Locality of constructs

Every construct ends with a `>`, and it is read alike whatever follows that bracket.
-/

namespace MuseumRecord
namespace Markup
namespace Construct

open Text

theorem tagBody?_local {quote : Option Char} {text body after : List Char}
    (found : tagBody? quote text = some (body, after)) :
    text = body ++ '>' :: after ∧
      ∀ other, tagBody? quote (body ++ '>' :: other) = some (body, other) := by
  induction text generalizing quote body with
  | nil => simp [tagBody?] at found
  | cons character rest inductionHypothesis =>
    unfold tagBody? at found
    cases quote with
    | some quoted =>
      obtain ⟨⟨inner, behind⟩, read, equal⟩ := Option.map_eq_some_iff.mp found
      cases equal
      obtain ⟨rfl, again⟩ := inductionHypothesis read
      refine ⟨rfl, fun other => ?_⟩
      simp only [List.cons_append, tagBody?, again, Option.map_some]
    | none =>
      simp only at found
      split at found
      · next ends =>
        cases found
        subst ends
        exact ⟨rfl, fun other => by simp [tagBody?]⟩
      · next goesOn =>
        obtain ⟨⟨inner, behind⟩, read, equal⟩ := Option.map_eq_some_iff.mp found
        cases equal
        obtain ⟨rfl, again⟩ := inductionHypothesis read
        refine ⟨rfl, fun other => ?_⟩
        simp only [List.cons_append, tagBody?, if_neg goesOn, again, Option.map_some]

theorem balancedBody?_local {depth : Nat} {text body after : List Char}
    (found : balancedBody? depth text = some (body, after)) :
    text = body ++ '>' :: after ∧
      ∀ other, balancedBody? depth (body ++ '>' :: other) = some (body, other) := by
  induction text generalizing depth body with
  | nil => simp [balancedBody?] at found
  | cons character rest inductionHypothesis =>
    unfold balancedBody? at found
    split at found
    · next ends =>
      cases found
      obtain ⟨rfl, rfl⟩ := ends
      exact ⟨rfl, fun other => by simp [balancedBody?]⟩
    · next goesOn =>
      obtain ⟨⟨inner, behind⟩, read, equal⟩ := Option.map_eq_some_iff.mp found
      cases equal
      obtain ⟨rfl, again⟩ := inductionHypothesis read
      refine ⟨rfl, fun other => ?_⟩
      simp only [List.cons_append, balancedBody?, if_neg goesOn, again, Option.map_some]

theorem opened_cut_local {opening closing text inside after : List Char}
    (found : (opening.isPrefixOf? text).bind (cut closing) = some (inside, after)) :
    text = opening ++ (inside ++ closing ++ after) ∧
      ∀ other, (opening.isPrefixOf? (opening ++ (inside ++ closing ++ other))).bind (cut closing) =
        some (inside, other) := by
  obtain ⟨rest, leading, division⟩ := Option.bind_eq_some_iff.mp found
  refine ⟨?_, fun other => ?_⟩
  · rw [append_of_isPrefixOf? leading, cut_eq_some division]
  · rw [isPrefixOf?_append, Option.bind_some, cut_append_right division]

/-- A reader takes the construct with its closing bracket, and takes it alike in front of any other
text. -/
def TakesLocally (reader : List Char → Except MarkupFault (Construct × List Char))
    (text : List Char) (construct : Construct) (after : List Char) : Prop :=
  ∃ front, text = front ++ '>' :: after ∧
    ∀ other, reader (front ++ '>' :: other) = .ok (construct, other)

/-- What stands in front of a bracket begins a text alike whatever follows the bracket. -/
theorem bracketed_head {front rest other : List Char} {first : Char}
    (same : front ++ '>' :: other = first :: rest) (after : List Char) :
    ∃ tail, front ++ '>' :: after = first :: tail := by
  cases front with
  | nil =>
    cases same
    exact ⟨after, rfl⟩
  | cons head front =>
    cases same
    exact ⟨front ++ '>' :: after, rfl⟩

theorem length_of_lowerAscii {text other : List Char} (same : lowerAscii text = other) :
    text.length = other.length := by
  rw [← same, lowerAscii, List.length_map]

theorem readDeclaration_of_comment {text inside after : List Char}
    (opened : ("--".toList.isPrefixOf? text).bind (cut "-->".toList) = some (inside, after)) :
    readDeclaration text = .ok (.aside, after) := by
  obtain ⟨rest, leading, _⟩ := Option.bind_eq_some_iff.mp opened
  have shape : text = '-' :: '-' :: rest := append_of_isPrefixOf? leading
  rw [shape] at opened ⊢
  rw [readDeclaration, opened]

theorem readDeclaration_of_characterData {text inside after : List Char}
    (opened : ("[CDATA[".toList.isPrefixOf? text).bind (cut "]]>".toList) = some (inside, after)) :
    readDeclaration text = .ok (.characterData inside, after) := by
  obtain ⟨rest, leading, _⟩ := Option.bind_eq_some_iff.mp opened
  have shape : text = '[' :: ("CDATA[".toList ++ rest) := append_of_isPrefixOf? leading
  rw [shape] at opened ⊢
  rw [readDeclaration, opened]

theorem readDeclaration_of_documentType {first : Char} {letters inside after : List Char}
    (letter : first = 'D' ∨ first = 'd')
    (keyword : lowerAscii (first :: letters) = "doctype".toList)
    (balanced : balancedBody? 0 (inside ++ '>' :: after) = some (inside, after))
    (named : ¬ inside.all isTagSpace = true) :
    readDeclaration (first :: letters ++ (inside ++ '>' :: after)) = .ok (.aside, after) := by
  have width : (first :: letters).length = 7 := length_of_lowerAscii keyword
  have kept : (first :: letters ++ (inside ++ '>' :: after)).take 7 = first :: letters :=
    List.take_left' width
  have dropped : (first :: letters ++ (inside ++ '>' :: after)).drop 7 = inside ++ '>' :: after :=
    List.drop_left' width
  rw [List.cons_append] at kept dropped ⊢
  rw [readDeclaration, if_pos letter, kept, if_pos keyword, dropped, balanced]
  · simp only [if_neg named]
  · rintro rfl
    exact absurd letter (by decide)
  · rintro rfl
    exact absurd letter (by decide)

/-- What stands between two marks is taken locally when the second one ends with the bracket. -/
theorem TakesLocally.of_opened {reader : List Char → Except MarkupFault (Construct × List Char)}
    {opening mark text inside after : List Char} {construct : Construct} (closing : List Char)
    (opened : (opening.isPrefixOf? text).bind (cut mark) = some (inside, after))
    (ends : mark = closing ++ ['>'])
    (reads : ∀ {text after : List Char},
      (opening.isPrefixOf? text).bind (cut mark) = some (inside, after) →
        reader text = .ok (construct, after)) : TakesLocally reader text construct after := by
  obtain ⟨whole, again⟩ := opened_cut_local opened
  refine ⟨opening ++ (inside ++ closing), by simp [whole, ends], fun other => reads ?_⟩
  have shape : opening ++ (inside ++ closing) ++ '>' :: other =
      opening ++ (inside ++ mark ++ other) := by simp [ends]
  rw [shape]
  exact again other

theorem readDeclaration_local {text after : List Char} {construct : Construct}
    (found : readDeclaration text = .ok (construct, after)) :
    TakesLocally readDeclaration text construct after := by
  unfold readDeclaration at found
  split at found
  · split at found
    · next opened =>
      cases found
      exact .of_opened "--".toList opened rfl readDeclaration_of_comment
    · cases found
  · split at found
    · next opened =>
      cases found
      exact .of_opened "]]".toList opened rfl readDeclaration_of_characterData
    · cases found
  · next first rest _ _ =>
    split at found
    · next letter =>
      split at found
      · next keyword =>
        split at found
        · next inside behind balanced =>
          split at found
          · cases found
          · next named =>
            cases found
            obtain ⟨whole, again⟩ := balancedBody?_local balanced
            refine ⟨(first :: rest).take 7 ++ inside, ?_, fun other => ?_⟩
            · rw [List.append_assoc, ← whole, List.take_append_drop]
            · rw [List.append_assoc]
              exact readDeclaration_of_documentType letter keyword (again other) named
        · cases found
      · cases found
    · cases found
  · cases found

theorem readInstruction_local {text after : List Char} {construct : Construct}
    (found : readInstruction text = .ok (construct, after)) :
    TakesLocally readInstruction text construct after := by
  unfold readInstruction at found
  split at found
  · cases found
  · next noBracket =>
    split at found
    · next inside behind division =>
      cases found
      refine ⟨inside ++ "?".toList, by simp [cut_eq_some division], fun other => ?_⟩
      have shape : inside ++ "?".toList ++ '>' :: other = inside ++ "?>".toList ++ other := by simp
      have again := cut_append_right division other
      rw [shape, readInstruction, again]
      intro rest bracket
      rw [← shape] at bracket
      obtain ⟨tail, begins⟩ := bracketed_head bracket after
      exact noBracket tail (by simpa [cut_eq_some division] using begins)
    · cases found

theorem read_local {text after : List Char} {construct : Construct}
    (found : read text = .ok (construct, after)) : TakesLocally read text construct after := by
  unfold read at found
  split at found
  · obtain ⟨front, rfl, again⟩ := readDeclaration_local found
    exact ⟨'!' :: front, rfl, again⟩
  · obtain ⟨front, rfl, again⟩ := readInstruction_local found
    exact ⟨'?' :: front, rfl, again⟩
  · split at found
    · next body behind ended =>
      cases found
      obtain ⟨rfl, again⟩ := tagBody?_local ended
      refine ⟨'/' :: body, rfl, fun other => ?_⟩
      simp only [List.cons_append, read, again other]
    · cases found
  · next noDeclaration noInstruction noEnd =>
    split at found
    · next body behind ended =>
      cases found
      obtain ⟨rfl, again⟩ := tagBody?_local ended
      refine ⟨body, rfl, fun other => ?_⟩
      unfold read
      split
      · next same =>
        obtain ⟨tail, begins⟩ := bracketed_head same after
        exact absurd begins (noDeclaration tail)
      · next same =>
        obtain ⟨tail, begins⟩ := bracketed_head same after
        exact absurd begins (noInstruction tail)
      · next same =>
        obtain ⟨tail, begins⟩ := bracketed_head same after
        exact absurd begins (noEnd tail)
      · rw [again]
    · cases found

end Construct
end Markup
end MuseumRecord
