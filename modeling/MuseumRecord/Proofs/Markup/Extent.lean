import MuseumRecord.Markup.Construct
import MuseumRecord.Proofs.Markup.Writing
import MuseumRecord.Proofs.Text.Cut

/-!
# The extent of constructs

Every construct is read up to its own end, whatever follows it.
-/

namespace MuseumRecord
namespace Markup

open Text

/-! ## Characters of names -/

theorem ne_of_isNameCharacter {character special : Char} (inside : isNameCharacter character)
    (outside : isNameCharacter special = false) : character ≠ special := by
  rintro rfl
  rw [inside] at outside
  cases outside

theorem IsName.not_mem {name : List Char} (isName : IsName name) {special : Char}
    (outside : isNameCharacter special = false) : special ∉ name :=
  fun member => ne_of_isNameCharacter (isName.2 special member) outside rfl

/-- A name begins with a character that begins no other construct. -/
theorem IsName.exists_cons {name : List Char} (isName : IsName name) :
    ∃ first rest, name = first :: rest ∧ isNameStart first := by
  obtain ⟨⟨first, head, starts⟩, _⟩ := isName
  obtain ⟨rest, rfl⟩ := List.head?_eq_some_iff.mp head
  exact ⟨first, rest, rfl, starts⟩

theorem isTagSpace_of_isNameCharacter {character : Char} (inside : isNameCharacter character) :
    isTagSpace character = false := by
  have different (special : Char) (outside : isNameCharacter special = false) :
      (character == special) = false :=
    beq_eq_false_iff_ne.mpr (ne_of_isNameCharacter inside outside)
  simp only [isTagSpace, different ' ' (by decide), different '\t' (by decide),
    different '\n' (by decide), different '\r' (by decide), Bool.or_false]

theorem isTagSpace_of_mem {character : Char} (space : character ∈ spaceCharacters) :
    isTagSpace character := by
  have every : spaceCharacters.all isTagSpace = true := by decide
  exact List.all_eq_true.mp every character space

theorem IsSpace.isTagSpace {text : List Char} (isSpace : IsSpace text) :
    ∀ character ∈ text, isTagSpace character :=
  fun _ member => isTagSpace_of_mem (isSpace member)

/-! ## Asides and character data -/

namespace Construct

theorem opened_cut {opening closing whole text inside after : List Char}
    (begins : whole = opening ++ text) (division : cut closing text = some (inside, after)) :
    (opening.isPrefixOf? whole).bind (cut closing) = some (inside, after) := by
  rw [begins, isPrefixOf?_append, Option.bind_some, division]

theorem read_comment {text : List Char} (free : ¬ "-->".toList <:+: text) (after : List Char) :
    read ("!--".toList ++ text ++ "-->".toList ++ after) = .ok (.aside, after) := by
  have division := cut_append "--".toList '>' (by decide) (by decide) free after
  have opened : ("--".toList.isPrefixOf? ('-' :: '-' :: (text ++ "-->".toList ++ after))).bind
      (cut "-->".toList) = some (text, after) := opened_cut rfl division
  have whole : "!--".toList ++ text ++ "-->".toList ++ after =
      '!' :: '-' :: '-' :: (text ++ "-->".toList ++ after) := by simp
  rw [whole, read, readDeclaration, opened]

theorem read_instruction {target data : List Char} (isName : IsName target)
    (free : ¬ "?>".toList <:+: target ++ data) (after : List Char) :
    read ("?".toList ++ (target ++ data) ++ "?>".toList ++ after) = .ok (.aside, after) := by
  have division := cut_append "?".toList '>' (by decide) (by decide) free after
  obtain ⟨first, rest, rfl, starts⟩ := isName.exists_cons
  have whole : "?".toList ++ (first :: rest ++ data) ++ "?>".toList ++ after =
      '?' :: (first :: rest ++ data ++ "?>".toList ++ after) := by simp
  rw [whole, read, readInstruction, division]
  intro others same
  have firstIs : first = '>' := by simpa using congrArg List.head? same
  exact ne_of_isNameCharacter (isName.2 first (by simp)) (by decide) firstIs

theorem read_characterData {text : List Char} (free : ¬ "]]>".toList <:+: text)
    (after : List Char) :
    read ("![CDATA[".toList ++ text ++ "]]>".toList ++ after) =
      .ok (.characterData text, after) := by
  have division := cut_append "]]".toList '>' (by decide) (by decide) free after
  have opened : ("[CDATA[".toList.isPrefixOf?
      ('[' :: ("CDATA[".toList ++ (text ++ "]]>".toList ++ after)))).bind (cut "]]>".toList) =
        some (text, after) := opened_cut rfl division
  have whole : "![CDATA[".toList ++ text ++ "]]>".toList ++ after =
      '!' :: '[' :: ("CDATA[".toList ++ (text ++ "]]>".toList ++ after)) := by simp
  rw [whole, read, readDeclaration, opened]

/-- An aside is read up to its end and leaves nothing. -/
theorem read_aside {written : List Char} (aside : WritesAside written) :
    ∃ rest, written = '<' :: rest ∧ ∀ after, read (rest ++ after) = .ok (.aside, after) := by
  cases aside with
  | @comment text free =>
    exact ⟨"!--".toList ++ text ++ "-->".toList, by simp, read_comment free⟩
  | @instruction target data isName free =>
    exact ⟨"?".toList ++ (target ++ data) ++ "?>".toList, by simp, read_instruction isName free⟩

/-! ## Tags -/

/-- A stretch of a tag that the end of the tag cannot lie in. -/
def IsInsideTag (body : List Char) : Prop :=
  ∀ text, tagBody? none (body ++ text) =
    (tagBody? none text).map fun (rest, after) => (body ++ rest, after)

theorem IsInsideTag.append {left right : List Char} (first : IsInsideTag left)
    (second : IsInsideTag right) : IsInsideTag (left ++ right) := by
  intro text
  rw [List.append_assoc, first, second, Option.map_map]
  simp [Function.comp_def]

theorem isInsideTag_of_plain {body : List Char}
    (plain : ∀ character ∈ body, character ∉ ">\"'".toList) : IsInsideTag body := by
  induction body with
  | nil =>
    intro text
    simp
  | cons character body inductionHypothesis =>
    intro text
    have here : character ∉ ['>', '"', '\''] := plain character List.mem_cons_self
    simp only [List.mem_cons, List.not_mem_nil, not_or, or_false] at here
    have tail := inductionHypothesis (fun other member => plain other (.tail _ member)) text
    rw [List.cons_append, tagBody?]
    simp only [here, if_false, or_self, tail, Option.map_map]
    rfl

theorem tagBody?_quoted {quote : Char} {value : List Char} (fresh : quote ∉ value)
    (text : List Char) :
    tagBody? (some quote) (value ++ quote :: text) =
      (tagBody? none text).map fun (rest, after) => (value ++ quote :: rest, after) := by
  induction value with
  | nil => simp [tagBody?]
  | cons character value inductionHypothesis =>
    obtain ⟨different, others⟩ := not_or.mp (List.mem_cons.not.mp fresh)
    rw [List.cons_append, tagBody?]
    simp only [Ne.symm different, if_false, inductionHypothesis others, Option.map_map]
    rfl

theorem isInsideTag_quoted {quote : Char} {value : List Char}
    (opens : quote = '"' ∨ quote = '\'') (fresh : quote ∉ value) :
    IsInsideTag (quote :: value ++ [quote]) := by
  intro text
  have noEnd : quote ≠ '>' := by
    rcases opens with rfl | rfl <;> decide
  have quoted := tagBody?_quoted fresh text
  rw [List.cons_append, List.cons_append, List.append_assoc, List.singleton_append, tagBody?]
  simp only [noEnd, if_false, opens, if_true, quoted, Option.map_map]
  simp [Function.comp_def]

theorem isInsideTag_of_isName {name : List Char} (isName : IsName name) : IsInsideTag name := by
  apply isInsideTag_of_plain
  intro character member special
  have options : character = '>' ∨ character = '"' ∨ character = '\'' := by simpa using special
  have inside := isName.2 character member
  rcases options with rfl | rfl | rfl <;> exact absurd inside (by decide)

theorem isInsideTag_of_isSpace {space : List Char} (isSpace : IsSpace space) :
    IsInsideTag space := by
  apply isInsideTag_of_plain
  intro character member special
  have options : character = '>' ∨ character = '"' ∨ character = '\'' := by simpa using special
  have inside := isSpace member
  rcases options with rfl | rfl | rfl <;> exact absurd inside (by decide)

/-- The body of a tag ends at the first bracket behind it. -/
theorem tagBody?_append {body : List Char} (inside : IsInsideTag body) (after : List Char) :
    tagBody? none (body ++ '>' :: after) = some (body, after) := by
  rw [inside]
  simp [tagBody?]

end Construct
end Markup
end MuseumRecord
