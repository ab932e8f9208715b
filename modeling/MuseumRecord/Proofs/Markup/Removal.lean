import MuseumRecord.Markup.Document
import MuseumRecord.Markup.Sanitized
import MuseumRecord.Proofs.Text.Seams
import MuseumRecord.Proofs.Text.Trimmed

/-!
# Removed comments and instructions

Sanitizing takes the leftmost shortest comments out of a text, then the leftmost shortest
instructions out of what is left, and trims the rest.  What is left holds a complete comment or
instruction only if a mark was formed where pieces of the text were joined.
-/

namespace MuseumRecord
namespace Markup

open Text

/-- The division of a text at its comments. -/
def commentDivision (text : List Char) : Division :=
  divided "<!--".toList "-->".toList text

/-- The division of a text at its instructions. -/
def instructionDivision (text : List Char) : Division :=
  divided "<?".toList "?>".toList text

theorem withoutComments_eq_kept (text : List Char) :
    withoutComments text = (commentDivision text).kept :=
  withoutEnclosed_eq_kept (by decide) text

theorem withoutInstructions_eq_kept (text : List Char) :
    withoutInstructions text = (instructionDivision text).kept :=
  withoutEnclosed_eq_kept (by decide) text

theorem isLeftmost_commentDivision (text : List Char) :
    (commentDivision text).IsLeftmost "<!--".toList "-->".toList text :=
  Division.isLeftmost_divided (by decide) text

theorem isLeftmost_instructionDivision (text : List Char) :
    (instructionDivision text).IsLeftmost "<?".toList "?>".toList text :=
  Division.isLeftmost_divided (by decide) text

theorem toList_sanitize (text : String) :
    (sanitize text).toList =
      trim (instructionDivision (commentDivision text.toList).kept).kept := by
  rw [sanitize, String.toList_ofList, sanitized, withoutInstructions_eq_kept,
    withoutComments_eq_kept]

/-! ## What is taken out -/

theorem kept_sublist {opening closing text : List Char} {division : Division}
    (leftmost : division.IsLeftmost opening closing text) : division.kept.Sublist text := by
  have sublist := division.kept_sublist_whole opening closing
  rwa [← leftmost.whole] at sublist

theorem infix_trim (text : List Char) : trim text <:+: text := by
  obtain ⟨front, back, whole, _, _⟩ := exists_trim text
  exact ⟨front, back, by rw [List.append_assoc]; exact whole.symm⟩

/-- What sanitizing leaves are characters of the text in their order. -/
theorem sanitize_sublist (text : String) : (sanitize text).toList.Sublist text.toList := by
  rw [toList_sanitize]
  exact ((infix_trim _).sublist.trans (kept_sublist (isLeftmost_instructionDivision _))).trans
    (kept_sublist (isLeftmost_commentDivision _))

theorem not_hasStretch_of_unopened {opening closing text : List Char}
    (free : ¬ opening <:+: text) : ¬ HasStretch opening closing text := by
  rintro ⟨before, inside, after, whole⟩
  refine free ⟨before, inside ++ closing ++ after, ?_⟩
  rw [whole]
  simp only [List.append_assoc]

/-- The text holds no complete comment and no complete instruction. -/
def IsStripped (text : List Char) : Prop :=
  ¬ HasStretch "<!--".toList "-->".toList text ∧ ¬ HasStretch "<?".toList "?>".toList text

/-- Nothing is taken out of a text that holds nothing to take out. -/
theorem sanitized_of_isStripped {text : List Char} (stripped : IsStripped text) :
    sanitized text = trim text := by
  rw [sanitized, withoutComments, withoutEnclosed_of_not_hasStretch stripped.1,
    withoutInstructions, withoutEnclosed_of_not_hasStretch stripped.2]

/-- Sanitizing takes out of a text its comments, from the leftmost on and each up to the first mark
that closes it, then likewise the instructions of what is left, and the blanks around the rest; and
the divisions of the text that this says are the only ones.  So an opening mark that is not closed
stays with all that follows it, what is kept stays in its order, and a text without opening marks is
only trimmed. -/
theorem sanitizing_takes_out_leftmost_stretches (text : String) :
    ∃ comments instructions : Division,
      comments.IsLeftmost "<!--".toList "-->".toList text.toList ∧
      (∀ other : Division, other.IsLeftmost "<!--".toList "-->".toList text.toList →
        other = comments) ∧
      instructions.IsLeftmost "<?".toList "?>".toList comments.kept ∧
      (∀ other : Division, other.IsLeftmost "<?".toList "?>".toList comments.kept →
        other = instructions) ∧
      (∃ front back, instructions.kept = front ++ ((sanitize text).toList ++ back) ∧
        (∀ character ∈ front, isBlank character = true) ∧
        (∀ character ∈ back, isBlank character = true) ∧
        (∀ character ∈ (sanitize text).toList.head?, isBlank character = false) ∧
        ∀ character ∈ (sanitize text).toList.getLast?, isBlank character = false) ∧
      (∀ rest, "<!--".toList ++ rest <:+ text.toList → ¬ "-->".toList <:+: "<!--".toList ++ rest →
        "<!--".toList ++ rest <:+ comments.last) ∧
      (∀ rest, "<?".toList ++ rest <:+ comments.kept → ¬ "?>".toList <:+: "<?".toList ++ rest →
        "<?".toList ++ rest <:+ instructions.last) ∧
      (sanitize text).toList.Sublist text.toList ∧
      (¬ "<!--".toList <:+: text.toList → ¬ "<?".toList <:+: text.toList →
        sanitize text = trimString text) := by
  refine ⟨commentDivision text.toList, instructionDivision (commentDivision text.toList).kept,
    isLeftmost_commentDivision _, fun other leftmost => leftmost.eq_divided (by decide),
    isLeftmost_instructionDivision _, fun other leftmost => leftmost.eq_divided (by decide),
    ?_, ?_, ?_, sanitize_sublist text, ?_⟩
  · rw [toList_sanitize]
    obtain ⟨front, back, whole, frontBlank, backBlank⟩ :=
      exists_trim (instructionDivision (commentDivision text.toList).kept).kept
    exact ⟨front, back, whole, frontBlank, backBlank, solid_of_mem_head?_trim _,
      solid_of_mem_getLast?_trimEnd _⟩
  · exact fun rest stands unclosed =>
      (isLeftmost_commentDivision _).suffix_of_unclosed (by decide) unclosed stands
  · exact fun rest stands unclosed =>
      (isLeftmost_instructionDivision _).suffix_of_unclosed (by decide) unclosed stands
  · intro noComment noInstruction
    rw [sanitize, trimString, sanitized_of_isStripped
      ⟨not_hasStretch_of_unopened noComment, not_hasStretch_of_unopened noInstruction⟩]

/-! ## What is left -/

theorem withoutEnclosed_sublist {opening : List Char} (nonempty : opening ≠ [])
    (closing text : List Char) : (withoutEnclosed opening closing text).Sublist text := by
  rw [withoutEnclosed_eq_kept nonempty]
  exact kept_sublist (Division.isLeftmost_divided nonempty text)

theorem length_withoutEnclosed_lt {opening closing text : List Char} (nonempty : opening ≠ [])
    (stretch : HasStretch opening closing text) :
    (withoutEnclosed opening closing text).length < text.length := by
  obtain ⟨before, inside, within, after, opened, closed⟩ := hasStretch_iff_exists_cut.mp stretch
  have rest := (withoutEnclosed_sublist nonempty closing after).length_le
  have first := length_of_cut opened
  have second := length_of_cut closed
  have positive := List.length_pos_iff.mpr nonempty
  rw [withoutEnclosed_of_cut nonempty opened closed, List.length_append]
  omega

/-- Something to take out makes the sanitized text shorter. -/
theorem length_sanitized_lt {text : List Char} (unstripped : ¬ IsStripped text) :
    (sanitized text).length < text.length := by
  have trimmed := (infix_trim (withoutInstructions (withoutComments text))).length_le
  have shorter := (withoutEnclosed_sublist (by decide : "<?".toList ≠ []) "?>".toList
    (withoutComments text)).length_le
  refine Nat.lt_of_le_of_lt trimmed ?_
  by_cases comment : HasStretch "<!--".toList "-->".toList text
  · exact Nat.lt_of_le_of_lt shorter (length_withoutEnclosed_lt (by decide) comment)
  · have unchanged : withoutComments text = text := withoutEnclosed_of_not_hasStretch comment
    have instruction : HasStretch "<?".toList "?>".toList text := by
      by_contra none
      exact unstripped ⟨comment, none⟩
    rw [unchanged]
    exact length_withoutEnclosed_lt (by decide) instruction

/-- Sanitizing again changes nothing exactly if nothing is left to take out. -/
theorem sanitize_sanitize_iff {text : String} :
    sanitize (sanitize text) = sanitize text ↔ IsStripped (sanitize text).toList := by
  have again : (sanitize (sanitize text)).toList = sanitized (sanitize text).toList :=
    String.toList_ofList
  rw [← String.toList_inj, again]
  constructor
  · intro same
    by_contra unstripped
    have shorter := length_sanitized_lt unstripped
    rw [same] at shorter
    exact Nat.lt_irrefl _ shorter
  · intro stripped
    rw [sanitized_of_isStripped stripped, toList_sanitize, trim_trim]

/-- No mark of a comment is formed where comments or instructions are taken out of the text, and no
opening mark of an instruction where instructions are. -/
def FormsNoMark (text : List Char) : Prop :=
  IsSeamless "<!--".toList (commentDivision text).pieces ∧
    ∀ mark ∈ ["<!--".toList, "-->".toList, "<?".toList],
      IsSeamless mark (instructionDivision (commentDivision text).kept).pieces

instance (text : List Char) : Decidable (FormsNoMark text) :=
  inferInstanceAs (Decidable (_ ∧ ∀ mark ∈ [_, _, _], _))

theorem isStripped_of_formsNoMark {text : List Char} (formsNone : FormsNoMark text) :
    IsStripped (instructionDivision (commentDivision text).kept).kept := by
  obtain ⟨comments, instructions⟩ := formsNone
  obtain ⟨commentOpening, others⟩ := List.forall_mem_cons.mp instructions
  obtain ⟨commentClosing, others⟩ := List.forall_mem_cons.mp others
  have instructionOpening := List.forall_mem_singleton.mp others
  have leftmost := isLeftmost_instructionDivision (commentDivision text).kept
  have noComment :=
    (isLeftmost_commentDivision text).not_hasStretch_kept (by decide) comments
  constructor
  · rw [leftmost.whole] at noComment
    exact Division.not_hasStretch_kept_of_whole (by decide) (by decide) noComment commentOpening
      commentClosing
  · exact leftmost.not_hasStretch_kept (by decide) instructionOpening

/-- Sanitizing is complete in one pass where it forms no mark: no complete comment and no complete
instruction is left, and sanitizing again changes nothing. -/
theorem sanitizing_is_complete_in_one_pass {text : String} (formsNone : FormsNoMark text.toList) :
    ¬ HasStretch "<!--".toList "-->".toList (sanitize text).toList ∧
      ¬ HasStretch "<?".toList "?>".toList (sanitize text).toList ∧
      sanitize (sanitize text) = sanitize text := by
  have stripped : IsStripped (sanitize text).toList := by
    obtain ⟨noComment, noInstruction⟩ := isStripped_of_formsNoMark formsNone
    rw [toList_sanitize]
    exact ⟨fun stretch => noComment (stretch.widen (infix_trim _)),
      fun stretch => noInstruction (stretch.widen (infix_trim _))⟩
  exact ⟨stripped.1, stripped.2, sanitize_sanitize_iff.mpr stripped⟩

/-- A text with an instruction in a comment, half a comment in an instruction, and a comment that is
not closed. -/
def halfOpenText : String :=
  "<a><!-- <?p?> --><b/><?q <!-- ?></a>\n<!-- open"

theorem sanitize_halfOpenText :
    FormsNoMark halfOpenText.toList ∧ sanitize halfOpenText = "<a><b/></a>\n<!-- open" ∧
      ¬ HasStretch "<!--".toList "-->".toList (sanitize halfOpenText).toList ∧
      ¬ HasStretch "<?".toList "?>".toList (sanitize halfOpenText).toList ∧
      sanitize (sanitize halfOpenText) = sanitize halfOpenText := by
  have formsNone : FormsNoMark halfOpenText.toList := by decide +kernel
  exact ⟨formsNone, by decide +kernel, sanitizing_is_complete_in_one_pass formsNone⟩

/-- What stood around a comment may join to a comment, and what stood around an instruction to an
instruction; in character data a document may hold such a text. -/
theorem sanitize_leaves_comment :
    HasStretch "<!--".toList "-->".toList (sanitize "<!-<!-- -->- -->").toList ∧
      sanitize (sanitize "<!-<!-- -->- -->") ≠ sanitize "<!-<!-- -->- -->" ∧
      HasStretch "<?".toList "?>".toList (sanitize "<<?p?>?q?>").toList ∧
      sanitize (sanitize "<<?p?>?q?>") ≠ sanitize "<<?p?>?q?>" ∧
      (parse "<a><![CDATA[<!-<!-- -->- -->]]></a>").isOk = true ∧
      HasStretch "<!--".toList "-->".toList
        (sanitize "<a><![CDATA[<!-<!-- -->- -->]]></a>").toList := by
  have comment : sanitize "<!-<!-- -->- -->" = "<!-- -->" := by decide +kernel
  have instruction : sanitize "<<?p?>?q?>" = "<?q?>" := by decide +kernel
  have record : sanitize "<a><![CDATA[<!-<!-- -->- -->]]></a>" =
      "<a><![CDATA[<!-- -->]]></a>" := by decide +kernel
  rw [comment, instruction, record]
  refine ⟨⟨[], [' '], [], rfl⟩, by decide +kernel, ⟨[], ['q'], [], rfl⟩, by decide +kernel,
    by decide +kernel, ⟨"<a><![CDATA[".toList, [' '], "]]></a>".toList, rfl⟩⟩

end Markup
end MuseumRecord
