import MuseumRecord.Proofs.Text.Enclosed

/-!
# Trimmed text

Trimming leaves what is trimmed as it is, and does not see the blanks around it.
-/

namespace MuseumRecord
namespace Text

variable {text blanks : List Char}

theorem trimStart_append_trimStart (text : List Char) :
    ∃ front, text = front ++ trimStart text ∧ ∀ character ∈ front, isBlank character = true :=
  ⟨text.takeWhile isBlank, List.takeWhile_append_dropWhile.symm,
    fun _ member => List.mem_takeWhile_imp member⟩

/-- What is trimmed away is blank. -/
theorem exists_trim (text : List Char) :
    ∃ front back, text = front ++ (trim text ++ back) ∧
      (∀ character ∈ front, isBlank character = true) ∧
      ∀ character ∈ back, isBlank character = true := by
  obtain ⟨front, whole, frontBlank⟩ := trimStart_append_trimStart text
  obtain ⟨back, rest, backBlank⟩ := exists_trimEnd (trimStart text)
  refine ⟨front, back, ?_, frontBlank, backBlank⟩
  rw [trim, ← rest]
  exact whole

theorem not_mem_of_blank {special : Char} (solid : isBlank special = false)
    (blank : ∀ character ∈ blanks, isBlank character = true) : special ∉ blanks := by
  intro member
  rw [blank special member] at solid
  cases solid

theorem trimStart_eq_self (solid : ∀ character ∈ text.head?, isBlank character = false) :
    trimStart text = text := by
  cases text with
  | nil => rfl
  | cons first rest =>
    exact List.dropWhile_cons_of_neg (by simp [solid first rfl])

theorem solid_of_mem_head?_trimStart (text : List Char) :
    ∀ character ∈ (trimStart text).head?, isBlank character = false := by
  induction text with
  | nil => exact fun _ head => nomatch head
  | cons first rest inductionHypothesis =>
    by_cases blank : isBlank first = true
    · rw [trimStart, List.dropWhile_cons_of_pos blank]
      exact inductionHypothesis
    · rw [trimStart, List.dropWhile_cons_of_neg blank]
      rintro character head
      cases head
      exact Bool.eq_false_iff.mpr blank

/-! ## Blanks behind -/

@[simp] theorem trimEnd_trimEnd (text : List Char) : trimEnd (trimEnd text) = trimEnd text := by
  induction text with
  | nil => rfl
  | cons character rest inductionHypothesis =>
    cases kept : trimEnd rest with
    | nil =>
      by_cases blank : isBlank character = true
      · simp [trimEnd, kept, blank]
      · simp [trimEnd, kept, blank]
    | cons first others =>
      rw [kept] at inductionHypothesis
      have whole : trimEnd (character :: rest) = character :: first :: others := by
        rw [trimEnd, kept]
      rw [whole, trimEnd, inductionHypothesis]

theorem trimEnd_blank (blank : ∀ character ∈ blanks, isBlank character = true) :
    trimEnd blanks = [] := by
  induction blanks with
  | nil => rfl
  | cons character rest inductionHypothesis =>
    obtain ⟨here, others⟩ := List.forall_mem_cons.mp blank
    rw [trimEnd, inductionHypothesis others]
    exact if_pos here

theorem trimEnd_append_blank (text : List Char)
    (blank : ∀ character ∈ blanks, isBlank character = true) :
    trimEnd (text ++ blanks) = trimEnd text := by
  induction text with
  | nil => exact trimEnd_blank blank
  | cons character rest inductionHypothesis =>
    rw [List.cons_append, trimEnd, inductionHypothesis]
    rfl

/-! ## Blanks at both ends -/

theorem trim_eq_trimEnd (solid : ∀ character ∈ text.head?, isBlank character = false) :
    trim text = trimEnd text := by
  rw [trim, trimStart_eq_self solid]

theorem trimEnd_eq_self (solid : ∀ character ∈ text.getLast?, isBlank character = false) :
    trimEnd text = text := by
  obtain ⟨back, whole, blank⟩ := exists_trimEnd text
  rcases List.eq_nil_or_concat back with rfl | ⟨front, last, rfl⟩
  · rw [List.append_nil] at whole
    exact whole.symm
  · have ends : text.getLast? = some last := by
      rw [whole, List.concat_eq_append, ← List.append_assoc]
      exact List.getLast?_concat
    have blank : isBlank last = true := blank last (by simp)
    rw [solid last ends] at blank
    cases blank

/-- Nothing is trimmed from a text that neither begins nor ends with a blank. -/
theorem trim_eq_self (solidHead : ∀ character ∈ text.head?, isBlank character = false)
    (solidLast : ∀ character ∈ text.getLast?, isBlank character = false) : trim text = text := by
  rw [trim_eq_trimEnd solidHead, trimEnd_eq_self solidLast]

theorem solid_of_mem_head?_trim (text : List Char) :
    ∀ character ∈ (trim text).head?, isBlank character = false := by
  intro character head
  obtain ⟨back, whole, _⟩ := exists_trimEnd (trimStart text)
  refine solid_of_mem_head?_trimStart text character ?_
  obtain ⟨rest, begins⟩ := List.head?_eq_some_iff.mp (Option.mem_def.mp head)
  rw [trim] at begins
  rw [whole, begins]
  rfl

theorem solid_of_mem_getLast?_trimEnd (text : List Char) :
    ∀ character ∈ (trimEnd text).getLast?, isBlank character = false := by
  induction text with
  | nil => exact fun _ ends => nomatch ends
  | cons first rest inductionHypothesis =>
    intro character ends
    rw [trimEnd] at ends
    cases kept : trimEnd rest with
    | nil =>
      rw [kept] at ends
      by_cases blank : isBlank first = true
      · simp [blank] at ends
      · simp only [blank, Bool.false_eq_true, if_false] at ends
        cases ends
        exact Bool.eq_false_iff.mpr blank
    | cons second others =>
      rw [kept] at ends inductionHypothesis
      exact inductionHypothesis character (List.getLast?_cons_cons ▸ ends)

@[simp] theorem trim_trim (text : List Char) : trim (trim text) = trim text := by
  rw [trim_eq_trimEnd (solid_of_mem_head?_trim text)]
  exact trimEnd_trimEnd _

theorem trim_append_blank (text : List Char)
    (blank : ∀ character ∈ blanks, isBlank character = true) :
    trim (text ++ blanks) = trim text := by
  rw [trim, trimStart, List.dropWhile_append]
  split
  · next nothing =>
    have before : trimStart text = [] := List.isEmpty_iff.mp nothing
    have behind : blanks.dropWhile isBlank = [] := List.dropWhile_eq_nil_iff.mpr blank
    rw [trim, before, behind]
  · exact trimEnd_append_blank (trimStart text) blank

theorem trim_blank_append (text : List Char)
    (blank : ∀ character ∈ blanks, isBlank character = true) :
    trim (blanks ++ text) = trim text := by
  rw [trim, trimStart, List.dropWhile_append_of_pos blank]
  rfl

/-! ## Marks in what is trimmed -/

theorem IsClear.append {mark left right : List Char} (clear : IsClear mark left)
    (clearRight : IsClear mark right) : IsClear mark (left ++ right) := by
  intro after
  rw [List.append_assoc, clear, clearRight, Option.map_map]
  refine congrFun (congrArg Option.map (funext fun found => ?_)) _
  simp

/-- A mark does not begin in the blanks around a text. -/
theorem isClear_of_trim {first : Char} {tail : List Char} (solid : isBlank first = false)
    (clear : IsClear (first :: tail) (trim text)) : IsClear (first :: tail) text := by
  obtain ⟨front, back, whole, frontBlank, backBlank⟩ := exists_trim text
  rw [whole]
  exact (isClear_of_not_mem (not_mem_of_blank solid frontBlank)).append
    (clear.append (isClear_of_not_mem (not_mem_of_blank solid backBlank)))

theorem withoutEnclosed_of_clear {opening : List Char} (nonempty : opening ≠ [])
    (clear : IsClear opening text) (closing : List Char) :
    withoutEnclosed opening closing text = text := by
  have uncut : cut opening [] = none := by
    cases opening with
    | nil => exact absurd rfl nonempty
    | cons first tail => rfl
  have rest : withoutEnclosed opening closing (text ++ []) =
      text ++ withoutEnclosed opening closing [] := withoutEnclosed_append nonempty clear []
  rw [withoutEnclosed_of_uncut uncut, List.append_nil] at rest
  exact rest

end Text
end MuseumRecord
