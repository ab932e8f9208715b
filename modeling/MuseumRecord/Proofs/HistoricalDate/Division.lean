import Mathlib.Data.List.Chain
import MuseumRecord.Proofs.HistoricalDate.Nesting

/-!
# Where an expression is divided

A separator with spaces divides an expression whose own dashes never stand behind a space, and a
bare hyphen one that holds no other.  Two hyphens leave three pieces, at which nothing is divided.
-/

namespace MuseumRecord
namespace HistoricalDate

open Text

/-- A dash never stands behind a space. -/
def IsCompact (dash : Char) (text : List Char) : Prop :=
  text.IsChain fun before character => before = ' ' → character ≠ dash

/-- The separator made of a dash with a space at each side. -/
def spaced (dash : Char) : List Char :=
  [' ', dash, ' ']

variable {dash : Char} {text left right : List Char}

theorem ne_of_isDash {character : Char} (dashed : isDash dash = true)
    (undashed : isDash character = false) : character ≠ dash := by
  rintro rfl
  rw [undashed] at dashed
  cases dashed

theorem not_mem_of_undashed (dashed : isDash dash = true)
    (undashed : ∀ character ∈ text, isDash character = false) : dash ∉ text :=
  fun member => ne_of_isDash dashed (undashed dash member) rfl

section Compact

theorem isCompact_of_not_mem (fresh : dash ∉ text) : IsCompact dash text := by
  refine List.isChain_iff_forall_rel_of_append_cons_cons.mpr ?_
  rintro before character front back rfl _ rfl
  exact fresh (by simp)

theorem IsCompact.append (compact : IsCompact dash left) (compactRight : IsCompact dash right)
    (begins : ∀ character ∈ right.head?, character ≠ dash) : IsCompact dash (left ++ right) :=
  List.isChain_append.mpr ⟨compact, compactRight, fun _ _ character head _ => begins character head⟩

/-- A dash may follow what does not end with a space. -/
theorem IsCompact.append_of_last (compact : IsCompact dash left)
    (compactRight : IsCompact dash right) (ends : ∀ character ∈ left.getLast?, character ≠ ' ') :
    IsCompact dash (left ++ right) :=
  List.isChain_append.mpr
    ⟨compact, compactRight, fun character last _ _ space => absurd space (ends character last)⟩

theorem IsCompact.free_of_spaced (compact : IsCompact dash text) : ¬ spaced dash <:+: text := by
  intro inside
  have chain := List.IsChain.infix compact inside
  exact (List.isChain_cons_cons.mp chain).1 rfl rfl

theorem cut_spaced (other : dash ≠ ' ') (compact : IsCompact dash left) (right : List Char) :
    cut (spaced dash) (left ++ spaced dash ++ right) = some (left, right) := by
  induction left with
  | nil => exact cut_leading _ _
  | cons head left inductionHypothesis =>
    have still : ¬ spaced dash <+: head :: (left ++ spaced dash ++ right) := by
      intro begins
      obtain ⟨space, begins⟩ := List.cons_prefix_cons.mp begins
      cases left with
      | nil => exact other (List.cons_prefix_cons.mp begins).1
      | cons next left =>
        exact (List.isChain_cons_cons.mp compact).1 space.symm
          (List.cons_prefix_cons.mp begins).1.symm
    rw [List.cons_append, List.cons_append, cut_cons_of_other still,
      inductionHypothesis compact.of_cons]
    rfl

end Compact

/-! ## Divisions -/

section Divisions

variable {separator : List Char}

theorem divide?_of_free (free : ¬ separator <:+: text) : divide? text separator = none := by
  cases division : divide? text separator with
  | none => rfl
  | some ends => exact absurd (infix_of_divide? division) free

theorem divide?_of_not_mem (fresh : dash ∉ text) (held : dash ∈ separator) :
    divide? text separator = none :=
  divide?_of_free fun inside => fresh (inside.subset held)

theorem divide?_of_pair (pair : pieces separator text = [left, right]) (filled : left ≠ [])
    (filledRight : right ≠ []) : divide? text separator = some (left, right) := by
  simp [divide?, pair, filled, filledRight]

end Divisions

/-! ## Undivided expressions -/

theorem split_eq_single (undivided : ∀ separator ∈ separators, divide? text separator = none) :
    Expression.split text = .single text := by
  rw [Expression.split, List.findSome?_eq_none_iff.mpr undivided]

theorem split_of_undashed (undashed : ∀ character ∈ text, isDash character = false) :
    Expression.split text = .single text := by
  refine split_eq_single fun separator listed => ?_
  obtain ⟨dash, held, dashed⟩ := List.countP_pos_iff.mp (dashCount_pos_of_mem_separators listed)
  exact divide?_of_not_mem (not_mem_of_undashed dashed undashed) held

theorem pieces_hyphen (fresh : '-' ∉ left) (right : List Char) :
    pieces ['-'] (left ++ '-' :: right) = left :: pieces ['-'] right := by
  have free : ¬ ['-'] <:+: left := fun inside => fresh (inside.subset List.mem_cons_self)
  have found := cut_append [] '-' (show ['-'] = [] ++ ['-'] from rfl) (by simp) free right
  rw [List.append_assoc, List.singleton_append] at found
  exact pieces_of_cut (List.cons_ne_nil _ _) found

theorem pieces_unhyphened (fresh : '-' ∉ text) : pieces ['-'] text = [text] :=
  pieces_of_uncut fun inside => fresh (inside.subset List.mem_cons_self)

/-- The separators, by their dashes. -/
theorem separators_eq : separators = [spaced '-', spaced '–', spaced '—', ['-']] :=
  rfl

/-- An expression with two hyphens is not divided at them unless spaces stand around one. -/
theorem split_of_hyphens {year month day : List Char} (yearFresh : '-' ∉ year)
    (monthFresh : '-' ∉ month) (dayFresh : '-' ∉ day) (yearFilled : year ≠ [])
    (monthFilled : month ≠ []) (dayFilled : day ≠ [])
    (whole : text = year ++ '-' :: (month ++ '-' :: day)) (compact : IsCompact '-' text)
    (noEnDash : '–' ∉ text) (noEmDash : '—' ∉ text) :
    Expression.split text = .single text := by
  refine split_eq_single fun separator listed => ?_
  rw [separators_eq] at listed
  simp only [List.mem_cons, List.not_mem_nil, or_false] at listed
  rcases listed with rfl | rfl | rfl | rfl
  · exact divide?_of_free compact.free_of_spaced
  · exact divide?_of_not_mem noEnDash (by simp [spaced])
  · exact divide?_of_not_mem noEmDash (by simp [spaced])
  · have three : pieces ['-'] text = [year, month, day] := by
      rw [whole, pieces_hyphen yearFresh, pieces_hyphen monthFresh, pieces_unhyphened dayFresh]
    simp [divide?, three, yearFilled, monthFilled, dayFilled]

/-! ## Divided expressions -/

section Divided

variable (filled : left ≠ []) (filledRight : right ≠ [])

include filled filledRight

/-- A dash between spaces divides an expression in which no dash stands behind another space. -/
theorem split_of_spaced (kind : dash = '-' ∨ dash = '–' ∨ dash = '—')
    (compact : ∀ other, isDash other = true → IsCompact other left)
    (compactRight : ∀ other, isDash other = true → IsCompact other right)
    (begins : ∀ character ∈ right.head?, isDash character = false) :
    Expression.split (left ++ spaced dash ++ right) = .range left right := by
  have dashed : isDash dash = true := by rcases kind with rfl | rfl | rfl <;> rfl
  have solid {other : Char} (dashed : isDash other = true) : other ≠ ' ' :=
    (ne_of_isDash dashed rfl).symm
  have begins {other : Char} (dashed : isDash other = true) :
      ∀ character ∈ right.head?, character ≠ other :=
    fun character head => ne_of_isDash dashed (begins character head)
  have compactWhole {other : Char} (dashed : isDash other = true) (different : dash ≠ other) :
      IsCompact other (left ++ spaced dash ++ right) := by
    have between : IsCompact other (spaced dash) := by
      simp [IsCompact, spaced, different, (solid dashed).symm]
    refine IsCompact.append ?_ (compactRight other dashed) (begins dashed)
    exact (compact other dashed).append between (by simp [spaced, (solid dashed).symm])
  have untried {other : Char} (dashed : isDash other = true) (different : dash ≠ other) :
      divide? (left ++ spaced dash ++ right) (spaced other) = none :=
    divide?_of_free (compactWhole dashed different).free_of_spaced
  have found := cut_spaced (solid dashed) (compact dash dashed) right
  have division : divide? (left ++ spaced dash ++ right) (spaced dash) = some (left, right) :=
    divide?_of_pair (pieces_of_single (List.cons_ne_nil _ _) found
      (compactRight dash dashed).free_of_spaced) filled filledRight
  refine split_eq_range_iff.mpr ⟨spaced dash, ?_⟩
  rcases kind with rfl | rfl | rfl
  · exact ⟨[], _, separators_eq, division, fun _ tried => nomatch tried⟩
  · exact ⟨[spaced '-'], _, separators_eq, division,
      List.forall_mem_singleton.mpr (untried rfl (by decide))⟩
  · exact ⟨[spaced '-', spaced '–'], _, separators_eq, division, List.forall_mem_cons.mpr
      ⟨untried rfl (by decide), List.forall_mem_singleton.mpr (untried rfl (by decide))⟩⟩

/-- A hyphen that is the only dash divides an expression unless it stands between two spaces. -/
theorem split_of_hyphen (undashed : ∀ character ∈ left, isDash character = false)
    (undashedRight : ∀ character ∈ right, isDash character = false)
    (crowded : left.getLast? = some ' ' → right.head? = some ' ' → False) :
    Expression.split (left ++ '-' :: right) = .range left right := by
  have fresh {dash : Char} (dashed : isDash dash = true) : dash ∉ left ∧ dash ∉ right :=
    ⟨not_mem_of_undashed dashed undashed, not_mem_of_undashed dashed undashedRight⟩
  have hyphen := fresh (show isDash '-' = true from rfl)
  have enDash := fresh (show isDash '–' = true from rfl)
  have emDash := fresh (show isDash '—' = true from rfl)
  have free : ¬ spaced '-' <:+: left ++ '-' :: right := by
    rintro ⟨front, back, whole⟩
    have whole : front ++ [' '] ++ '-' :: (' ' :: back) = left ++ '-' :: right := by
      rw [← whole]
      simp [spaced]
    obtain ⟨leftEnds, -, rightBegins⟩ :=
      (List.append_cons_inj_of_notMem hyphen.1 hyphen.2).mp whole.symm
    exact crowded (by simp [leftEnds]) (by simp [rightBegins])
  have pair : pieces ['-'] (left ++ '-' :: right) = [left, right] := by
    rw [pieces_hyphen hyphen.1, pieces_unhyphened hyphen.2]
  refine split_eq_range_iff.mpr ⟨['-'], [spaced '-', spaced '–', spaced '—'], [], separators_eq,
    divide?_of_pair pair filled filledRight, ?_⟩
  have enFree : divide? (left ++ '-' :: right) (spaced '–') = none :=
    divide?_of_not_mem (show '–' ∉ _ by simp [enDash]) (by simp [spaced])
  have emFree : divide? (left ++ '-' :: right) (spaced '—') = none :=
    divide?_of_not_mem (show '—' ∉ _ by simp [emDash]) (by simp [spaced])
  simp [divide?_of_free free, enFree, emFree]

end Divided

end HistoricalDate
end MuseumRecord
