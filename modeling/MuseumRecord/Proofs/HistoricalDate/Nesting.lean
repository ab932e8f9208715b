import Mathlib.Data.List.Perm.Subperm
import MuseumRecord.Proofs.HistoricalDate.Bounded
import MuseumRecord.Proofs.Text.Caseless
import MuseumRecord.Proofs.Text.Division
import MuseumRecord.Proofs.Text.Trimmed

/-!
# Nested ranges

The ends of a range hold fewer dashes than the range, and the separator that divided it stands in
none of them, also when they have been trimmed and lower-cased.  Along a path of nested ranges every
separator is therefore used at most once, which bounds the depth of an accepted date.
-/

namespace MuseumRecord
namespace HistoricalDate

open Text

/-- A separator divides a text into two ends, and none that is tried before it does. -/
def Divides (separator text start finish : List Char) : Prop :=
  ∃ tried untried, separators = tried ++ separator :: untried ∧
    divide? text separator = some (start, finish) ∧ ∀ other ∈ tried, divide? text other = none

/-- A text is an end of the range that another one is read as, divided at the separator. -/
def IsEnd (separator part text : List Char) : Prop :=
  ∃ start finish, Divides separator (normalise text) start finish ∧
    (part = start ∨ part = finish)

/-- A text is reached from another by going on with an end of a range again and again, at the listed
separators, the outermost first. -/
inductive Nested : List Char → List (List Char) → List Char → Prop where
  /-- The text itself. -/
  | whole (text : List Char) : Nested text [] text
  /-- A text inside one end. -/
  | inside {separator part text inner : List Char} {used : List (List Char)}
      (ends : IsEnd separator part text) (nested : Nested part used inner) :
      Nested text (separator :: used) inner

/-- How many ranges stand inside one another. -/
def depth : HistoricalDate → Nat
  | .year _ _ _ => 0
  | .calendar _ => 0
  | .range start finish => max start.depth finish.depth + 1

/-! ## Divisions -/

section Divisions

variable {separator text start finish : List Char}

theorem split_eq_range_iff :
    Expression.split text = .range start finish ↔
      ∃ separator, Divides separator text start finish := by
  have first : separators.findSome? (divide? text) = some (start, finish) ↔
      ∃ separator, Divides separator text start finish := by
    rw [List.findSome?_eq_some_iff]
    constructor
    · rintro ⟨tried, separator, untried, listed, division, failed⟩
      exact ⟨separator, tried, untried, listed, division, failed⟩
    · rintro ⟨separator, tried, untried, listed, division, failed⟩
      exact ⟨tried, separator, untried, listed, division, failed⟩
  rw [← first, Expression.split]
  cases separators.findSome? (divide? text) with
  | none => simp
  | some ends => simp [Prod.ext_iff]

theorem eq_of_split_single {single : List Char}
    (undivided : Expression.split text = .single single) : single = text := by
  unfold Expression.split at undivided
  split at undivided <;> cases undivided
  rfl

theorem Divides.mem (divides : Divides separator text start finish) : separator ∈ separators := by
  obtain ⟨tried, untried, listed, _⟩ := divides
  simp [listed]

/-- The two ends are the pieces that are not empty. -/
theorem divide?_eq_some_iff_filter :
    divide? text separator = some (start, finish) ↔
      ((pieces separator text).filter fun piece => !piece.isEmpty) = [start, finish] := by
  unfold divide?
  split
  · next kept => simp [kept]
  · next other => exact iff_of_false (fun absent => nomatch absent) (other start finish)

theorem mem_pieces_of_divide? (division : divide? text separator = some (start, finish)) :
    start ∈ pieces separator text ∧ finish ∈ pieces separator text := by
  have kept := divide?_eq_some_iff_filter.mp division
  have members : ∀ piece ∈ [start, finish], piece ∈ pieces separator text := fun piece member =>
    (List.mem_filter.mp (kept ▸ member)).1
  exact ⟨members start (by simp), members finish (by simp)⟩

/-- Two ends are not the one piece of a text without the separator. -/
theorem infix_of_divide? (division : divide? text separator = some (start, finish)) :
    separator <:+: text := by
  by_contra free
  have kept := divide?_eq_some_iff_filter.mp division
  have single := List.length_filter_le (fun piece => !piece.isEmpty) (pieces separator text)
  rw [kept, pieces_of_uncut free] at single
  exact absurd single (by simp)

end Divisions

/-! ## Separators -/

theorem separators_nonempty {separator : List Char} (listed : separator ∈ separators) :
    separator ≠ [] := by
  rintro rfl
  exact absurd listed (by decide)

/-- A separator holds nothing but spaces and dashes. -/
theorem isBlank_or_isDash_of_mem_separators {separator : List Char}
    (listed : separator ∈ separators) :
    ∀ character ∈ separator, isBlank character = true ∨ isDash character = true := by
  have all : (separators.all fun separator =>
      separator.all fun character => isBlank character || isDash character) = true := by
    decide
  intro character member
  exact Bool.or_eq_true_iff.mp
    (List.all_eq_true.mp (List.all_eq_true.mp all separator listed) character member)

theorem isCaseless_of_mem_separators {separator : List Char} (listed : separator ∈ separators) :
    ∀ character ∈ separator, LowerCase.IsCaseless character := fun character member =>
  (isBlank_or_isDash_of_mem_separators listed character member).elim
    LowerCase.isCaseless_of_isBlank LowerCase.isCaseless_of_isDash

/-- Trimming and lower-casing make no separator. -/
theorem infix_of_infix_normalise {separator text : List Char} (listed : separator ∈ separators)
    (inside : separator <:+: normalise text) : separator <:+: text := by
  have trimmed : separator <:+: trim text :=
    LowerCase.infix_of_infix_lowerAfter (isCaseless_of_mem_separators listed) inside
  obtain ⟨front, back, whole, _, _⟩ := exists_trim text
  exact trimmed.trans ⟨front, back, by rw [List.append_assoc, ← whole]⟩

/-! ## Ends -/

namespace IsEnd

variable {separator part text : List Char}

theorem mem (ends : IsEnd separator part text) : separator ∈ separators := by
  obtain ⟨start, finish, divides, _⟩ := ends
  exact divides.mem

theorem mem_pieces (ends : IsEnd separator part text) :
    part ∈ pieces separator (normalise text) := by
  obtain ⟨start, finish, ⟨_, _, _, division, _⟩, which⟩ := ends
  have members := mem_pieces_of_divide? division
  rcases which with rfl | rfl
  · exact members.1
  · exact members.2

theorem dashCount_lt (ends : IsEnd separator part text) : dashCount part < dashCount text := by
  obtain ⟨start, finish, divides, which⟩ := ends
  have fewer := dashCount_lt_of_split (split_eq_range_iff.mpr ⟨separator, divides⟩)
  have whole := dashCount_normalise_le text
  rcases which with rfl | rfl
  · exact Nat.lt_of_lt_of_le fewer.1 whole
  · exact Nat.lt_of_lt_of_le fewer.2 whole

theorem infix_whole (ends : IsEnd separator part text) : separator <:+: text := by
  have listed := ends.mem
  obtain ⟨start, finish, ⟨_, _, _, division, _⟩, _⟩ := ends
  exact infix_of_infix_normalise listed (infix_of_divide? division)

theorem not_infix_part (ends : IsEnd separator part text) : ¬ separator <:+: part :=
  (infix_and_free_of_mem_pieces (separators_nonempty ends.mem) ends.mem_pieces).2

/-- A separator that stands in an end stands in the whole. -/
theorem infix_of_part (ends : IsEnd separator part text) {other : List Char}
    (listed : other ∈ separators) (inside : other <:+: part) : other <:+: text :=
  infix_of_infix_normalise listed (inside.trans
    (infix_and_free_of_mem_pieces (separators_nonempty ends.mem) ends.mem_pieces).1)

end IsEnd

/-- Going on with ends comes to an end, since the dashes become fewer. -/
theorem isEnd_wellFounded :
    WellFounded fun part text : List Char => ∃ separator, IsEnd separator part text :=
  Subrelation.wf (fun ⟨_, ends⟩ => ends.dashCount_lt) (measure dashCount).wf

/-! ## Paths -/

namespace Nested

variable {text inner : List Char} {used : List (List Char)}

/-- All separators of a path stand in the text that it starts from. -/
theorem mem_and_infix (nested : Nested text used inner) :
    ∀ separator ∈ used, separator ∈ separators ∧ separator <:+: text := by
  induction nested with
  | whole text => exact fun _ member => nomatch member
  | inside ends _ inductionHypothesis =>
    refine List.forall_mem_cons.mpr ⟨⟨ends.mem, ends.infix_whole⟩, fun separator member => ?_⟩
    obtain ⟨listed, inside⟩ := inductionHypothesis separator member
    exact ⟨listed, ends.infix_of_part listed inside⟩

/-- A separator that divided a text stands in neither end, so no later step uses it. -/
theorem nodup (nested : Nested text used inner) : used.Nodup := by
  induction nested with
  | whole text => exact List.nodup_nil
  | inside ends nested inductionHypothesis =>
    refine List.nodup_cons.mpr ⟨fun again => ?_, inductionHypothesis⟩
    exact ends.not_infix_part (nested.mem_and_infix _ again).2

theorem length_le (nested : Nested text used inner) : used.length ≤ separators.length :=
  (List.subperm_of_subset nested.nodup fun separator member =>
    (nested.mem_and_infix separator member).1).length_le

end Nested

/-! ## Accepted dates -/

variable {now : Calendar.Moment} {date : HistoricalDate}

/-- An undivided expression is no range. -/
theorem depth_of_readSingle {text : List Char} (accepted : readSingle now text = .ok date) :
    date.depth = 0 := by
  rcases readSingle_eq_ok_iff.mp accepted with before | common | bare | calendar
  · obtain ⟨_, number, _, positive⟩ := before
    unfold yearBefore at positive
    split at positive <;> cases positive
    rfl
  · obtain ⟨_, _, number, _, within⟩ := common
    unfold commonYear at within
    split at within <;> cases within
    rfl
  · obtain ⟨_, _, number, _, within⟩ := bare
    unfold commonYear at within
    split at within <;> cases within
    rfl
  · obtain ⟨_, _, _, past⟩ := calendar
    unfold readCalendar at past
    split at past
    · split at past <;> cases past
      rfl
    · cases past

/-- The ranges of a date stand inside one another as the ends they were read from.  The induction is
on the nested ranges of the expression; the path leads to the deeper of the two ends. -/
theorem exists_nested_of_read {text : List Char} (accepted : read now text = .ok date) :
    ∃ used inner, Nested text used inner ∧ used.length = date.depth := by
  fun_induction read now text generalizing date with
  | case1 text empty => cases accepted
  | case2 text content single divided =>
    exact ⟨[], text, .whole text, (depth_of_readSingle accepted).symm⟩
  | case3 text content start finish divided cause failed => cases accepted
  | case4 text content start finish divided first readStart cause failed => cases accepted
  | case5 text content start finish divided first readStart last readFinish startHypothesis
      finishHypothesis =>
    cases accepted
    obtain ⟨separator, divides⟩ := split_eq_range_iff.mp divided
    rcases Nat.le_total last.depth first.depth with deeper | deeper
    · obtain ⟨used, inner, nested, length⟩ := startHypothesis readStart
      refine ⟨separator :: used, inner, .inside ⟨start, finish, divides, .inl rfl⟩ nested, ?_⟩
      rw [List.length_cons, length, depth, Nat.max_eq_left deeper]
    · obtain ⟨used, inner, nested, length⟩ := finishHypothesis readFinish
      refine ⟨separator :: used, inner, .inside ⟨start, finish, divides, .inr rfl⟩ nested, ?_⟩
      rw [List.length_cons, length, depth, Nat.max_eq_right deeper]

/-- A range of a given depth has at most as many leaves as a full binary tree. -/
theorem length_leaves_le (date : HistoricalDate) : date.leaves.length ≤ Nat.pow 2 date.depth := by
  induction date with
  | year number era explicit => exact Nat.le_refl 1
  | calendar moment => exact Nat.le_refl 1
  | range start finish startHypothesis finishHypothesis =>
    have startPower : Nat.pow 2 start.depth ≤ Nat.pow 2 (max start.depth finish.depth) :=
      Nat.pow_le_pow_right Nat.two_pos (Nat.le_max_left _ _)
    have finishPower : Nat.pow 2 finish.depth ≤ Nat.pow 2 (max start.depth finish.depth) :=
      Nat.pow_le_pow_right Nat.two_pos (Nat.le_max_right _ _)
    have doubled : Nat.pow 2 (max start.depth finish.depth + 1) =
        Nat.pow 2 (max start.depth finish.depth) * 2 := rfl
    rw [leaves, List.length_append, depth, doubled]
    omega

theorem depth_le_of_read {text : List Char} (accepted : read now text = .ok date) :
    date.depth ≤ separators.length := by
  obtain ⟨used, inner, nested, length⟩ := exists_nested_of_read accepted
  rw [← length]
  exact nested.length_le

/-- Reading a date ends: it goes on with the ends of a range, and each of these holds fewer dashes
than the whole.  No path of nested ranges uses a separator twice, and an accepted date has depth
four and sixteen leaves at most. -/
theorem nesting_is_bounded :
    (∀ text start finish, Expression.split (normalise text) = .range start finish →
        ∃ separator, IsEnd separator start text ∧ IsEnd separator finish text) ∧
      (∀ separator part text, IsEnd separator part text → dashCount part < dashCount text) ∧
      (WellFounded fun part text : List Char => ∃ separator, IsEnd separator part text) ∧
      (∀ text used inner, Nested text used inner → used.Nodup ∧ used ⊆ separators) ∧
      ∀ now text date, parse now text = .ok date → date.depth ≤ 4 ∧ date.leaves.length ≤ 16 := by
  refine ⟨?_, fun _ _ _ ends => ends.dashCount_lt, isEnd_wellFounded, ?_, ?_⟩
  · intro text start finish divided
    obtain ⟨separator, divides⟩ := split_eq_range_iff.mp divided
    exact ⟨separator, ⟨start, finish, divides, .inl rfl⟩, ⟨start, finish, divides, .inr rfl⟩⟩
  · intro text used inner nested
    exact ⟨nested.nodup, fun separator member => (nested.mem_and_infix separator member).1⟩
  · intro now text date accepted
    have shallow : date.depth ≤ 4 := depth_le_of_read accepted
    refine ⟨shallow, (length_leaves_le date).trans ?_⟩
    exact Nat.pow_le_pow_right Nat.two_pos shallow

/-- Both bounds are reached. -/
example :
    (parse (.midnight ⟨2024, 6, 1, by decide, by decide⟩)
        "1-2 — 3-4 – 5-6 — 7-8 - 1-2 — 3-4 – 5-6 — 7-8").map
      (fun date => (date.depth, date.leaves.length)) = .ok (4, 16) := by
  decide +kernel

end HistoricalDate
end MuseumRecord
