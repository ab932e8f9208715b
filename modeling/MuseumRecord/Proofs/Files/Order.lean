import Mathlib.Data.List.Lex
import Mathlib.Data.List.Sort
import Mathlib.Data.Prod.Lex
import Mathlib.Data.String.Basic
import MuseumRecord.Files.Path

/-!
# The order of paths

Paths are ordered step by step, a step by its kind and entries by their names, so that what is below
a directory stands together.  Sorting leaves a strictly increasing row of the same paths.
-/

namespace MuseumRecord
namespace Path

/-! ## Keys -/

/-- The place of a step in a linear order: its kind and, of an entry, its name. -/
def Step.key : Step → Nat ×ₗ String
  | .root => toLex (0, "")
  | .here => toLex (1, "")
  | .above => toLex (2, "")
  | .entry name => toLex (3, name)

theorem Step.key_injective : Function.Injective Step.key := by
  intro step other same
  cases step <;> cases other <;> simp_all [Step.key]

theorem Step.isBefore_iff {step other : Step} :
    step.isBefore other = true ↔ step.key < other.key := by
  cases step <;> cases other <;> simp [Step.isBefore, Step.rank, Step.key, Prod.Lex.toLex_lt_toLex]

/-- The place of a path in the order of paths: the places of its steps, compared at the first
difference. -/
def keys (path : Path) : List (Nat ×ₗ String) :=
  path.steps.map Step.key

variable {path other : Path} {row : List Path}

theorem keys_eq_iff : path.keys = other.keys ↔ path.steps = other.steps :=
  Step.key_injective.list_map.eq_iff

theorem same_iff : same path other = true ↔ path.keys = other.keys := by
  rw [keys_eq_iff, same, beq_iff_eq]

theorem noLaterSteps_iff {steps others : List Step} :
    noLaterSteps steps others = true ↔ steps.map Step.key ≤ others.map Step.key := by
  induction steps generalizing others with
  | nil => simp [noLaterSteps, ← not_lt]
  | cons step steps inductionHypothesis =>
    cases others with
    | nil => simp [noLaterSteps, ← not_lt]
    | cons first others =>
      rw [noLaterSteps, List.map_cons, List.map_cons, ← not_lt, List.cons_lt_cons_iff]
      by_cases equal : step = first
      · simp [equal, inductionHypothesis]
      · have different : step.key ≠ first.key := Step.key_injective.ne equal
        rw [if_neg equal, Step.isBefore_iff]
        simp [different.symm, different.le_iff_lt]

theorem noLater_iff : noLater path other = true ↔ path.keys ≤ other.keys :=
  noLaterSteps_iff

/-- What is below a directory stands together, although a point comes before a slash. -/
example : noLater "a/c" "a.b" = true ∧ noLater "a.b" "a/c" = false := by
  decide +kernel

/-! ## Sorted rows -/

/-- Of a row in order each path is kept once. -/
theorem mem_keys_withoutRepeats (key : List (Nat ×ₗ String)) :
    key ∈ (withoutRepeats row).map keys ↔ key ∈ row.map keys := by
  induction row with
  | nil => rfl
  | cons path row inductionHypothesis =>
    rw [withoutRepeats]
    split
    · next nothing =>
      rw [nothing] at inductionHypothesis
      simp only [List.map_cons, List.mem_cons, List.map_nil, ← inductionHypothesis]
    · next first others division =>
      rw [division] at inductionHypothesis
      split
      · next repeated =>
        have equal := same_iff.mp repeated
        simp only [List.map_cons, List.mem_cons] at inductionHypothesis ⊢
        rw [← inductionHypothesis, ← equal]
        tauto
      · simp only [List.map_cons, List.mem_cons] at inductionHypothesis ⊢
        rw [← inductionHypothesis]

theorem pairwise_withoutRepeats (ordered : row.Pairwise fun path other => path.keys ≤ other.keys) :
    (withoutRepeats row).Pairwise fun path other => path.keys < other.keys := by
  induction row with
  | nil => exact List.Pairwise.nil
  | cons path row inductionHypothesis =>
    obtain ⟨leads, ordered⟩ := List.pairwise_cons.mp ordered
    have increasing := inductionHypothesis ordered
    rw [withoutRepeats]
    split
    · exact List.pairwise_singleton _ _
    · next first others division =>
      rw [division] at increasing
      obtain ⟨firstLeads, increasingOthers⟩ := List.pairwise_cons.mp increasing
      split
      · next repeated =>
        rw [List.pairwise_cons, same_iff.mp repeated]
        exact ⟨firstLeads, increasingOthers⟩
      · next differs =>
        have listed : first.keys ∈ row.map keys := by
          rw [← mem_keys_withoutRepeats, division]
          exact List.mem_cons_self
        obtain ⟨listed, inside, equal⟩ := List.mem_map.mp listed
        have before : path.keys < first.keys := by
          refine lt_of_le_of_ne (equal ▸ leads listed inside) ?_
          rwa [Ne, ← same_iff]
        refine List.pairwise_cons.mpr ⟨fun next member => ?_, increasing⟩
        rcases List.mem_cons.mp member with rfl | later
        · exact before
        · exact before.trans (firstLeads next later)

theorem pairwise_mergeSort (paths : List Path) :
    (paths.mergeSort noLater).Pairwise fun path other => path.keys ≤ other.keys := by
  have ordered := @List.pairwise_mergeSort _ noLater
    (fun path middle other first second =>
      noLater_iff.mpr ((noLater_iff.mp first).trans (noLater_iff.mp second)))
    (fun path other => by
      rw [Bool.or_eq_true, noLater_iff, noLater_iff]
      exact le_total _ _) paths
  exact ordered.imp noLater_iff.mp

/-- Sorted paths are strictly increasing. -/
theorem sortedLT_sorted (paths : List Path) : ((sorted paths).map keys).SortedLT := by
  rw [List.sortedLT_iff_pairwise, List.pairwise_map]
  exact pairwise_withoutRepeats (pairwise_mergeSort paths)

theorem mem_keys_sorted {paths : List Path} (key : List (Nat ×ₗ String)) :
    key ∈ (sorted paths).map keys ↔ key ∈ paths.map keys := by
  rw [sorted, mem_keys_withoutRepeats]
  simp only [List.mem_map, List.mem_mergeSort]

/-- Rows of the same paths are sorted alike, up to spelling. -/
theorem map_steps_sorted_congr {paths others : List Path}
    (same : ∀ path, path ∈ paths ↔ path ∈ others) :
    (sorted paths).map steps = (sorted others).map steps := by
  have equal : (sorted paths).map keys = (sorted others).map keys := by
    refine (sortedLT_sorted paths).eq_of_mem_iff (sortedLT_sorted others) fun key => ?_
    rw [mem_keys_sorted, mem_keys_sorted, List.mem_map, List.mem_map]
    simp only [same]
  have division : keys = List.map Step.key ∘ steps := rfl
  rw [division, ← List.map_map, ← List.map_map] at equal
  exact Step.key_injective.list_map.list_map equal

end Path
end MuseumRecord
