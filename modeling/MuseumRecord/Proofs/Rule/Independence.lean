import Mathlib.Data.List.Forall2
import MuseumRecord.Proofs.Schema.Conforming
import MuseumRecord.Rule.Group

/-!
# Groups of rules are independent

Every group of rules reads one section of a record, or the attributes of its root.  Whatever else the
record holds, and whatever the other groups find, a group finds the same.
-/

namespace MuseumRecord

open Markup (Element)

/-! ## What a group reads -/

namespace RuleGroup

/-- The section that a group reads, if it reads one. -/
def section? : RuleGroup → Option String
  | .identifier => none
  | .basicInfo => some "BasicInfo"
  | .dimensions => some "Technical"
  | .location => some "Location"
  | .history => some "History"
  | .media => some "Media"
  | .condition => some "Technical"

end RuleGroup

namespace Exhibit

/-- The record with nothing in it but what a group reads. -/
def seenBy (exhibit : Exhibit) : RuleGroup → Exhibit
  | .identifier => { id := exhibit.id }
  | .basicInfo => { basicInfo := exhibit.basicInfo }
  | .dimensions => { technical := exhibit.technical }
  | .location => { location := exhibit.location }
  | .history => { history := exhibit.history }
  | .media => { media := exhibit.media }
  | .condition => { technical := exhibit.technical }

end Exhibit

section Groups

variable {now : Calendar.Moment} {exhibit : Exhibit} {group : RuleGroup}

/-- A group decides by what it reads. -/
theorem RuleGroup.violation?_seenBy :
    group.violation? now (exhibit.seenBy group) = group.violation? now exhibit := by
  cases group <;> rfl

theorem RuleGroup.diagnostic?_seenBy :
    group.diagnostic? now (exhibit.seenBy group) = group.diagnostic? now exhibit := by
  rw [diagnostic?, violation?_seenBy, diagnostic?]

/-! ## Diagnostics of some groups -/

/-- The diagnostics of the groups that are kept. -/
def ofGroups (keeps : RuleGroup → Bool) (diagnostics : List Diagnostic) : List Diagnostic :=
  diagnostics.filter fun diagnostic => diagnostic.stage.group?.any keeps

theorem RuleGroup.filter_diagnostic? (keeps : RuleGroup → Bool) :
    (group.diagnostic? now exhibit).filter
        (fun diagnostic => diagnostic.stage.group?.any keeps) =
      if keeps group then group.diagnostic? now exhibit else none := by
  unfold diagnostic?
  cases group.violation? now exhibit with
  | none => simp
  | some violation => cases kept : keeps group <;> simp [Stage.group?, Option.filter, kept]

/-- To keep the diagnostics of some groups is to apply these groups alone. -/
theorem ofGroups_diagnostics (keeps : RuleGroup → Bool) :
    ofGroups keeps (exhibit.diagnostics now) =
      (RuleGroup.all.filter keeps).filterMap fun group => group.diagnostic? now exhibit := by
  unfold ofGroups Exhibit.diagnostics
  rw [List.filter_filterMap, List.filterMap_filter]
  congr
  funext group
  exact RuleGroup.filter_diagnostic? keeps

theorem ofGroups_single (group : RuleGroup) :
    ofGroups (· == group) (exhibit.diagnostics now) =
      (group.diagnostic? now exhibit).toList := by
  have alone : RuleGroup.all.filter (· == group) = [group] := by
    cases group <;> rfl
  rw [ofGroups_diagnostics, alone]
  cases found : group.diagnostic? now exhibit <;> simp [found]

/-- Every group says what it says on a record with nothing in it but what the group reads. -/
theorem Exhibit.diagnostics_eq_flatMap_seenBy :
    exhibit.diagnostics now =
      RuleGroup.all.flatMap fun group =>
        ofGroups (· == group) ((exhibit.seenBy group).diagnostics now) := by
  unfold Exhibit.diagnostics
  rw [List.filterMap_eq_flatMap_toList]
  congr
  funext group
  rw [← RuleGroup.diagnostic?_seenBy]
  exact (ofGroups_single group).symm

end Groups

/-! ## Documents that differ in one section -/

/-- The roots of two documents have the same attributes, and their children are the same but for the
content of children named like a section. -/
structure DifferOnlyIn (part : String) (first second : Element) : Prop where
  attributes : first.attributes = second.attributes
  children : List.Forall₂
    (fun child other => child = other ∨ child.name = part ∧ other.name = part)
    first.children second.children

namespace DifferOnlyIn

variable {part name : String} {first second : Element}

theorem attribute?_eq (alike : DifferOnlyIn part first second) :
    first.attribute? name = second.attribute? name := by
  rw [Element.attribute?, alike.attributes, Element.attribute?]

/-- The first child of another name is the same. -/
theorem child?_eq (alike : DifferOnlyIn part first second) (other : name ≠ part) :
    first.child? name = second.child? name := by
  have children := alike.children
  unfold Element.child?
  generalize first.children = firstChildren at children ⊢
  generalize second.children = secondChildren at children ⊢
  induction children with
  | nil => rfl
  | cons same _ inductionHypothesis =>
    rw [List.find?_cons, List.find?_cons, inductionHypothesis]
    rcases same with rfl | ⟨firstNamed, secondNamed⟩
    · rfl
    · have apart : (part == name) = false := beq_false_of_ne (Ne.symm other)
      rw [firstNamed, secondNamed, apart]

/-- A group that does not read the section sees the same. -/
theorem seenBy_eq (alike : DifferOnlyIn part first second) {group : RuleGroup}
    (unread : group.section? ≠ some part) :
    (Exhibit.ofElement first).seenBy group = (Exhibit.ofElement second).seenBy group := by
  have sectionEq {name : String} (reads : group.section? = some name) :
      first.child? name = second.child? name := by
    apply alike.child?_eq
    rintro rfl
    exact unread reads
  cases group with
  | identifier => simp only [Exhibit.seenBy, Exhibit.ofElement, alike.attribute?_eq]
  | basicInfo | dimensions | location | history | media | condition =>
    simp only [Exhibit.seenBy, Exhibit.ofElement, sectionEq rfl]

theorem diagnostic?_eq (alike : DifferOnlyIn part first second) {group : RuleGroup}
    (unread : group.section? ≠ some part) (now : Calendar.Moment) :
    group.diagnostic? now (Exhibit.ofElement first) =
      group.diagnostic? now (Exhibit.ofElement second) := by
  rw [← RuleGroup.diagnostic?_seenBy, alike.seenBy_eq unread, RuleGroup.diagnostic?_seenBy]

/-- Groups that do not read the section say the same. -/
theorem ofGroups_eq (alike : DifferOnlyIn part first second) (now : Calendar.Moment)
    {keeps : RuleGroup → Bool} (unread : ∀ group, keeps group = true → group.section? ≠ some part) :
    ofGroups keeps ((Exhibit.ofElement first).diagnostics now) =
      ofGroups keeps ((Exhibit.ofElement second).diagnostics now) := by
  rw [ofGroups_diagnostics, ofGroups_diagnostics]
  apply List.filterMap_congr
  intro group member
  exact alike.diagnostic?_eq (unread group (List.mem_filter.mp member).2) now

end DifferOnlyIn

/-- Two documents that differ in one section alone have the same diagnostics of all groups that do
not read it, in the same order; if no group reads it, all diagnostics are the same.  Whatever other
groups find, each group says what it says on a record that holds nothing but what this group reads. -/
theorem rule_groups_do_not_interfere (now : Calendar.Moment) {part : String}
    {first second : Element} (alike : DifferOnlyIn part first second) :
    ofGroups (fun group => group.section? != some part)
        ((Exhibit.ofElement first).diagnostics now) =
      ofGroups (fun group => group.section? != some part)
        ((Exhibit.ofElement second).diagnostics now) ∧
    ((∀ group : RuleGroup, group.section? ≠ some part) →
      (Exhibit.ofElement first).diagnostics now = (Exhibit.ofElement second).diagnostics now) ∧
    ∀ exhibit : Exhibit, exhibit.diagnostics now =
      RuleGroup.all.flatMap fun group =>
        ofGroups (· == group) ((exhibit.seenBy group).diagnostics now) := by
  refine ⟨?_, ?_, ?_⟩
  · apply alike.ofGroups_eq
    intro group kept
    exact bne_iff_ne.mp kept
  · intro unread
    apply List.filterMap_congr
    intro group _
    exact alike.diagnostic?_eq (unread group) now
  · intro exhibit
    exact Exhibit.diagnostics_eq_flatMap_seenBy

/-- The sample record behind another technical part and an image without a file. -/
def spoiltRecord (unit condition : String) : Element :=
  { Schema.sampleRecord with
    children :=
      [Schema.exhibitElement "Technical" [] ""
          [Schema.exhibitElement "Dimensions" [("unit", unit)] "" [],
            Schema.exhibitElement "Condition" [] condition []],
        Schema.exhibitElement "Media" [] "" [Schema.exhibitElement "Image" [] "" []]] ++
      Schema.sampleRecord.children }

/-- What is wrong with the images of a record is said whatever its technical part is like. -/
theorem spoiltRecord_other_groups :
    DifferOnlyIn "Technical" (spoiltRecord "mile" "Broken") (spoiltRecord "cm" "Good") ∧
      ofGroups (fun group => group.section? != some "Technical")
          ((Exhibit.ofElement (spoiltRecord "mile" "Broken")).diagnostics
            (.midnight ⟨2024, 6, 1, by decide, by decide⟩)) =
        [{ severity := .error, stage := .rule .media, message := "Image/FileName is required" }] := by
  have alike : DifferOnlyIn "Technical" (spoiltRecord "mile" "Broken")
      (spoiltRecord "cm" "Good") := by
    refine ⟨rfl, .cons (.inr ⟨rfl, rfl⟩) ?_⟩
    apply List.forall₂_same.mpr
    exact fun _ _ => .inl rfl
  refine ⟨alike, (rule_groups_do_not_interfere _ alike).1.trans ?_⟩
  decide +kernel

end MuseumRecord
