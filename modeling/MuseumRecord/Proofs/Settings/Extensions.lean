import Mathlib.Logic.Relation
import MuseumRecord.Proofs.Text.LowerCase
import MuseumRecord.Settings.File

/-!
# Extensions of document files

Extensions are added in one form and asked for in another.  Where all listed extensions have the
form in which extensions are added, the two agree on an extension exactly when no letter of it
outside ASCII changes its case.
-/

namespace MuseumRecord
namespace Settings

open Text

/-! ## Normal extensions -/

/-- No dot stands in front. -/
def IsUndotted (extension : String) : Prop :=
  extension.toList.head? ≠ some '.'

/-- The extension has the form in which extensions are added. -/
def IsNormal (extension : String) : Prop :=
  normalExtension extension = extension

/-- The extension has the same lower-case form whether all letters are mapped or those of ASCII. -/
def LowersInAscii (extension : String) : Prop :=
  lower (withoutDots extension) = lowerAscii (withoutDots extension)

variable {settings next : Settings} {extension known : String}

theorem head?_withoutDots (extension : String) : (withoutDots extension).head? ≠ some '.' := by
  unfold withoutDots
  induction extension.toList with
  | nil => exact (Option.some_ne_none '.').symm
  | cons first rest inductionHypothesis =>
    by_cases dot : first = '.'
    · rw [List.dropWhile_cons_of_pos (by rw [dot]; rfl)]
      exact inductionHypothesis
    · rw [List.dropWhile_cons_of_neg (by simpa using dot)]
      exact fun head => dot (Option.some.inj head)

theorem withoutDots_eq_self (undotted : IsUndotted extension) :
    withoutDots extension = extension.toList := by
  unfold IsUndotted at undotted
  unfold withoutDots
  cases letters : extension.toList with
  | nil => rfl
  | cons first rest =>
    rw [letters] at undotted
    have other : first ≠ '.' := fun dot => undotted (congrArg some dot)
    exact List.dropWhile_cons_of_neg (by simpa using other)

theorem isUndotted_normalExtension (extension : String) :
    IsUndotted (normalExtension extension) := by
  rw [IsUndotted, normalExtension, String.toList_ofList]
  exact head?_lower_ne (head?_withoutDots extension)

theorem isNormal_normalExtension (extension : String) : IsNormal (normalExtension extension) := by
  have undotted := withoutDots_eq_self (isUndotted_normalExtension extension)
  rw [IsNormal, normalExtension, undotted, normalExtension, String.toList_ofList, lower_lower]

theorem IsNormal.isUndotted (normal : IsNormal known) : IsUndotted known :=
  normal ▸ isUndotted_normalExtension known

theorem IsNormal.lower_eq (normal : IsNormal known) : lower known.toList = known.toList := by
  have same := congrArg String.toList normal
  rwa [normalExtension, withoutDots_eq_self normal.isUndotted, String.toList_ofList] at same

theorem IsNormal.lowerAscii_eq (normal : IsNormal known) :
    lowerAscii known.toList = known.toList := by
  rw [← normal.lower_eq, lowerAscii_lower]

/-! ## Lists of normal extensions -/

/-- Every listed extension has the form in which extensions are added. -/
def IsNormalised (settings : Settings) : Prop :=
  ∀ known ∈ settings.extensions, IsNormal known

theorem addExtension_snd_iff :
    (settings.addExtension extension).2 = true ↔
      normalExtension extension ∉ settings.extensions := by
  unfold addExtension
  split
  · next listed => simpa using listed
  · next unlisted => simpa using unlisted

theorem mem_addExtension_iff :
    known ∈ (settings.addExtension extension).1.extensions ↔
      known ∈ settings.extensions ∨ known = normalExtension extension := by
  unfold addExtension
  split
  · next listed =>
    constructor
    · exact .inl
    · rintro (member | rfl)
      · exact member
      · simpa using listed
  · simp

theorem IsNormalised.addExtension (normalised : settings.IsNormalised) (extension : String) :
    (settings.addExtension extension).1.IsNormalised := by
  intro known member
  rcases mem_addExtension_iff.mp member with listed | rfl
  · exact normalised known listed
  · exact isNormal_normalExtension extension

/-- In a list of normal extensions the form with small ASCII letters is looked up. -/
theorem IsNormalised.accepts_iff (normalised : settings.IsNormalised) :
    settings.accepts extension = true ↔
      String.ofList (lowerAscii (withoutDots extension)) ∈ settings.extensions := by
  unfold accepts
  rw [List.any_eq_true]
  constructor
  · rintro ⟨known, listed, same⟩
    rw [beq_iff_eq, (normalised known listed).lowerAscii_eq] at same
    rw [← same, String.ofList_toList]
    exact listed
  · intro listed
    refine ⟨_, listed, ?_⟩
    rw [beq_iff_eq, (normalised _ listed).lowerAscii_eq, String.toList_ofList]

theorem accepts_of_undotted (listed : known ∈ settings.extensions) (undotted : IsUndotted known) :
    settings.accepts known = true := by
  refine List.any_eq_true.mpr ⟨known, listed, ?_⟩
  rw [withoutDots_eq_self undotted]
  exact beq_self_eq_true _

/-! ## Adding and asking -/

/-- Adding the extension tells whether it was accepted before, and makes it accepted. -/
def AddsWhatIsRefused (settings : Settings) (extension : String) : Prop :=
  ((settings.addExtension extension).2 = true ↔ settings.accepts extension = false) ∧
    (settings.addExtension extension).1.accepts extension = true

theorem IsNormalised.addsWhatIsRefused (normalised : settings.IsNormalised)
    (ascii : LowersInAscii extension) : settings.AddsWhatIsRefused extension := by
  have form : String.ofList (lowerAscii (withoutDots extension)) = normalExtension extension := by
    rw [normalExtension, ascii]
  refine ⟨?_, ?_⟩
  · rw [addExtension_snd_iff, ← Bool.not_eq_true, normalised.accepts_iff, form]
  · rw [(normalised.addExtension extension).accepts_iff, form]
    exact mem_addExtension_iff.mpr (.inr rfl)

/-- An extension with a letter outside ASCII that changes its case is not even accepted after it
was added. -/
theorem IsNormalised.lowersInAscii (normalised : settings.IsNormalised)
    (accepted : (settings.addExtension extension).1.accepts extension = true) :
    LowersInAscii extension := by
  have after := normalised.addExtension extension
  have normal := after _ (after.accepts_iff.mp accepted)
  have small := normal.lower_eq
  rwa [String.toList_ofList, lower_lowerAscii] at small

/-! ## Histories -/

/-- One change of settings.  The extensions of loaded files are admitted. -/
inductive Changes (admits : String → Prop) : Settings → Settings → Prop
  | added (settings : Settings) (extension : String) :
      Changes admits settings (settings.addExtension extension).1
  | loaded (settings : Settings) {text : String} {loaded : Settings} :
      ofFileText? text = some loaded → (∀ known ∈ loaded.extensions, admits known) →
      Changes admits settings loaded

/-- The settings come from the default ones by additions and by loading files. -/
def IsReached (admits : String → Prop) (settings : Settings) : Prop :=
  Relation.ReflTransGen (Changes admits) {} settings

/-- What is admitted of loaded extensions, and holds of every added one, holds of all. -/
theorem Changes.forall_extensions {admits : String → Prop}
    (added : ∀ extension, admits (normalExtension extension))
    (change : Changes admits settings next) (all : ∀ known ∈ settings.extensions, admits known) :
    ∀ known ∈ next.extensions, admits known := by
  cases change with
  | added extension =>
    intro known member
    rcases mem_addExtension_iff.mp member with listed | rfl
    · exact all known listed
    · exact added extension
  | loaded _ admitted => exact admitted

theorem IsReached.forall_extensions {admits : String → Prop}
    (added : ∀ extension, admits (normalExtension extension))
    (reached : settings.IsReached admits) : ∀ known ∈ settings.extensions, admits known := by
  induction reached with
  | refl =>
    have normal : normalExtension "xml" = "xml" := by decide +kernel
    exact List.forall_mem_singleton.mpr (normal ▸ added "xml")
  | tail _ change inductionHypothesis => exact change.forall_extensions added inductionHypothesis

/-- Where the extensions of loaded files are without a dot, every listed extension is without a dot
and is accepted.  Where they have the form in which extensions are added, adding an extension tells
whether it was accepted before and makes it accepted, exactly when all its letters that change their
case are of ASCII. -/
theorem extensions_agree_in_reached (settings : Settings) :
    (settings.IsReached IsUndotted → ∀ known ∈ settings.extensions,
      IsUndotted known ∧ settings.accepts known = true) ∧
    (settings.IsReached IsNormal → ∀ extension,
      settings.AddsWhatIsRefused extension ↔ LowersInAscii extension) := by
  refine ⟨fun reached known listed => ?_, fun reached extension => ?_⟩
  · have undotted := reached.forall_extensions isUndotted_normalExtension known listed
    exact ⟨undotted, accepts_of_undotted listed undotted⟩
  · have normalised : settings.IsNormalised := reached.forall_extensions isNormal_normalExtension
    exact ⟨fun law => normalised.lowersInAscii law.2, normalised.addsWhatIsRefused⟩

/-- Settings from a file that lists two extensions. -/
def twoExtensions : Settings :=
  { extensions := ["xml", "é"] }

theorem twoExtensions_agree :
    twoExtensions.IsReached IsNormal ∧ ∀ extension,
      twoExtensions.AddsWhatIsRefused extension ↔ LowersInAscii extension := by
  have read : ofFileText? "_version = \"1\"\nextensions = [\"xml\", \"é\"]\n" =
      some twoExtensions := by decide +kernel
  have admitted : ∀ known ∈ twoExtensions.extensions, IsNormal known := by
    have normal : normalExtension "xml" = "xml" ∧ normalExtension "é" = "é" := by decide +kernel
    exact List.forall_mem_cons.mpr ⟨normal.1, List.forall_mem_singleton.mpr normal.2⟩
  have reached : twoExtensions.IsReached IsNormal := .single (.loaded {} read admitted)
  exact ⟨reached, (extensions_agree_in_reached twoExtensions).2 reached⟩

/-- A dot in a loaded file stays, and the extension is not accepted; a loaded extension in capitals
is accepted and can still be added; an accent is lost on the way from adding to asking. -/
theorem extensions_drift_apart :
    (∃ settings : Settings, settings.IsReached (fun _ => True) ∧ settings.extensions = [".xml"] ∧
      ¬IsUndotted ".xml" ∧ settings.accepts ".xml" = false) ∧
    (∃ settings : Settings, settings.IsReached (fun _ => True) ∧ settings.accepts "xml" = true ∧
      (settings.addExtension "xml").2 = true) ∧
    ∃ settings : Settings, settings.IsReached (fun _ => True) ∧
      (settings.addExtension "É").2 = true ∧
      (settings.addExtension "É").1.accepts "É" = false := by
  have dotted : ofFileText? "_version = \"1\"\nextensions = [\".xml\"]\n" =
      some { extensions := [".xml"] } := by decide +kernel
  have capital : ofFileText? "_version = \"1\"\nextensions = [\"XML\"]\n" =
      some { extensions := ["XML"] } := by decide +kernel
  refine ⟨⟨_, .single (.loaded {} dotted fun _ _ => trivial), rfl, ?_, by decide +kernel⟩,
    ⟨_, .single (.loaded {} capital fun _ _ => trivial), by decide +kernel, by decide +kernel⟩,
    ⟨{}, .refl, by decide +kernel, by decide +kernel⟩⟩
  exact fun undotted => undotted rfl

end Settings
end MuseumRecord
