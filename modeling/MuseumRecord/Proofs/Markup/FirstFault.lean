import MuseumRecord.Markup.Document
import MuseumRecord.Proofs.Markup.Sanitized
import Mathlib.Data.List.Infix

/-!
# Places of faults

The place that is told with a fault is a place of the text, and the text in front of it is without
fault: read on its own, it is a document or lacks only its continuation.
-/

namespace MuseumRecord
namespace Markup

open Text

/-- The byte offset that is told with an error. -/
def ParseError.place? : ParseError → Option Nat
  | .malformed place _ => some place
  | .badValue place _ => some place
  | .textOutsideRoot place => some place
  | .noRoot => none
  | .secondRoot _ => none
  | .unclosed _ => none

/-- A text without a defect is a document, or it is none only because it ends too early. -/
def IsFreeOfDefects (outcome : Except ParseError Element) : Prop :=
  ∀ fault, outcome = .error fault → fault = .noRoot ∨ ∃ name, fault = .unclosed name

/-- The fault a text is refused for. -/
def refusal? : Except ParseError Element → Option ParseError
  | .ok _ => none
  | .error fault => some fault

theorem refusal?_eq_some {outcome : Except ParseError Element} {fault : ParseError} :
    refusal? outcome = some fault ↔ outcome = .error fault := by
  cases outcome with
  | ok root => simp [refusal?]
  | error other => simp [refusal?]

/-! ## The fault of one event -/

namespace Builder

theorem place_of_openTag {builder : Builder} {place told : Nat} {tag : StartTag}
    {fault : ParseError} (failed : builder.openTag place tag = .error fault)
    (places : fault.place? = some told) : told = place := by
  unfold openTag at failed
  split at failed
  · cases failed
    cases places
  · split at failed
    · cases failed
    · cases failed
      cases places
      rfl

theorem place_of_addText {builder : Builder} {place told : Nat} {text : List Char}
    {fault : ParseError} (failed : builder.addText place text = .error fault)
    (places : fault.place? = some told) : told = place := by
  unfold addText at failed
  split at failed
  · cases failed
  · split at failed
    · cases failed
    · cases failed
      cases places
      rfl

/-- The place of a fault is the place of the event that is at fault. -/
theorem place_of_step {builder : Builder} {place told : Nat} {event : Event} {fault : ParseError}
    (failed : builder.step place event = .error fault) (places : fault.place? = some told) :
    told = place := by
  cases event with
  | opened tag =>
    simp only [step] at failed
    split at failed
    · cases failed
    · next refused =>
      cases failed
      exact place_of_openTag refused places
  | empty tag =>
    simp only [step] at failed
    split at failed
    · cases failed
    · next refused =>
      cases failed
      exact place_of_openTag refused places
  | closed =>
    simp only [step] at failed
    split at failed
    · cases failed
    · cases failed
  | characters written =>
    simp only [step] at failed
    split at failed
    · exact place_of_addText failed places
    · cases failed
      cases places
      rfl
  | characterData text => exact place_of_addText failed places
  | aside => cases failed

/-- A text that ends may lack its continuation, and nothing else. -/
theorem isFreeOfDefects_finish (builder : Builder) : IsFreeOfDefects builder.finish := by
  intro fault failed
  unfold finish at failed
  split at failed
  · next element _ _ =>
    cases failed
    exact .inr ⟨element.name, rfl⟩
  · cases failed
  · cases failed
    exact .inl rfl

/-- What a builder makes of a transcript: the first fault counts, in the events or behind them. -/
def document (builder : Builder) (transcript : Transcript) : Except ParseError Element :=
  match builder.run transcript.events with
  | .error fault => .error fault
  | .ok final =>
    match transcript.failure with
    | some (place, fault) => .error (.malformed place fault)
    | none => final.finish

theorem document_of_step {builder next : Builder} {place : Nat} {event : Event}
    (step : builder.step place event = .ok next) (remaining : Transcript) :
    builder.document ⟨(place, event) :: remaining.events, remaining.failure⟩ =
      next.document remaining := by
  simp only [document, run, step]

theorem document_of_failed_step {builder : Builder} {place : Nat} {event : Event}
    {fault : ParseError} (failed : builder.step place event = .error fault)
    (remaining : Transcript) :
    builder.document ⟨(place, event) :: remaining.events, remaining.failure⟩ = .error fault := by
  simp only [document, run, failed]

end Builder

/-! ## Reading up to a fault -/

/-- An event is read from its own part of the text and alike in front of every beginning of what
follows it. -/
theorem next_of_front {frames inner : List Frame} {first : Char} {rest after : List Char}
    {event : Event} (found : Event.next frames first rest = .ok (event, inner, after)) :
    ∃ part, rest = part ++ after ∧
      ∀ front, front <+: after → Event.next frames first (part ++ front) =
        .ok (event, inner, front) := by
  rcases next_cases found with ⟨rfl, construct, read, resolved⟩ | ⟨run, rfl, noTag, stops, rfl, rfl⟩
  · obtain ⟨front, rfl, again⟩ := Construct.read_local read
    refine ⟨front ++ ['>'], by simp, fun other _ => ?_⟩
    rw [List.append_assoc]
    exact next_of_read (again other) resolved
  · refine ⟨run, rfl, fun front begins => next_of_characters noTag fun character head => ?_⟩
    obtain ⟨others, rfl⟩ := begins
    obtain ⟨tail, rfl⟩ := List.head?_eq_some_iff.mp head
    exact stops character rfl

theorem read_nil (offset : Nat) (frames : List Frame) :
    Transcript.read offset frames [] = ⟨[], none⟩ := by
  rw [Transcript.read]

theorem document_read_nil (offset : Nat) (frames : List Frame) (builder : Builder) :
    builder.document (Transcript.read offset frames []) = builder.finish := by
  rw [read_nil]
  rfl

theorem read_of_fault {offset : Nat} {frames : List Frame} {first : Char} {rest : List Char}
    {fault : MarkupFault} (found : Event.next frames first rest = .error fault) :
    Transcript.read offset frames (first :: rest) = ⟨[], some (offset, fault)⟩ := by
  rw [Transcript.read]
  split
  · next other =>
    rw [found] at other
    cases other
    rfl
  · next other =>
    rw [found] at other
    cases other

/-- Where reading begins with the fault, nothing of the text is in front of it. -/
theorem exists_front_here {offset place : Nat} (frames : List Frame) (builder : Builder)
    (text : List Char) (same : place = offset) :
    ∃ front rest, text = front ++ rest ∧ place = offset + byteSize front ∧
      IsFreeOfDefects (builder.document (Transcript.read offset frames front)) := by
  refine ⟨[], text, rfl, same, ?_⟩
  rw [document_read_nil]
  exact builder.isFreeOfDefects_finish

/-- The text in front of a fault ends where the fault is placed, and it is without defect. -/
theorem exists_front_of_fault {offset place : Nat} {frames : List Frame} {builder : Builder}
    {text : List Char} {fault : ParseError}
    (failed : builder.document (Transcript.read offset frames text) = .error fault)
    (places : fault.place? = some place) :
    ∃ front rest, text = front ++ rest ∧ place = offset + byteSize front ∧
      IsFreeOfDefects (builder.document (Transcript.read offset frames front)) := by
  induction offset, frames, text using Transcript.read.induct generalizing builder with
  | case1 offset frames =>
    rw [document_read_nil] at failed
    rcases builder.isFreeOfDefects_finish fault failed with rfl | ⟨name, rfl⟩
    · cases places
    · cases places
  | case2 offset frames first rest markup found =>
    rw [read_of_fault found] at failed
    cases failed
    cases places
    exact exists_front_here _ _ _ rfl
  | case3 offset frames first rest event inner after found inductionHypothesis =>
    rw [transcript_of_next found] at failed
    cases step : builder.step offset event with
    | error refused =>
      rw [Builder.document_of_failed_step step] at failed
      cases failed
      exact exists_front_here _ _ _ (Builder.place_of_step step places)
    | ok next =>
      rw [Builder.document_of_step step] at failed
      obtain ⟨part, rfl, again⟩ := next_of_front found
      obtain ⟨front, others, rfl, isPlace, free⟩ := inductionHypothesis failed
      have read (remainder : List Char) :
          bytesRead (first :: (part ++ remainder)) remainder = byteSize (first :: part) :=
        bytesRead_append (first :: part) remainder
      rw [read] at isPlace free
      refine ⟨first :: (part ++ front), others, by simp, ?_, ?_⟩
      · rw [isPlace, ← List.cons_append, byteSize_append, Nat.add_assoc]
      · rw [transcript_of_next (again front (List.prefix_append front others)), read,
          Builder.document_of_step step]
        exact free

/-! ## The byte order mark -/

/-- The bytes of a byte order mark in front of a text. -/
def markSize (text : List Char) : Nat :=
  if text.head? = some '\uFEFF' then 3 else 0

/-- What is read is a text without its byte order mark, and so is what is read of its beginnings. -/
theorem exists_mark (text : List Char) :
    ∃ mark, text = mark ++ behindMark text ∧ byteSize mark = markSize text ∧
      ∀ front, front <+: behindMark text → behindMark (mark ++ front) = front := by
  by_cases marked : text.head? = some '\uFEFF'
  · obtain ⟨rest, rfl⟩ := List.head?_eq_some_iff.mp marked
    exact ⟨['\uFEFF'], rfl, rfl, fun front _ => rfl⟩
  · have same : behindMark text = text := behindMark_eq_self fun character head equal =>
      marked (by rw [← equal]; exact head)
    refine ⟨[], same.symm, by rw [markSize, if_neg marked]; rfl, fun front begins => ?_⟩
    rw [same] at begins
    obtain ⟨rest, rfl⟩ := begins
    refine behindMark_eq_self fun character head equal => ?_
    obtain ⟨others, rfl⟩ := List.head?_eq_some_iff.mp head
    exact marked (congrArg some equal)

theorem utf8ByteSize_ofList (text : List Char) :
    (String.ofList text).utf8ByteSize = byteSize text := by
  induction text with
  | nil => rfl
  | cons character rest inductionHypothesis =>
    rw [← List.singleton_append, String.ofList_append, ← String.singleton_eq_ofList,
      String.utf8ByteSize_append, String.utf8ByteSize_singleton, inductionHypothesis]
    rfl

theorem parse_eq_document (text : String) :
    parse text = Builder.document {} (Transcript.read 0 [] (behindMark text.toList)) := by
  rw [← ofText_eq]
  rfl

/-- The place of a fault is counted from behind the byte order mark.  It lies in the text between
two of its characters, and the text in front of it is without defect. -/
theorem places_stand_behind_sound_text {text : String} {fault : ParseError} {place : Nat}
    (failed : parse text = .error fault) (places : fault.place? = some place) :
    markSize text.toList + place ≤ text.utf8ByteSize ∧
      ∃ front rest : String, text = front ++ rest ∧
        front.utf8ByteSize = markSize text.toList + place ∧ IsFreeOfDefects (parse front) := by
  obtain ⟨mark, whole, size, behind⟩ := exists_mark text.toList
  rw [parse_eq_document] at failed
  obtain ⟨front, rest, division, isPlace, free⟩ := exists_front_of_fault failed places
  have parts : text = String.ofList (mark ++ front) ++ String.ofList rest := by
    rw [← String.ofList_append, List.append_assoc, ← division, ← whole, String.ofList_toList]
  have measured : (String.ofList (mark ++ front)).utf8ByteSize = markSize text.toList + place := by
    rw [utf8ByteSize_ofList, byteSize_append, size, isPlace, Nat.zero_add]
  have sizes := congrArg String.utf8ByteSize parts
  rw [String.utf8ByteSize_append, measured] at sizes
  refine ⟨by omega, String.ofList (mark ++ front), String.ofList rest, parts, measured, ?_⟩
  rw [parse_eq_document, String.toList_ofList, behind front ⟨rest, division.symm⟩]
  exact free

/-- A text with a fault behind an element, a comment and a character of two bytes. -/
def misspelledText : String :=
  "<r>\u00E9<!-- > --><x a='1'>&lt;</x>&bad;</r>"

theorem place_of_misspelledText :
    parse misspelledText = .error (.badValue 32 (.badReference (.unknownName 1 4 "bad"))) ∧
      markSize misspelledText.toList + 32 ≤ misspelledText.utf8ByteSize ∧
      ∃ front rest : String, misspelledText = front ++ rest ∧
        front.utf8ByteSize = markSize misspelledText.toList + 32 ∧
        IsFreeOfDefects (parse front) := by
  have failed : parse misspelledText =
      .error (.badValue 32 (.badReference (.unknownName 1 4 "bad"))) :=
    refusal?_eq_some.mp (by decide +kernel)
  exact ⟨failed, places_stand_behind_sound_text failed rfl⟩

/-- Behind a byte order mark the place that is told is three bytes short: what stands in front of it
may end inside a tag, or inside a character. -/
theorem mark_displaces_faults :
    parse "\uFEFF<a/>x" = .error (.textOutsideRoot 4) ∧
      "\uFEFF<a/>x" = "\uFEFF<" ++ "a/>x" ∧ "\uFEFF<".utf8ByteSize = 4 ∧
      ¬ IsFreeOfDefects (parse "\uFEFF<") ∧
      parse "\uFEFF<\u00E9/>x" = .error (.textOutsideRoot 5) ∧
      ¬∃ front rest : String, "\uFEFF<\u00E9/>x" = front ++ rest ∧ front.utf8ByteSize = 5 := by
  have defective : refusal? (parse "\uFEFF<") = some (.malformed 0 .unclosedTag) := by
    decide +kernel
  refine ⟨refusal?_eq_some.mp (by decide +kernel), by decide +kernel, by decide +kernel,
    fun free => ?_, refusal?_eq_some.mp (by decide +kernel), ?_⟩
  · rcases free _ (refusal?_eq_some.mp defective) with other | ⟨name, other⟩
    · cases other
    · cases other
  · rintro ⟨front, rest, whole, size⟩
    have none : ∀ begins ∈ "\uFEFF<\u00E9/>x".toList.inits, byteSize begins ≠ 5 := by
      decide +kernel
    refine none front.toList ((List.mem_inits _ _).mpr ⟨rest.toList, ?_⟩) ?_
    · rw [whole, String.toList_append]
    · rw [← utf8ByteSize_ofList, String.ofList_toList, size]

end Markup
end MuseumRecord
