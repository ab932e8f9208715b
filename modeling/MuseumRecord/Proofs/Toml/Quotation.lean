import Mathlib.Data.List.Basic
import MuseumRecord.Toml.Style

/-!
# Written strings are read back

What is written between quotes or apostrophes is read back with the text that follows it.  Between
three marks of a kind up to two may stand side by side, also at the end of the string, where they
join the closing marks.
-/

namespace MuseumRecord
namespace Toml

/-! ## Escapes -/

theorem digitIn?_upperHexDigit {value : Nat} (bound : value < 16) :
    Number.digitIn? 16 (upperHexDigit value) = some value := by
  have table : ((List.range 16).all fun value =>
      Number.digitIn? 16 (upperHexDigit value) == some value) = true := by decide +kernel
  simpa using List.all_eq_true.mp table value (List.mem_range.mpr bound)

/-- The four digits of a code. -/
def codeDigits (code : Nat) : List Char :=
  [upperHexDigit (code / 4096), upperHexDigit (code / 256 % 16), upperHexDigit (code / 16 % 16),
    upperHexDigit (code % 16)]

theorem hexNumber?_codeDigits {code : Nat} (bound : code < 65536) :
    hexNumber? (codeDigits code) = some code := by
  have first := digitIn?_upperHexDigit (show code / 4096 < 16 by omega)
  have second := digitIn?_upperHexDigit (show code / 256 % 16 < 16 by omega)
  have third := digitIn?_upperHexDigit (show code / 16 % 16 < 16 by omega)
  have fourth := digitIn?_upperHexDigit (show code % 16 < 16 by omega)
  have value : (((0 * 16 + code / 4096) * 16 + code / 256 % 16) * 16 + code / 16 % 16) * 16 +
      code % 16 = code := by omega
  simp only [hexNumber?, codeDigits, List.foldlM_cons, List.foldlM_nil, first, second, third,
    fourth, Option.map_some, Option.bind_eq_bind, Option.bind_some, value]
  rfl

theorem numbered?_append {row : List Char} {code : Nat} (number : hexNumber? row = some code)
    (valid : code.isValidChar) (rest : List Char) :
    numbered? row.length (row ++ rest) = some (Char.ofNat code, rest) := by
  unfold numbered?
  rw [if_neg (by simp), List.take_left, List.drop_left, number]
  exact if_pos valid

theorem escape?_numberEscape {character : Char} (bound : character.toNat < 65536)
    (text : List Char) :
    escape? ('u' :: codeDigits character.toNat ++ text) = some (character, text) := by
  have number := numbered?_append (hexNumber?_codeDigits bound) character.valid text
  rw [Char.ofNat_toNat] at number
  exact number

/-- How a character other than a quote is written between quotes: as it is, or by an escape that
does not join lines. -/
inductive IsWritten (triple : Bool) (character : Char) : List Char → Prop
  | plain : character ≠ '"' → character ≠ '\\' → character ≠ '\r' →
      (isPlain character = true ∨ triple = true ∧ character = '\n') →
      IsWritten triple character [character]
  | escape {written : List Char} : (∀ text, joinedLine? (written ++ text) = none) →
      (∀ text, escape? (written ++ text) = some (character, text)) →
      IsWritten triple character ('\\' :: written)

theorem eq_of_toNat {character : Char} {code : Nat} (same : character.toNat = code) :
    character = Char.ofNat code := by
  rw [← same, Char.ofNat_toNat]

theorem isPlain_of_isControl_eq_false {character : Char} (noControl : isControl character = false)
    (noBreak : character ≠ '\n') : isPlain character = true := by
  simp only [isControl, Bool.and_eq_false_iff, Bool.or_eq_false_iff, decide_eq_false_iff_not,
    beq_eq_false_iff_ne, bne_eq_false_iff_eq, or_iff_left noBreak] at noControl
  simp only [isPlain, Bool.or_eq_true, Bool.and_eq_true, decide_eq_true_eq, beq_iff_eq,
    bne_iff_ne]
  rcases noControl with ⟨visible, noDelete⟩ | tab
  · exact .inr ⟨Nat.not_lt.mp visible, noDelete⟩
  · exact .inl tab

theorem isWritten_writtenCharacter (triple : Bool) {character : Char} (other : character ≠ '"') :
    IsWritten triple character (writtenCharacter triple character) := by
  unfold writtenCharacter
  by_cases backslash : character = '\\'
  · rw [if_pos backslash, backslash]
    exact .escape (fun _ => rfl) fun _ => rfl
  rw [if_neg backslash]
  by_cases tab : character = '\t'
  · rw [if_pos tab, tab]
    exact .escape (fun _ => rfl) fun _ => rfl
  rw [if_neg tab]
  by_cases lineFeed : character = '\n'
  · rw [if_pos lineFeed, lineFeed]
    cases triple with
    | false => exact .escape (fun _ => rfl) fun _ => rfl
    | true => exact .plain (by decide) (by decide) (by decide) (.inr ⟨rfl, rfl⟩)
  rw [if_neg lineFeed]
  by_cases carriageReturn : character = '\r'
  · rw [if_pos carriageReturn, carriageReturn]
    exact .escape (fun _ => rfl) fun _ => rfl
  rw [if_neg carriageReturn]
  by_cases backspace : character.toNat = 8
  · rw [if_pos backspace, eq_of_toNat backspace]
    exact .escape (fun _ => rfl) fun _ => rfl
  rw [if_neg backspace]
  by_cases formFeed : character.toNat = 12
  · rw [if_pos formFeed, eq_of_toNat formFeed]
    exact .escape (fun _ => rfl) fun _ => rfl
  rw [if_neg formFeed]
  by_cases control : isControl character = true
  · have bound : character.toNat < 65536 := by
      simp only [isControl, Bool.and_eq_true, Bool.or_eq_true, decide_eq_true_eq, beq_iff_eq]
        at control
      omega
    rw [if_pos control]
    exact .escape (fun _ => rfl) (escape?_numberEscape bound)
  · have plain := isPlain_of_isControl_eq_false (Bool.eq_false_iff.mpr control) lineFeed
    rw [if_neg control]
    exact .plain other backslash carriageReturn (.inl plain)

/-! ## Strings between single marks -/

theorem basicString_escape {written text : List Char} {character : Char}
    (escaped : escape? (written ++ text) = some (character, text)) :
    basicString ('\\' :: written ++ text) =
      (basicString text).map fun read => (character :: read.1, read.2) := by
  rw [List.cons_append, basicString]
  simp only [Char.reduceEq, if_false, if_true]
  split
  · next meant behind found =>
    rw [escaped] at found
    cases found
    rfl
  · next missing =>
    rw [escaped] at missing
    cases missing

theorem basicString_isWritten {written : List Char} {character : Char}
    (isWritten : IsWritten false character written) (text : List Char) :
    basicString (written ++ text) =
      (basicString text).map fun read => (character :: read.1, read.2) := by
  cases isWritten with
  | plain noQuote noBackslash _ plain =>
    have isPlain : isPlain character = true := plain.resolve_right fun breaks => nomatch breaks.1
    rw [List.cons_append, basicString, if_neg noQuote, if_neg noBackslash, if_pos isPlain]
    rfl
  | escape _ escaped => exact basicString_escape (escaped text)

/-- What is written between quotes is read back. -/
theorem basicString_writtenBasic (run : Nat) (content rest : List Char) :
    basicString (writtenBasic false run content ++ '"' :: rest) = some (content, rest) := by
  induction content generalizing run with
  | nil =>
    rw [writtenBasic, List.nil_append, basicString]
    exact if_pos rfl
  | cons character content inductionHypothesis =>
    rw [writtenBasic]
    by_cases quote : character = '"'
    · have escaped : escape? (['"'] ++ (writtenBasic false 0 content ++ '"' :: rest)) =
          some ('"', writtenBasic false 0 content ++ '"' :: rest) := rfl
      have full : ¬run < (if false = true then 2 else 0) := Nat.not_lt_zero run
      have read := basicString_escape escaped
      rw [inductionHypothesis] at read
      rw [if_pos quote, if_neg full, quote]
      exact read
    · rw [if_neg quote, List.append_assoc,
        basicString_isWritten (isWritten_writtenCharacter false quote), inductionHypothesis]
      rfl

theorem literalString_append {content : List Char}
    (plain : ∀ character ∈ content, character ≠ '\'' ∧ isPlain character = true)
    (rest : List Char) : literalString (content ++ '\'' :: rest) = some (content, rest) := by
  induction content with
  | nil => exact if_pos rfl
  | cons character content inductionHypothesis =>
    obtain ⟨⟨other, isPlain⟩, others⟩ := List.forall_mem_cons.mp plain
    rw [List.cons_append, literalString, if_neg other, if_pos isPlain, inductionHypothesis others]
    rfl

/-! ## Strings between three marks -/

/-- Marks of the string in front of the end are told from those that close it. -/
theorem tripleEnd_append {mark : Char} {count : Nat} (bound : count ≤ 2) {rest : List Char}
    (other : rest.head? ≠ some mark) :
    tripleEnd mark (List.replicate count mark ++ rest) = (List.replicate count mark, rest) := by
  have stops (fewer : Nat) :
      (rest.take fewer).takeWhile (fun character => character == mark) = [] := by
    cases fewer with
    | zero => rfl
    | succ fewer =>
      cases rest with
      | nil => rfl
      | cons first rest =>
        have different : first ≠ mark := fun same => other (congrArg some same)
        exact List.takeWhile_cons_of_neg (by simpa using different)
  rcases count with _ | _ | _ | more
  · simp [tripleEnd, stops 2]
  · simp [tripleEnd, stops 1]
  · simp [tripleEnd]
  · omega

theorem tripleBasicString_escape {written text : List Char} {character : Char}
    (noJoin : joinedLine? (written ++ text) = none)
    (escaped : escape? (written ++ text) = some (character, text)) :
    tripleBasicString ('\\' :: written ++ text) =
      (tripleBasicString text).map fun read => (character :: read.1, read.2) := by
  rw [List.cons_append, tripleBasicString]
  split
  · next behind joined =>
    rw [noJoin] at joined
    cases joined
  · split
    · next meant behind found =>
      rw [escaped] at found
      cases found
      rfl
    · next missing =>
      rw [escaped] at missing
      cases missing

theorem tripleBasicString_plain {character : Char} {text : List Char}
    (unclosed : ∀ after, character = '"' → text = '"' :: '"' :: after → False)
    (noBackslash : character ≠ '\\') (noReturn : character ≠ '\r')
    (plain : character = '\n' ∨ isPlain character = true) :
    tripleBasicString (character :: text) =
      (tripleBasicString text).map fun read => (character :: read.1, read.2) := by
  rw [tripleBasicString]
  · exact if_pos plain
  · exact unclosed
  · exact noBackslash
  · exact fun _ carriageReturn _ => noReturn carriageReturn

theorem tripleBasicString_isWritten {written : List Char} {character : Char}
    (isWritten : IsWritten true character written) (text : List Char) :
    tripleBasicString (written ++ text) =
      (tripleBasicString text).map fun read => (character :: read.1, read.2) := by
  cases isWritten with
  | plain noQuote noBackslash noReturn plain =>
    exact tripleBasicString_plain (fun _ quote _ => noQuote quote) noBackslash noReturn
      (plain.symm.imp_left And.right)
  | escape noJoin escaped => exact tripleBasicString_escape (noJoin text) (escaped text)

theorem IsWritten.exists_cons {triple : Bool} {character : Char} {written : List Char}
    (isWritten : IsWritten triple character written) :
    ∃ first others, written = first :: others ∧ first ≠ '"' ∧ first ≠ '\r' ∧
      (first = '\n' → character = '\n') := by
  cases isWritten with
  | plain noQuote _ noReturn => exact ⟨_, _, rfl, noQuote, noReturn, id⟩
  | escape => exact ⟨_, _, rfl, by decide, by decide, fun same => absurd same (by decide)⟩

/-- How the written form of a string begins: with a quote only where quotes may stand. -/
theorem exists_cons_of_writtenBasic (triple : Bool) (run : Nat) (character : Char)
    (content : List Char) :
    ∃ first others, writtenBasic triple run (character :: content) = first :: others ∧
      (first = '"' → character = '"' ∧ run < if triple then 2 else 0) ∧ first ≠ '\r' ∧
      (first = '\n' → character = '\n') := by
  rw [writtenBasic]
  by_cases quote : character = '"'
  · rw [if_pos quote]
    by_cases few : run < if triple then 2 else 0
    · rw [if_pos few]
      exact ⟨_, _, rfl, fun _ => ⟨quote, few⟩, by decide, fun same => absurd same (by decide)⟩
    · rw [if_neg few]
      exact ⟨_, _, rfl, fun same => absurd same (by decide), by decide,
        fun same => absurd same (by decide)⟩
  · obtain ⟨first, others, written, noQuote, others⟩ :=
      (isWritten_writtenCharacter triple quote).exists_cons
    rw [if_neg quote, written]
    exact ⟨_, _, rfl, fun same => absurd same noQuote, others⟩

/-- Behind a written quote two more begin only the closing marks, perhaps with quotes of the string
that join them. -/
theorem eq_replicate_of_quotes {run : Nat} (started : 1 ≤ run) (bound : run ≤ 2)
    {content rest after : List Char}
    (quotes : writtenBasic true run content ++ '"' :: '"' :: '"' :: rest = '"' :: '"' :: after) :
    ∃ count, run + count ≤ 2 ∧ content = List.replicate count '"' := by
  cases content with
  | nil => exact ⟨0, bound, rfl⟩
  | cons character content =>
    obtain ⟨first, others, written, opens, _⟩ :=
      exists_cons_of_writtenBasic true run character content
    obtain ⟨rfl, few⟩ := opens (by rw [written] at quotes; exact (List.cons.inj quotes).1)
    obtain rfl : run = 1 := Nat.le_antisymm (Nat.le_of_lt_succ few) started
    rw [writtenBasic, if_pos rfl, if_pos few] at quotes
    cases content with
    | nil => exact ⟨1, Nat.le_refl 2, rfl⟩
    | cons second content =>
      obtain ⟨first, others, written, opens, _⟩ :=
        exists_cons_of_writtenBasic true 2 second content
      rw [written] at quotes
      have full := (opens (List.cons.inj (List.cons.inj quotes).2).1).2
      exact absurd full (Nat.lt_irrefl 2)

theorem writtenBasic_replicate {run count : Nat} (bound : run + count ≤ 2) :
    writtenBasic true run (List.replicate count '"') = List.replicate count '"' := by
  induction count generalizing run with
  | zero => rfl
  | succ count inductionHypothesis =>
    have few : run < if true = true then 2 else 0 := show run < 2 by omega
    rw [List.replicate_succ, writtenBasic, if_pos rfl, if_pos few, inductionHypothesis (by omega)]

/-- Marks of the string that join the closing ones may as well stand behind these. -/
theorem replicate_append_marks {mark : Char} (count : Nat) (rest : List Char) :
    List.replicate count mark ++ mark :: mark :: mark :: rest =
      mark :: mark :: mark :: (List.replicate count mark ++ rest) := by
  induction count with
  | zero => rfl
  | succ count inductionHypothesis =>
    rw [List.replicate_succ, List.cons_append, inductionHypothesis]
    rfl

/-- What is written between three quotes is read back. -/
theorem tripleBasicString_writtenBasic {run : Nat} (bound : run ≤ 2) (content : List Char)
    {rest : List Char} (other : rest.head? ≠ some '"') :
    tripleBasicString (writtenBasic true run content ++ '"' :: '"' :: '"' :: rest) =
      some (content, rest) := by
  induction content generalizing run with
  | nil =>
    rw [writtenBasic, List.nil_append, tripleBasicString]
    exact congrArg some (tripleEnd_append (Nat.zero_le 2) other)
  | cons character content inductionHypothesis =>
    by_cases quote : character = '"'
    · subst quote
      rw [writtenBasic, if_pos rfl]
      by_cases few : run < 2
      · rw [if_pos (show run < if true = true then 2 else 0 from few), List.cons_append]
        by_cases quotes : ∃ after, writtenBasic true (run + 1) content ++
            '"' :: '"' :: '"' :: rest = '"' :: '"' :: after
        · obtain ⟨after, quotes⟩ := quotes
          obtain ⟨count, small, rfl⟩ := eq_replicate_of_quotes (by omega) few quotes
          rw [writtenBasic_replicate small, ← List.cons_append, ← List.replicate_succ,
            replicate_append_marks, tripleBasicString]
          exact congrArg some (tripleEnd_append (by omega) other)
        · rw [tripleBasicString_plain (fun after _ found => quotes ⟨after, found⟩) (by decide)
            (by decide) (.inr rfl), inductionHypothesis few]
          rfl
      · have escaped :
            escape? (['"'] ++ (writtenBasic true 0 content ++ '"' :: '"' :: '"' :: rest)) =
              some ('"', writtenBasic true 0 content ++ '"' :: '"' :: '"' :: rest) := rfl
        have read := tripleBasicString_escape rfl escaped
        rw [inductionHypothesis (Nat.zero_le 2)] at read
        rw [if_neg (show ¬run < if true = true then 2 else 0 from few)]
        exact read
    · rw [writtenBasic, if_neg quote, List.append_assoc,
        tripleBasicString_isWritten (isWritten_writtenCharacter true quote),
        inductionHypothesis (Nat.zero_le 2)]
      rfl

theorem le_longestRun (mark : Char) (run : Nat) (content : List Char) :
    run ≤ longestRun mark run content := by
  induction content generalizing run with
  | nil => exact Nat.le_refl run
  | cons character content inductionHypothesis =>
    rw [longestRun]
    split
    · exact Nat.le_trans (Nat.le_succ run) (inductionHypothesis (run + 1))
    · exact Nat.le_max_left _ _

theorem longestRun_replicate (mark : Char) (run count : Nat) :
    longestRun mark run (List.replicate count mark) = run + count := by
  induction count generalizing run with
  | zero => rfl
  | succ count inductionHypothesis =>
    rw [List.replicate_succ, longestRun, if_pos rfl, inductionHypothesis]
    omega

theorem eq_replicate_of_apostrophes {run : Nat} {content rest after : List Char}
    (few : longestRun '\'' (run + 1) content ≤ 2)
    (apostrophes : content ++ '\'' :: '\'' :: '\'' :: rest = '\'' :: '\'' :: after) :
    ∃ count, run + 1 + count ≤ 2 ∧ content = List.replicate count '\'' := by
  have known (count : Nat) (same : content = List.replicate count '\'') :
      ∃ count, run + 1 + count ≤ 2 ∧ content = List.replicate count '\'' := by
    rw [same, longestRun_replicate] at few
    exact ⟨count, few, same⟩
  rcases content with _ | ⟨first, _ | ⟨second, content⟩⟩
  · exact known 0 rfl
  · exact known 1 (by rw [(List.cons.inj apostrophes).1]; rfl)
  · obtain ⟨rfl, behind⟩ := List.cons.inj apostrophes
    obtain ⟨rfl, _⟩ := List.cons.inj behind
    rw [longestRun, if_pos rfl, longestRun, if_pos rfl] at few
    have three := le_longestRun '\'' (run + 1 + 1 + 1) content
    omega

theorem tripleLiteralString_plain {character : Char} {text : List Char}
    (unclosed : ∀ after, character = '\'' → text = '\'' :: '\'' :: after → False)
    (plain : character = '\n' ∨ isPlain character = true) :
    tripleLiteralString (character :: text) =
      (tripleLiteralString text).map fun read => (character :: read.1, read.2) := by
  have noReturn : character ≠ '\r' := by
    rintro rfl
    exact absurd plain (by decide)
  rw [tripleLiteralString]
  · exact if_pos plain
  · exact unclosed
  · exact fun _ carriageReturn _ => noReturn carriageReturn

/-- What is written between three apostrophes is read back. -/
theorem tripleLiteralString_append {run : Nat} {content : List Char}
    (plain : ∀ character ∈ content, character = '\n' ∨ isPlain character = true)
    (few : longestRun '\'' run content ≤ 2) {rest : List Char} (other : rest.head? ≠ some '\'') :
    tripleLiteralString (content ++ '\'' :: '\'' :: '\'' :: rest) = some (content, rest) := by
  induction content generalizing run with
  | nil =>
    rw [List.nil_append, tripleLiteralString]
    exact congrArg some (tripleEnd_append (Nat.zero_le 2) other)
  | cons character content inductionHypothesis =>
    obtain ⟨here, others⟩ := List.forall_mem_cons.mp plain
    rw [longestRun] at few
    rw [List.cons_append]
    by_cases apostrophe : character = '\''
    · subst apostrophe
      rw [if_pos rfl] at few
      by_cases apostrophes : ∃ after,
          content ++ '\'' :: '\'' :: '\'' :: rest = '\'' :: '\'' :: after
      · obtain ⟨after, apostrophes⟩ := apostrophes
        obtain ⟨count, small, rfl⟩ := eq_replicate_of_apostrophes few apostrophes
        rw [← List.cons_append, ← List.replicate_succ, replicate_append_marks, tripleLiteralString]
        exact congrArg some (tripleEnd_append (by omega) other)
      · rw [tripleLiteralString_plain (fun after _ found => apostrophes ⟨after, found⟩) here,
          inductionHypothesis others few]
        rfl
    · rw [if_neg apostrophe] at few
      rw [tripleLiteralString_plain (fun _ mark _ => apostrophe mark) here,
        inductionHypothesis others (Nat.le_trans (Nat.le_max_right _ _) few)]
      rfl

end Toml
end MuseumRecord
