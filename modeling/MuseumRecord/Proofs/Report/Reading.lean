import Mathlib.Data.List.DropRight
import MuseumRecord.Proofs.Number.Digits
import MuseumRecord.Report.Json

/-!
# Reading values back

Other programs read the text of a value by the grammar of JSON: parts stand between any blanks, a
text stands in quotes with its escapes, and a whole number has no leading zero.  The text that is
written for a value reads as that value.
-/

namespace MuseumRecord
namespace JsonValue

/-! ## The reader -/

/-- A blank between parts of a value. -/
def isBlank (character : Char) : Bool :=
  character == ' ' || character == '\n' || character == '\r' || character == '\t'

/-- A text without the blanks at its beginning. -/
def skipBlanks (text : List Char) : List Char :=
  text.dropWhile isBlank

/-- The character that a letter behind a backslash stands for. -/
def unescaped? : Char → Option Char
  | '"' => some '"'
  | '\\' => some '\\'
  | '/' => some '/'
  | 'b' => some (Char.ofNat 8)
  | 'f' => some (Char.ofNat 12)
  | 'n' => some '\n'
  | 'r' => some '\r'
  | 't' => some '\t'
  | _ => none

/-- The character with a hexadecimal number.  The halves of a pair of surrogates are none. -/
def numbered? (digits : List Char) : Option Char :=
  match digits.mapM (Number.digitIn? 16) with
  | some values =>
    let code := values.foldl (fun code value => code * 16 + value) 0
    if code.isValidChar then some (Char.ofNat code) else none
  | none => none

/-- The characters of a text up to the quote at its end, and what stands behind it. -/
def readText? : List Char → Option (List Char × List Char)
  | [] => none
  | '"' :: rest => some ([], rest)
  | '\\' :: 'u' :: a :: b :: c :: d :: rest =>
    match numbered? [a, b, c, d] with
    | some character => (readText? rest).map fun read => (character :: read.1, read.2)
    | none => none
  | '\\' :: mark :: rest =>
    match unescaped? mark with
    | some character => (readText? rest).map fun read => (character :: read.1, read.2)
    | none => none
  | character :: rest =>
    if character.toNat < 32 then none
    else (readText? rest).map fun read => (character :: read.1, read.2)

/-- The whole number that a text begins with, and what stands behind it. -/
def readNumber? (text : List Char) : Option (Nat × List Char) :=
  match text.takeWhile Number.isDigit with
  | [] => none
  | '0' :: _ :: _ => none
  | row => some (Number.ofDigits row, text.dropWhile Number.isDigit)

mutual

/-- The value that a text begins with, and what stands behind it.  The depth of what is read is
bounded by `fuel`. -/
def readValue? : Nat → List Char → Option (JsonValue × List Char)
  | 0, _ => none
  | fuel + 1, characters =>
    match skipBlanks characters with
    | [] => none
    | first :: behind =>
      if first = '"' then
        (readText? behind).map fun read => (.text (String.ofList read.1), read.2)
      else if first = '[' then
        match skipBlanks behind with
        | ']' :: rest => some (.array [], rest)
        | inside =>
          match readValue? fuel inside with
          | some (item, behind) =>
            (readItems? fuel behind).map fun read => (.array (item :: read.1), read.2)
          | none => none
      else if first = '\x7b' then
        match skipBlanks behind with
        | '\x7d' :: rest => some (.object [], rest)
        | inside =>
          match readField? fuel inside with
          | some (field, behind) =>
            (readFields? fuel behind).map fun read => (.object (field :: read.1), read.2)
          | none => none
      else if first = 't' then
        (['r', 'u', 'e'].isPrefixOf? behind).map fun rest => (.truth true, rest)
      else if first = 'f' then
        (['a', 'l', 's', 'e'].isPrefixOf? behind).map fun rest => (.truth false, rest)
      else
        (readNumber? (first :: behind)).map fun read => (.number read.1, read.2)

/-- The items behind an item up to the bracket, and what stands behind it. -/
def readItems? : Nat → List Char → Option (List JsonValue × List Char)
  | 0, _ => none
  | fuel + 1, characters =>
    match skipBlanks characters with
    | ']' :: rest => some ([], rest)
    | ',' :: behind =>
      match readValue? fuel behind with
      | some (item, behind) =>
        (readItems? fuel behind).map fun read => (item :: read.1, read.2)
      | none => none
    | _ => none

/-- The field that a text begins with, and what stands behind it. -/
def readField? : Nat → List Char → Option ((String × JsonValue) × List Char)
  | 0, _ => none
  | fuel + 1, characters =>
    match skipBlanks characters with
    | '"' :: behind =>
      match readText? behind with
      | some (name, behind) =>
        match skipBlanks behind with
        | ':' :: behind =>
          (readValue? fuel behind).map fun read => ((String.ofList name, read.1), read.2)
        | _ => none
      | none => none
    | _ => none

/-- The fields behind a field up to the brace, and what stands behind it. -/
def readFields? : Nat → List Char → Option (List (String × JsonValue) × List Char)
  | 0, _ => none
  | fuel + 1, characters =>
    match skipBlanks characters with
    | '\x7d' :: rest => some ([], rest)
    | ',' :: behind =>
      match readField? fuel behind with
      | some (field, behind) =>
        (readFields? fuel behind).map fun read => (field :: read.1, read.2)
      | none => none
    | _ => none

end

/-- The value that a whole text denotes. -/
def read? (text : String) : Option JsonValue :=
  match readValue? (text.toList.length + 1) text.toList with
  | some (value, behind) => if behind.all isBlank then some value else none
  | none => none

/-! ## Blanks -/

theorem skipBlanks_append {blanks : List Char} (blank : ∀ character ∈ blanks, isBlank character)
    (rest : List Char) : skipBlanks (blanks ++ rest) = skipBlanks rest :=
  List.dropWhile_append_of_pos blank

theorem skipBlanks_cons {first : Char} (filled : isBlank first = false) (rest : List Char) :
    skipBlanks (first :: rest) = first :: rest :=
  List.dropWhile_cons_of_neg (by simp [filled])

theorem skipBlanks_skipBlanks (characters : List Char) :
    skipBlanks (skipBlanks characters) = skipBlanks characters :=
  List.dropWhile_idempotent _ _

/-- The end of a line and the margin of the next are blanks. -/
theorem skipBlanks_margin (depth : Nat) (rest : List Char) :
    skipBlanks ('\n' :: ((margin depth).toList ++ rest)) = skipBlanks rest := by
  rw [← List.cons_append]
  refine skipBlanks_append (fun character member => ?_) rest
  rw [margin, String.toList_ofList] at member
  rcases List.mem_cons.mp member with rfl | spaces
  · rfl
  · rw [List.eq_of_mem_replicate spaces]
    rfl

/-! ## Texts -/

theorem numbered?_control :
    ∀ code < 32, numbered? ['0', '0', lowerHexDigit (code / 16), lowerHexDigit (code % 16)] =
      some (Char.ofNat code) := by
  decide

/-- A character is read from its escape. -/
theorem readText?_escaped (character : Char) (rest : List Char) :
    readText? (escaped character ++ rest) =
      (readText? rest).map fun read => (character :: read.1, read.2) := by
  have numbered {code : Nat} (same : character.toNat = code) : character = Char.ofNat code := by
    rw [← same, Char.ofNat_toNat]
  unfold escaped
  split
  · next same => subst same; rfl
  split
  · next same => subst same; rfl
  split
  · next same => subst same; rfl
  split
  · next same => subst same; rfl
  split
  · next same => subst same; rfl
  split
  · next same => rw [numbered same]; rfl
  split
  · next same => rw [numbered same]; rfl
  split
  · next small =>
    simp only [List.cons_append, List.nil_append, readText?]
    rw [numbered?_control _ small, Char.ofNat_toNat]
  · next notBackslash _ _ _ _ _ large =>
    simp [readText?, notBackslash, large]

theorem toList_quoted (content : String) :
    (quoted content).toList = '"' :: (content.toList.flatMap escaped ++ ['"']) :=
  String.toList_ofList

/-- A text is read from what stands between its quotes. -/
theorem readText?_flatMap_escaped (content rest : List Char) :
    readText? (content.flatMap escaped ++ '"' :: rest) = some (content, rest) := by
  induction content with
  | nil => rfl
  | cons character content inductionHypothesis =>
    rw [List.flatMap_cons, List.append_assoc, readText?_escaped, inductionHypothesis]
    rfl

/-! ## Numbers -/

/-- What follows a value does not go on with digits. -/
def EndsNumber (rest : List Char) : Prop :=
  ∀ character ∈ rest.head?, Number.isDigit character = false

/-- Only zero has a digit zero in front. -/
theorem digits_eq_zero_cons {value : Nat} {others : List Char}
    (leads : Number.digits value = '0' :: others) : others = [] := by
  fun_induction Number.digits value generalizing others with
  | case1 value small => exact (List.cons.inj leads).2.symm
  | case2 value large inductionHypothesis =>
    obtain ⟨first, rest, front⟩ := List.exists_cons_of_ne_nil (Number.digits_ne_nil (value / 10))
    rw [front, List.cons_append] at leads
    obtain ⟨rfl, -⟩ := List.cons.inj leads
    have tenth : value / 10 = 0 := by
      rw [← Number.ofDigits_digits (value / 10), front, inductionHypothesis front]
      rfl
    omega

/-- A number is read from its digits. -/
theorem readNumber?_digits (value : Nat) {rest : List Char} (ends : EndsNumber rest) :
    readNumber? (Number.digits value ++ rest) = some (value, rest) := by
  have all := List.all_eq_true.mp (Number.all_isDigit_digits value)
  have stops : rest.takeWhile Number.isDigit = [] ∧ rest.dropWhile Number.isDigit = rest := by
    cases rest with
    | nil => exact ⟨rfl, rfl⟩
    | cons next rest => simp [ends next rfl]
  have row : (Number.digits value ++ rest).takeWhile Number.isDigit = Number.digits value := by
    rw [List.takeWhile_append_of_pos all, stops.1, List.append_nil]
  unfold readNumber?
  rw [row, List.dropWhile_append_of_pos all, stops.2]
  split
  · next empty => exact absurd empty (Number.digits_ne_nil value)
  · next second others leads => cases digits_eq_zero_cons leads
  · rw [Number.ofDigits_digits]

/-! ## Values -/

section Parts

variable {fuel depth : Nat} {characters behind rest : List Char} {item : JsonValue}
  {items : List JsonValue} {field : String × JsonValue} {fields : List (String × JsonValue)}

theorem readValue?_skipBlanks (fuel : Nat) (characters : List Char) :
    readValue? fuel (skipBlanks characters) = readValue? fuel characters := by
  cases fuel with
  | zero => rw [readValue?, readValue?]
  | succ fuel => rw [readValue?, readValue?, skipBlanks_skipBlanks]

theorem readField?_skipBlanks (fuel : Nat) (characters : List Char) :
    readField? fuel (skipBlanks characters) = readField? fuel characters := by
  cases fuel with
  | zero => rw [readField?, readField?]
  | succ fuel => rw [readField?, readField?, skipBlanks_skipBlanks]

/-- No value begins with a bracket that closes. -/
theorem readValue?_eq_none (closed : skipBlanks characters = ']' :: rest) :
    readValue? fuel characters = none := by
  cases fuel with
  | zero => rw [readValue?]
  | succ fuel =>
    rw [readValue?, closed]
    rfl

theorem readField?_eq_none (closed : skipBlanks characters = '\x7d' :: rest) :
    readField? fuel characters = none := by
  cases fuel with
  | zero => rw [readField?]
  | succ fuel =>
    rw [readField?, closed]
    rfl

theorem readValue?_array (first : readValue? fuel characters = some (item, behind))
    (others : readItems? fuel behind = some (items, rest)) :
    readValue? (fuel + 1) ('[' :: characters) = some (.array (item :: items), rest) := by
  rw [readValue?, skipBlanks_cons (by decide)]
  simp only [Char.reduceEq, if_false, if_true]
  split
  · next closed =>
    rw [readValue?_eq_none closed] at first
    cases first
  · rw [readValue?_skipBlanks, first]
    simp only [others, Option.map_some]

theorem readValue?_object (first : readField? fuel characters = some (field, behind))
    (others : readFields? fuel behind = some (fields, rest)) :
    readValue? (fuel + 1) ('\x7b' :: characters) = some (.object (field :: fields), rest) := by
  rw [readValue?, skipBlanks_cons (by decide)]
  simp only [Char.reduceEq, if_false, if_true]
  split
  · next closed =>
    rw [readField?_eq_none closed] at first
    cases first
  · rw [readField?_skipBlanks, first]
    simp only [others, Option.map_some]

theorem readItems?_nil (closed : skipBlanks characters = ']' :: rest) :
    readItems? (fuel + 1) characters = some ([], rest) := by
  rw [readItems?, closed]
  rfl

theorem readItems?_cons (first : readValue? fuel characters = some (item, behind))
    (others : readItems? fuel behind = some (items, rest)) :
    readItems? (fuel + 1) (',' :: characters) = some (item :: items, rest) := by
  rw [readItems?, skipBlanks_cons (by decide)]
  simp only [first, others, Option.map_some]

theorem readFields?_nil (closed : skipBlanks characters = '\x7d' :: rest) :
    readFields? (fuel + 1) characters = some ([], rest) := by
  rw [readFields?, closed]
  rfl

theorem readFields?_cons (first : readField? fuel characters = some (field, behind))
    (others : readFields? fuel behind = some (fields, rest)) :
    readFields? (fuel + 1) (',' :: characters) = some (field :: fields, rest) := by
  rw [readFields?, skipBlanks_cons (by decide)]
  simp only [first, others, Option.map_some]

theorem readField?_quoted {name : String}
    (read : readValue? fuel characters = some (item, rest)) :
    readField? (fuel + 1) ((quoted name).toList ++ ':' :: characters) =
      some ((name, item), rest) := by
  rw [toList_quoted, List.cons_append, List.append_assoc, readField?, skipBlanks_cons (by decide)]
  simp only [List.singleton_append, readText?_flatMap_escaped]
  rw [skipBlanks_cons (by decide)]
  simp only [read, Option.map_some, String.ofList_toList]

end Parts

theorem readValue?_margin (fuel depth : Nat) (rest : List Char) :
    readValue? fuel ('\n' :: ((margin depth).toList ++ rest)) = readValue? fuel rest := by
  rw [← readValue?_skipBlanks, skipBlanks_margin, readValue?_skipBlanks]

theorem readField?_margin (fuel depth : Nat) (rest : List Char) :
    readField? fuel ('\n' :: ((margin depth).toList ++ rest)) = readField? fuel rest := by
  rw [← readField?_skipBlanks, skipBlanks_margin, readField?_skipBlanks]

theorem readValue?_space (fuel : Nat) (rest : List Char) :
    readValue? fuel (' ' :: rest) = readValue? fuel rest := by
  rw [← readValue?_skipBlanks]
  exact readValue?_skipBlanks fuel rest

theorem toList_pretty_truth (depth : Nat) (value : Bool) :
    (pretty depth (.truth value)).toList = (if value then "true" else "false").toList := by
  cases value <;> rw [pretty] <;> rfl

theorem readValue?_truth (fuel depth : Nat) (value : Bool) (rest : List Char) :
    readValue? (fuel + 1) ((pretty depth (.truth value)).toList ++ rest) =
      some (.truth value, rest) := by
  rw [toList_pretty_truth]
  cases value <;> simp [readValue?, skipBlanks, isBlank, List.isPrefixOf?]

theorem readValue?_text (fuel : Nat) (content : String) (rest : List Char) :
    readValue? (fuel + 1) ((quoted content).toList ++ rest) = some (.text content, rest) := by
  rw [toList_quoted, List.cons_append, List.append_assoc, readValue?, skipBlanks_cons (by decide)]
  simp only [if_true, List.singleton_append, readText?_flatMap_escaped, Option.map_some,
    String.ofList_toList]

theorem readValue?_number (fuel value : Nat) {rest : List Char} (ends : EndsNumber rest) :
    readValue? (fuel + 1) (Number.digits value ++ rest) = some (.number value, rest) := by
  obtain ⟨first, others, leads, digit⟩ := Number.exists_head_digits value
  have other {character : Char} (undigit : Number.isDigit character = false) :
      first ≠ character := by
    rintro rfl
    rw [digit] at undigit
    cases undigit
  have filled : isBlank first = false := by
    simp [isBlank, @other ' ' rfl, @other '\n' rfl,
      @other '\r' rfl, @other '\t' rfl]
  have read := readNumber?_digits value ends
  rw [leads, List.cons_append] at read ⊢
  rw [readValue?, skipBlanks_cons filled]
  simp only [if_neg (@other '"' rfl), if_neg (@other '[' rfl),
    if_neg (@other '\x7b' rfl), if_neg (@other 't' rfl),
    if_neg (@other 'f' rfl), read, Option.map_some]

/-! ## Rows of lines -/

section Rows

variable {depth : Nat} {item : JsonValue} {items : List JsonValue} {name : String}
  {fields : List (String × JsonValue)}

theorem toList_pretty_array (rest : List Char) :
    (pretty depth (.array (item :: items))).toList ++ rest =
      '[' :: '\n' :: ((margin (depth + 1)).toList ++ ((pretty (depth + 1) item).toList ++
        ((prettyItems (depth + 1) items).toList ++
          '\n' :: ((margin depth).toList ++ ']' :: rest)))) := by
  simp [pretty]

theorem toList_prettyItems_cons (rest : List Char) :
    (prettyItems depth (item :: items)).toList ++ rest =
      ',' :: '\n' :: ((margin depth).toList ++
        ((pretty depth item).toList ++ ((prettyItems depth items).toList ++ rest))) := by
  simp [prettyItems]

theorem toList_pretty_object (rest : List Char) :
    (pretty depth (.object ((name, item) :: fields))).toList ++ rest =
      '\x7b' :: '\n' :: ((margin (depth + 1)).toList ++ ((quoted name).toList ++
        ':' :: ' ' :: ((pretty (depth + 1) item).toList ++
          ((prettyFields (depth + 1) fields).toList ++
            '\n' :: ((margin depth).toList ++ '\x7d' :: rest))))) := by
  simp [pretty]

theorem toList_prettyFields_cons (rest : List Char) :
    (prettyFields depth ((name, item) :: fields)).toList ++ rest =
      ',' :: '\n' :: ((margin depth).toList ++ ((quoted name).toList ++
        ':' :: ' ' :: ((pretty depth item).toList ++
          ((prettyFields depth fields).toList ++ rest)))) := by
  simp [prettyFields]

/-- A row goes on with a comma or with the line of its end. -/
theorem endsNumber_prettyItems (rest : List Char) :
    EndsNumber ((prettyItems depth items).toList ++ '\n' :: rest) := by
  cases items with
  | nil => rintro character ⟨⟩; decide
  | cons item items =>
    rw [toList_prettyItems_cons]
    rintro character ⟨⟩
    decide

theorem endsNumber_prettyFields (rest : List Char) :
    EndsNumber ((prettyFields depth fields).toList ++ '\n' :: rest) := by
  cases fields with
  | nil => rintro character ⟨⟩; decide
  | cons field fields =>
    rw [toList_prettyFields_cons]
    rintro character ⟨⟩
    decide

end Rows

/-- A value is read from its text, whatever follows it. -/
def ReadsBack (value : JsonValue) : Prop :=
  ∀ depth fuel rest, (value.pretty depth).toList.length ≤ fuel → EndsNumber rest →
    readValue? (fuel + 1) ((value.pretty depth).toList ++ rest) = some (value, rest)

/-- What holds of a value whenever it holds of its parts holds of every value. -/
theorem inductionOnParts {motive : JsonValue → Prop} (ofTruth : ∀ value, motive (.truth value))
    (ofNumber : ∀ value, motive (.number value)) (ofText : ∀ value, motive (.text value))
    (ofArray : ∀ items, (∀ item ∈ items, motive item) → motive (.array items))
    (ofObject : ∀ fields, (∀ field ∈ fields, motive field.2) → motive (.object fields))
    (value : JsonValue) : motive value := by
  cases value with
  | truth value => exact ofTruth value
  | number value => exact ofNumber value
  | text value => exact ofText value
  | array items =>
    refine ofArray items fun item member => ?_
    have smaller : sizeOf item < 1 + sizeOf items := by
      have inside := List.sizeOf_lt_of_mem member
      omega
    exact inductionOnParts ofTruth ofNumber ofText ofArray ofObject item
  | object fields =>
    refine ofObject fields fun field member => ?_
    have smaller : sizeOf field.2 < 1 + sizeOf fields := by
      have inside := List.sizeOf_lt_of_mem member
      obtain ⟨name, item⟩ := field
      simp only [Prod.mk.sizeOf_spec] at inside ⊢
      omega
    exact inductionOnParts ofTruth ofNumber ofText ofArray ofObject field.2
termination_by sizeOf value

section Parts

variable {depth outer fuel : Nat} {items : List JsonValue} {fields : List (String × JsonValue)}

theorem readItems?_prettyItems (back : ∀ item ∈ items, item.ReadsBack)
    (bound : (prettyItems depth items).toList.length ≤ fuel) (rest : List Char) :
    readItems? (fuel + 1) ((prettyItems depth items).toList ++
      '\n' :: ((margin outer).toList ++ ']' :: rest)) = some (items, rest) := by
  induction items generalizing fuel with
  | nil =>
    rw [prettyItems]
    exact readItems?_nil ((skipBlanks_margin outer _).trans (skipBlanks_cons (by decide) _))
  | cons item items inductionHypothesis =>
    obtain ⟨itemBack, itemsBack⟩ := List.forall_mem_cons.mp back
    have shape := @toList_prettyItems_cons depth item items []
    have lengths := congrArg List.length shape
    simp only [List.length_append, List.length_cons, List.append_nil] at lengths
    obtain ⟨fuel, rfl⟩ := Nat.exists_eq_add_of_lt (show 0 < fuel by omega)
    rw [toList_prettyItems_cons]
    refine readItems?_cons ((readValue?_margin _ _ _).trans
      (itemBack depth _ _ (by omega) (endsNumber_prettyItems _)))
      (inductionHypothesis itemsBack (by omega))

theorem readField?_pretty {name : String} {item : JsonValue} (back : item.ReadsBack)
    (bound : (item.pretty depth).toList.length ≤ fuel) {rest : List Char}
    (ends : EndsNumber rest) :
    readField? (fuel + 2) ((quoted name).toList ++
      ':' :: ' ' :: ((item.pretty depth).toList ++ rest)) = some ((name, item), rest) :=
  readField?_quoted ((readValue?_space _ _).trans (back depth fuel rest bound ends))

theorem readFields?_prettyFields (back : ∀ field ∈ fields, field.2.ReadsBack)
    (bound : (prettyFields depth fields).toList.length ≤ fuel) (rest : List Char) :
    readFields? (fuel + 1) ((prettyFields depth fields).toList ++
      '\n' :: ((margin outer).toList ++ '\x7d' :: rest)) = some (fields, rest) := by
  induction fields generalizing fuel with
  | nil =>
    rw [prettyFields]
    exact readFields?_nil ((skipBlanks_margin outer _).trans (skipBlanks_cons (by decide) _))
  | cons field fields inductionHypothesis =>
    obtain ⟨name, item⟩ := field
    obtain ⟨itemBack, fieldsBack⟩ : item.ReadsBack ∧ ∀ field ∈ fields, field.2.ReadsBack :=
      List.forall_mem_cons.mp back
    have lengths := congrArg List.length (@toList_prettyFields_cons depth item name fields [])
    simp only [List.length_append, List.length_cons, List.append_nil] at lengths
    obtain ⟨fuel, rfl⟩ := Nat.exists_eq_add_of_le' (show 2 ≤ fuel by omega)
    rw [toList_prettyFields_cons]
    exact readFields?_cons ((readField?_margin _ _ _).trans
      (readField?_pretty itemBack (by omega) (endsNumber_prettyFields _)))
      (inductionHypothesis fieldsBack (by omega))

/-- Every value is read from its text. -/
theorem readsBack (value : JsonValue) : value.ReadsBack := by
  induction value using inductionOnParts with
  | ofTruth value => exact fun depth fuel rest _ _ => readValue?_truth fuel depth value rest
  | ofNumber value =>
    intro depth fuel rest _ ends
    rw [pretty, String.toList_ofList]
    exact readValue?_number fuel value ends
  | ofText content =>
    intro depth fuel rest _ _
    rw [pretty]
    exact readValue?_text fuel content rest
  | ofArray items inductionHypothesis =>
    intro depth fuel rest bound _
    cases items with
    | nil => rw [pretty]; rfl
    | cons item items =>
      obtain ⟨itemBack, itemsBack⟩ := List.forall_mem_cons.mp inductionHypothesis
      have lengths := congrArg List.length (@toList_pretty_array depth item items [])
      simp only [List.length_append, List.length_cons, List.append_nil] at lengths
      obtain ⟨fuel, rfl⟩ := Nat.exists_eq_add_of_le' (show 1 ≤ fuel by omega)
      rw [toList_pretty_array]
      exact readValue?_array ((readValue?_margin _ _ _).trans
        (itemBack _ _ _ (by omega) (endsNumber_prettyItems _)))
        (readItems?_prettyItems itemsBack (by omega) rest)
  | ofObject fields inductionHypothesis =>
    intro depth fuel rest bound _
    cases fields with
    | nil => rw [pretty]; rfl
    | cons field fields =>
      obtain ⟨name, item⟩ := field
      obtain ⟨itemBack, fieldsBack⟩ : item.ReadsBack ∧ ∀ field ∈ fields, field.2.ReadsBack :=
        List.forall_mem_cons.mp inductionHypothesis
      have lengths := congrArg List.length (@toList_pretty_object depth item name fields [])
      simp only [List.length_append, List.length_cons, List.append_nil] at lengths
      obtain ⟨fuel, rfl⟩ := Nat.exists_eq_add_of_le' (show 2 ≤ fuel by omega)
      rw [toList_pretty_object]
      exact readValue?_object ((readField?_margin _ _ _).trans
        (readField?_pretty itemBack (by omega) (endsNumber_prettyFields _)))
        (readFields?_prettyFields fieldsBack (by omega) rest)

end Parts

/-- A whole text that is written for a value denotes it, also with blanks at its end. -/
theorem read?_pretty (value : JsonValue) (depth : Nat) {blanks : String}
    (blank : blanks.toList.all isBlank = true) :
    read? (value.pretty depth ++ blanks) = some value := by
  have ends : EndsNumber blanks.toList := by
    intro character head
    have isBlank := List.all_eq_true.mp blank character (List.mem_of_mem_head? head)
    simp only [JsonValue.isBlank, Bool.or_eq_true, beq_iff_eq] at isBlank
    rcases isBlank with ((rfl | rfl) | rfl) | rfl <;> rfl
  rw [read?, String.toList_append, readsBack value depth _ _ (by simp) ends]
  exact if_pos blank

end JsonValue
end MuseumRecord
