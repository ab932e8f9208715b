import MuseumRecord.Proofs.Calendar.Zoned
import MuseumRecord.Proofs.Text.Caseless

/-!
# Written dates and letter case

The reader of written dates takes a text in any case of its ASCII letters for the same moment.
-/

namespace MuseumRecord
namespace Calendar

open Number Text Text.LowerCase

/-- A reader finds the same in a lower-cased text and leaves the lower-cased rest. -/
def IgnoresCase {α : Type} (reader : List Char → Option (α × List Char)) : Prop :=
  ∀ text, reader (lowerAscii text) = (reader text).map (Prod.map id lowerAscii)

section Steps

variable {α β : Type} {value moved : Option α} {change : α → α} (image : moved = value.map change)

include image

/-- One step of two readers whose findings correspond. -/
theorem bind_of_map {next later : α → Option β}
    (same : ∀ found, later (change found) = next found) :
    (moved >>= later) = (value >>= next) := by
  subst image
  cases value with
  | none => rfl
  | some found => exact same found

theorem bind_map_of_map {next later : α → Option β} {other : β → β}
    (same : ∀ found, later (change found) = (next found).map other) :
    (moved >>= later) = (value >>= next).map other := by
  subst image
  cases value with
  | none => rfl
  | some found => exact same found

theorem map_of_map {next : α → β} {other : β → β}
    (same : ∀ found, next (change found) = other (next found)) :
    moved.map next = (value.map next).map other := by
  subst image
  cases value with
  | none => rfl
  | some found => exact congrArg some (same found)

end Steps

variable {text : List Char}

/-! ## Numbers -/

theorem isLetter_of_isDigit {character : Char} (digit : isDigit character = true) :
    isLetter character = false := by
  have bounds := isDigit_iff.mp digit
  rw [Bool.eq_false_iff, ne_eq, isLetter_iff]
  omega

theorem isDigit_asciiLetter (character : Char) :
    isDigit (asciiLetter character) = isDigit character :=
  class_asciiLetter (fun _ => isLetter_of_isDigit) character

theorem lowerAscii_of_digits (digits : ∀ character ∈ text, isDigit character = true) :
    lowerAscii text = text :=
  lowerAscii_eq_self fun character member => isLetter_of_isDigit (digits character member)

theorem takeWhile_lowerAscii (text : List Char) :
    (lowerAscii text).takeWhile isDigit = text.takeWhile isDigit := by
  have classes : (isDigit ∘ asciiLetter) = isDigit := funext isDigit_asciiLetter
  rw [lowerAscii, List.takeWhile_map, classes]
  exact lowerAscii_of_digits fun _ member => List.mem_takeWhile_imp member

theorem take_lowerAscii (count : Nat) (text : List Char) :
    (lowerAscii text).take count = lowerAscii (text.take count) :=
  List.map_take.symm

theorem drop_lowerAscii (count : Nat) (text : List Char) :
    (lowerAscii text).drop count = lowerAscii (text.drop count) :=
  List.map_drop.symm

theorem length_lowerAscii (text : List Char) : (lowerAscii text).length = text.length :=
  List.length_map _

theorem leadingDigits?_ignoresCase (most : Nat) : IgnoresCase (leadingDigits? most) := by
  intro text
  simp only [leadingDigits?, take_lowerAscii, takeWhile_lowerAscii, drop_lowerAscii]
  cases ((text.take most).takeWhile isDigit).isEmpty <;> rfl

theorem exactDigits?_ignoresCase (width : Nat) : IgnoresCase (exactDigits? width) := by
  intro text
  simp only [exactDigits?, take_lowerAscii, takeWhile_lowerAscii, drop_lowerAscii]
  split <;> rfl

theorem readYear?_of_unsigned {head : Char} (notMinus : head ≠ '-') (notPlus : head ≠ '+')
    (rest : List Char) :
    readYear? (head :: rest) =
      (leadingDigits? 4 (head :: rest)).map fun (value, after) => ((value : Int), after) := by
  simp [readYear?, notMinus, notPlus]

theorem readYear?_ignoresCase : IgnoresCase readYear? := by
  intro text
  cases text with
  | nil => rfl
  | cons head rest =>
    have signs : isLetter '-' = false ∧ isLetter '+' = false := by decide
    have minus : asciiLetter head = '-' ↔ head = '-' := asciiLetter_eq_iff signs.1
    have plus : asciiLetter head = '+' ↔ head = '+' := asciiLetter_eq_iff signs.2
    change readYear? (asciiLetter head :: lowerAscii rest) = _
    by_cases negative : head = '-'
    · rw [minus.mpr negative, negative, readYear?, readYear?, length_lowerAscii]
      exact map_of_map (leadingDigits?_ignoresCase _ rest) fun _ => rfl
    · by_cases positive : head = '+'
      · rw [plus.mpr positive, positive, readYear?, readYear?, length_lowerAscii]
        exact map_of_map (leadingDigits?_ignoresCase _ rest) fun _ => rfl
      · rw [readYear?_of_unsigned negative positive,
          readYear?_of_unsigned (mt minus.mp negative) (mt plus.mp positive)]
        exact map_of_map (leadingDigits?_ignoresCase 4 (head :: rest)) fun _ => rfl

/-! ## Names of months -/

theorem afterWord?_lowerAscii (word text : List Char) :
    afterWord? word (lowerAscii text) = (afterWord? word text).map lowerAscii := by
  rw [afterWord?, afterWord?, take_lowerAscii, drop_lowerAscii, lowerAscii_lowerAscii]
  split <;> rfl

theorem readShortMonth?_ignoresCase : IgnoresCase readShortMonth? := by
  intro text
  rw [readShortMonth?, readShortMonth?, List.map_findSome?]
  refine congrArg (fun find => List.findSome? find (List.range 12)) (funext fun index => ?_)
  exact map_of_map (afterWord?_lowerAscii _ text) fun _ => rfl

theorem readMonth?_ignoresCase : IgnoresCase readMonth? := by
  intro text
  refine map_of_map (readShortMonth?_ignoresCase text) fun (month, after) => ?_
  let suffix := (fullMonthName month).drop 3
  change (month, (afterWord? suffix (lowerAscii after)).getD (lowerAscii after)) =
    (month, lowerAscii ((afterWord? suffix after).getD after))
  rw [afterWord?_lowerAscii]
  cases afterWord? suffix after <;> rfl

/-! ## Layouts -/

theorem Field.read?_ignoresCase (reading : Reading) (field : Field) :
    IgnoresCase fun text => field.read? reading text := by
  intro text
  cases field <;> simp only [Field.read?, trimStart_lowerAscii]
  case year => exact map_of_map (readYear?_ignoresCase _) fun _ => rfl
  all_goals exact map_of_map (leadingDigits?_ignoresCase 2 _) fun _ => rfl

/-- An item that is no letter. -/
def LayoutItem.isUnlettered : LayoutItem → Bool
  | .mark character => !isLetter character
  | _ => true

theorem LayoutItem.read?_ignoresCase {item : LayoutItem} (unlettered : item.isUnlettered = true)
    (reading : Reading) : IgnoresCase fun text => item.read? reading text := by
  intro text
  cases item with
  | number field => exact field.read?_ignoresCase reading text
  | monthName full =>
    cases full with
    | true => exact map_of_map (readMonth?_ignoresCase text) fun _ => rfl
    | false => exact map_of_map (readShortMonth?_ignoresCase text) fun _ => rfl
  | mark character =>
    cases text with
    | nil => rfl
    | cons head rest =>
      have same : asciiLetter head = character ↔ head = character :=
        asciiLetter_eq_iff (by simpa [isUnlettered] using unlettered)
      change (if asciiLetter head = character then some (reading, lowerAscii rest) else none) =
        (if head = character then some (reading, rest) else none).map (Prod.map id lowerAscii)
      simp only [same]
      split <;> rfl
  | gap =>
    simp only [LayoutItem.read?, trimStart_lowerAscii]
    rfl

theorem Layout.read?_cons (item : LayoutItem) (layout : Layout) (reading : Reading)
    (text : List Char) :
    Layout.read? (item :: layout) reading text =
      (item.read? reading text >>= fun (next, after) => Layout.read? layout next after) := by
  rw [Layout.read?]
  cases item.read? reading text <;> rfl

theorem Layout.read?_ignoresCase {layout : Layout}
    (unlettered : layout.all LayoutItem.isUnlettered = true) (reading : Reading) :
    IgnoresCase (Layout.read? layout reading) := by
  intro text
  induction layout generalizing reading text with
  | nil => rfl
  | cons item layout inductionHypothesis =>
    rw [List.all_cons, Bool.and_eq_true] at unlettered
    rw [Layout.read?_cons, Layout.read?_cons]
    refine bind_map_of_map (item.read?_ignoresCase unlettered.1 reading text) fun found => ?_
    exact inductionHypothesis unlettered.2 found.1 found.2

theorem Layout.day?_eq (layout : Layout) (text : List Char) :
    layout.day? text = (Layout.read? layout {} text >>= fun found =>
      if found.2.isEmpty then found.1.day? else none) := by
  rw [Layout.day?]
  cases Layout.read? layout {} text with
  | none => rfl
  | some found =>
    obtain ⟨reading, rest⟩ := found
    cases rest <;> rfl

theorem Layout.moment?_eq (layout : Layout) (text : List Char) :
    layout.moment? text = (Layout.read? layout {} text >>= fun found =>
      if found.2.isEmpty then found.1.moment? else none) := by
  rw [Layout.moment?]
  cases Layout.read? layout {} text with
  | none => rfl
  | some found =>
    obtain ⟨reading, rest⟩ := found
    cases rest <;> rfl

theorem isEmpty_lowerAscii (text : List Char) : (lowerAscii text).isEmpty = text.isEmpty := by
  cases text <;> rfl

theorem Layout.day?_lowerAscii {layout : Layout}
    (unlettered : layout.all LayoutItem.isUnlettered = true) (text : List Char) :
    layout.day? (lowerAscii text) = layout.day? text := by
  rw [Layout.day?_eq, Layout.day?_eq]
  refine bind_of_map (Layout.read?_ignoresCase unlettered _ text) fun found => ?_
  simp only [Prod.map_fst, Prod.map_snd, id_eq, isEmpty_lowerAscii]

theorem Layout.moment?_lowerAscii {layout : Layout}
    (unlettered : layout.all LayoutItem.isUnlettered = true) (text : List Char) :
    layout.moment? (lowerAscii text) = layout.moment? text := by
  rw [Layout.moment?_eq, Layout.moment?_eq]
  refine bind_of_map (Layout.read?_ignoresCase unlettered _ text) fun found => ?_
  simp only [Prod.map_fst, Prod.map_snd, id_eq, isEmpty_lowerAscii]

/-! ## Timestamps -/

theorem capitalT : 0x41 ≤ 'T'.toNat ∧ 'T'.toNat ≤ 0x5A := by decide

theorem smallT : 't'.toNat = 'T'.toNat + 32 := by decide

theorem capitalZ : 0x41 ≤ 'Z'.toNat ∧ 'Z'.toNat ≤ 0x5A := by decide

theorem smallZ : 'z'.toNat = 'Z'.toNat + 32 := by decide

namespace Timestamp

theorem after?_lowerAscii {character : Char} (unlettered : isLetter character = false)
    (text : List Char) :
    after? character (lowerAscii text) = (after? character text).map lowerAscii := by
  cases text with
  | nil => rfl
  | cons head rest =>
    have same : asciiLetter head = character ↔ head = character := asciiLetter_eq_iff unlettered
    change (if asciiLetter head = character then some (lowerAscii rest) else none) =
      (if head = character then some rest else none).map lowerAscii
    simp only [same]
    split <;> rfl

theorem afterTimeMark?_lowerAscii (text : List Char) :
    afterTimeMark? (lowerAscii text) = (afterTimeMark? text).map lowerAscii := by
  cases text with
  | nil => rfl
  | cons head rest =>
    have space : isLetter ' ' = false := by decide
    change (if asciiLetter head = 'T' ∨ asciiLetter head = 't' ∨ asciiLetter head = ' ' then
        some (lowerAscii rest) else none) =
      (if head = 'T' ∨ head = 't' ∨ head = ' ' then some rest else none).map lowerAscii
    simp only [asciiLetter_ne_capital capitalT, asciiLetter_eq_small_iff capitalT smallT,
      asciiLetter_eq_iff space, false_or, or_assoc]
    split <;> rfl

theorem fraction?_of_ne {head : Char} (other : head ≠ '.') (rest : List Char) :
    fraction? (head :: rest) = some (0, head :: rest) := by
  simp [fraction?, other]

theorem fraction?_ignoresCase : IgnoresCase fraction? := by
  intro text
  cases text with
  | nil => rfl
  | cons head rest =>
    have point : asciiLetter head = '.' ↔ head = '.' := asciiLetter_eq_iff (by decide)
    change fraction? (asciiLetter head :: lowerAscii rest) = _
    by_cases pointed : head = '.'
    · rw [point.mpr pointed, pointed]
      simp only [fraction?, takeWhile_lowerAscii, drop_lowerAscii]
      cases (rest.takeWhile isDigit).isEmpty <;> rfl
    · rw [fraction?_of_ne pointed, fraction?_of_ne (mt point.mp pointed)]
      rfl

theorem distance?_ignoresCase : IgnoresCase distance? := by
  intro text
  have colon : isLetter ':' = false := by decide
  unfold distance?
  refine bind_map_of_map (exactDigits?_ignoresCase 2 text) fun (hours, text) => ?_
  refine bind_map_of_map (after?_lowerAscii colon text) fun text => ?_
  refine bind_map_of_map (exactDigits?_ignoresCase 2 text) fun (minutes, text) => ?_
  change (if hours < 24 ∧ minutes < 60 then
      some (hours * 3600 + minutes * 60, lowerAscii text) else none) =
    (if hours < 24 ∧ minutes < 60 then
      some (hours * 3600 + minutes * 60, text) else none).map (Prod.map id lowerAscii)
  split <;> rfl

theorem offset?_ignoresCase : IgnoresCase offset? := by
  intro text
  cases text with
  | nil => rfl
  | cons sign rest =>
    have signs : isLetter '+' = false ∧ isLetter '-' = false ∧ isLetter '\u2212' = false := by
      decide
    change offset? (asciiLetter sign :: lowerAscii rest) = _
    simp only [offset?, asciiLetter_ne_capital capitalZ, asciiLetter_eq_small_iff capitalZ smallZ,
      asciiLetter_eq_iff signs.1, asciiLetter_eq_iff signs.2.1, asciiLetter_eq_iff signs.2.2,
      false_or]
    split
    · rfl
    · split
      · exact map_of_map (distance?_ignoresCase rest) fun _ => rfl
      · split
        · exact map_of_map (distance?_ignoresCase rest) fun _ => rfl
        · rfl

theorem read?_lowerAscii (text : List Char) : read? (lowerAscii text) = read? text := by
  have marks : isLetter '-' = false ∧ isLetter ':' = false := by decide
  unfold read?
  refine bind_of_map (exactDigits?_ignoresCase 4 text) fun (year, text) => ?_
  refine bind_of_map (after?_lowerAscii marks.1 text) fun text => ?_
  refine bind_of_map (exactDigits?_ignoresCase 2 text) fun (month, text) => ?_
  refine bind_of_map (after?_lowerAscii marks.1 text) fun text => ?_
  refine bind_of_map (exactDigits?_ignoresCase 2 text) fun (day, text) => ?_
  refine bind_of_map (afterTimeMark?_lowerAscii text) fun text => ?_
  refine bind_of_map (exactDigits?_ignoresCase 2 text) fun (hour, text) => ?_
  refine bind_of_map (after?_lowerAscii marks.2 text) fun text => ?_
  refine bind_of_map (exactDigits?_ignoresCase 2 text) fun (minute, text) => ?_
  refine bind_of_map (after?_lowerAscii marks.2 text) fun text => ?_
  refine bind_of_map (exactDigits?_ignoresCase 2 text) fun (second, text) => ?_
  refine bind_of_map (fraction?_ignoresCase text) fun (nano, text) => ?_
  refine bind_of_map (offset?_ignoresCase text) fun (offset, text) => ?_
  cases text <;> rfl

end Timestamp

/-! ## Marked times -/

/-- Day and time with a mark between them. -/
def markedMoment (mark : Char) : Layout :=
  isoDay ++ [.mark mark] ++ clockSeconds

/-- The moment whose day was read and whose time is all that remains. -/
def clockMoment? (reading : Reading) (text : List Char) : Option Moment :=
  Layout.read? clockSeconds reading text >>= fun found =>
    if found.2.isEmpty then found.1.moment? else none

theorem clockMoment?_lowerAscii (reading : Reading) (text : List Char) :
    clockMoment? reading (lowerAscii text) = clockMoment? reading text := by
  have unlettered : clockSeconds.all LayoutItem.isUnlettered = true := by decide
  refine bind_of_map (Layout.read?_ignoresCase unlettered reading text) fun found => ?_
  simp only [Prod.map_fst, Prod.map_snd, id_eq, isEmpty_lowerAscii]

theorem Layout.read?_mark (mark : Char) (layout : Layout) (reading : Reading) (text : List Char) :
    Layout.read? (.mark mark :: layout) reading text =
      (Timestamp.after? mark text >>= fun rest => Layout.read? layout reading rest) := by
  cases text with
  | nil => rfl
  | cons head rest =>
    by_cases here : head = mark
    · simp [Layout.read?, LayoutItem.read?, Timestamp.after?, here]
    · simp [Layout.read?, LayoutItem.read?, Timestamp.after?, here]

theorem markedMoment_moment? (mark : Char) (text : List Char) :
    (markedMoment mark).moment? text = (Layout.read? isoDay {} text >>= fun found =>
      Timestamp.after? mark found.2 >>= fun rest => clockMoment? found.1 rest) := by
  rw [Layout.moment?_eq, markedMoment, List.append_assoc, Layout.read?_append]
  cases Layout.read? isoDay {} text with
  | none => rfl
  | some found =>
    change (Layout.read? (.mark mark :: clockSeconds) found.1 found.2 >>= _) =
      (Timestamp.after? mark found.2 >>= _)
    rw [Layout.read?_mark, bind_assoc]
    rfl

/-- Of the layouts with a letter between day and time, the small one reads what both read before. -/
theorem markedMoments_lowerAscii (text : List Char) :
    ((markedMoment 'T').moment? (lowerAscii text) <|>
        (markedMoment 't').moment? (lowerAscii text)) =
      ((markedMoment 'T').moment? text <|> (markedMoment 't').moment? text) := by
  have unlettered : isoDay.all LayoutItem.isUnlettered = true := by decide
  simp only [markedMoment_moment?, Layout.read?_ignoresCase unlettered _ text]
  cases Layout.read? isoDay {} text with
  | none => rfl
  | some found =>
    obtain ⟨reading, rest⟩ := found
    cases rest with
    | nil => rfl
    | cons head rest =>
      change ((Timestamp.after? 'T' (asciiLetter head :: lowerAscii rest) >>=
            clockMoment? reading) <|>
          (Timestamp.after? 't' (asciiLetter head :: lowerAscii rest) >>=
            clockMoment? reading)) =
        ((Timestamp.after? 'T' (head :: rest) >>= clockMoment? reading) <|>
          (Timestamp.after? 't' (head :: rest) >>= clockMoment? reading))
      have letters : 'T' ≠ 't' := by decide
      simp only [Timestamp.after?, asciiLetter_ne_capital capitalT,
        asciiLetter_eq_small_iff capitalT smallT, if_false]
      by_cases capital : head = 'T'
      · simp [capital, letters, clockMoment?_lowerAscii]
      · by_cases small : head = 't'
        · simp [small, letters.symm, clockMoment?_lowerAscii]
        · simp [capital, small]

theorem findSome?_cons_orElse {α β : Type} (find : α → Option β) (first : α) (others : List α) :
    (first :: others).findSome? find = (find first <|> others.findSome? find) := by
  rw [List.findSome?_cons]
  cases find first <;> rfl

theorem findSome?_congr {α β : Type} {find other : α → Option β} {row : List α}
    (same : ∀ item ∈ row, find item = other item) : row.findSome? find = row.findSome? other := by
  induction row with
  | nil => rfl
  | cons first row inductionHypothesis =>
    obtain ⟨here, others⟩ := List.forall_mem_cons.mp same
    rw [findSome?_cons_orElse, findSome?_cons_orElse, here, inductionHypothesis others]

theorem findSome?_moments_lowerAscii (text : List Char) :
    (momentLayouts.findSome? fun layout => layout.moment? (lowerAscii text)) =
      momentLayouts.findSome? fun layout => layout.moment? text := by
  have split : momentLayouts =
      markedMoment 'T' :: markedMoment 't' :: momentLayouts.drop 2 := rfl
  have unlettered : ((momentLayouts.drop 2).all fun layout =>
      layout.all LayoutItem.isUnlettered) = true := by
    decide
  have others : ((momentLayouts.drop 2).findSome? fun layout => layout.moment? (lowerAscii text)) =
      (momentLayouts.drop 2).findSome? fun layout => layout.moment? text :=
    findSome?_congr fun layout listed =>
      Layout.moment?_lowerAscii (List.all_eq_true.mp unlettered layout listed) text
  rw [split]
  simp only [findSome?_cons_orElse, others]
  rw [orElse_assoc, orElse_assoc, markedMoments_lowerAscii]

theorem findSome?_days_lowerAscii (text : List Char) :
    (dayLayouts.findSome? fun layout => layout.day? (lowerAscii text)) =
      dayLayouts.findSome? fun layout => layout.day? text := by
  have unlettered : (dayLayouts.all fun layout => layout.all LayoutItem.isUnlettered) = true := by
    decide
  exact findSome?_congr fun layout listed =>
    Layout.day?_lowerAscii (List.all_eq_true.mp unlettered layout listed) text

/-! ## Days with a zone -/

/-- The day, if what stands behind it is a zone. -/
def withZone? (day : Day) (zone : List Char) : Option Day :=
  if zone = ['Z'] ∨ zone = ['z'] then some day
  else if zone.isEmpty then none
  else
    (Timestamp.read? (isoDay.write (Moment.midnight day) ++ "T00:00:00".toList ++ zone)).map
      fun _ => day

theorem zonedDay?_eq (text : List Char) :
    zonedDay? text = (Layout.read? isoDay {} text >>= fun found =>
      found.1.day? >>= fun day => withZone? day found.2) := by
  rw [zonedDay?]
  cases Layout.read? isoDay {} text with
  | none => rfl
  | some found =>
    obtain ⟨reading, zone⟩ := found
    cases read : reading.day? <;> simp [read, withZone?]

theorem withZone?_lowerAscii (day : Day) (zone : List Char) :
    withZone? day (lowerAscii zone) = withZone? day zone := by
  have letter :
      lowerAscii zone = ['Z'] ∨ lowerAscii zone = ['z'] ↔ zone = ['Z'] ∨ zone = ['z'] := by
    cases zone with
    | nil => simp [lowerAscii]
    | cons head rest =>
      simp [lowerAscii, asciiLetter_ne_capital capitalZ, asciiLetter_eq_small_iff capitalZ smallZ,
        or_and_right]
  have stamp (front : List Char) :
      Timestamp.read? (front ++ lowerAscii zone) = Timestamp.read? (front ++ zone) := by
    rw [← Timestamp.read?_lowerAscii, ← Timestamp.read?_lowerAscii (front ++ zone),
      lowerAscii_append, lowerAscii_append, lowerAscii_lowerAscii]
  simp only [withZone?, letter, isEmpty_lowerAscii, stamp]

theorem zonedDay?_lowerAscii (text : List Char) :
    zonedDay? (lowerAscii text) = zonedDay? text := by
  have unlettered : isoDay.all LayoutItem.isUnlettered = true := by decide
  rw [zonedDay?_eq, zonedDay?_eq]
  refine bind_of_map (Layout.read?_ignoresCase unlettered _ text) fun found => ?_
  simp only [Prod.map_fst, Prod.map_snd, id_eq, withZone?_lowerAscii]

/-! ## Written dates -/

/-- The moment of a text is read in any case of its ASCII letters. -/
theorem written?_lowerAscii (text : List Char) : written? (lowerAscii text) = written? text := by
  simp only [written?, trim_lowerAscii, Timestamp.read?_lowerAscii, zonedDay?_lowerAscii,
    findSome?_moments_lowerAscii, findSome?_days_lowerAscii]

end Calendar
end MuseumRecord
