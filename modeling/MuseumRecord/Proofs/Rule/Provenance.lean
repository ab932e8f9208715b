import MuseumRecord.Proofs.Markup.Tree
import MuseumRecord.Proofs.Number.FixedPoint
import MuseumRecord.Proofs.Schema.ValueGrammar
import MuseumRecord.Rule.Group

/-!
# The first breach of provenance

The ways in which a history can break the rules stand in a fixed order: the day of the acquisition,
its price, and the exhibitions one after the other.  The group of history reports the one that
comes first, and nothing that is none.
-/

namespace MuseumRecord
namespace Rule

open Calendar Number Schema

/-! ## Breaches -/

/-- A price that the grammar of decimals or the reader of fixed-point numbers refuses, or that lies
below zero. -/
inductive IsBadPrice (price : String) : Prop where
  /-- No decimal literal. -/
  | ungrammatical (refused : ¬ SpellsDecimal (Text.trim price.toList))
  /-- A literal whose number does not fit. -/
  | unread {literal : Literal} (spells : literal.Spells (Text.trim price.toList))
      (refused : FixedPoint.ofLiteral? literal = none)
  /-- A number below zero. -/
  | negative {literal : Literal} {number : FixedPoint}
      (spells : literal.Spells (Text.trim price.toList))
      (read : FixedPoint.ofLiteral? literal = some number) (below : number.value < 0)

/-- Both days of an exhibition are written, and can be read. -/
structure ReadsDays (exhibition : Exhibition) (start finish : String) (first last : Moment) :
    Prop where
  /-- The first day is written. -/
  starts : exhibition.startDate = some start
  /-- The last day is written. -/
  ends : exhibition.endDate = some finish
  /-- The first day can be read. -/
  startRead : written? start.toList = some first
  /-- The last day can be read. -/
  finishRead : written? finish.toList = some last

/-- A way in which a history breaks the rules, and when it is its turn to be looked for. -/
inductive Breach (now : Moment) (history : History) : Nat → Violation → Prop where
  /-- The day of the acquisition cannot be read. -/
  | unreadDate {acquisition : Acquisition} {date : String}
      (present : history.acquisition = some acquisition) (dated : acquisition.date = some date)
      (unread : written? date.toList = none) : Breach now history 0 (.badAcquisitionDate date)
  /-- The day of the acquisition is yet to come. -/
  | futureDate {acquisition : Acquisition} {date : String} {moment : Moment}
      (present : history.acquisition = some acquisition) (dated : acquisition.date = some date)
      (read : written? date.toList = some moment) (later : now < moment) :
      Breach now history 1 (.futureAcquisition date)
  /-- The price is none. -/
  | price {acquisition : Acquisition} {price : String}
      (present : history.acquisition = some acquisition) (priced : acquisition.price = some price)
      (bad : IsBadPrice price) : Breach now history 2 (.badPrice price)
  /-- An exhibition does not start before it ends. -/
  | exhibition {index : Nat} {exhibition : Exhibition} {start finish : String}
      {first last : Moment} (listed : history.exhibitions[index]? = some exhibition)
      (days : ReadsDays exhibition start finish first last) (disordered : last ≤ first) :
      Breach now history (3 + index) (.exhibitionOrder (index + 1) start finish)

/-! ## Single checks -/

/-- A price is a decimal literal that is read as a number of zero or more. -/
theorem isPrice_iff {price : String} :
    isPrice price = true ↔ ∃ literal number, literal.Spells (Text.trim price.toList) ∧
      literal.exponent = none ∧ FixedPoint.ofLiteral? literal = some number ∧ 0 ≤ number.value := by
  simp only [isPrice, ← Literal.read?_eq_some_iff, ← FixedPoint.isNonNegative_iff]
  cases Literal.read? (Text.trim price.toList) with
  | none => simp
  | some literal => simp [Option.any_eq_true]

theorem isPrice_eq_false_iff {price : String} : isPrice price = false ↔ IsBadPrice price := by
  rw [← Bool.not_eq_true, isPrice_iff]
  constructor
  · intro refused
    by_cases grammatical : SpellsDecimal (Text.trim price.toList)
    · obtain ⟨literal, spells, powerless⟩ := grammatical
      cases read : FixedPoint.ofLiteral? literal with
      | none => exact .unread spells read
      | some number =>
        refine .negative spells read (not_le.mp fun nonneg => ?_)
        exact refused ⟨literal, number, spells, powerless, read, nonneg⟩
    · exact .ungrammatical grammatical
  · rintro bad ⟨literal, number, spells, powerless, read, nonneg⟩
    cases bad with
    | ungrammatical refused => exact refused ⟨literal, spells, powerless⟩
    | unread otherwise refused =>
      cases spells.eq otherwise
      rw [read] at refused
      cases refused
    | negative otherwise otherRead below =>
      cases spells.eq otherwise
      cases read.symm.trans otherRead
      exact absurd nonneg (not_le.mpr below)

theorem priceViolation_eq_some_iff {price : String} {violation : Violation} :
    priceViolation price = some violation ↔ IsBadPrice price ∧ .badPrice price = violation := by
  rw [← isPrice_eq_false_iff, priceViolation]
  cases isPrice price <;> simp

theorem exhibitionViolation_eq_some_iff {number : Nat} {exhibition : Exhibition}
    {violation : Violation} :
    exhibitionViolation number exhibition = some violation ↔
      ∃ start finish first last, ReadsDays exhibition start finish first last ∧ last ≤ first ∧
        .exhibitionOrder number start finish = violation := by
  constructor
  · intro raised
    unfold exhibitionViolation at raised
    split at raised
    · next start finish starts ends =>
      split at raised
      · next first last startRead finishRead =>
        split at raised
        · cases raised
        · next unordered =>
          exact ⟨start, finish, first, last, ⟨starts, ends, startRead, finishRead⟩,
            Int.not_lt.mp unordered, Option.some.inj raised⟩
      · cases raised
    · cases raised
  · rintro ⟨start, finish, first, last, ⟨starts, ends, startRead, finishRead⟩, disordered, rfl⟩
    rw [exhibitionViolation, starts, ends]
    dsimp only
    rw [startRead, finishRead]
    exact if_neg (Int.not_lt.mpr disordered)

/-! ## Checks in their order -/

/-- The day of an acquisition, if it cannot be read. -/
def unreadDateViolation (date : String) : Option Violation :=
  if (written? date.toList).isNone then some (.badAcquisitionDate date) else none

/-- The day of an acquisition, if it is yet to come. -/
def futureDateViolation (now : Moment) (date : String) : Option Violation :=
  (written? date.toList).bind fun moment =>
    if now < moment then some (.futureAcquisition date) else none

theorem unreadDateViolation_eq_some_iff {date : String} {violation : Violation} :
    unreadDateViolation date = some violation ↔
      written? date.toList = none ∧ .badAcquisitionDate date = violation := by
  rw [unreadDateViolation]
  cases written? date.toList <;> simp

theorem futureDateViolation_eq_some_iff {now : Moment} {date : String} {violation : Violation} :
    futureDateViolation now date = some violation ↔
      ∃ moment, written? date.toList = some moment ∧ now < moment ∧
        .futureAcquisition date = violation := by
  simp only [futureDateViolation, Option.bind_eq_some_iff, Option.ite_none_right_eq_some,
    Option.some.injEq]

/-- What a check says of a field of the acquisition, if both are there. -/
def acquisitionCheck (history : History) (field : Acquisition → Option String)
    (check : String → Option Violation) : Option Violation :=
  (history.acquisition.bind field).bind check

theorem acquisitionCheck_eq_some_iff {history : History} {field : Acquisition → Option String}
    {check : String → Option Violation} {violation : Violation} :
    acquisitionCheck history field check = some violation ↔
      ∃ acquisition value, history.acquisition = some acquisition ∧
        field acquisition = some value ∧ check value = some violation := by
  simp only [acquisitionCheck, Option.bind_eq_some_iff]
  constructor
  · rintro ⟨value, ⟨acquisition, present, written⟩, said⟩
    exact ⟨acquisition, value, present, written, said⟩
  · rintro ⟨acquisition, value, present, written, said⟩
    exact ⟨value, ⟨acquisition, present, written⟩, said⟩

/-- What every check of a history says, each at its turn. -/
def turns (now : Moment) (history : History) : List (Option Violation) :=
  acquisitionCheck history Acquisition.date unreadDateViolation ::
    acquisitionCheck history Acquisition.date (futureDateViolation now) ::
      acquisitionCheck history Acquisition.price priceViolation ::
        history.exhibitions.mapIdx fun index => exhibitionViolation (index + 1)

section Turns

variable {now : Moment} {history : History}

/-- The check at a turn says what is broken there. -/
theorem getElem?_turns_iff {turn : Nat} {violation : Violation} :
    (turns now history)[turn]? = some (some violation) ↔ Breach now history turn violation := by
  constructor
  · intro said
    match turn with
    | 0 =>
      obtain ⟨acquisition, date, present, dated, said⟩ :=
        acquisitionCheck_eq_some_iff.mp (Option.some.inj said)
      obtain ⟨unread, rfl⟩ := unreadDateViolation_eq_some_iff.mp said
      exact .unreadDate present dated unread
    | 1 =>
      obtain ⟨acquisition, date, present, dated, said⟩ :=
        acquisitionCheck_eq_some_iff.mp (Option.some.inj said)
      obtain ⟨moment, read, later, rfl⟩ := futureDateViolation_eq_some_iff.mp said
      exact .futureDate present dated read later
    | 2 =>
      obtain ⟨acquisition, price, present, priced, said⟩ :=
        acquisitionCheck_eq_some_iff.mp (Option.some.inj said)
      obtain ⟨bad, rfl⟩ := priceViolation_eq_some_iff.mp said
      exact .price present priced bad
    | index + 3 =>
      obtain ⟨exhibition, listed, said⟩ := Option.map_eq_some_iff.mp
        (List.getElem?_mapIdx.symm.trans said)
      obtain ⟨start, finish, first, last, days, disordered, rfl⟩ :=
        exhibitionViolation_eq_some_iff.mp said
      rw [Nat.add_comm]
      exact .exhibition listed days disordered
  · intro breach
    cases breach with
    | unreadDate present dated unread =>
      apply congrArg some
      apply acquisitionCheck_eq_some_iff.mpr
      exact ⟨_, _, present, dated, unreadDateViolation_eq_some_iff.mpr ⟨unread, rfl⟩⟩
    | futureDate present dated read later =>
      apply congrArg some
      apply acquisitionCheck_eq_some_iff.mpr
      exact ⟨_, _, present, dated, futureDateViolation_eq_some_iff.mpr ⟨_, read, later, rfl⟩⟩
    | price present priced bad =>
      apply congrArg some
      apply acquisitionCheck_eq_some_iff.mpr
      exact ⟨_, _, present, priced, priceViolation_eq_some_iff.mpr ⟨bad, rfl⟩⟩
    | exhibition listed days disordered =>
      rw [Nat.add_comm]
      apply List.getElem?_mapIdx.trans
      apply Option.map_eq_some_iff.mpr
      exact ⟨_, listed, exhibitionViolation_eq_some_iff.mpr ⟨_, _, _, _, days, disordered, rfl⟩⟩

theorem acquisitionDateViolation_eq_or (date : String) :
    acquisitionDateViolation now date =
      (unreadDateViolation date).or (futureDateViolation now date) := by
  unfold acquisitionDateViolation unreadDateViolation futureDateViolation
  split <;> simp [*]

theorem findSome?_id_cons {α : Type} (first : Option α) (rest : List (Option α)) :
    (first :: rest).findSome? id = first.or (rest.findSome? id) := by
  cases first <;> rfl

theorem exhibitionsViolation_eq_findSome? (number : Nat) (exhibitions : List Exhibition) :
    exhibitionsViolation number exhibitions =
      (exhibitions.mapIdx fun index => exhibitionViolation (index + number)).findSome? id := by
  induction exhibitions generalizing number with
  | nil => rfl
  | cons exhibition rest inductionHypothesis =>
    rw [exhibitionsViolation, inductionHypothesis, List.mapIdx_cons, findSome?_id_cons,
      Nat.zero_add, Option.orElse_eq_orElse, Option.orElse_eq_or]
    simp only [Nat.add_right_comm, Nat.add_assoc]

/-- The group of history says what the first of its checks says that says anything. -/
theorem historyViolation_eq_findSome? {exhibit : Exhibit}
    (viewed : exhibit.history = some history) :
    historyViolation now exhibit = (turns now history).findSome? id := by
  rw [historyViolation, viewed, Option.bind_some, Option.orElse_eq_orElse, Option.orElse_eq_or,
    turns, findSome?_id_cons, findSome?_id_cons, findSome?_id_cons,
    ← exhibitionsViolation_eq_findSome?]
  unfold acquisitionCheck
  cases history.acquisition with
  | none => simp
  | some acquisition =>
    simp only [Option.bind_some, acquisitionViolation, Option.orElse_eq_orElse,
      Option.orElse_eq_or]
    cases acquisition.date with
    | none => simp
    | some date => simp [acquisitionDateViolation_eq_or, Option.or_assoc]

theorem exists_least_turn {α : Type} {checks : List (Option α)} {said : α}
    (found : checks.findSome? id = some said) :
    ∃ turn : Nat, checks[turn]? = some (some said) ∧
      ∀ (earlier : Nat) other, checks[earlier]? = some (some other) → turn ≤ earlier := by
  obtain ⟨before, _, after, rfl, rfl, silent⟩ := List.findSome?_eq_some_iff.mp found
  refine ⟨before.length, by simp, fun earlier other spoken => ?_⟩
  by_contra inside
  rw [List.getElem?_append_left (Nat.lt_of_not_le inside)] at spoken
  cases silent _ (List.mem_of_getElem? spoken)

/-- What is said first of all is said at the least turn. -/
theorem findSome?_id_eq_some_iff {α : Type} {checks : List (Option α)} {said : α} :
    checks.findSome? id = some said ↔
      ∃ turn : Nat, checks[turn]? = some (some said) ∧
        ∀ (earlier : Nat) other, checks[earlier]? = some (some other) → turn ≤ earlier := by
  refine ⟨exists_least_turn, ?_⟩
  rintro ⟨turn, spoken, first⟩
  cases found : checks.findSome? id with
  | none => cases List.findSome?_eq_none_iff.mp found _ (List.mem_of_getElem? spoken)
  | some other =>
    obtain ⟨same, otherSpoken, otherFirst⟩ := exists_least_turn found
    have together : same = turn :=
      Nat.le_antisymm (otherFirst turn said spoken) (first same other otherSpoken)
    rw [together, spoken] at otherSpoken
    exact (Option.some.inj otherSpoken).symm

theorem findSome?_id_eq_none_iff {α : Type} {checks : List (Option α)} :
    checks.findSome? id = none ↔ ∀ (turn : Nat) said, checks[turn]? ≠ some (some said) := by
  rw [List.findSome?_eq_none_iff]
  constructor
  · intro silent turn said spoken
    cases silent _ (List.mem_of_getElem? spoken)
  · intro silent check member
    obtain ⟨turn, listed⟩ := List.mem_iff_getElem?.mp member
    cases check with
    | none => rfl
    | some said => exact absurd listed (silent turn said)

/-- What is reported is the breach that comes first. -/
theorem historyViolation_eq_some_iff {exhibit : Exhibit} (viewed : exhibit.history = some history)
    {violation : Violation} :
    historyViolation now exhibit = some violation ↔
      ∃ turn, Breach now history turn violation ∧
        ∀ earlier other, Breach now history earlier other → turn ≤ earlier := by
  rw [historyViolation_eq_findSome? viewed, findSome?_id_eq_some_iff]
  simp only [getElem?_turns_iff]

/-- Nothing is reported where there is no breach. -/
theorem historyViolation_eq_none_iff {exhibit : Exhibit} (viewed : exhibit.history = some history) :
    historyViolation now exhibit = none ↔
      ∀ turn violation, ¬ Breach now history turn violation := by
  rw [historyViolation_eq_findSome? viewed, findSome?_id_eq_none_iff]
  simp only [ne_eq, getElem?_turns_iff]

end Turns

/-! ## Quiet histories -/

section Quiet

variable {now : Moment} {history : History}

/-- Exhibitions that are incomplete or cannot be read break nothing. -/
theorem Breach.exists_of_replaced {others : List Exhibition}
    (kept : ∀ exhibition ∈ others, exhibition ∈ history.exhibitions ∨
      ¬ ∃ start finish first last, ReadsDays exhibition start finish first last)
    {turn : Nat} {violation : Violation}
    (breach : Breach now { history with exhibitions := others } turn violation) :
    ∃ turn violation, Breach now history turn violation := by
  cases breach with
  | unreadDate present dated unread => exact ⟨_, _, .unreadDate present dated unread⟩
  | futureDate present dated read later => exact ⟨_, _, .futureDate present dated read later⟩
  | price present priced bad => exact ⟨_, _, .price present priced bad⟩
  | exhibition listed days disordered =>
    rcases kept _ (List.mem_of_getElem? listed) with old | unreadable
    · obtain ⟨index, listed⟩ := List.mem_iff_getElem?.mp old
      exact ⟨_, _, .exhibition listed days disordered⟩
    · exact absurd ⟨_, _, _, _, days⟩ unreadable

end Quiet

/-- The group of history reports the breach that comes first, and is quiet exactly if there is
none.  In a quiet history an exhibition of which both days can be read starts before it ends; and a
quiet history stays so when exhibitions are added, anywhere, that are incomplete or cannot be
read. -/
theorem first_breach_is_reported (now : Moment) (exhibit : Exhibit) (history : History) :
    (∀ violation,
      RuleGroup.history.violation? now { exhibit with history := some history } = some violation ↔
        ∃ turn, Breach now history turn violation ∧
          ∀ earlier other, Breach now history earlier other → turn ≤ earlier) ∧
    (RuleGroup.history.violation? now { exhibit with history := some history } = none ↔
      ∀ turn violation, ¬ Breach now history turn violation) ∧
    (RuleGroup.history.violation? now { exhibit with history := some history } = none →
      (∀ exhibition ∈ history.exhibitions, ∀ start finish first last,
        ReadsDays exhibition start finish first last → first < last) ∧
      ∀ others : List Exhibition,
        (∀ exhibition ∈ others, exhibition ∈ history.exhibitions ∨
          ¬ ∃ start finish first last, ReadsDays exhibition start finish first last) →
        RuleGroup.history.violation? now
          { exhibit with history := some { history with exhibitions := others } } = none) := by
  have quiet : ∀ history : History,
      RuleGroup.history.violation? now { exhibit with history := some history } = none ↔
        ∀ turn violation, ¬ Breach now history turn violation :=
    fun history => historyViolation_eq_none_iff rfl
  refine ⟨fun violation => historyViolation_eq_some_iff rfl, quiet history,
    fun silent => ⟨?_, ?_⟩⟩
  · intro exhibition member start finish first last days
    obtain ⟨index, listed⟩ := List.mem_iff_getElem?.mp member
    by_contra disordered
    exact (quiet history).mp silent _ _ (.exhibition listed days (Int.not_lt.mp disordered))
  · intro others kept
    rw [quiet]
    intro turn violation breach
    obtain ⟨turn, violation, old⟩ := breach.exists_of_replaced kept
    exact (quiet history).mp silent turn violation old

/-! ## Exhibitions of a document -/

section Elements

open Markup (Element)

variable {now : Moment} {history : History} {number : Nat} {start finish : String}

/-- An exhibition that is reported is the first that does not start before it ends, in a history
that breaks nothing before its exhibitions. -/
theorem exists_least_exhibition_iff :
    (∃ turn, Breach now history turn (.exhibitionOrder number start finish) ∧
        ∀ earlier other, Breach now history earlier other → turn ≤ earlier) ↔
      (∀ turn violation, Breach now history turn violation → 3 ≤ turn) ∧
        ∃ front exhibition back, history.exhibitions = front ++ exhibition :: back ∧
          (number = front.length + 1 ∧
            (∃ first last, ReadsDays exhibition start finish first last ∧ last ≤ first) ∧
            ∀ earlier ∈ front, ∀ start finish first last,
              ReadsDays earlier start finish first last → first < last) := by
  constructor
  · rintro ⟨_, breach, least⟩
    cases breach with
    | @exhibition index exhibition _ _ first last listed days disordered =>
      refine ⟨fun turn violation other =>
        Nat.le_trans (Nat.le_add_right 3 index) (least turn violation other), ?_⟩
      obtain ⟨inside, rfl⟩ := List.getElem?_eq_some_iff.mp listed
      have division := List.take_append_drop index history.exhibitions
      rw [List.drop_eq_getElem_cons inside] at division
      refine ⟨_, _, _, division.symm, ?_, ⟨first, last, days, disordered⟩, ?_⟩
      · rw [List.length_take_of_le (Nat.le_of_lt inside)]
      · intro earlier member start finish first last days
        obtain ⟨place, found⟩ := List.mem_iff_getElem?.mp member
        rw [List.getElem?_take] at found
        split at found
        · next before =>
          by_contra unordered
          have late := least _ _ (.exhibition found days (Int.not_lt.mp unordered))
          omega
        · cases found
  · rintro ⟨sound, front, exhibition, back, division, rfl, ⟨first, last, days, disordered⟩, ordered⟩
    refine ⟨3 + front.length, .exhibition (by rw [division]; simp) days disordered, ?_⟩
    intro earlier other breach
    have late := sound earlier other breach
    cases breach with
    | unreadDate _ _ _ => omega
    | futureDate _ _ _ _ => omega
    | price _ _ _ => omega
    | @exhibition index _ _ _ _ _ listed otherDays unordered =>
      by_contra before
      rw [division, List.getElem?_append_left (by omega)] at listed
      exact Int.not_lt.mpr unordered
        (ordered _ (List.mem_of_getElem? listed) _ _ _ _ otherDays)

/-- In a document an exhibition is reported if it is the first element of one that does not start
before it ends, and the acquisition breaks nothing.  It is counted among the elements of
exhibitions. -/
theorem exhibition_elements_are_judged_in_order {root part row : Element}
    (found : root.child? "History" = some part) (shown : part.child? "Exhibitions" = some row) :
    RuleGroup.history.violation? now (Exhibit.ofElement root) =
        some (.exhibitionOrder number start finish) ↔
      (∀ turn violation, Breach now (History.ofElement part) turn violation → 3 ≤ turn) ∧
        ∃ before child after, row.children = before ++ child :: after ∧
          child.name = "Exhibition" ∧
          number = (before.filter fun other => other.name == "Exhibition").length + 1 ∧
          (∃ first last,
            ReadsDays (Exhibition.ofElement child) start finish first last ∧ last ≤ first) ∧
          ∀ earlier ∈ before, earlier.name = "Exhibition" → ∀ start finish first last,
            ReadsDays (Exhibition.ofElement earlier) start finish first last → first < last := by
  have viewed : (Exhibit.ofElement root).history = some (History.ofElement part) :=
    congrArg (Option.map History.ofElement) found
  have exhibitions : (History.ofElement part).exhibitions =
      (row.childrenNamed "Exhibition").map Exhibition.ofElement := by
    rw [History.ofElement, shown]
  have divided := @Element.exists_view_division_iff _ Exhibition.ofElement row "Exhibition"
    fun front exhibition => number = front.length + 1 ∧
      (∃ first last, ReadsDays exhibition start finish first last ∧ last ≤ first) ∧
      ∀ earlier ∈ front, ∀ start finish first last,
        ReadsDays earlier start finish first last → first < last
  change historyViolation now (Exhibit.ofElement root) = _ ↔ _
  rw [historyViolation_eq_some_iff viewed, exists_least_exhibition_iff, exhibitions]
  refine and_congr_right fun _ => divided.trans ?_
  simp only [List.length_map, List.forall_mem_map, List.mem_filter, beq_iff_eq, and_imp]

end Elements

end Rule
end MuseumRecord
