import MuseumRecord.Proofs.Calendar.Zoned
import MuseumRecord.Proofs.Rule.Precluded

/-!
# Dates of a conforming record

Every date in the history of a record without structural errors was checked by the schema.  It is
read as the midnight of its day unless its zone lies a day or more away from the prime meridian:
such a zone passes the schema and stops the reader.
-/

namespace MuseumRecord
namespace Rule

open Calendar Markup Schema

/-! ## What the group of history raises -/

/-- Exhibitions raise nothing but their order. -/
theorem exhibitionsViolation_eq_some {exhibitions : List Exhibition} {number : Nat}
    {violation : Violation} (raised : exhibitionsViolation number exhibitions = some violation) :
    ∃ own start finish, violation = .exhibitionOrder own start finish := by
  induction exhibitions generalizing number with
  | nil => cases raised
  | cons first rest inductionHypothesis =>
    simp only [exhibitionsViolation, Option.orElse_eq_orElse, Option.orElse_eq_or,
      Option.or_eq_some_iff] at raised
    rcases raised with own | ⟨_, later⟩
    · unfold exhibitionViolation at own
      split at own
      · split at own
        · split at own
          · cases own
          · cases own
            exact ⟨_, _, _, rfl⟩
        · cases own
      · cases own
    · exact inductionHypothesis later

/-- Where exhibitions raise nothing, none of them does under its own number. -/
theorem exists_exhibitionViolation_eq_none {exhibitions : List Exhibition} {number : Nat}
    (quiet : exhibitionsViolation number exhibitions = none) {exhibition : Exhibition}
    (member : exhibition ∈ exhibitions) : ∃ own, exhibitionViolation own exhibition = none := by
  induction exhibitions generalizing number with
  | nil => cases member
  | cons first rest inductionHypothesis =>
    simp only [exhibitionsViolation, Option.orElse_eq_orElse, Option.orElse_eq_or,
      Option.or_eq_none_iff] at quiet
    rcases List.mem_cons.mp member with rfl | later
    · exact ⟨number, quiet.1⟩
    · exact inductionHypothesis quiet.2 later

/-- Only the date of the acquisition is reported as unreadable, and only where it is. -/
theorem acquisition_of_badAcquisitionDate {now : Moment} {exhibit : Exhibit} {date : String}
    (raised : historyViolation now exhibit = some (.badAcquisitionDate date)) :
    ∃ history acquisition, exhibit.history = some history ∧
      history.acquisition = some acquisition ∧ acquisition.date = some date ∧
      written? date.toList = none := by
  obtain ⟨history, viewed, raised⟩ := Option.bind_eq_some_iff.mp raised
  simp only [Option.orElse_eq_orElse, Option.orElse_eq_or, Option.or_eq_some_iff] at raised
  rcases raised with acquired | ⟨_, shown⟩
  · obtain ⟨acquisition, present, acquired⟩ := Option.bind_eq_some_iff.mp acquired
    simp only [acquisitionViolation, Option.orElse_eq_orElse, Option.orElse_eq_or,
      Option.or_eq_some_iff] at acquired
    rcases acquired with dated | ⟨_, priced⟩
    · obtain ⟨written, found, dated⟩ := Option.bind_eq_some_iff.mp dated
      unfold acquisitionDateViolation at dated
      split at dated
      · next unread =>
        cases dated
        exact ⟨history, acquisition, viewed, present, found, unread⟩
      · split at dated <;> cases dated
    · obtain ⟨price, _, priced⟩ := Option.bind_eq_some_iff.mp priced
      unfold priceViolation at priced
      split at priced <;> cases priced
  · obtain ⟨_, _, _, equal⟩ := exhibitionsViolation_eq_some shown
    cases equal

theorem exhibitionsViolation_of_quiet {now : Moment} {exhibit : Exhibit}
    (quiet : historyViolation now exhibit = none) {history : History}
    (viewed : exhibit.history = some history) : exhibitionsViolation 1 history.exhibitions = none := by
  rw [historyViolation, viewed, Option.bind_some] at quiet
  simp only [Option.orElse_eq_orElse, Option.orElse_eq_or, Option.or_eq_none_iff] at quiet
  exact quiet.2

/-! ## Dates that the schema has checked -/

/-- The date of the acquisition is of the type of dates. -/
theorem accepts_acquisitionDate {root : Element} (conforms : Conforms Schema.exhibit.root root)
    {history : History} (viewed : (Exhibit.ofElement root).history = some history)
    {acquisition : Acquisition} (present : history.acquisition = some acquisition) {date : String}
    (found : acquisition.date = some date) : ValueType.date.accepts date = true := by
  obtain ⟨part, partFound, rfl⟩ := Option.map_eq_some_iff.mp viewed
  have inside := conforms.child_conforms (show Schema.Exhibit.history ∈ _ by simp) partFound
  obtain ⟨inner, innerFound, rfl⟩ := Option.map_eq_some_iff.mp present
  have within := inside.child_conforms (show Schema.Exhibit.acquisition ∈ _ by simp) innerFound
  exact within.accepts_childText
    (show Declaration.simple "Date" .once .date ∈ _ by simp) found

/-- Every exhibition has both its dates, and they are of the type of dates. -/
theorem exists_exhibitionDates {root : Element} (conforms : Conforms Schema.exhibit.root root)
    {history : History} (viewed : (Exhibit.ofElement root).history = some history)
    {exhibition : Exhibition} (member : exhibition ∈ history.exhibitions) :
    ∃ start finish, exhibition = ⟨some start, some finish⟩ ∧
      ValueType.date.accepts start = true ∧ ValueType.date.accepts finish = true := by
  obtain ⟨part, partFound, rfl⟩ := Option.map_eq_some_iff.mp viewed
  have inside := conforms.child_conforms (show Schema.Exhibit.history ∈ _ by simp) partFound
  simp only [History.ofElement] at member
  split at member
  · next exhibitions listed =>
    have within := inside.child_conforms (show Schema.Exhibit.exhibitions ∈ _ by simp) listed
    obtain ⟨element, held, rfl⟩ := List.mem_map.mp member
    obtain ⟨child, named⟩ := List.mem_filter.mp held
    have own : Conforms Schema.Exhibit.exhibition element :=
      (conforms_complex_iff.mp within).2.2.2.2 element child Schema.Exhibit.exhibition (by simp)
        (beq_iff_eq.mp named).symm
    obtain ⟨start, startFound, startAccepted⟩ := own.exists_childText
      (show Declaration.simple "StartDate" .once .date ∈ _ by simp) (by decide)
    obtain ⟨finish, finishFound, finishAccepted⟩ := own.exists_childText
      (show Declaration.simple "EndDate" .once .date ∈ _ by simp) (by decide)
    refine ⟨start, finish, ?_, startAccepted, finishAccepted⟩
    rw [Exhibition.ofElement, startFound, finishFound]
  · cases member

/-- An acquisition whose date cannot be read is what the group of history reports. -/
theorem historyViolation_of_unread {now : Moment} {exhibit : Exhibit} {history : History}
    (viewed : exhibit.history = some history) {acquisition : Acquisition}
    (present : history.acquisition = some acquisition) {date : String}
    (found : acquisition.date = some date) (unread : written? date.toList = none) :
    historyViolation now exhibit = some (.badAcquisitionDate date) := by
  simp only [historyViolation, viewed, present, acquisitionViolation, found,
    acquisitionDateViolation, unread, Option.bind_some, Option.orElse_eq_orElse,
    Option.orElse_eq_or, Option.some_or]

/-- The order of an exhibition is checked exactly where both zones exist. -/
theorem exhibitionViolation_of_accepts {start finish : String}
    (startAccepted : ValueType.date.accepts start = true)
    (finishAccepted : ValueType.date.accepts finish = true) :
    ∃ first last,
      (Text.trim start.toList).take 10 = isoDay.write (.midnight first) ∧
      (Text.trim finish.toList).take 10 = isoDay.write (.midnight last) ∧
      ∀ number, exhibitionViolation number ⟨some start, some finish⟩ =
        if zoneExists (zoneOf start) ∧ zoneExists (zoneOf finish) ∧
            ¬ Moment.midnight first < Moment.midnight last then
          some (.exhibitionOrder number start finish)
        else none := by
  obtain ⟨first, firstWritten, firstRead⟩ := written?_of_accepts startAccepted
  obtain ⟨last, lastWritten, lastRead⟩ := written?_of_accepts finishAccepted
  refine ⟨first, last, firstWritten, lastWritten, fun number => ?_⟩
  simp only [exhibitionViolation, firstRead, lastRead]
  cases zoneExists (zoneOf start) <;> cases zoneExists (zoneOf finish) <;> simp

/-- The reader of written dates takes every text that the schema takes for a date and whose zone
exists, and denotes the midnight of the day as written.  In a record without structural errors the
acquisition is reported as unreadable exactly where its zone does not exist, and the order of an
exhibition is checked exactly where both its zones exist. -/
theorem dates_read_where_zones_exist (policy : NamespacePolicy) (now : Moment) (root : Element)
    (accepted : ∀ diagnostic ∈ Schema.exhibit.diagnostics policy root,
      diagnostic.isError = false) :
    (∀ value, ValueType.date.accepts value = true →
      ∃ day, (Text.trim value.toList).take 10 = isoDay.write (.midnight day) ∧
        written? value.toList =
          if zoneExists (zoneOf value) then some (.midnight day) else none) ∧
    (∀ date, RuleGroup.history.violation? now (Exhibit.ofElement root) =
        some (.badAcquisitionDate date) ↔
      zoneExists (zoneOf date) = false ∧
        ∃ history acquisition, (Exhibit.ofElement root).history = some history ∧
          history.acquisition = some acquisition ∧ acquisition.date = some date) ∧
    ∀ history, (Exhibit.ofElement root).history = some history →
      ∀ exhibition ∈ history.exhibitions, ∃ start finish first last,
        exhibition = ⟨some start, some finish⟩ ∧
        (Text.trim start.toList).take 10 = isoDay.write (.midnight first) ∧
        (Text.trim finish.toList).take 10 = isoDay.write (.midnight last) ∧
        (∀ number, exhibitionViolation number exhibition =
          if zoneExists (zoneOf start) ∧ zoneExists (zoneOf finish) ∧
              ¬ Moment.midnight first < Moment.midnight last then
            some (.exhibitionOrder number start finish)
          else none) ∧
        (RuleGroup.history.violation? now (Exhibit.ofElement root) = none →
          zoneExists (zoneOf start) = true → zoneExists (zoneOf finish) = true →
            Moment.midnight first < Moment.midnight last) := by
  have conforms : Conforms Schema.exhibit.root root :=
    ((tolerates_findings_iff exhibit_unambiguous (by decide)).mp
      (diagnostics_free_of_errors_iff_tolerates.mp accepted)).2.1
  refine ⟨fun value dated => written?_of_accepts dated, fun date => ⟨fun raised => ?_, ?_⟩, ?_⟩
  · obtain ⟨history, acquisition, viewed, present, found, unread⟩ :=
      acquisition_of_badAcquisitionDate raised
    refine ⟨?_, history, acquisition, viewed, present, found⟩
    obtain ⟨day, _, read⟩ := written?_of_accepts
      (accepts_acquisitionDate conforms viewed present found)
    cases zone : zoneExists (zoneOf date) with
    | false => rfl
    | true => simp [zone, unread] at read
  · rintro ⟨zone, history, acquisition, viewed, present, found⟩
    obtain ⟨day, _, read⟩ := written?_of_accepts
      (accepts_acquisitionDate conforms viewed present found)
    exact historyViolation_of_unread viewed present found (by simpa [zone] using read)
  · intro history viewed exhibition member
    obtain ⟨start, finish, rfl, startAccepted, finishAccepted⟩ :=
      exists_exhibitionDates conforms viewed member
    obtain ⟨first, last, firstWritten, lastWritten, checked⟩ :=
      exhibitionViolation_of_accepts startAccepted finishAccepted
    refine ⟨start, finish, first, last, rfl, firstWritten, lastWritten, checked, ?_⟩
    intro quiet startZone finishZone
    obtain ⟨own, silent⟩ :=
      exists_exhibitionViolation_eq_none (exhibitionsViolation_of_quiet quiet viewed) member
    rw [checked own] at silent
    by_contra unordered
    rw [if_pos ⟨startZone, finishZone, unordered⟩] at silent
    cases silent

/-- The sample record with a history. -/
def lentRecord (acquired start finish : String) : Element :=
  sampleRecord.appendChild (exhibitElement "History" [] ""
    [exhibitElement "Acquisition" [] ""
        [exhibitElement "Date" [] acquired [], exhibitElement "Method" [] "Purchase" [],
          exhibitElement "Source" [] "A dealer" []],
      exhibitElement "Exhibitions" [] ""
        [exhibitElement "Exhibition" [] ""
          [exhibitElement "Name" [] "Clay" [], exhibitElement "Location" [] "Hall" [],
            exhibitElement "StartDate" [] start [], exhibitElement "EndDate" [] finish []]]])

/-- Zones that exist do not keep the dates of a record from being read. -/
theorem lentRecord_dates_read :
    (∀ diagnostic ∈ Schema.exhibit.diagnostics .require
        (lentRecord "1995-03-15+02:00" "2001-05-01Z" "2001-09-30"),
      diagnostic.isError = false) ∧
    (∃ day, written? "1995-03-15+02:00".toList = some (.midnight day)) ∧
    ¬ RuleGroup.history.violation? (.midnight ⟨2024, 6, 1, by decide, by decide⟩)
        (Exhibit.ofElement (lentRecord "1995-03-15+02:00" "2001-05-01Z" "2001-09-30")) =
      some (.badAcquisitionDate "1995-03-15+02:00") := by
  have accepted : ∀ diagnostic ∈ Schema.exhibit.diagnostics .require
      (lentRecord "1995-03-15+02:00" "2001-05-01Z" "2001-09-30"), diagnostic.isError = false := by
    decide +kernel
  have known : zoneExists (zoneOf "1995-03-15+02:00") = true := by decide +kernel
  obtain ⟨values, acquired, _⟩ := dates_read_where_zones_exist .require
    (.midnight ⟨2024, 6, 1, by decide, by decide⟩) _ accepted
  obtain ⟨day, _, read⟩ := values "1995-03-15+02:00" (by decide +kernel)
  rw [if_pos known] at read
  refine ⟨accepted, ⟨day, read⟩, fun raised => ?_⟩
  have missing := ((acquired _).mp raised).1
  rw [known] at missing
  cases missing

/-- A zone of a day passes the schema and cannot be read: the acquisition is reported, and of an
exhibition that ends before it starts nothing is said. -/
theorem lentRecord_dates_unread :
    ValueType.date.accepts "2020-01-01+24:00" = true ∧
    written? "2020-01-01+24:00".toList = none ∧
    (∀ diagnostic ∈ Schema.exhibit.diagnostics .require
        (lentRecord "2020-01-01+24:00" "2020-01-01" "2020-01-02"), diagnostic.isError = false) ∧
    RuleGroup.history.violation? (.midnight ⟨2024, 6, 1, by decide, by decide⟩)
        (Exhibit.ofElement (lentRecord "2020-01-01+24:00" "2020-01-01" "2020-01-02")) =
      some (.badAcquisitionDate "2020-01-01+24:00") ∧
    (∀ diagnostic ∈ Schema.exhibit.diagnostics .require
        (lentRecord "2020-01-01" "2020-02-01+24:00" "2020-01-01+24:00"),
      diagnostic.isError = false) ∧
    RuleGroup.history.violation? (.midnight ⟨2024, 6, 1, by decide, by decide⟩)
        (Exhibit.ofElement (lentRecord "2020-01-01" "2020-02-01+24:00" "2020-01-01+24:00")) =
      none := by
  decide +kernel

end Rule
end MuseumRecord
