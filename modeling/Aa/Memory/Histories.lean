import Aa.Library.Each
import Aa.Memory.Query

/-!
# Histories depend on the set of events

Two logs whose retained events are the same, appended in any orders, give the same histories
if no two of the events have one sequence. In them every work package and every assignment
with an event stands exactly once, with the ids of its events in the order of their sequence
and with a state that the types of these events tell.
-/

namespace Aa.Memory.Query

open Aa.Library LineScanner EventFile

variable {codec : Codec Bytes}

/-! ## Reading the log -/

section Reading

variable {file other : EventFile} {records others : List EventRecord}

theorem readLines_probed {lines : List Bytes} (reads : readLines codec lines = .ok records) :
    ∀ record ∈ records,
      probeOf codec record.data = .ok { id := record.id, sequence := record.sequence } := by
  induction lines generalizing records with
  | nil =>
      cases reads
      simp
  | cons line rest ih =>
      rw [readLines] at reads
      split at reads
      · exact ih reads
      · cases isProbe : probeOf codec line with
        | error message =>
            rw [isProbe] at reads
            cases reads
        | ok probe =>
            simp only [isProbe] at reads
            cases isRest : readLines codec rest with
            | error message =>
                rw [isRest] at reads
                cases reads
            | ok later =>
                rw [isRest] at reads
                cases reads
                intro record isThere
                rcases List.mem_cons.mp isThere with rfl | isLater
                · exact isProbe
                · exact ih isRest record isLater

/-- What is read of the log was probed when it was read. -/
theorem events_probed (reads : file.events codec = .ok records) :
    ∀ record ∈ records,
      probeOf codec record.data = .ok { id := record.id, sequence := record.sequence } := by
  have all : ∀ all, file.allEvents codec = .ok all → ∀ record ∈ all,
      probeOf codec record.data = .ok { id := record.id, sequence := record.sequence } := by
    intro all readsAll
    rw [allEvents] at readsAll
    cases isLines : readLines codec (scan maxTokenSize file.log).1 with
    | error message =>
        simp only [isLines] at readsAll
        cases readsAll
    | ok events =>
        simp only [isLines] at readsAll
        split at readsAll
        · cases readsAll
        · cases readsAll
          exact readLines_probed isLines
  rw [events] at reads
  cases isAll : file.allEvents codec with
  | error message =>
      rw [isAll] at reads
      cases reads
  | ok events =>
      rw [isAll] at reads
      simp only at reads
      cases isFloor : file.retention with
      | error message =>
          rw [isFloor] at reads
          cases reads
      | ok floor =>
          simp only [isFloor] at reads
          split at reads
          · cases reads
            exact all _ isAll
          · cases reads
            exact fun record isThere => all _ isAll record (List.mem_filter.mp isThere).1

/-- A decoded event has the id and the sequence of its value. -/
theorem decodeEvent_parts {value : Json} {event : Event}
    (decodes : decodeEvent value {} = .ok event) :
    GoJson.struct "" [("id", GoJson.string)] value "" = .ok event.id ∧
      GoJson.struct "" [("sequence", GoJson.int)] value 0 = .ok event.sequence := by
  rw [decodeEvent] at decodes
  constructor
  · refine GoJson.struct_project Event.id (by decide) ?_ decodes
    simp only [eventFields, List.forall_mem_cons, List.not_mem_nil, false_implies, implies_true,
      and_true]
    and_intros
    all_goals first
      | exact .inr ⟨by decide, GoJson.keeps_field fun _ _ => rfl⟩
      | exact .inl ⟨rfl, fun _ _ _ => GoJson.decodes_of_field fun _ _ => rfl⟩
  · refine GoJson.struct_project Event.sequence (by decide) ?_ decodes
    simp only [eventFields, List.forall_mem_cons, List.not_mem_nil, false_implies, implies_true,
      and_true]
    and_intros
    all_goals first
      | exact .inr ⟨by decide, GoJson.keeps_field fun _ _ => rfl⟩
      | exact .inl ⟨rfl, fun _ _ _ => GoJson.decodes_of_field fun _ _ => rfl⟩

/-- So has a probe. -/
theorem decodeEventProbe_parts {value : Json} {probe : EventProbe}
    (decodes : decodeEventProbe value {} = .ok probe) :
    GoJson.struct "" [("id", GoJson.string)] value "" = .ok probe.id ∧
      GoJson.struct "" [("sequence", GoJson.int)] value 0 = .ok probe.sequence := by
  rw [decodeEventProbe] at decodes
  constructor
  · refine GoJson.struct_project EventProbe.id (by decide) ?_ decodes
    simp only [List.forall_mem_cons, List.not_mem_nil, false_implies, implies_true, and_true]
    exact ⟨.inl ⟨rfl, fun _ _ _ => GoJson.decodes_of_field fun _ _ => rfl⟩,
      .inr ⟨by decide, GoJson.keeps_field fun _ _ => rfl⟩⟩
  · refine GoJson.struct_project EventProbe.sequence (by decide) ?_ decodes
    simp only [List.forall_mem_cons, List.not_mem_nil, false_implies, implies_true, and_true]
    exact ⟨.inr ⟨by decide, GoJson.keeps_field fun _ _ => rfl⟩,
      .inl ⟨rfl, fun _ _ _ => GoJson.decodes_of_field fun _ _ => rfl⟩⟩

/-- A decoded event has the id and the sequence that the log read. -/
theorem eventOf_probed {record : EventRecord} {event : Event}
    (probed : probeOf codec record.data = .ok { id := record.id, sequence := record.sequence })
    (decodes : eventOf codec record = .ok event) :
    event.id = record.id ∧ event.sequence = record.sequence := by
  rw [eventOf] at decodes
  rw [probeOf] at probed
  cases isValue : codec.unmarshal record.data with
  | error message =>
      rw [isValue] at decodes
      cases decodes
  | ok value =>
      rw [isValue] at decodes probed
      rcases decodeEvent_parts decodes with ⟨eventId, eventSequence⟩
      rcases decodeEventProbe_parts probed with ⟨probeId, probeSequence⟩
      exact ⟨Except.ok.inj (eventId.symm.trans probeId),
        Except.ok.inj (eventSequence.symm.trans probeSequence)⟩

/-- The events that the entries of the log decode to, sorted by sequence. -/
structure InSequence (codec : Codec Bytes) (records : List EventRecord) (events : List Event) :
    Prop where
  decoded : (events.map Except.ok).Perm (records.map (eventOf codec))
  ids : (events.map fun event => (event.id, event.sequence)).Perm
    (records.map fun record => (record.id, record.sequence))
  ordered : events.Pairwise fun first second => first.sequence < second.sequence

/-- Two logs with the same retained events, in any orders, decode to the same sequence. -/
theorem decodedEvents_of_perm (reads : file.events codec = .ok records)
    (readsOther : other.events codec = .ok others) (sameEvents : others.Perm records)
    (decodable : ∀ record ∈ records, ∃ event, eventOf codec record = .ok event)
    (distinct : (records.map EventRecord.sequence).Nodup) :
    ∃ events, InSequence codec records events ∧ decodedEvents codec file = .ok events ∧
      decodedEvents codec other = .ok events := by
  let decoded (record : EventRecord) : Event := (eventOf codec record).toOption.getD {}
  have decodes : ∀ record ∈ records, eventOf codec record = .ok (decoded record) := by
    intro record isThere
    rcases decodable record isThere with ⟨event, isEvent⟩
    simp only [decoded, isEvent]
    rfl
  have sequences : (records.map decoded).map Event.sequence = records.map EventRecord.sequence := by
    rw [List.map_map]
    exact List.map_congr_left fun record isThere =>
      (eventOf_probed (events_probed reads record isThere) (decodes record isThere)).2
  have sorts : sortBy Event.sequence (others.map decoded) =
      sortBy Event.sequence (records.map decoded) :=
    sortBy_of_perm (sameEvents.map decoded) (by rwa [sequences])
  refine ⟨sortBy Event.sequence (records.map decoded), ⟨?_, ?_, ?_⟩, ?_, ?_⟩
  · refine ((sortBy_perm _).map Except.ok).trans ?_
    rw [List.map_map, List.map_congr_left decodes]
    rfl
  · refine ((sortBy_perm _).map _).trans ?_
    rw [List.map_map]
    refine List.Perm.of_eq (List.map_congr_left fun record isThere => ?_)
    rcases eventOf_probed (events_probed reads record isThere) (decodes record isThere) with
      ⟨isId, isSequence⟩
    rw [Function.comp_apply, isId, isSequence]
  · have nodup : ((sortBy Event.sequence (records.map decoded)).map Event.sequence).Nodup := by
      rw [((sortBy_perm _).map Event.sequence).nodup_iff, sequences]
      exact distinct
    exact (sortBy_sorted _).imp₂ (fun first second below apart => lt_of_le_of_ne below apart)
      (List.pairwise_map.mp nodup)
  · simp only [decodedEvents, reads, mapM_eq_map decodes]
    rfl
  · simp only [decodedEvents, readsOther,
      mapM_eq_map fun record isThere => decodes record (sameEvents.mem_iff.mp isThere)]
    rw [← sorts]
    rfl

/-- Events of new ids stand in the log in the order in which they are appended. -/
theorem holds_appends (plain : Plain codec) {journal : Journal} {events : List Bytes}
    (holds : Holds codec file journal)
    (made : List.Forall₂ (fun event record => Journal.recordOf codec event = .ok record)
      events records)
    (short : ∀ record ∈ records, record.data.length < maxTokenSize)
    (unique : (journal.ids ++ records.map EventRecord.id).Nodup) :
    Holds codec ((machine codec).run file (events.map EventFile.Call.appendEvent))
      { journal with records := journal.records ++ records } := by
  induction made generalizing file journal with
  | nil => simpa using holds
  | @cons event record events records isRecord made ih =>
      have isNew : record.id ∉ journal.ids := by
        intro isOld
        refine (List.nodup_append.mp unique).2.2 record.id isOld record.id ?_ rfl
        simp
      have fits : ¬ journal.Overlong codec event := by
        rintro ⟨same, isSame, -, isLong⟩
        rw [isRecord, Except.ok.injEq] at isSame
        have isShort := short record List.mem_cons_self
        rw [isSame] at isShort
        omega
      have appended := holds.append plain fits
      simp only [Journal.append, isRecord, isNew, if_false] at appended
      have rest := ih appended (fun later isLater => short later (List.mem_cons_of_mem _ isLater))
        (by simpa [Journal.ids] using unique)
      rw [← List.append_cons] at rest
      exact rest

end Reading

/-! ## The histories -/

/-- The events of an aggregate. -/
def eventsOf (kind : String) (events : List Event) (id : String) : List Event :=
  events.filter fun event => event.aggregate.kind = kind ∧ event.aggregate.id = id

/-- A history tells of each aggregate with an event exactly once, and of no other: the ids of its
events in order, and what the types of these tell. -/
structure Told {Entry Tale : Type} (own : String → List Event) (keyOf : Entry → String)
    (idsOf : Entry → List String) (taleOf : Entry → Tale) (tale : List String → Tale)
    (history : List Entry) : Prop where
  absent : ∀ key, own key = [] → history.filter (keyOf · = key) = []
  once : ∀ key, own key ≠ [] → ∃ entry, history.filter (keyOf · = key) = [entry] ∧
    idsOf entry = (own key).map Event.id ∧ taleOf entry = tale ((own key).map Event.type)

/-- What each entry of a history tells is what the events of its own aggregate tell. -/
theorem Told.tale_eq {Entry Tale : Type} {own : String → List Event} {keyOf : Entry → String}
    {idsOf : Entry → List String} {taleOf : Entry → Tale} {tale : List String → Tale}
    {history : List Entry} (told : Told own keyOf idsOf taleOf tale history) {entry : Entry}
    (isThere : entry ∈ history) : taleOf entry = tale ((own (keyOf entry)).map Event.type) := by
  have isOwn : entry ∈ history.filter (keyOf · = keyOf entry) := by simp [isThere]
  by_cases isNone : own (keyOf entry) = []
  · rw [told.absent _ isNone] at isOwn
    cases isOwn
  · rcases told.once _ isNone with ⟨other, isOther, -, isTale⟩
    rw [isOther, List.mem_singleton] at isOwn
    rw [isOwn] at isTale ⊢
    exact isTale

theorem own_eq_eventsOf {Summary : Type} {grouping : Grouping Event Summary String} {kind : String}
    (isKey : grouping.key = aggregateOf kind) (events : List Event) (id : String) :
    grouping.own events id = eventsOf kind events id := by
  rw [Grouping.own, eventsOf]
  refine List.filter_congr fun event _ => ?_
  rw [isKey, aggregateOf]
  by_cases isKind : event.aggregate.kind = kind
  · simp [isKind]
  · simp [isKind]

/-- The summaries of the aggregates of a kind tell of each of them. -/
theorem told_summaries {Entry Tale : Type} {grouping : Grouping Event Entry String} {kind : String}
    {keyOf : Entry → String} {idsOf : Entry → List String} {taleOf : Entry → Tale}
    {tale : List String → Tale} (isKey : grouping.key = aggregateOf kind)
    (starts : ∀ id, keyOf (grouping.start id) = id ∧ idsOf (grouping.start id) = [])
    (adds : ∀ entry event, keyOf (grouping.add entry event) = keyOf entry ∧
      idsOf (grouping.add entry event) = idsOf entry ++ [event.id])
    (tells : ∀ (own : List Event) id,
      taleOf (own.foldl grouping.add (grouping.start id)) = tale (own.map Event.type))
    (events : List Event) :
    Told (eventsOf kind events) keyOf idsOf taleOf tale (grouping.summaries keyOf events) := by
  have once (id : String) : (grouping.summaries keyOf events).filter (keyOf · = id) =
      if eventsOf kind events id = [] then [] else [grouping.summary events id] := by
    rw [← own_eq_eventsOf isKey]
    exact Grouping.filter_summaries (fun key => (starts key).1) fun entry event =>
      (adds entry event).1
  constructor
  · intro id isNone
    rw [once, if_pos isNone]
  · intro id isSome
    refine ⟨grouping.summary events id, by rw [once, if_neg isSome], ?_, ?_⟩
    · rw [Grouping.summary, own_eq_eventsOf isKey,
        foldl_ids (fun entry event => (adds entry event).2), (starts id).2, List.nil_append]
    · rw [Grouping.summary, own_eq_eventsOf isKey, tells]

/-- The work history of a list of events. -/
theorem told_work (events : List Event) :
    Told (eventsOf "work_package" events) WorkHistoryEntry.workPackageId WorkHistoryEntry.eventIds
      WorkHistoryEntry.state workStateOf
      (workGrouping.summaries WorkHistoryEntry.workPackageId events) := by
  refine told_summaries rfl (fun id => ⟨rfl, rfl⟩)
    (fun entry event => ⟨workPackageId_add entry event, work_eventIds_add entry event⟩) ?_ events
  intro own id
  refine (state_foldl _).trans ?_
  simp [workGrouping, workStateOf]

/-- The job history of a list of events. -/
theorem told_job (events : List Event) :
    Told (eventsOf "assignment" events) JobHistoryEntry.assignmentId JobHistoryEntry.eventIds
      JobHistoryEntry.outcome outcomeOf
      (jobGrouping.summaries JobHistoryEntry.assignmentId events) := by
  refine told_summaries rfl (fun id => ⟨rfl, rfl⟩)
    (fun entry event => ⟨assignmentId_add entry event, job_eventIds_add entry event⟩) ?_ events
  intro own id
  refine (outcome_foldl _).trans ?_
  simp [jobGrouping, outcomeOf]

/-- What the histories of two logs tell of the retained events: the same. -/
structure TellSame (codec : Codec Bytes) (file other : EventFile) (events : List Event) : Prop where
  work : ∃ history, workHistory codec file = .ok history ∧ workHistory codec other = .ok history ∧
    Told (eventsOf "work_package" events) WorkHistoryEntry.workPackageId WorkHistoryEntry.eventIds
      WorkHistoryEntry.state workStateOf history ∧
    ∀ entry ∈ history, ∀ event ∈ eventsOf "work_package" events entry.workPackageId,
      event.type = "WORK_PACKAGE_COMPLETED" → entry.state = .completed
  job : ∃ history, jobHistory codec file = .ok history ∧ jobHistory codec other = .ok history ∧
    Told (eventsOf "assignment" events) JobHistoryEntry.assignmentId JobHistoryEntry.eventIds
      JobHistoryEntry.outcome outcomeOf history
  project : ∃ history, projectHistory codec file = .ok history ∧
    projectHistory codec other = .ok history ∧
    history = (events.filter (·.aggregate.kind = "project")).map ProjectHistoryEntry.ofEvent

/-- However the events came into the log, as long as the same ones are retained, can be decoded
and have different sequences, the histories are the same, and tell of each aggregate what its
events in sequence tell. -/
theorem histories_of_retained {calls order : List EventFile.Call} {records others : List EventRecord}
    (reads : ((machine codec).run {} calls).events codec = .ok records)
    (readsOther : ((machine codec).run {} order).events codec = .ok others)
    (sameEvents : others.Perm records)
    (decodable : ∀ record ∈ records, ∃ event, eventOf codec record = .ok event)
    (distinct : (records.map EventRecord.sequence).Nodup) :
    ∃ events, InSequence codec records events ∧
      TellSame codec ((machine codec).run {} calls) ((machine codec).run {} order) events := by
  rcases decodedEvents_of_perm reads readsOther sameEvents decodable distinct with
    ⟨events, inSequence, isFile, isOther⟩
  refine ⟨events, inSequence, ⟨_, ?_, ?_, told_work events, ?_⟩, ⟨_, ?_, ?_, told_job events⟩,
    ⟨_, ?_, ?_, rfl⟩⟩
  · rw [workHistory, isFile]
    rfl
  · rw [workHistory, isOther]
    rfl
  · intro entry isThere event isOwn isCompleted
    have isType : "WORK_PACKAGE_COMPLETED" ∈
        (eventsOf "work_package" events entry.workPackageId).map Event.type :=
      List.mem_map.mpr ⟨event, isOwn, isCompleted⟩
    rw [(told_work events).tale_eq isThere, workStateOf, if_pos isType]
  · rw [jobHistory, isFile]
    rfl
  · rw [jobHistory, isOther]
    rfl
  · rw [projectHistory, isFile]
    rfl
  · rw [projectHistory, isOther]
    rfl

/-! ## Two events in two orders -/

/-- The fields of an event of a work package. -/
def workFields (id : String) (sequence : ℚ) (type : String) : Json.Object :=
  [("aggregate", .obj [("id", .str "wp_1"), ("kind", .str "work_package")]), ("id", .str id),
    ("sequence", .num sequence), ("type", .str type)]

def readyDocument : Bytes :=
  textBytes ("\x7b\"aggregate\":\x7b\"id\":\"wp_1\",\"kind\":\"work_package\"\x7d," ++
    "\"id\":\"evt_1\",\"sequence\":1,\"type\":\"WORK_PACKAGE_READY\"\x7d")

def completedDocument : Bytes :=
  textBytes ("\x7b\"aggregate\":\x7b\"id\":\"wp_1\",\"kind\":\"work_package\"\x7d," ++
    "\"id\":\"evt_2\",\"sequence\":2,\"type\":\"WORK_PACKAGE_COMPLETED\"\x7d")

/-- JSON as far as the two documents go. -/
def twoDocuments : Codec Bytes where
  unmarshal data :=
    if data = readyDocument then .ok (.obj (workFields "evt_1" 1 "WORK_PACKAGE_READY"))
    else if data = completedDocument then
      .ok (.obj (workFields "evt_2" 2 "WORK_PACKAGE_COMPLETED"))
    else .error "unexpected end of JSON input"
  marshal
    | .obj fields =>
        if Json.stringAt (some fields) "id" = some "evt_1" then readyDocument else completedDocument
    | _ => textBytes "null"
  compact data := data
  sha256Hex _ := ""

def readyRecord : EventRecord := { id := "evt_1", sequence := 1, data := readyDocument }

def completedRecord : EventRecord := { id := "evt_2", sequence := 2, data := completedDocument }

theorem insertionSort_workFields (id type : String) (sequence : ℚ) :
    (workFields id sequence type).insertionSort (fun left right => left.1 ≤ right.1) =
      workFields id sequence type := by
  apply List.Pairwise.insertionSort_eq
  simp only [workFields, List.pairwise_cons, List.mem_cons, forall_eq_or_imp, List.not_mem_nil,
    false_implies, implies_true, List.Pairwise.nil, and_true]
  decide +kernel

theorem decodeEventProbe_workFields (id type : String) (sequence : ℤ)
    (small : -9223372036854775808 ≤ sequence ∧ sequence ≤ 9223372036854775807) :
    decodeEventProbe (.obj (workFields id sequence type)) {} =
      .ok { id := id, sequence := sequence } := by
  simp only [decodeEventProbe, GoJson.struct, insertionSort_workFields]
  simp [workFields, GoJson.fieldFor, GoJson.field, GoJson.foldName, GoJson.foldChar, GoJson.string,
    GoJson.int, List.lookup_cons, Except.map, small]
  rfl

theorem decodeReference_workPackage :
    decodeReference (.obj [("id", .str "wp_1"), ("kind", .str "work_package")]) {} =
      .ok { kind := "work_package", id := "wp_1" } := by
  have sorted : ([("id", Json.str "wp_1"), ("kind", Json.str "work_package")] :
      Json.Object).insertionSort (fun left right => left.1 ≤ right.1) =
        [("id", .str "wp_1"), ("kind", .str "work_package")] := by
    apply List.Pairwise.insertionSort_eq
    simp only [List.pairwise_cons, List.mem_cons, forall_eq_or_imp, List.not_mem_nil,
      false_implies, implies_true, List.Pairwise.nil, and_true]
    decide +kernel
  simp only [decodeReference, GoJson.struct, sorted]
  simp [GoJson.fieldFor, GoJson.field, GoJson.string, List.lookup_cons, Except.map]
  rfl

theorem decodeEvent_workFields (id type : String) (sequence : ℤ)
    (small : -9223372036854775808 ≤ sequence ∧ sequence ≤ 9223372036854775807) :
    decodeEvent (.obj (workFields id sequence type)) {} =
      .ok {
        id := id
        sequence := sequence
        type := type
        aggregate := { kind := "work_package", id := "wp_1" } } := by
  simp only [decodeEvent, GoJson.struct, insertionSort_workFields]
  simp [workFields, eventFields, GoJson.fieldFor, GoJson.field, GoJson.string, GoJson.int,
    List.lookup_cons, Except.map, small, decodeReference_workPackage]
  rfl

theorem completedDocument_ne : completedDocument ≠ readyDocument := by decide +kernel

theorem unmarshal_ready : twoDocuments.unmarshal readyDocument =
    .ok (.obj (workFields "evt_1" 1 "WORK_PACKAGE_READY")) := by
  simp only [twoDocuments, if_true]

theorem unmarshal_completed : twoDocuments.unmarshal completedDocument =
    .ok (.obj (workFields "evt_2" 2 "WORK_PACKAGE_COMPLETED")) := by
  simp only [twoDocuments, completedDocument_ne, if_false, if_true]

theorem recordOf_ready : Journal.recordOf twoDocuments readyDocument = .ok readyRecord := by
  have isCanonical : twoDocuments.canonicalize readyDocument = .ok readyDocument := by
    rw [Codec.canonicalize, unmarshal_ready]
    rfl
  have isProbe : probeOf twoDocuments readyDocument = .ok { id := "evt_1", sequence := 1 } := by
    rw [probeOf, unmarshal_ready]
    exact decodeEventProbe_workFields "evt_1" "WORK_PACKAGE_READY" 1 (by decide)
  simp only [Journal.recordOf, isCanonical, isProbe]
  rfl

theorem recordOf_completed :
    Journal.recordOf twoDocuments completedDocument = .ok completedRecord := by
  have isCanonical : twoDocuments.canonicalize completedDocument = .ok completedDocument := by
    rw [Codec.canonicalize, unmarshal_completed]
    rfl
  have isProbe : probeOf twoDocuments completedDocument = .ok { id := "evt_2", sequence := 2 } := by
    rw [probeOf, unmarshal_completed]
    exact decodeEventProbe_workFields "evt_2" "WORK_PACKAGE_COMPLETED" 2 (by decide)
  simp only [Journal.recordOf, isCanonical, isProbe]
  rfl

theorem plain_twoDocuments : Plain twoDocuments := by
  have ready : Solid readyDocument ∧ readyDocument ≠ [] :=
    ⟨by unfold Solid; decide +kernel, by decide +kernel⟩
  have completed : Solid completedDocument ∧ completedDocument ≠ [] :=
    ⟨by unfold Solid; decide +kernel, by decide +kernel⟩
  have null : Solid (textBytes "null") ∧ textBytes "null" ≠ [] := by
    simp [textBytes, Solid, newline, carriageReturn]
  have both : ∀ value, Solid (twoDocuments.marshal value) ∧ twoDocuments.marshal value ≠ [] := by
    intro value
    cases value with
    | obj fields =>
        simp only [twoDocuments]
        split
        · exact ready
        · exact completed
    | _ => exact null
  exact ⟨fun value => (both value).1, fun value => (both value).2⟩

/-- The two events are read as they were appended. -/
theorem events_of_documents :
    ((machine twoDocuments).run {}
        [.appendEvent readyDocument, .appendEvent completedDocument]).events twoDocuments =
      .ok [readyRecord, completedRecord] ∧
    ((machine twoDocuments).run {}
        [.appendEvent completedDocument, .appendEvent readyDocument]).events twoDocuments =
      .ok [completedRecord, readyRecord] := by
  have readyShort : readyRecord.data.length < maxTokenSize := by decide +kernel
  have completedShort : completedRecord.data.length < maxTokenSize := by decide +kernel
  constructor
  · have holds := holds_appends plain_twoDocuments .empty
      (.cons recordOf_ready (.cons recordOf_completed .nil)) (by simp [readyShort, completedShort])
      (by simp [Journal.ids, readyRecord, completedRecord])
    exact holds.events
  · have holds := holds_appends plain_twoDocuments .empty
      (.cons recordOf_completed (.cons recordOf_ready .nil)) (by simp [readyShort, completedShort])
      (by simp [Journal.ids, readyRecord, completedRecord])
    exact holds.events

/-- The histories are the same in both orders. -/
theorem twoDocuments_retained : ∃ events,
    InSequence twoDocuments [readyRecord, completedRecord] events ∧
      TellSame twoDocuments
        ((machine twoDocuments).run {}
          [.appendEvent readyDocument, .appendEvent completedDocument])
        ((machine twoDocuments).run {}
          [.appendEvent completedDocument, .appendEvent readyDocument]) events := by
  refine histories_of_retained events_of_documents.1 events_of_documents.2 (List.Perm.swap _ _ _)
    ?_ (by simp [readyRecord, completedRecord])
  intro record isThere
  rcases List.mem_cons.mp isThere with rfl | isLast
  · rw [eventOf, readyRecord, unmarshal_ready]
    exact ⟨_, decodeEvent_workFields "evt_1" "WORK_PACKAGE_READY" 1 (by decide)⟩
  · rw [List.mem_singleton.mp isLast, eventOf, completedRecord, unmarshal_completed]
    exact ⟨_, decodeEvent_workFields "evt_2" "WORK_PACKAGE_COMPLETED" 2 (by decide)⟩

end Aa.Memory.Query
