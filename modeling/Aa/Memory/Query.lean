import Aa.Library.Grouping
import Aa.Memory.EventFile

/-!
# Histories from the event log

A query decodes the retained events, sorts them by sequence and derives from them a history
of the work packages, of the assignments and of the projects. Events of different sequences
sort the same in whatever order they were appended, and an entry of a history is made of the
events of its own aggregate in the order of their sequence.
-/

namespace Aa.Memory.Query

open Aa.Library LineScanner EventFile

/-- The kind and the id of an aggregate or an actor. -/
structure Reference where
  kind : String := ""
  id : String := ""

/-- The minimal event shape needed to derive histories. -/
structure Event where
  id : String := ""
  sequence : ℤ := 0
  type : String := ""
  occurredAt : String := ""
  projectId : String := ""
  aggregate : Reference := {}
  actor : Reference := {}
  payload : Json.Object := []

def decodeReference : GoJson.Decoder Reference :=
  GoJson.struct "struct"
    [GoJson.field "kind" GoJson.string (·.kind) (fun target value => { target with kind := value }),
      GoJson.field "id" GoJson.string (·.id) (fun target value => { target with id := value })]

/-- A `map[string]any`, whose new entries come before those that are there. -/
def decodePayload : GoJson.Decoder Json.Object
  | .null, _ => .ok []
  | .obj fields, target => .ok (fields ++ target)
  | value, _ => .error (GoJson.typeError value "map[string]interface {}")

/-- The fields of an event. -/
def eventFields : List (String × GoJson.Decoder Event) :=
  [GoJson.field "id" GoJson.string (·.id) (fun event value => { event with id := value }),
    GoJson.field "sequence" GoJson.int (·.sequence)
      (fun event value => { event with sequence := value }),
    GoJson.field "type" GoJson.string (·.type) (fun event value => { event with type := value }),
    GoJson.field "occurredAt" GoJson.string (·.occurredAt)
      (fun event value => { event with occurredAt := value }),
    GoJson.field "projectId" GoJson.string (·.projectId)
      (fun event value => { event with projectId := value }),
    GoJson.field "aggregate" decodeReference (·.aggregate)
      (fun event value => { event with aggregate := value }),
    GoJson.field "actor" decodeReference (·.actor) (fun event value => { event with actor := value }),
    GoJson.field "payload" decodePayload (·.payload)
      (fun event value => { event with payload := value })]

def decodeEvent : GoJson.Decoder Event := GoJson.struct "query.event" eventFields

variable (codec : Codec Bytes)

/-- `json.Unmarshal` of the data of an entry of the log. -/
def eventOf (record : EventRecord) : Except String Event :=
  (codec.unmarshal record.data).bind fun value => decodeEvent value {}

/-- The retained events in the order of their sequence. -/
def decodedEvents (file : EventFile) : Except String (List Event) :=
  match file.events codec with
  | .error message => .error message
  | .ok records => (records.mapM (eventOf codec)).map (sortBy Event.sequence)

/-! ## Work packages -/

/-- The state of a work package in its history. -/
inductive WorkState where
  | proposed
  | ready
  | completed
deriving DecidableEq

/-- A work package's lifecycle across events. -/
structure WorkHistoryEntry where
  workPackageId : String
  createdAt : String := ""
  readyAt : String := ""
  completedAt : String := ""
  state : WorkState
  eventIds : List String := []

/-- What an event of a work package changes in its entry. -/
def WorkHistoryEntry.add (before : WorkHistoryEntry) (event : Event) : WorkHistoryEntry :=
  let entry := { before with eventIds := before.eventIds ++ [event.id] }
  if event.type = "WORK_PACKAGE_CREATED" then { entry with createdAt := event.occurredAt }
  else if event.type = "WORK_PACKAGE_READY" then
    { entry with
      readyAt := event.occurredAt
      state := if entry.state = .proposed then .ready else entry.state }
  else if event.type = "WORK_PACKAGE_COMPLETED" then
    { entry with completedAt := event.occurredAt, state := .completed }
  else entry

/-- The id of the aggregate of an event, if it is of a kind. -/
def aggregateOf (kind : String) (event : Event) : Option String :=
  if event.aggregate.kind = kind then some event.aggregate.id else none

def workGrouping : Grouping Event WorkHistoryEntry String where
  key := aggregateOf "work_package"
  start id := { workPackageId := id, state := .proposed }
  add := WorkHistoryEntry.add

/-- A per-work-package lifecycle from events. -/
def workHistory (file : EventFile) : Except String (List WorkHistoryEntry) :=
  (decodedEvents codec file).map (workGrouping.summaries WorkHistoryEntry.workPackageId)

/-! ## Projects -/

/-- A project-level event in sequence order. -/
structure ProjectHistoryEntry where
  projectId : String
  eventId : String
  type : String
  sequence : ℤ
  occurredAt : String

/-- The entry of an event of a project. -/
def ProjectHistoryEntry.ofEvent (event : Event) : ProjectHistoryEntry :=
  { projectId := event.projectId
    eventId := event.id
    type := event.type
    sequence := event.sequence
    occurredAt := event.occurredAt }

/-- The events of projects in sequence order. -/
def projectHistory (file : EventFile) : Except String (List ProjectHistoryEntry) :=
  (decodedEvents codec file).map fun events =>
    (events.filter (·.aggregate.kind = "project")).map ProjectHistoryEntry.ofEvent

/-! ## Assignments -/

/-- The outcome of an assignment in its history. -/
inductive Outcome where
  | unknown
  | running
  | succeeded
  | failed
  | expired
deriving DecidableEq

/-- An assignment's execution span. -/
structure JobHistoryEntry where
  assignmentId : String
  workPackageId : String := ""
  startedAt : String := ""
  finishedAt : String := ""
  outcome : Outcome
  eventIds : List String := []

/-- The work package that a payload names, if it names one. -/
def namedWorkPackage (payload : Json.Object) : Option String :=
  (Json.stringAt (some payload) "workPackageId").filter (· ≠ "")

/-- The types of the events with which an execution starts. -/
def startTypes : List String := ["EXECUTION_STARTED", "EXECUTION_LEASED", "EXECUTION_PLANNED"]

/-- What an event of an assignment changes in its entry. -/
def JobHistoryEntry.add (before : JobHistoryEntry) (event : Event) : JobHistoryEntry :=
  let entry :=
    { before with
      workPackageId := (namedWorkPackage event.payload).getD before.workPackageId
      eventIds := before.eventIds ++ [event.id] }
  if event.type ∈ startTypes then
    { entry with
      startedAt := if entry.startedAt = "" then event.occurredAt else entry.startedAt
      outcome := if entry.outcome = .unknown then .running else entry.outcome }
  else if event.type = "EXECUTION_COMPLETED" then
    { entry with finishedAt := event.occurredAt, outcome := .succeeded }
  else if event.type = "EXECUTION_FAILED" then
    { entry with finishedAt := event.occurredAt, outcome := .failed }
  else if event.type = "EXECUTION_EXPIRED" then
    { entry with finishedAt := event.occurredAt, outcome := .expired }
  else entry

def jobGrouping : Grouping Event JobHistoryEntry String where
  key := aggregateOf "assignment"
  start id := { assignmentId := id, outcome := .unknown }
  add := JobHistoryEntry.add

/-- Per-assignment execution spans from events. -/
def jobHistory (file : EventFile) : Except String (List JobHistoryEntry) :=
  (decodedEvents codec file).map (jobGrouping.summaries JobHistoryEntry.assignmentId)

/-! ## What the entries tell -/

/-- The state that the types of a work package's events tell, in whatever order they come. -/
def workStateOf (types : List String) : WorkState :=
  if "WORK_PACKAGE_COMPLETED" ∈ types then .completed
  else if "WORK_PACKAGE_READY" ∈ types then .ready
  else .proposed

/-- The outcome with which an execution ends at an event. -/
def endOutcome (type : String) : Option Outcome :=
  if type = "EXECUTION_COMPLETED" then some .succeeded
  else if type = "EXECUTION_FAILED" then some .failed
  else if type = "EXECUTION_EXPIRED" then some .expired
  else none

/-- The outcome that the types of an assignment's events tell: that of the last end, or else
whether there is a start. -/
def outcomeOf (types : List String) : Outcome :=
  (types.filterMap endOutcome).getLast?.getD
    (if ∃ type ∈ types, type ∈ startTypes then .running else .unknown)

section Entries

variable {events : List Event}

@[simp]
theorem workPackageId_add (entry : WorkHistoryEntry) (event : Event) :
    (entry.add event).workPackageId = entry.workPackageId := by
  simp only [WorkHistoryEntry.add]
  split_ifs <;> rfl

@[simp]
theorem work_eventIds_add (entry : WorkHistoryEntry) (event : Event) :
    (entry.add event).eventIds = entry.eventIds ++ [event.id] := by
  simp only [WorkHistoryEntry.add]
  split_ifs <;> rfl

@[simp]
theorem assignmentId_add (entry : JobHistoryEntry) (event : Event) :
    (entry.add event).assignmentId = entry.assignmentId := by
  simp only [JobHistoryEntry.add]
  split_ifs <;> rfl

@[simp]
theorem job_eventIds_add (entry : JobHistoryEntry) (event : Event) :
    (entry.add event).eventIds = entry.eventIds ++ [event.id] := by
  simp only [JobHistoryEntry.add]
  split_ifs <;> rfl

/-- A list that every step extends by one item ends up extended by all of them. -/
theorem foldl_ids {Entry : Type} {idsOf : Entry → List String} {add : Entry → Event → Entry}
    (appends : ∀ entry event, idsOf (add entry event) = idsOf entry ++ [event.id])
    (entry : Entry) : idsOf (events.foldl add entry) = idsOf entry ++ events.map Event.id := by
  induction events generalizing entry with
  | nil => simp
  | cons event rest ih =>
      rw [List.foldl_cons, ih, appends, List.map_cons, List.append_assoc]
      rfl

/-- The state advances from proposed to ready, and to completed from any. -/
theorem state_add (entry : WorkHistoryEntry) (event : Event) :
    (entry.add event).state =
      if event.type = "WORK_PACKAGE_COMPLETED" then .completed
      else if event.type = "WORK_PACKAGE_READY" ∧ entry.state = .proposed then .ready
      else entry.state := by
  simp only [WorkHistoryEntry.add]
  by_cases isCreated : event.type = "WORK_PACKAGE_CREATED"
  · simp [isCreated]
  · by_cases isReady : event.type = "WORK_PACKAGE_READY"
    · simp [isReady]
    · by_cases isCompleted : event.type = "WORK_PACKAGE_COMPLETED"
      · simp [isCompleted]
      · simp [isCreated, isReady, isCompleted]

theorem state_foldl (entry : WorkHistoryEntry) :
    (events.foldl WorkHistoryEntry.add entry).state =
      if "WORK_PACKAGE_COMPLETED" ∈ events.map Event.type then .completed
      else if "WORK_PACKAGE_READY" ∈ events.map Event.type ∧ entry.state = .proposed then .ready
      else entry.state := by
  induction events generalizing entry with
  | nil => simp
  | cons event rest ih =>
      have flips : ∀ type, type = event.type ↔ event.type = type := fun _ => eq_comm
      rw [List.foldl_cons, ih, state_add]
      simp only [List.map_cons, List.mem_cons, flips]
      by_cases isCompleted : event.type = "WORK_PACKAGE_COMPLETED"
      · simp [isCompleted]
      · by_cases isReady : event.type = "WORK_PACKAGE_READY"
        · by_cases isProposed : entry.state = .proposed
          · simp [isReady, isProposed]
          · simp [isReady, isProposed]
        · simp [isCompleted, isReady]

/-- An end sets the outcome, and a start makes an unknown one running. -/
theorem outcome_add (entry : JobHistoryEntry) (event : Event) :
    (entry.add event).outcome = (endOutcome event.type).getD
      (if event.type ∈ startTypes ∧ entry.outcome = .unknown then .running else entry.outcome) := by
  simp only [JobHistoryEntry.add, endOutcome]
  by_cases isStart : event.type ∈ startTypes
  · have notEnd : endOutcome event.type = none := by
      simp only [startTypes, List.mem_cons, List.not_mem_nil, or_false] at isStart
      rcases isStart with isType | isType | isType <;> simp [endOutcome, isType]
    rw [endOutcome] at notEnd
    rw [notEnd]
    simp [isStart]
  · simp only [isStart, if_false, false_and]
    split_ifs <;> rfl

theorem endOutcome_ne_unknown (type : String) : endOutcome type ≠ some .unknown := by
  rw [endOutcome]
  split_ifs <;> simp

theorem outcome_foldl (entry : JobHistoryEntry) :
    (events.foldl JobHistoryEntry.add entry).outcome =
      ((events.map Event.type).filterMap endOutcome).getLast?.getD
        (if (∃ type ∈ events.map Event.type, type ∈ startTypes) ∧ entry.outcome = .unknown then
          .running
        else entry.outcome) := by
  induction events generalizing entry with
  | nil => simp
  | cons event rest ih =>
      rw [List.foldl_cons, ih, outcome_add, List.map_cons]
      cases isEnd : endOutcome event.type with
      | some outcome =>
          have known : outcome ≠ .unknown := by
            rintro rfl
            exact endOutcome_ne_unknown event.type isEnd
          rw [List.filterMap_cons_some isEnd, List.getLast?_cons]
          simp [known]
      | none =>
          rw [List.filterMap_cons_none isEnd]
          by_cases isStart : event.type ∈ startTypes
          · by_cases isUnknown : entry.outcome = .unknown
            · simp [isStart, isUnknown]
            · simp [isStart, isUnknown]
          · simp [isStart]

end Entries

end Aa.Memory.Query
