import Aa.Library.Machine
import Aa.Contracts.Records
import Aa.Memory.Projection

/-!
# The memory facade

The store, the projection and the typed repositories behind one entry point, with the
disk failing any access it makes.
-/

set_option linter.dupNamespace false

namespace Aa.Memory

open Aa.Library Aa.Contracts

variable {Data : Type} (codec : Codec Data)

/-- The errors the disk accesses of one write fail with: reading the object that is
changed, reading its revision, reading the record it would replace, and writing. -/
structure Disk where
  get : Option String := none
  revision : Option String := none
  existing : Option String := none
  write : Option String := none

/-- Builds a validated record, canonicalizing data and computing its hash. -/
def newRecord (kind id : String) (revision : ℤ) (data : Data) : Except String (Record Data) :=
  match V1.requireIdentifier "kind" kind with
  | .error message => .error message
  | .ok () =>
      match V1.requireIdentifier "id" id with
      | .error message => .error message
      | .ok () =>
          if revision < 0 then .error "revision: must be >= 0"
          else
            match codec.canonicalize data with
            | .error message => .error message
            | .ok canonical =>
                match codec.hashBytes canonical with
                | .error message => .error message
                | .ok hash =>
                    .ok { kind := kind, id := id, revision := revision, data := canonical
                          hash := hash }

namespace Store

/-- The text of `ErrNotFound`. -/
def notFound : String := "store: record not found"

/-- `PutRecord` on a disk that may fail. -/
def putRecordOn (disk : Disk) (store : Store Data) (record : Record Data) :
    Except String Bool × Store Data :=
  match record.validate codec with
  | .error message => (.error message, store)
  | .ok () =>
      match Layout.recordPath record.kind record.id with
      | .error message => (.error message, store)
      | .ok path =>
          match disk.existing with
          | some message => (.error message, store)
          | none =>
              let written : Except String Bool × Store Data :=
                match disk.write with
                | some message => (.error message, store)
                | none => (.ok true, { files := store.files.insert path (record.stored codec) })
              match store.files.lookup path with
              | some existing =>
                  if existing.hash = record.hash then (.ok false, store)
                  else if record.revision ≤ existing.revision then
                    (.error (staleMessage record existing), store)
                  else written
              | none => written

/-- `GetRecord` on a disk that may fail. -/
def getRecordOn (failure : Option String) (store : Store Data) (kind id : String) :
    Except String (Record Data) :=
  match Layout.recordPath kind id with
  | .error message => .error message
  | .ok path =>
      match failure with
      | some message => .error message
      | none =>
          match store.files.lookup path with
          | some record => .ok record
          | none => .error notFound

/-- The records of a kind, sorted by id. -/
def listRecords (failure : Option String) (store : Store Data) (kind : String) :
    Except String (List (Record Data)) :=
  match Layout.safeSegment "kind" kind with
  | .error message => .error message
  | .ok () =>
      match failure with
      | some message => .error message
      | none =>
          let files := store.files.entries.filter fun file =>
            (kind ++ "/").toList.isPrefixOf file.1.toList
          .ok ((files.map Sigma.snd).mergeSort fun left right => decide (left.id ≤ right.id))

end Store

/-- The append-only event log: its lines and the ids loaded from them. -/
structure EventLog (Data : Type) where
  lines : List Data := []
  seen : List String := []

/-- What the log reads of an event. -/
structure EventProbe where
  id : String := ""
  sequence : ℤ := 0

def decodeEventProbe : GoJson.Decoder EventProbe :=
  GoJson.struct "struct"
    [GoJson.field "id" GoJson.string (·.id) (fun probe value => { probe with id := value }),
      GoJson.field "sequence" GoJson.int (·.sequence)
        (fun probe value => { probe with sequence := value })]

/-- `json.Unmarshal` of data into an event probe. -/
def probeOf (data : Data) : Except String EventProbe :=
  (codec.unmarshal data).bind fun value => decodeEventProbe value {}

namespace EventLog

/-- The ids in the log, read from its lines unless some are loaded. -/
def loadSeen (failure : Option String) (log : EventLog Data) : Except String (List String) :=
  if log.seen ≠ [] then .ok log.seen
  else
    match failure with
    | some message => .error message
    | none =>
        match log.lines.mapM (probeOf codec) with
        | .error message => .error ("store: corrupt event log: " ++ message)
        | .ok probes => .ok (probes.map EventProbe.id)

/-- Appends a canonical event; an id that is in the log is ignored. -/
def append (disk : Disk) (log : EventLog Data) (event : Data) :
    Except String Bool × EventLog Data :=
  match codec.canonicalize event with
  | .error message => (.error message, log)
  | .ok canonical =>
      match probeOf codec canonical with
      | .error message => (.error message, log)
      | .ok probe =>
          if probe.id = "" then (.error "event.id: is required", log)
          else
            match log.loadSeen codec disk.existing with
            | .error message => (.error message, log)
            | .ok seen =>
                if probe.id ∈ seen then (.ok false, { log with seen := seen })
                else
                  match disk.write with
                  | some message => (.error message, { log with seen := seen })
                  | none =>
                      (.ok true, { lines := log.lines ++ [canonical], seen := probe.id :: seen })

end EventLog

/-- The canonical store, the projection, the manifest and the event log. -/
structure Memory (Data : Type) where
  store : Store Data
  projection : MemProjection Data
  manifest : Option Data := none
  events : EventLog Data := {}

/-! ## The typed repositories -/

/-- Stores a contract object and refreshes the projection. -/
def putTyped (disk : Disk) (memory : Memory Data) (kind id : String) (revision : ℤ)
    (value : Json) : Except String Bool × Memory Data :=
  match newRecord codec kind id revision (codec.marshal value) with
  | .error message => (.error message, memory)
  | .ok record =>
      match memory.store.putRecordOn codec disk record with
      | (.error message, store) => (.error message, { memory with store := store })
      | (.ok true, store) =>
          (.ok true,
            { memory with
              store := store
              projection := (memory.projection.put (fromRecord record)).2 })
      | (.ok false, store) => (.ok false, { memory with store := store })

/-- Reads and decodes a contract object. -/
def getTyped {α : Type} (decode : GoJson.Decoder α) (zero : α) (failure : Option String)
    (memory : Memory Data) (kind id : String) : Except String α :=
  match memory.store.getRecordOn failure kind id with
  | .error message => .error message
  | .ok record => (codec.unmarshal record.data).bind fun value => decode value zero

/-- The current record revision, or 0 if it cannot be read. -/
def revisionOf (failure : Option String) (memory : Memory Data) (kind id : String) : ℤ :=
  match memory.store.getRecordOn failure kind id with
  | .error _ => 0
  | .ok record => record.revision

namespace IssueRepository

/-- Validates and stores a new issue, assigning id and revision when absent. -/
def create (disk : Disk) (memory : Memory Data) (newID : String) (issue : V1.Issue) :
    Except String V1.Issue × Memory Data :=
  let issue : V1.Issue :=
    { issue with
      contractVersion := if issue.contractVersion = "" then V1.Version else issue.contractVersion
      kind := "issue"
      id := if issue.id = "" then newID else issue.id
      status := if issue.status = "" then "open" else issue.status
      revision := some 1 }
  match issue.validate with
  | .error message => (.error message, memory)
  | .ok () =>
      match putTyped codec disk memory "issue" issue.id 1 issue.toJson with
      | (.error message, memory) => (.error message, memory)
      | (.ok _, memory) => (.ok issue, memory)

/-- An issue by id. -/
def get (failure : Option String) (memory : Memory Data) (id : String) : Except String V1.Issue :=
  getTyped codec V1.decodeIssue {} failure memory "issue" id

/-- All issues, sorted by id. -/
def list (failure : Option String) (memory : Memory Data) : Except String (List V1.Issue) :=
  match memory.store.listRecords failure "issue" with
  | .error message => .error message
  | .ok records =>
      records.mapM fun record =>
        (codec.unmarshal record.data).bind fun value => V1.decodeIssue value {}

/-- Transitions an issue to a new status. -/
def setStatus (disk : Disk) (memory : Memory Data) (id status : String) :
    Except String V1.Issue × Memory Data :=
  match get codec disk.get memory id with
  | .error message => (.error message, memory)
  | .ok issue =>
      if issue.status = status then (.ok issue, memory)
      else
        match V1.validateIssueState status with
        | .error message => (.error ("issue " ++ id ++ ": " ++ message), memory)
        | .ok () =>
            let revision := revisionOf disk.revision memory "issue" id + 1
            let issue : V1.Issue := { issue with status := status, revision := some revision }
            match issue.validate with
            | .error message => (.error message, memory)
            | .ok () =>
                match putTyped codec disk memory "issue" issue.id revision issue.toJson with
                | (.error message, memory) => (.error message, memory)
                | (.ok _, memory) => (.ok issue, memory)

end IssueRepository

/-- The memory lifecycle state machine. -/
def transitions : String → List String
  | "EPHEMERAL" => ["CANDIDATE", "ARCHIVED"]
  | "CANDIDATE" => ["VALIDATED", "ARCHIVED"]
  | "VALIDATED" => ["ACTIVE", "ARCHIVED"]
  | "ACTIVE" => ["SUPERSEDED", "ARCHIVED"]
  | "SUPERSEDED" => ["ARCHIVED"]
  | _ => []

/-- Validates a lifecycle transition. -/
def checkTransition (source target : String) : Except String Unit :=
  if source = target then .ok ()
  else if target ∈ transitions source then .ok ()
  else .error ("memory: invalid lifecycle transition: " ++ source ++ " -> " ++ target)

namespace StrategyRepository

/-- Stores a new strategy in the CANDIDATE state. -/
def propose (disk : Disk) (memory : Memory Data) (newID : String) (strategy : V1.Strategy) :
    Except String V1.Strategy × Memory Data :=
  let strategy : V1.Strategy :=
    { strategy with
      contractVersion :=
        if strategy.contractVersion = "" then V1.Version else strategy.contractVersion
      kind := "strategy"
      id := if strategy.id = "" then newID else strategy.id
      lifecycle := if strategy.lifecycle = "" then "CANDIDATE" else strategy.lifecycle }
  if strategy.lifecycle ≠ "CANDIDATE" then
    (.error ("strategy: propose requires CANDIDATE lifecycle, got " ++ strategy.lifecycle), memory)
  else
    let strategy : V1.Strategy := { strategy with revision := some 1 }
    match strategy.validate with
    | .error message => (.error message, memory)
    | .ok () =>
        match putTyped codec disk memory "strategy" strategy.id 1 strategy.toJson with
        | (.error message, memory) => (.error message, memory)
        | (.ok _, memory) => (.ok strategy, memory)

/-- A strategy by id. -/
def get (failure : Option String) (memory : Memory Data) (id : String) :
    Except String V1.Strategy :=
  getTyped codec V1.decodeStrategy {} failure memory "strategy" id

/-- All strategies, sorted by id. -/
def list (failure : Option String) (memory : Memory Data) : Except String (List V1.Strategy) :=
  match memory.store.listRecords failure "strategy" with
  | .error message => .error message
  | .ok records =>
      records.mapM fun record =>
        (codec.unmarshal record.data).bind fun value => V1.decodeStrategy value {}

/-- The strategies in the ACTIVE lifecycle. -/
def listActive (failure : Option String) (memory : Memory Data) :
    Except String (List V1.Strategy) :=
  (list codec failure memory).map fun all => all.filter fun strategy => strategy.lifecycle = "ACTIVE"

/-- Applies a validated lifecycle transition. -/
def transition (disk : Disk) (memory : Memory Data) (id target : String) :
    Except String V1.Strategy × Memory Data :=
  match get codec disk.get memory id with
  | .error message => (.error message, memory)
  | .ok strategy =>
      match checkTransition strategy.lifecycle target with
      | .error message => (.error ("strategy " ++ id ++ ": " ++ message), memory)
      | .ok () =>
          if strategy.lifecycle = target then (.ok strategy, memory)
          else
            let revision := revisionOf disk.revision memory "strategy" id + 1
            let strategy : V1.Strategy :=
              { strategy with lifecycle := target, revision := some revision }
            match strategy.validate with
            | .error message => (.error message, memory)
            | .ok () =>
                match putTyped codec disk memory "strategy" strategy.id revision
                    strategy.toJson with
                | (.error message, memory) => (.error message, memory)
                | (.ok _, memory) => (.ok strategy, memory)

/-- Marks one strategy superseded and points the other at it. -/
def supersede (oldDisk newDisk : Disk) (memory : Memory Data) (oldID newID : String) :
    Except String Unit × Memory Data :=
  if oldID = newID then (.error "strategy: cannot supersede itself", memory)
  else
    match transition codec oldDisk memory oldID "SUPERSEDED" with
    | (.error message, memory) => (.error message, memory)
    | (.ok _, memory) =>
        match get codec newDisk.get memory newID with
        | .error message => (.error message, memory)
        | .ok next =>
            let revision := revisionOf newDisk.revision memory "strategy" newID + 1
            let next : V1.Strategy := { next with supersedes := oldID, revision := some revision }
            match next.validate with
            | .error message => (.error message, memory)
            | .ok () =>
                match putTyped codec newDisk memory "strategy" next.id revision next.toJson with
                | (.error message, memory) => (.error message, memory)
                | (.ok _, memory) => (.ok (), memory)

end StrategyRepository

/-! ## The facade -/

namespace Memory

/-- Discards and reconstructs the projection from canonical records. -/
def rebuild (failure : Option String) (memory : Memory Data) : Except String Unit × Memory Data :=
  match memory.projection.rebuild memory.store failure with
  | (outcome, projection) => (outcome, { memory with projection := projection })

/-- Prepares a memory over what is on the disk and rebuilds the projection. -/
def openAt (failure : Option String) (store : Store Data) (manifest : Option Data)
    (lines : List Data) : Except String (Memory Data) :=
  let memory : Memory Data :=
    { store := store, projection := {}, manifest := manifest, events := { lines := lines } }
  match memory.rebuild failure with
  | (.error message, _) => .error message
  | (.ok (), memory) => .ok memory

/-- Writes the project manifest once. -/
def initProject (disk : Disk) (memory : Memory Data) (manifest : Data) :
    Except String Bool × Memory Data :=
  match codec.canonicalize manifest with
  | .error message => (.error message, memory)
  | .ok canonical =>
      match memory.manifest, disk.write with
      | some _, _ => (.ok false, memory)
      | none, some message => (.error message, memory)
      | none, none => (.ok true, { memory with manifest := some canonical })

/-- Writes a canonical record. -/
def putRecord (disk : Disk) (memory : Memory Data) (record : Record Data) :
    Except String Bool × Memory Data :=
  match memory.store.putRecordOn codec disk record with
  | (outcome, store) => (outcome, { memory with store := store })

/-- Appends a canonical event. -/
def appendEvent (disk : Disk) (memory : Memory Data) (event : Data) :
    Except String Bool × Memory Data :=
  match memory.events.append codec disk event with
  | (outcome, events) => (outcome, { memory with events := events })

/-- The calls of the facade and its repositories, with what the disk does to them. -/
inductive Op (Data : Type) where
  | putRecord (disk : Disk) (record : Record Data)
  | createIssue (disk : Disk) (newID : String) (issue : V1.Issue)
  | getIssue (failure : Option String) (id : String)
  | listIssues (failure : Option String)
  | setStatus (disk : Disk) (id status : String)
  | propose (disk : Disk) (newID : String) (strategy : V1.Strategy)
  | getStrategy (failure : Option String) (id : String)
  | listStrategies (failure : Option String)
  | listActive (failure : Option String)
  | transition (disk : Disk) (id target : String)
  | supersede (oldDisk newDisk : Disk) (oldID newID : String)
  | initProject (disk : Disk) (manifest : Data)
  | appendEvent (disk : Disk) (event : Data)
  | rebuild (failure : Option String)

/-- What a call answers. -/
inductive Answer where
  | changed (flag : Bool)
  | issue (issue : V1.Issue)
  | issues (issues : List V1.Issue)
  | strategy (strategy : V1.Strategy)
  | strategies (strategies : List V1.Strategy)
  | done

/-- The memory after a call, and its answer or error. -/
def step (memory : Memory Data) : Op Data → Memory Data × Except String Answer
  | .putRecord disk record =>
      let (outcome, memory) := memory.putRecord codec disk record
      (memory, outcome.map .changed)
  | .createIssue disk newID issue =>
      let (outcome, memory) := IssueRepository.create codec disk memory newID issue
      (memory, outcome.map .issue)
  | .getIssue failure id => (memory, (IssueRepository.get codec failure memory id).map .issue)
  | .listIssues failure => (memory, (IssueRepository.list codec failure memory).map .issues)
  | .setStatus disk id status =>
      let (outcome, memory) := IssueRepository.setStatus codec disk memory id status
      (memory, outcome.map .issue)
  | .propose disk newID strategy =>
      let (outcome, memory) := StrategyRepository.propose codec disk memory newID strategy
      (memory, outcome.map .strategy)
  | .getStrategy failure id =>
      (memory, (StrategyRepository.get codec failure memory id).map .strategy)
  | .listStrategies failure =>
      (memory, (StrategyRepository.list codec failure memory).map .strategies)
  | .listActive failure =>
      (memory, (StrategyRepository.listActive codec failure memory).map .strategies)
  | .transition disk id target =>
      let (outcome, memory) := StrategyRepository.transition codec disk memory id target
      (memory, outcome.map .strategy)
  | .supersede oldDisk newDisk oldID newID =>
      let (outcome, memory) :=
        StrategyRepository.supersede codec oldDisk newDisk memory oldID newID
      (memory, outcome.map fun _ => .done)
  | .initProject disk manifest =>
      let (outcome, memory) := memory.initProject codec disk manifest
      (memory, outcome.map .changed)
  | .appendEvent disk event =>
      let (outcome, memory) := memory.appendEvent codec disk event
      (memory, outcome.map .changed)
  | .rebuild failure =>
      let (outcome, memory) := memory.rebuild failure
      (memory, outcome.map fun _ => .done)

/-- The facade as a machine that takes one call after another. -/
def machine : Machine (Memory Data) (Op Data) (Except String Answer) where
  step := step codec

end Memory

end Aa.Memory
