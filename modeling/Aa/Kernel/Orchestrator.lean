import Aa.Kernel.Authority
import Aa.Kernel.Control
import Aa.Kernel.Evidence
import Aa.Kernel.Plan
import Aa.Library.Machine

/-!
# The supervised control cycle

The orchestrator runs one project graph: ready, select worker, build contract, compile
context, lease, run, intake, gates, accept, telemetry. Execution goes through a runtime
adapter, whose reply is an input of the call that runs it, and is disabled unless
enabled. Sinks are an append-only list of events.
-/

namespace Aa.Kernel

open Aa.Library

/-- SHA-256 and the JSON Go writes for a contract and for the hashed part of a result. -/
structure Hashing where
  sha256Hex : String → String
  contractJSON : Contract → String
  resultJSON : Runtime.Result → String

/-- Configures the orchestrator. The clock gives the time of its n-th reading. -/
structure Config where
  registry : Registry
  gates : List Gate := []
  maxTokens : ℤ := 0
  permitted : List String := []
  enabled : Bool := false
  leaseTTL : ℤ := 0
  contextInputs : Option (String → List Context.Input) := none
  now : ℕ → ℤ
  hashing : Hashing

structure Event where
  sequence : ℕ
  eventType : String
  payload : List (String × String)

/-- Runs the control cycle over one project graph. -/
structure Orchestrator where
  graph : Plan.Graph
  config : Config
  intake : Intake.Service := ∅
  assignments : GoMap String Control.Assignment := ∅
  results : GoMap String Runtime.Result := ∅
  telemetryRecords : List Telemetry.Record := []
  learningCandidates : List Telemetry.Candidate := []
  sequence : ℕ := 0
  readings : ℕ := 0
  events : List Event := []

/-- The outcome of dispatching or resolving one unit. -/
structure DispatchReport where
  workPackageId : String
  workerId : String := ""
  state : String
  status : String
  gates : GateReport := {}
  intakeAccepted : Bool := false

/-- What a runtime adapter returns. -/
abbrev Reply := Except String Runtime.Result

def assignmentId (workPackageId : String) : String := "asg_" ++ workPackageId

def resultId (workPackageId : String) : String := "res_" ++ assignmentId workPackageId

def attemptId (assignmentId : String) : String := "att_" ++ assignmentId

/-- What a dispatch has put together when it runs the adapter. -/
structure Prepared where
  workPackageId : String
  worker : Worker
  assignment : Control.Assignment
  request : Runtime.Request

namespace Orchestrator

/-- Validates the graph and returns an orchestrator; the lease lasts a minute by default. -/
def new (graph : Plan.Graph) (config : Config) : Except String Orchestrator :=
  match graph.validate with
  | .error message => .error message
  | .ok () =>
      let ttl := if config.leaseTTL ≤ 0 then 60000000000 else config.leaseTTL
      .ok { graph := graph, config := { config with leaseTTL := ttl } }

def gateNames (gates : List Gate) : List String := Go.sortStrings (gates.map (·.name))

/-- The contract of a work package, granted from what the project permits. -/
def buildContract (orchestrator : Orchestrator) (wp : Plan.WorkPackage) :
    Except String Contract :=
  let hashing := orchestrator.config.hashing
  let assignment := assignmentId wp.id
  Contract.build (fun contract => hashing.sha256Hex (hashing.contractJSON contract))
    { id := "ec_" ++ assignment
      projectId := orchestrator.graph.projectId
      workPackageId := wp.id
      assignmentId := assignment
      requested := wp.capabilities
      permitted := orchestrator.config.permitted
      runtime := some { kind := "runtime" }
      gates := gateNames orchestrator.config.gates }

def selectWorker (orchestrator : Orchestrator) (wp : Plan.WorkPackage) : Option Worker :=
  orchestrator.config.registry.selectOne { trade := wp.trade, capabilities := wp.capabilities }

def compileContext (orchestrator : Orchestrator) (wp : Plan.WorkPackage) : Context.Bundle :=
  let inputs := (orchestrator.config.contextInputs.map fun inputs => inputs wp.id).getD []
  Context.compile orchestrator.config.hashing.sha256Hex orchestrator.config.maxTokens
    orchestrator.graph.projectId wp.id inputs

/-- A fresh assignment, taken through the states that precede a run. -/
def runningAssignment (projectId : String) (wp : Plan.WorkPackage) (worker : Worker) :
    Except Control.Error Control.Assignment :=
  [Control.State.leased, .preparing, .running].foldlM Control.Assignment.transition
    (.new (assignmentId wp.id) projectId wp.id worker.id)

/-- The part of a dispatch before it changes anything; none when no work is ready. -/
def prepare (orchestrator : Orchestrator) : Except String (Option Prepared) :=
  match orchestrator.graph.ready.head?.bind orchestrator.graph.get with
  | none => .ok none
  | some wp =>
      match orchestrator.selectWorker wp with
      | none => .error ("orchestrator: no eligible worker for " ++ wp.id)
      | some worker =>
          match orchestrator.buildContract wp with
          | .error message => .error message
          | .ok contract =>
              match runningAssignment orchestrator.graph.projectId wp worker with
              | .error error => .error error.message
              | .ok assignment =>
                  .ok (some
                    { workPackageId := wp.id
                      worker := worker
                      assignment := assignment.leaseFor worker.id
                        (orchestrator.config.now orchestrator.readings)
                        orchestrator.config.leaseTTL
                      request :=
                        { assignmentId := assignmentId wp.id
                          workPackageId := wp.id
                          contractId := contract.id
                          contractDigest := contract.digest
                          contextDigest := (orchestrator.compileContext wp).digest
                          capabilities := contract.capabilities } })

def emit (orchestrator : Orchestrator) (eventType : String) (payload : List (String × String)) :
    Orchestrator :=
  { orchestrator with
    sequence := orchestrator.sequence + 1
    events := orchestrator.events ++ [⟨orchestrator.sequence + 1, eventType, payload⟩] }

def setState (orchestrator : Orchestrator) (workPackageId : String) (state : Plan.State) :
    Orchestrator :=
  { orchestrator with graph := orchestrator.graph.setStateIgnoring workPackageId state }

/-- Records an assignment under its work package, in the state it has now. -/
def keep (orchestrator : Orchestrator) (workPackageId : String)
    (assignment : Control.Assignment) : Orchestrator :=
  { orchestrator with assignments := orchestrator.assignments.insert workPackageId assignment }

/-- Marks the work package as running, just before the adapter runs. -/
def start (orchestrator : Orchestrator) (prepared : Prepared) : Orchestrator :=
  ({ orchestrator with readings := orchestrator.readings + 1 }.setState
    prepared.workPackageId .running).emit "EXECUTION_STARTED"
      [("workPackageId", prepared.workPackageId),
        ("assignmentId", assignmentId prepared.workPackageId),
        ("workerId", prepared.worker.id)]

def subject (workPackageId : String) (result : Runtime.Result) : Subject :=
  { workPackageId := workPackageId
    status := result.status
    tests := result.tests.map fun test => ⟨test.name, test.outcome⟩ }

def recordTelemetry (orchestrator : Orchestrator) (assignment : Control.Assignment)
    (result : Runtime.Result) : Orchestrator :=
  let record : Telemetry.Record :=
    { attemptId := attemptId assignment.id
      assignmentId := assignment.id
      workPackageId := assignment.workPackageId
      outcome := result.status }
  let failed := (result.tests.filter (·.outcome ≠ "passed")).map (·.name)
  { orchestrator with
    telemetryRecords := orchestrator.telemetryRecords ++ [record]
    learningCandidates := orchestrator.learningCandidates ++ Telemetry.derive record failed }

def accept (orchestrator : Orchestrator) (workPackageId : String)
    (assignment : Control.Assignment) (report : GateReport) (accepted : Bool) :
    DispatchReport × Orchestrator :=
  let assignment := assignment.transitionIgnoring .accepted
  ({ workPackageId := assignment.workPackageId
     workerId := assignment.workerId
     state := assignment.state.text
     status := "succeeded"
     gates := report
     intakeAccepted := accepted },
    ((orchestrator.keep workPackageId assignment).setState assignment.workPackageId
      .completed).emit "WORK_ACCEPTED"
        [("workPackageId", assignment.workPackageId), ("assignmentId", assignment.id)])

/-- Fails an assignment and its work package. -/
def reject (orchestrator : Orchestrator) (workPackageId : String)
    (assignment : Control.Assignment) (report : GateReport) (accepted : Bool) :
    DispatchReport × Orchestrator :=
  let assignment := assignment.transitionIgnoring .failed
  ({ workPackageId := workPackageId
     workerId := assignment.workerId
     state := assignment.state.text
     status := "failed"
     gates := report
     intakeAccepted := accepted },
    (orchestrator.keep workPackageId assignment).setState workPackageId .deficient)

/-- The end of a dispatch or a resolution: the gates decide about an assignment that awaits
them. -/
def settle (orchestrator : Orchestrator) (workPackageId : String)
    (assignment : Control.Assignment) (report : GateReport) (onPass otherwise : Bool) :
    DispatchReport × Orchestrator :=
  if report.passed then orchestrator.accept workPackageId assignment report onPass
  else if report.pending then
    ({ workPackageId := workPackageId
       workerId := assignment.workerId
       state := assignment.state.text
       status := "pending"
       gates := report
       intakeAccepted := otherwise }, orchestrator)
  else orchestrator.reject workPackageId assignment report otherwise

def submission (workPackageId : String) (result : Runtime.Result) : Intake.Result :=
  { id := resultId workPackageId
    attemptId := attemptId (assignmentId workPackageId)
    assignmentId := assignmentId workPackageId
    workPackageId := workPackageId
    result := result }

/-- The end of a call that gives a report. -/
def reported (outcome : DispatchReport × Orchestrator) :
    Except String DispatchReport × Orchestrator := (.ok outcome.1, outcome.2)

/-- The part of a dispatch after the adapter has replied. -/
def conclude (orchestrator : Orchestrator) (prepared : Prepared) (reply : Reply) :
    Except String DispatchReport × Orchestrator :=
  let id := prepared.workPackageId
  match reply with
  | .error _ => reported (orchestrator.reject id prepared.assignment {} false)
  | .ok result =>
      match prepared.assignment.transition .collecting with
      | .error error => (.error error.message, orchestrator)
      | .ok assignment =>
          match Intake.submit (fun result => orchestrator.config.hashing.sha256Hex
              (orchestrator.config.hashing.resultJSON result))
              orchestrator.intake (submission id result) with
          | (.error error, intake) =>
              (.error error.message, { orchestrator with intake := intake })
          | (.ok accepted, intake) =>
              let recorded := ({ orchestrator with
                intake := intake
                results := orchestrator.results.insert id result }.keep id
                  assignment).recordTelemetry assignment result
              let report := evaluateGates recorded.config.gates (subject id result)
              if result.status ≠ "succeeded" ∧ result.status ≠ "partial" then
                reported (recorded.reject id assignment report accepted)
              else
                match assignment.transition .awaitingGates with
                | .error error => (.error error.message, recorded)
                | .ok assignment =>
                    reported ((recorded.keep id assignment).settle id assignment report
                      accepted accepted)

/-- The reply of the configured adapter: the disabled one unless execution is enabled. -/
def run (config : Config) (reply : Reply) : Reply :=
  if config.enabled then reply else .ok Runtime.disabled

/-- Runs the next ready work package if one exists; the adapter that runs returns `reply`. -/
def dispatch (orchestrator : Orchestrator) (reply : Reply) :
    Except String (Option DispatchReport) × Orchestrator :=
  match orchestrator.prepare with
  | .error message => (.error message, orchestrator)
  | .ok none => (.ok none, orchestrator)
  | .ok (some prepared) =>
      let concluded :=
        (orchestrator.start prepared).conclude prepared (run orchestrator.config reply)
      (concluded.1.map some, concluded.2)

/-- Re-evaluates the gates for a work package that is awaiting them. -/
def resolve (orchestrator : Orchestrator) (workPackageId : String) :
    Except String DispatchReport × Orchestrator :=
  match orchestrator.assignments.lookup workPackageId with
  | none => (.error ("orchestrator: unknown assignment for " ++ workPackageId), orchestrator)
  | some assignment =>
      if assignment.state ≠ .awaitingGates then
        (.error ("orchestrator: " ++ workPackageId ++ " is not awaiting gates"), orchestrator)
      else
        let result := (orchestrator.results.lookup workPackageId).getD { status := "" }
        let report := evaluateGates orchestrator.config.gates (subject workPackageId result)
        reported (orchestrator.settle workPackageId assignment report true false)

/-- Records human approval for a work package in every approver gate. -/
def approve (orchestrator : Orchestrator) (workPackageId : String) : Orchestrator :=
  { orchestrator with
    config := { orchestrator.config with
      gates := orchestrator.config.gates.map (·.approve workPackageId) } }

end Orchestrator

/-- A call on the orchestrator. -/
inductive Call where
  | dispatch (reply : Reply)
  | approve (workPackageId : String)
  | resolve (workPackageId : String)

/-- The orchestrator as a machine. -/
def machine : Machine Orchestrator Call (Except String (Option DispatchReport)) where
  step orchestrator
    | .dispatch reply =>
        let (report, next) := orchestrator.dispatch reply
        (next, report)
    | .approve workPackageId => (orchestrator.approve workPackageId, .ok none)
    | .resolve workPackageId =>
        let (report, next) := orchestrator.resolve workPackageId
        (next, report.map some)

end Aa.Kernel
