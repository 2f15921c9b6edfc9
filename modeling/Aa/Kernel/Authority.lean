import Mathlib.Data.Rat.Defs
import Aa.Library.GoText

/-!
# Workers, execution contracts and gates

What the control cycle grants and asks for: the worker that is selected for a work
package, the least-privilege contract it runs under, and the gates its result has to
pass. Hashing is a parameter: the JSON Go writes for a contract, and SHA-256.
-/

namespace Aa.Kernel

open Aa.Library

/-- An instantiation of a trade on a provider. -/
structure Worker where
  id : String
  trade : String
  roles : List String := []
  capabilities : List String := []
  available : Bool := false
  node : String := ""
  provider : String := ""
  costWeight : ℤ := 0
deriving DecidableEq

/-- What a work package needs. -/
structure Requirement where
  trade : String := ""
  roles : List String := []
  capabilities : List String := []

/-- An eligible worker with selection reasons. -/
structure Candidate where
  worker : Worker
  reasons : List String

/-- A worker that did not satisfy a requirement, with a reason. -/
structure Rejection where
  worker : Worker
  reason : String

/-- The worker instances, by id. -/
structure Registry where
  workers : GoMap String Worker := ∅

def hasAnyRole (held want : List String) : Bool := want.any fun role => role ∈ held

def missingCapabilities (held want : List String) : List String :=
  Go.sortStrings (want.filter (· ∉ held))

namespace Registry

def add (registry : Registry) (worker : Worker) : Except String Registry :=
  if worker.id = "" then .error "registry: worker id is required"
  else if (registry.workers.lookup worker.id).isSome then
    .error ("registry: duplicate worker: " ++ worker.id)
  else .ok { workers := registry.workers.insert worker.id worker }

/-- All workers sorted by id. -/
def list (registry : Registry) : List Worker :=
  (registry.workers.entries.map (·.2)).insertionSort fun left right => left.id ≤ right.id

/-- Why a worker does not satisfy a requirement, if it does not. -/
def rejection (requirement : Requirement) (worker : Worker) : Option String :=
  if !worker.available then some "unavailable"
  else if requirement.trade ≠ "" ∧ worker.trade ≠ requirement.trade then some "trade mismatch"
  else if requirement.roles ≠ [] ∧ hasAnyRole worker.roles requirement.roles = false then
    some "role mismatch"
  else
    let missing := missingCapabilities worker.capabilities requirement.capabilities
    if missing ≠ [] then some ("missing capabilities: " ++ Go.join "," missing) else none

/-- The order of preference: by cost weight, then by id. -/
def preferred (left right : Candidate) : Prop :=
  left.worker.costWeight < right.worker.costWeight ∨
    left.worker.costWeight = right.worker.costWeight ∧ left.worker.id ≤ right.worker.id

instance : DecidableRel preferred := fun _ _ => inferInstanceAs (Decidable (_ ∨ _))

/-- The eligible workers in order of preference, and the rejected ones and why. -/
def select (registry : Registry) (requirement : Requirement) :
    List Candidate × List Rejection :=
  let accepted := (registry.list.filter fun worker => (rejection requirement worker).isNone).map
    fun worker => { worker := worker, reasons := ["eligible"] }
  let rejected := registry.list.filterMap fun worker =>
    (rejection requirement worker).map fun reason => { worker := worker, reason := reason }
  (accepted.insertionSort preferred, rejected)

/-- The preferred eligible worker, if any. -/
def selectOne (registry : Registry) (requirement : Requirement) : Option Worker :=
  ((registry.select requirement).1.head?).map (·.worker)

end Registry

/-- The closed capability vocabulary. -/
def knownCapabilities : List String :=
  ["read_project", "write_workspace", "execute_command", "run_tests", "network_access",
    "install_dependencies", "call_model", "read_secrets", "create_artifact",
    "open_pull_request", "merge", "deploy"]

/-- Bounds an attempt. -/
structure Budget where
  maxCalls : Option ℤ := none
  maxTokens : Option ℤ := none
  maxCostUSD : Option ℚ := none
  maxDurationSeconds : Option ℤ := none

/-- Selects where an attempt runs. -/
structure RuntimeSpec where
  kind : String
  provider : String := ""
  model : String := ""
  nodeId : String := ""

/-- The immutable authority for an attempt. -/
structure Contract where
  id : String
  projectId : String
  workPackageId : String
  assignmentId : String
  capabilities : List String
  denied : List String
  runtime : Option RuntimeSpec
  budget : Budget
  gates : List String
  digest : String := ""

/-- Describes the desired contract. -/
structure ContractRequest where
  id : String
  projectId : String
  workPackageId : String
  assignmentId : String
  requested : List String
  permitted : List String
  budget : Budget := {}
  runtime : Option RuntimeSpec := none
  gates : List String := []

/-- The first occurrences of the non-empty values, sorted. -/
def sortedUnique (values : List String) : List String :=
  Go.sortStrings ((values.filter (· ≠ "")).dedup)

/-- Validates and constructs a contract; `computeDigest` hashes it without its digest. -/
def Contract.build (computeDigest : Contract → String) (request : ContractRequest) : Except String Contract :=
  if request.workPackageId = "" ∨ request.assignmentId = "" then
    .error "contract: workPackageId and assignmentId are required"
  else
    match (request.requested ++ request.permitted).find? (· ∉ knownCapabilities) with
    | some unknown => .error ("contract: unknown capability " ++ Go.quote unknown)
    | none =>
        let requested := sortedUnique request.requested
        let contract : Contract :=
          { id := request.id
            projectId := request.projectId
            workPackageId := request.workPackageId
            assignmentId := request.assignmentId
            capabilities := requested.filter (· ∈ request.permitted)
            denied := requested.filter (· ∉ request.permitted)
            runtime := request.runtime
            budget := request.budget
            gates := sortedUnique request.gates }
        .ok { contract with digest := computeDigest contract }

/-- A test outcome seen by a gate. -/
structure TestSummary where
  name : String
  outcome : String

/-- What gates evaluate. -/
structure Subject where
  workPackageId : String
  status : String
  tests : List TestSummary
  contractId : String := ""

/-- The outcome of one gate. -/
structure Decision where
  gate : String
  passed : Bool := false
  pending : Bool := false
  reason : String := ""

/-- A gate: its decision may depend on the work packages approved at it, when it takes
approvals, and it never mutates the subject. -/
structure Gate where
  name : String
  approver : Bool
  approved : List String := []
  decide : List String → Subject → Decision

/-- Requires at least one test, all passed. -/
def testsGate : Gate where
  name := "tests"
  approver := false
  decide _ subject :=
    if subject.tests.isEmpty then { gate := "tests", reason := "no tests reported" }
    else
      match subject.tests.find? (·.outcome ≠ "passed") with
      | some test => { gate := "tests", reason := "test did not pass: " ++ test.name }
      | none => { gate := "tests", passed := true, reason := "all tests passed" }

/-- Requires an explicit approval of the work package. -/
def humanGate : Gate where
  name := "human_review"
  approver := true
  decide approved subject :=
    if subject.workPackageId ∈ approved then
      { gate := "human_review", passed := true, reason := "approved" }
    else { gate := "human_review", pending := true, reason := "awaiting human approval" }

namespace Gate

/-- Records an approval at a gate that takes them. -/
def approve (gate : Gate) (workPackageId : String) : Gate :=
  if gate.approver then { gate with approved := workPackageId :: gate.approved } else gate

def evaluate (gate : Gate) (subject : Subject) : Decision := gate.decide gate.approved subject

end Gate

/-- The combined outcome of a set of gates. -/
structure GateReport where
  passed : Bool := false
  pending : Bool := false
  decisions : List Decision := []

/-- Runs gates by name (sorted) and reports the combined outcome. -/
def evaluateGates (gates : List Gate) (subject : Subject) : GateReport :=
  let sorted := gates.insertionSort fun left right => left.name ≤ right.name
  let decisions := sorted.map (·.evaluate subject)
  { passed := decisions.all fun decision => decision.passed && !decision.pending
    pending := decisions.any (·.pending)
    decisions := decisions }

end Aa.Kernel
