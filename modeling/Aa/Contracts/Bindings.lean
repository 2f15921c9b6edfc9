import Aa.Contracts.Events
import Aa.Contracts.Records
import Aa.Library.Checks

/-!
# The other contract objects

The Go bindings of the kinds of contract objects that are not modelled elsewhere, the
members that all kinds are marshalled to, and one type of them all.
-/

namespace Aa.Contracts.V1

open Aa.Library

/-! ## The objects -/

/-- Bounds what a work package may touch. -/
structure Scope where
  allowed : List String := []
  inspect : List String := []
  forbidden : List String := []

/-- A bounded, verifiable unit of engineering work. -/
structure WorkPackage extends Envelope where
  title : String := ""
  description : String := ""
  state : String := ""
  trade : String := ""
  role : String := ""
  dependencies : List String := []
  inputs : List Reference := []
  deliverables : List String := []
  acceptance : List String := []
  scope : Option Scope := none
  budget : Option Budget := none
  risk : String := ""

/-- One work package and its dependencies. -/
structure TaskGraphNode where
  workPackageId : String := ""
  dependsOn : List String := []
  readiness : String := ""

/-- A versioned dependency graph over work packages. -/
structure TaskGraph extends Envelope where
  nodes : List TaskGraphNode := []
  digest : String := ""

structure ResultArtifact where
  kind : String := ""
  id : String := ""
  hash : String := ""
  uri : String := ""

structure TestResult where
  name : String := ""
  outcome : String := ""
  durationMs : Option ℤ := none

/-- Why an attempt failed. -/
structure Failure where
  class_ : String := ""
  message : String := ""
  retryable : Option Bool := none

/-- The untrusted structured output of an attempt. -/
structure ResultEnvelope extends Envelope where
  attemptId : String := ""
  assignmentId : String := ""
  workPackageId : String := ""
  status : String := ""
  summary : String := ""
  artifacts : List ResultArtifact := []
  tests : List TestResult := []
  telemetryRef : Option Reference := none
  failure : Option Failure := none
  producedBy : Option Actor := none

structure CallCounts where
  total : Option ℤ := none
  locals : Option ℤ := none
  cloud : Option ℤ := none
  retries : Option ℤ := none

structure TokenCounts where
  input : Option ℤ := none
  output : Option ℤ := none

/-- Bounded execution evidence. -/
structure Telemetry extends Envelope where
  attemptId : String := ""
  assignmentId : String := ""
  metricVersion : String := ""
  outcome : String := ""
  calls : Option CallCounts := none
  tokens : Option TokenCounts := none
  costUsd : Option ℚ := none
  durationMs : Option ℤ := none
  resources : Json.Object := []
  versions : List (String × String) := []

/-- The canonical project manifest. -/
structure ProjectRecord extends Envelope where
  name : String := ""
  state : String := ""
  layoutVersion : String := ""
  authorityId : String := ""
  replicaIds : List String := []
  records : List Reference := []
  digest : String := ""

/-- Asks the sifter to route a prompt. -/
structure RouteRequest extends Envelope where
  attemptId : String := ""
  prompt : String := ""
  context : String := ""
  policy : String := ""
  budget : Option Budget := none
  metadata : Json.Object := []

/-- The sifter's routing decision. -/
structure RouteResponse extends Envelope where
  requestId : String := ""
  route : String := ""
  decisionLevel : String := ""
  plannerTier : String := ""
  executorTier : String := ""
  reviewTier : String := ""
  requiresHumanApproval : Bool := false
  blockedReason : String := ""
  estimatedCostUsd : Option ℚ := none
  reasons : List String := []

/-- Where an attempt runs. -/
structure RuntimeSpec where
  kind : String := ""
  provider : String := ""
  model : String := ""
  nodeId : String := ""

/-- The isolation of an attempt. -/
structure WorkspaceSpec where
  required : Bool := false
  kind : String := ""
  root : String := ""

/-- An event with the field that its validator does not read. -/
structure FullEvent extends Event where
  aggregateVersion : Option ℤ := none

/-- An execution contract with the fields that its validator does not read, and whether the
slice of its capabilities is nil. -/
structure FullExecutionContract extends ExecutionContract where
  runtime : Option RuntimeSpec := none
  workspace : Option WorkspaceSpec := none
  nilCapabilities : Bool := false
  noneOfNil : nilCapabilities = true → capabilities = []

/-! ## The validators -/

def validateWorkPackageState (state : String) : Check :=
  requireEnum "state" state
    ["PROPOSED", "READY", "QUEUED", "RUNNING", "COMPLETE", "VERIFYING", "VERIFIED", "DEFICIENT"]

def validateProjectState (state : String) : Check :=
  requireEnum "state" state
    ["CREATED", "DISCOVERY", "PLANNING", "EXECUTING", "VERIFYING", "COMPLETE", "BLOCKED", "FAILED",
      "CANCELLED", "PAUSED"]

def validateReadiness (readiness : String) : Check :=
  requireEnum "readiness" readiness ["blocked", "ready", "dispatched", "satisfied"]

/-- The field path of an item. -/
def itemField (field : String) (index : ℕ) : String := field ++ "[" ++ toString index ++ "]"

/-- The error of a check with what it is about in front. -/
def within (place : String) (check : Check) : Check :=
  check.mapError fun message => place ++ ": " ++ message

def requireDigest (digest : String) : Check :=
  if digest ≠ "" then requireHash "digest" digest else pure ()

def WorkPackage.validate (package : WorkPackage) : Check := do
  if package.kind ≠ "work_package" then
    throw ("kind: expected \"work_package\", got " ++ Go.quote package.kind)
  package.toEnvelope.validate
  if package.title = "" then throw "title: is required"
  validateWorkPackageState package.state
  if package.acceptance = [] then throw "acceptance: at least one criterion is required"
  Checks.each (fun index dependency => requireIdentifier (itemField "dependencies" index) dependency)
    0 package.dependencies
  Checks.each (fun index input => within (itemField "inputs" index) input.validate) 0 package.inputs
  if package.risk ≠ "" then
    requireEnum "risk" package.risk ["low", "moderate", "high", "critical"]

def TaskGraphNode.validate (index : ℕ) (node : TaskGraphNode) : Check := do
  requireIdentifier (itemField "nodes" index ++ ".workPackageId") node.workPackageId
  within (itemField "nodes" index) (validateReadiness node.readiness)
  Checks.each (fun position dependency =>
      requireIdentifier (itemField (itemField "nodes" index ++ ".dependsOn") position) dependency)
    0 node.dependsOn

def TaskGraph.validate (graph : TaskGraph) : Check := do
  if graph.kind ≠ "task_graph" then
    throw ("kind: expected \"task_graph\", got " ++ Go.quote graph.kind)
  graph.toEnvelope.validate
  requireIdentifier "projectId" graph.projectId
  if graph.revision.all fun revision => revision < 0 then
    throw "revision: is required and must be >= 0"
  if graph.nodes = [] then throw "nodes: at least one node is required"
  Checks.each TaskGraphNode.validate 0 graph.nodes
  requireDigest graph.digest

def ExecutionContract.validate (contract : ExecutionContract) : Check := do
  if contract.kind ≠ "execution_contract" then
    throw ("kind: expected \"execution_contract\", got " ++ Go.quote contract.kind)
  contract.toEnvelope.validate
  requireIdentifier "workPackageId" contract.workPackageId
  requireIdentifier "assignmentId" contract.assignmentId
  Checks.each (requireCapability "capabilities") 0 contract.capabilities
  Checks.each (requireCapability "denied") 0 contract.denied
  optionalTimestamp "expiresAt" contract.expiresAt
  requireDigest contract.digest
where
  requireCapability (field : String) (index : ℕ) (capability : String) : Check :=
    if capability ∈ V1.capabilities then .ok ()
    else .error (itemField field index ++ ": unknown capability " ++ Go.quote capability)

def ResultArtifact.validate (index : ℕ) (artifact : ResultArtifact) : Check := do
  requireIdentifier (itemField "artifacts" index ++ ".kind") artifact.kind
  requireIdentifier (itemField "artifacts" index ++ ".id") artifact.id
  if artifact.hash ≠ "" then requireHash (itemField "artifacts" index ++ ".hash") artifact.hash

def TestResult.validate (index : ℕ) (test : TestResult) : Check := do
  if test.name = "" then throw (itemField "tests" index ++ ".name: is required")
  requireEnum (itemField "tests" index ++ ".outcome") test.outcome
    ["passed", "failed", "skipped", "error"]

def ResultEnvelope.validate (result : ResultEnvelope) : Check := do
  if result.kind ≠ "result_envelope" then
    throw ("kind: expected \"result_envelope\", got " ++ Go.quote result.kind)
  result.toEnvelope.validate
  requireIdentifier "attemptId" result.attemptId
  requireIdentifier "assignmentId" result.assignmentId
  requireIdentifier "workPackageId" result.workPackageId
  requireEnum "status" result.status ["succeeded", "failed", "partial", "blocked", "cancelled"]
  Checks.each ResultArtifact.validate 0 result.artifacts
  Checks.each TestResult.validate 0 result.tests
  match result.telemetryRef with
  | some reference => reference.validate
  | none => pure ()
  match result.producedBy with
  | some actor => actor.validate
  | none => pure ()

def Telemetry.validate (telemetry : Telemetry) : Check := do
  if telemetry.kind ≠ "telemetry" then
    throw ("kind: expected \"telemetry\", got " ++ Go.quote telemetry.kind)
  telemetry.toEnvelope.validate
  requireIdentifier "attemptId" telemetry.attemptId
  if telemetry.metricVersion = "" then throw "metricVersion: is required"
  requireEnum "outcome" telemetry.outcome
    ["succeeded", "failed", "partial", "blocked", "cancelled", "unknown"]

def ProjectRecord.validate (project : ProjectRecord) : Check := do
  if project.kind ≠ "project_record" then
    throw ("kind: expected \"project_record\", got " ++ Go.quote project.kind)
  project.toEnvelope.validate
  if project.name = "" then throw "name: is required"
  validateProjectState project.state
  if project.layoutVersion = "" then throw "layoutVersion: is required"
  optionalIdentifier "authorityId" project.authorityId
  requireDigest project.digest

def routingPolicies : List String :=
  ["local_only", "cloud_only", "local_first", "expert_first", "adaptive", "budget_constrained"]

def RouteRequest.validate (request : RouteRequest) : Check := do
  if request.kind ≠ "route_request" then
    throw ("kind: expected \"route_request\", got " ++ Go.quote request.kind)
  request.toEnvelope.validate
  if request.prompt = "" then throw "prompt: is required"
  if request.policy ≠ "" then requireEnum "policy" request.policy routingPolicies
  optionalIdentifier "attemptId" request.attemptId

/-- A tier of a route response, if it is there. -/
def optionalTier (field tier : String) : Check :=
  if tier ≠ "" then requireEnum field tier ["local", "expert", "none"] else pure ()

/-- The tiers are members of a map, which may be visited in any order; here it is the written
one. -/
def RouteResponse.validate (response : RouteResponse) : Check := do
  if response.kind ≠ "route_response" then
    throw ("kind: expected \"route_response\", got " ++ Go.quote response.kind)
  response.toEnvelope.validate
  requireIdentifier "requestId" response.requestId
  requireEnum "route" response.route ["local", "hybrid", "cloud", "blocked"]
  requireEnum "decisionLevel" response.decisionLevel ["routine", "significant", "major", "critical"]
  optionalTier "plannerTier" response.plannerTier
  optionalTier "executorTier" response.executorTier
  optionalTier "reviewTier" response.reviewTier

/-! ## The members -/

/-- An integer member. -/
def intMember (name : String) (value : ℤ) : Json.Object := [(name, .num value)]

/-- A slice member without `omitempty`; a nil slice is null. -/
def sliceMember {α : Type} (name : String) (encode : α → Json) (items : List α)
    (isNil : Bool) : Json.Object :=
  [(name, if isNil then .null else .arr (items.map encode))]

/-- A boolean member marked `omitempty`. -/
def flagMember (name : String) (value : Bool) : Json.Object :=
  if value then [(name, .bool true)] else []

/-- A map member marked `omitempty`. -/
def mapMember (name : String) (entries : Json.Object) : Json.Object :=
  if entries.isEmpty then [] else [(name, .obj entries)]

def optionalInt (name : String) (value : Option ℤ) : Json.Object :=
  pointerMember name (fun value : ℤ => .num value) value

def optionalFloat (name : String) (value : Option ℚ) : Json.Object := pointerMember name .num value

def Budget.toJson (budget : Budget) : Json :=
  .obj (optionalInt "maxCalls" budget.maxCalls ++ optionalInt "maxTokens" budget.maxTokens ++
    optionalFloat "maxCostUsd" budget.maxCostUSD ++
    optionalInt "maxDurationSeconds" budget.maxDurationSeconds)

def FullEvent.toJson (event : FullEvent) : Json.Object :=
  event.toEnvelope.members ++ intMember "sequence" event.sequence ++
    member "occurredAt" event.occurredAt ++ optionalMember "recordedAt" event.recordedAt ++
    member "type" event.type ++
    [("aggregate", .obj (member "kind" event.aggregate.kind ++ member "id" event.aggregate.id ++
      optionalInt "version" event.aggregateVersion))] ++
    [("actor", event.actor.toJson)] ++ optionalMember "causationId" event.causationId ++
    optionalMember "correlationId" event.correlationId ++ mapMember "payload" event.payload

def Scope.toJson (scope : Scope) : Json :=
  .obj (listMember "allowed" .str scope.allowed ++ listMember "inspect" .str scope.inspect ++
    listMember "forbidden" .str scope.forbidden)

def WorkPackage.toJson (package : WorkPackage) : Json.Object :=
  package.toEnvelope.members ++ member "title" package.title ++
    optionalMember "description" package.description ++ member "state" package.state ++
    optionalMember "trade" package.trade ++ optionalMember "role" package.role ++
    listMember "dependencies" .str package.dependencies ++
    listMember "inputs" Reference.toJson package.inputs ++
    listMember "deliverables" .str package.deliverables ++
    sliceMember "acceptance" .str package.acceptance package.acceptance.isEmpty ++
    pointerMember "scope" Scope.toJson package.scope ++
    pointerMember "budget" Budget.toJson package.budget ++ optionalMember "risk" package.risk

def TaskGraphNode.toJson (node : TaskGraphNode) : Json :=
  .obj (member "workPackageId" node.workPackageId ++ listMember "dependsOn" .str node.dependsOn ++
    member "readiness" node.readiness)

def TaskGraph.toJson (graph : TaskGraph) : Json.Object :=
  graph.toEnvelope.members ++ sliceMember "nodes" TaskGraphNode.toJson graph.nodes graph.nodes.isEmpty ++
    optionalMember "digest" graph.digest

def RuntimeSpec.toJson (spec : RuntimeSpec) : Json :=
  .obj (member "kind" spec.kind ++ optionalMember "provider" spec.provider ++
    optionalMember "model" spec.model ++ optionalMember "nodeId" spec.nodeId)

def WorkspaceSpec.toJson (spec : WorkspaceSpec) : Json :=
  .obj (flagMember "required" spec.required ++ optionalMember "kind" spec.kind ++
    optionalMember "root" spec.root)

def FullExecutionContract.toJson (contract : FullExecutionContract) : Json.Object :=
  contract.toEnvelope.members ++ member "workPackageId" contract.workPackageId ++
    member "assignmentId" contract.assignmentId ++
    sliceMember "capabilities" .str contract.capabilities contract.nilCapabilities ++
    listMember "denied" .str contract.denied ++
    pointerMember "runtime" RuntimeSpec.toJson contract.runtime ++
    pointerMember "workspace" WorkspaceSpec.toJson contract.workspace ++
    [("budget", contract.budget.toJson)] ++ listMember "gates" .str contract.gates ++
    optionalMember "expiresAt" contract.expiresAt ++ optionalMember "digest" contract.digest

def ResultArtifact.toJson (artifact : ResultArtifact) : Json :=
  .obj (member "kind" artifact.kind ++ member "id" artifact.id ++
    optionalMember "hash" artifact.hash ++ optionalMember "uri" artifact.uri)

def TestResult.toJson (test : TestResult) : Json :=
  .obj (member "name" test.name ++ member "outcome" test.outcome ++
    optionalInt "durationMs" test.durationMs)

def Failure.toJson (failure : Failure) : Json :=
  .obj (optionalMember "class" failure.class_ ++ optionalMember "message" failure.message ++
    pointerMember "retryable" .bool failure.retryable)

def ResultEnvelope.toJson (result : ResultEnvelope) : Json.Object :=
  result.toEnvelope.members ++ member "attemptId" result.attemptId ++
    member "assignmentId" result.assignmentId ++ member "workPackageId" result.workPackageId ++
    member "status" result.status ++ optionalMember "summary" result.summary ++
    listMember "artifacts" ResultArtifact.toJson result.artifacts ++
    listMember "tests" TestResult.toJson result.tests ++
    pointerMember "telemetryRef" Reference.toJson result.telemetryRef ++
    pointerMember "failure" Failure.toJson result.failure ++
    pointerMember "producedBy" Actor.toJson result.producedBy

def CallCounts.toJson (calls : CallCounts) : Json :=
  .obj (optionalInt "total" calls.total ++ optionalInt "local" calls.locals ++
    optionalInt "cloud" calls.cloud ++ optionalInt "retries" calls.retries)

def TokenCounts.toJson (tokens : TokenCounts) : Json :=
  .obj (optionalInt "input" tokens.input ++ optionalInt "output" tokens.output)

def Telemetry.toJson (telemetry : Telemetry) : Json.Object :=
  telemetry.toEnvelope.members ++ member "attemptId" telemetry.attemptId ++
    optionalMember "assignmentId" telemetry.assignmentId ++
    member "metricVersion" telemetry.metricVersion ++ member "outcome" telemetry.outcome ++
    pointerMember "calls" CallCounts.toJson telemetry.calls ++
    pointerMember "tokens" TokenCounts.toJson telemetry.tokens ++
    optionalFloat "costUsd" telemetry.costUsd ++ optionalInt "durationMs" telemetry.durationMs ++
    mapMember "resources" telemetry.resources ++
    mapMember "versions" (telemetry.versions.map fun (name, version) => (name, .str version))

def ProjectRecord.toJson (project : ProjectRecord) : Json.Object :=
  project.toEnvelope.members ++ member "name" project.name ++ member "state" project.state ++
    member "layoutVersion" project.layoutVersion ++
    optionalMember "authorityId" project.authorityId ++
    listMember "replicaIds" .str project.replicaIds ++
    listMember "records" Reference.toJson project.records ++ optionalMember "digest" project.digest

def MemoryContent.toJson (content : MemoryContent) : Json :=
  .obj (member "summary" content.summary ++ optionalMember "details" content.details ++
    listMember "tags" .str content.tags)

def MemoryRecord.toJson (record : MemoryRecord) : Json.Object :=
  record.toEnvelope.members ++ member "level" record.level ++ member "lifecycle" record.lifecycle ++
    optionalMember "title" record.title ++ [("content", record.content.toJson)] ++
    pointerMember "applicability" Applicability.toJson record.applicability ++
    listMember "evidence" Reference.toJson record.evidence ++
    optionalFloat "confidence" record.confidence ++ optionalMember "supersedes" record.supersedes

def RouteRequest.toJson (request : RouteRequest) : Json.Object :=
  request.toEnvelope.members ++ optionalMember "attemptId" request.attemptId ++
    member "prompt" request.prompt ++ optionalMember "context" request.context ++
    optionalMember "policy" request.policy ++ pointerMember "budget" Budget.toJson request.budget ++
    mapMember "metadata" request.metadata

def RouteResponse.toJson (response : RouteResponse) : Json.Object :=
  response.toEnvelope.members ++ member "requestId" response.requestId ++
    member "route" response.route ++ member "decisionLevel" response.decisionLevel ++
    optionalMember "plannerTier" response.plannerTier ++
    optionalMember "executorTier" response.executorTier ++
    optionalMember "reviewTier" response.reviewTier ++
    [("requiresHumanApproval", .bool response.requiresHumanApproval)] ++
    optionalMember "blockedReason" response.blockedReason ++
    optionalFloat "estimatedCostUsd" response.estimatedCostUsd ++
    listMember "reasons" .str response.reasons

def SandboxSpec.toJson (sandbox : SandboxSpec) : Json :=
  .obj (flagMember "required" sandbox.required ++ optionalMember "kind" sandbox.kind ++
    flagMember "network" sandbox.network)

def ToolManifest.toJson (manifest : ToolManifest) : Json.Object :=
  manifest.toEnvelope.members ++ member "name" manifest.name ++ member "toolKind" manifest.toolKind ++
    member "version" manifest.version ++ optionalMember "description" manifest.description ++
    sliceMember "capabilities" .str manifest.capabilities manifest.capabilities.isEmpty ++
    listMember "permissions" .str manifest.permissions ++
    mapMember "inputSchema" manifest.inputSchema ++ mapMember "outputSchema" manifest.outputSchema ++
    pointerMember "sandbox" SandboxSpec.toJson manifest.sandbox ++
    optionalMember "endpoint" manifest.endpoint

def WorkflowStep.toJson (step : WorkflowStep) : Json :=
  .obj (member "id" step.id ++ member "kind" step.kind ++ optionalMember "role" step.role ++
    optionalMember "trade" step.trade ++ optionalMember "toolId" step.toolId ++
    listMember "dependsOn" .str step.dependsOn ++ optionalInt "retries" step.retries ++
    listMember "gates" .str step.gates ++ optionalMember "onFailure" step.onFailure ++
    mapMember "config" step.config)

def Workflow.toJson (workflow : Workflow) : Json.Object :=
  workflow.toEnvelope.members ++ optionalMember "name" workflow.name ++
    member "version" workflow.version ++ optionalMember "description" workflow.description ++
    pointerMember "budget" Budget.toJson workflow.budget ++
    sliceMember "steps" WorkflowStep.toJson workflow.steps workflow.steps.isEmpty

/-! ## One type of them all -/

/-- A contract object of one of the kinds. -/
inductive Contract
  | event (event : FullEvent)
  | workPackage (package : WorkPackage)
  | taskGraph (graph : TaskGraph)
  | executionContract (contract : FullExecutionContract)
  | resultEnvelope (result : ResultEnvelope)
  | telemetry (telemetry : Telemetry)
  | projectRecord (project : ProjectRecord)
  | memoryRecord (record : MemoryRecord)
  | issue (issue : Issue)
  | strategy (strategy : Strategy)
  | routeRequest (request : RouteRequest)
  | routeResponse (response : RouteResponse)
  | toolManifest (manifest : ToolManifest)
  | workflow (workflow : Workflow)

namespace Contract

def validate : Contract → Check
  | .event object => object.toEvent.validate
  | .workPackage object => object.validate
  | .taskGraph object => object.validate
  | .executionContract object => object.toExecutionContract.validate
  | .resultEnvelope object => object.validate
  | .telemetry object => object.validate
  | .projectRecord object => object.validate
  | .memoryRecord object => object.validate
  | .issue object => object.validate
  | .strategy object => object.validate
  | .routeRequest object => object.validate
  | .routeResponse object => object.validate
  | .toolManifest object => object.validate
  | .workflow object => object.validate

/-- The object that `json.Marshal` writes. -/
def marshal : Contract → Json
  | .event object => .obj object.toJson
  | .workPackage object => .obj object.toJson
  | .taskGraph object => .obj object.toJson
  | .executionContract object => .obj object.toJson
  | .resultEnvelope object => .obj object.toJson
  | .telemetry object => .obj object.toJson
  | .projectRecord object => .obj object.toJson
  | .memoryRecord object => .obj object.toJson
  | .issue object => object.toJson
  | .strategy object => object.toJson
  | .routeRequest object => .obj object.toJson
  | .routeResponse object => .obj object.toJson
  | .toolManifest object => .obj object.toJson
  | .workflow object => .obj object.toJson

end Contract

end Aa.Contracts.V1
