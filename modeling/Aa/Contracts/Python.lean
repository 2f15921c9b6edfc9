import Aa.Contracts.V1
import Aa.Library.Checks
import Aa.Library.PyObject

/-!
# The Python validator of contract objects

The Python bindings take a contract object as a dict of any shape. They look up the kind,
check the fields it requires and the enumerations it has, and then what is particular to
it. A value of the wrong shape may make them raise something else than the error they are
meant to raise.
-/

namespace Aa.Contracts.Python

open Aa.Library

/-- What a check raises: a `ValueError` of its own, or what an operation raises. -/
inductive Failure
  | invalid (message : String)
  | raised (exception : PyException)

abbrev Check := Except Failure Unit

def invalid (message : String) : Check := .error (.invalid message)

def raise (exception : PyException) : Check := .error (.raised exception)

variable (interpreter : PyInterpreter)

/-- An error that ends with the representation of a value. -/
def invalidValue (message : String) (value : PyValue) : Check :=
  match value.repr interpreter interpreter.depth with
  | .ok text => invalid (message ++ text)
  | .error error => raise (.conversion error)

/-- What Python's `$` also lets through is one newline at the end. -/
def matchesLine (pattern : String → Bool) (text : String) : Bool :=
  pattern text ||
    text.toList.getLast? == some '\n' && pattern (String.ofList text.toList.dropLast)

def identifier (field : String) (value : PyValue) : Check :=
  if value.truthy then
    match value with
    | .str text =>
        if 256 < text.length || !matchesLine V1.matchesIdentifier text then
          invalidValue interpreter (field ++ ": invalid identifier ") value
        else .ok ()
    | .arr items =>
        if 256 < items.length then
          invalidValue interpreter (field ++ ": invalid identifier ") value
        else raise .typeError
    | .obj members =>
        if 256 < members.length then
          invalidValue interpreter (field ++ ": invalid identifier ") value
        else raise .typeError
    | _ => raise .typeError
  else invalid (field ++ ": identifier is required")

def version (field : String) (value : PyValue) : Check :=
  match value with
  | .str text =>
      if matchesLine V1.matchesVersion text then .ok ()
      else invalidValue interpreter (field ++ ": invalid contract version ") value
  | _ => invalidValue interpreter (field ++ ": invalid contract version ") value

def enum (field : String) (value : PyValue) (allowed : List String) : Check :=
  match value with
  | .str text =>
      if text ∈ allowed then .ok ()
      else invalidValue interpreter (field ++ ": invalid value ") value
  | .arr _ | .obj _ => raise .typeError
  | _ => invalidValue interpreter (field ++ ": invalid value ") value

def required (field : String) (value : PyValue) : Check :=
  match value with
  | .null => invalid (field ++ ": is required")
  | .str text => if text = "" then invalid (field ++ ": is required") else .ok ()
  | _ => .ok ()

def matchesHash (text : String) : Bool :=
  text.toList.length == 64 && text.toList.all V1.isLowerHex

def optionalHash (field : String) (value : PyValue) : Check :=
  match value with
  | .null => .ok ()
  | .str text =>
      if matchesLine matchesHash text then .ok () else invalid (field ++ ": invalid sha256 hash")
  | _ => raise .typeError

/-! ## Operations on values -/

/-- `value.get(name)`. -/
def lookup (value : PyValue) (name : String) : Except Failure PyValue :=
  (value.getOr name .null).mapError .raised

/-- `members[name]`. -/
def subscript (members : List (String × PyValue)) (name : String) : Except Failure PyValue :=
  match members.lookup name with
  | some value => .ok value
  | none => .error (.raised .keyError)

/-- A loop over `enumerate(value or [])`. -/
def forEach (value : PyValue) (check : ℕ → PyValue → Check) : Check :=
  if value.truthy then
    match value.items with
    | .ok items => Checks.each check 0 items
    | .error exception => raise exception
  else .ok ()

/-- The number that a value is compared as. -/
def asNumber : PyValue → Option PyNumber
  | .bool value => some (.int (if value then 1 else 0))
  | .num number => some number
  | _ => none

def atLeast : PyNumber → ℚ → Bool
  | .int value, bound => bound ≤ value
  | .float (.finite double), bound => bound ≤ double.value
  | .float (.infinite negative), _ => !negative
  | .float .nan, _ => false

def atMost : PyNumber → ℚ → Bool
  | .int value, bound => value ≤ bound
  | .float (.finite double), bound => double.value ≤ bound
  | .float (.infinite negative), _ => negative
  | .float .nan, _ => false

def below : PyNumber → ℚ → Bool
  | .int value, bound => value < bound
  | .float (.finite double), bound => double.value < bound
  | .float (.infinite negative), _ => negative
  | .float .nan, _ => false

/-! ## What is particular to a kind -/

/-- The field path of an item. -/
def itemField (field : String) (index : ℕ) (part : String) : String :=
  field ++ "[" ++ toString index ++ "]" ++ part

def validateEvent (members : List (String × PyValue)) : Check := do
  let aggregate ← subscript members "aggregate"
  identifier interpreter "aggregate.id" (← lookup aggregate "id")
  enum interpreter "aggregate.kind" (← lookup aggregate "kind")
    ["project", "work_package", "assignment", "attempt", "artifact", "issue", "strategy", "memory",
      "tool", "workflow"]
  let actor ← subscript members "actor"
  enum interpreter "actor.kind" (← lookup actor "kind") ["human", "agent", "system", "service"]
  identifier interpreter "actor.id" (← lookup actor "id")

def validateWorkPackage (members : List (String × PyValue)) : Check :=
  if (PyValue.get members "acceptance").truthy then .ok ()
  else invalid "acceptance: at least one criterion is required"

def readinessStates : List String := ["blocked", "ready", "dispatched", "satisfied"]

def validateTaskGraph (members : List (String × PyValue)) : Check := do
  match asNumber (PyValue.member members "revision" (.num (.int (-1)))) with
  | none => raise .typeError
  | some number =>
      if below number 0 then invalid "revision: is required and must be >= 0" else .ok ()
  forEach (PyValue.get members "nodes") fun index node => do
    identifier interpreter (itemField "nodes" index ".workPackageId") (← lookup node "workPackageId")
    enum interpreter (itemField "nodes" index ".readiness") (← lookup node "readiness")
      readinessStates

def capabilities : List String :=
  ["read_project", "write_workspace", "execute_command", "run_tests", "network_access",
    "install_dependencies", "call_model", "read_secrets", "create_artifact", "open_pull_request",
    "merge", "deploy"]

def validateExecutionContract (members : List (String × PyValue)) : Check := do
  forEach (PyValue.get members "capabilities") fun index capability =>
    enum interpreter (itemField "capabilities" index "") capability capabilities
  forEach (PyValue.get members "denied") fun index capability =>
    enum interpreter (itemField "denied" index "") capability capabilities

def validateResult (members : List (String × PyValue)) : Check := do
  forEach (PyValue.get members "artifacts") fun index artifact => do
    optionalHash (itemField "artifacts" index ".hash") (← lookup artifact "hash")
  forEach (PyValue.get members "tests") fun index test => do
    enum interpreter (itemField "tests" index ".outcome") (← lookup test "outcome")
      ["passed", "failed", "skipped", "error"]

/-- `value is not None and not 0 <= value <= 1`. -/
def checkConfidence (value : PyValue) : Check :=
  match value with
  | .null => .ok ()
  | _ =>
      match asNumber value with
      | none => raise .typeError
      | some number =>
          if atLeast number 0 && atMost number 1 then .ok ()
          else invalid "confidence: must be between 0 and 1"

def validateMemoryRecord (members : List (String × PyValue)) : Check := do
  enum interpreter "level" (PyValue.get members "level")
    ["session", "task", "project", "role", "workforce"]
  let content := (PyValue.get members "content").orElse (.obj [])
  required "content.summary" (← lookup content "summary")
  checkConfidence (PyValue.get members "confidence")

def validateIssue (members : List (String × PyValue)) : Check :=
  enum interpreter "type" (PyValue.get members "type")
    ["feature", "user_story", "bug", "tech_debt", "refactor", "test", "documentation", "audit",
      "investigation", "deficiency"]

def routingPolicies : List String :=
  ["local_only", "cloud_only", "local_first", "expert_first", "adaptive", "budget_constrained"]

/-- An enumeration that a field has if it is there. -/
def optionalEnum (members : List (String × PyValue)) (field : String) (allowed : List String) :
    Check :=
  match PyValue.get members field with
  | .null => .ok ()
  | value => enum interpreter field value allowed

def validateRouteRequest (members : List (String × PyValue)) : Check := do
  required "prompt" (PyValue.get members "prompt")
  optionalEnum interpreter members "policy" routingPolicies

def routes : List String := ["local", "hybrid", "cloud", "blocked"]

def decisionLevels : List String := ["routine", "significant", "major", "critical"]

def validateRouteResponse (members : List (String × PyValue)) : Check := do
  required "requestId" (PyValue.get members "requestId")
  enum interpreter "route" (PyValue.get members "route") routes
  enum interpreter "decisionLevel" (PyValue.get members "decisionLevel") decisionLevels

def validateToolManifest (members : List (String × PyValue)) : Check := do
  enum interpreter "toolKind" (PyValue.get members "toolKind") ["tool", "plugin", "mcp", "builtin"]
  if (PyValue.get members "capabilities").truthy then .ok ()
  else invalid "capabilities: at least one is required"

/-- The steps from `index` on; `seen` holds the ids of the steps before. -/
def validateSteps (index : ℕ) (seen : List PyValue) : List PyValue → Check
  | [] => .ok ()
  | step :: rest => do
      let id ← lookup step "id"
      identifier interpreter (itemField "steps" index ".id") id
      -- An identifier that was accepted is a text.
      if seen.any (fun other => other.text? == id.text?) then
        invalidValue interpreter (itemField "steps" index ".id: duplicate id ") id
      else .ok ()
      enum interpreter (itemField "steps" index ".kind") (← lookup step "kind")
        ["task", "tool", "gate", "human_approval", "parallel", "conditional"]
      validateSteps (index + 1) (id :: seen) rest

def validateWorkflow (members : List (String × PyValue)) : Check := do
  required "version" (PyValue.get members "version")
  let steps := (PyValue.get members "steps").orElse (.arr [])
  if steps.truthy then .ok () else invalid "steps: at least one step is required"
  match steps.items with
  | .ok items => validateSteps interpreter 0 [] items
  | .error exception => raise exception

/-! ## The validator -/

def projectStates : List String :=
  ["CREATED", "DISCOVERY", "PLANNING", "EXECUTING", "VERIFYING", "COMPLETE", "BLOCKED", "FAILED",
    "CANCELLED", "PAUSED"]

def workPackageStates : List String :=
  ["PROPOSED", "READY", "QUEUED", "RUNNING", "COMPLETE", "VERIFYING", "VERIFIED", "DEFICIENT"]

def issueStates : List String :=
  ["open", "in_progress", "review", "closed", "deferred", "cancelled"]

def memoryLifecycles : List String :=
  ["EPHEMERAL", "CANDIDATE", "VALIDATED", "ACTIVE", "SUPERSEDED", "ARCHIVED"]

def eventTypes : List String :=
  ["PROJECT_REGISTERED", "PROJECT_UPDATED", "WORK_PACKAGE_CREATED", "WORK_PACKAGE_READY",
    "WORK_PACKAGE_COMPLETED", "DEPENDENCY_GRAPH_REVISED", "EXECUTION_PLANNED", "EXECUTION_LEASED",
    "EXECUTION_STARTED", "EXECUTION_PAUSED", "EXECUTION_RESUMED", "EXECUTION_COMPLETED",
    "EXECUTION_FAILED", "EXECUTION_EXPIRED", "RESULT_RECORDED", "TEST_RECORDED", "REVIEW_RECORDED",
    "HANDOFF_CREATED", "ARTIFACT_RECORDED", "WORK_ACCEPTED", "WORK_REJECTED", "DEFICIENCY_RAISED",
    "TELEMETRY_RECORDED", "MEMORY_CANDIDATE_CREATED", "MEMORY_VALIDATED", "MEMORY_PROMOTED",
    "MEMORY_SUPERSEDED", "MEMORY_ARCHIVED"]

/-- `_REQUIRED`, which also says which kinds there are. -/
def requiredFields : List (String × List String) :=
  [("event", ["sequence", "occurredAt", "type", "aggregate", "actor"]),
    ("work_package", ["title", "state", "acceptance"]),
    ("task_graph", ["projectId", "nodes", "revision"]),
    ("execution_contract", ["workPackageId", "assignmentId", "capabilities", "budget"]),
    ("result_envelope", ["attemptId", "assignmentId", "workPackageId", "status"]),
    ("telemetry", ["attemptId", "metricVersion", "outcome"]),
    ("project_record", ["name", "state", "layoutVersion"]),
    ("memory_record", ["level", "lifecycle", "content"]),
    ("issue", ["title", "type", "status"]),
    ("strategy", ["title", "lifecycle", "guidance"]),
    ("route_request", ["prompt"]),
    ("route_response", ["requestId", "route", "decisionLevel", "requiresHumanApproval"]),
    ("tool_manifest", ["name", "toolKind", "version", "capabilities"]),
    ("workflow", ["version", "steps"])]

/-- `_ENUMS`. -/
def enumFields : List (String × List (String × List String)) :=
  [("event", [("type", eventTypes)]),
    ("work_package",
      [("state", workPackageStates), ("risk", ["low", "moderate", "high", "critical"])]),
    ("execution_contract", []),
    ("result_envelope", [("status", ["succeeded", "failed", "partial", "blocked", "cancelled"])]),
    ("telemetry",
      [("outcome", ["succeeded", "failed", "partial", "blocked", "cancelled", "unknown"])]),
    ("project_record", [("state", projectStates)]),
    ("memory_record", [("lifecycle", memoryLifecycles)]),
    ("issue", [("status", issueStates), ("severity", ["P0", "P1", "P2", "P3", "none"])]),
    ("strategy", [("lifecycle", memoryLifecycles)]),
    ("route_response", [("route", routes), ("decisionLevel", decisionLevels)])]

/-- `_EXTRA`. -/
def extra (kind : String) : List (String × PyValue) → Check :=
  match kind with
  | "event" => validateEvent interpreter
  | "work_package" => validateWorkPackage
  | "task_graph" => validateTaskGraph interpreter
  | "execution_contract" => validateExecutionContract interpreter
  | "result_envelope" => validateResult interpreter
  | "memory_record" => validateMemoryRecord interpreter
  | "issue" => validateIssue interpreter
  | "route_request" => validateRouteRequest interpreter
  | "route_response" => validateRouteResponse interpreter
  | "tool_manifest" => validateToolManifest interpreter
  | "workflow" => validateWorkflow interpreter
  | _ => fun _ => .ok ()

/-- The checks of an object of a known kind. -/
def validateKind (kind : String) (fields : List String) (members : List (String × PyValue)) :
    Check := do
  version interpreter "contractVersion" (PyValue.get members "contractVersion")
  identifier interpreter "id" (PyValue.get members "id")
  Checks.each (fun _ field => required field (PyValue.get members field)) 0 fields
  Checks.each (fun _ (field, allowed) => optionalEnum interpreter members field allowed) 0
    ((enumFields.lookup kind).getD [])
  extra interpreter kind members

def validate (data : PyValue) : Check :=
  match data with
  | .obj members =>
      match PyValue.get members "kind" with
      | .str kind =>
          match requiredFields.lookup kind with
          | some fields => validateKind interpreter kind fields members
          | none => invalidValue interpreter "kind: unknown contract kind " (.str kind)
      | .arr _ | .obj _ => raise .typeError
      | value => invalidValue interpreter "kind: unknown contract kind " value
  | _ => invalid "contract object must be a mapping"

end Aa.Contracts.Python
