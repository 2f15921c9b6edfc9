import Mathlib.Data.Rat.Defs
import Aa.Library.GoText
import Aa.Library.GoJson
import Aa.Library.GoTime

/-!
# Contract objects, version 1

The Go bindings of the contract schemas that the modelled services exchange, and
their validators. A validator returns the text of the first error it finds.
-/

namespace Aa.Contracts.V1

open Aa.Library

/-- The result of a validator. -/
abbrev Check := Except String Unit

/-- The length of a string in bytes. -/
def byteLength (value : String) : ℕ :=
  value.toList.foldl (fun length c => length + c.utf8Size) 0

def isIdentifierStart (c : Char) : Bool := c.isAlphanum

def isIdentifierChar (c : Char) : Bool :=
  c.isAlphanum || c == '_' || c == '.' || c == ':' || c == '@' || c == '+' || c == '-'

/-- `identifierRE`. -/
def matchesIdentifier (value : String) : Bool :=
  match value.toList with
  | [] => false
  | first :: rest => isIdentifierStart first && rest.all isIdentifierChar

/-- `versionRE`. -/
def matchesVersion (value : String) : Bool :=
  let major := value.toList.takeWhile Char.isDigit
  match value.toList.dropWhile Char.isDigit with
  | '.' :: minor => !major.isEmpty && !minor.isEmpty && minor.all Char.isDigit
  | _ => false

def requireIdentifier (field value : String) : Check :=
  if value = "" then .error (field ++ ": identifier is required")
  else if byteLength value > 256 ∨ matchesIdentifier value = false then
    .error (field ++ ": invalid identifier " ++ Go.quote value)
  else .ok ()

def optionalIdentifier (field value : String) : Check :=
  if value = "" then .ok () else requireIdentifier field value

def requireVersion (field value : String) : Check :=
  if matchesVersion value then .ok ()
  else .error (field ++ ": invalid contract version " ++ Go.quote value)

def requireTimestamp (field value : String) : Check :=
  if value = "" then .error (field ++ ": timestamp is required")
  else if GoTime.parsesRFC3339 value then .ok ()
  else .error (field ++ ": invalid timestamp " ++ Go.quote value)

def optionalTimestamp (field value : String) : Check :=
  if value = "" then .ok () else requireTimestamp field value

def requireEnum (field value : String) (allowed : List String) : Check :=
  if value ∈ allowed then .ok () else .error (field ++ ": invalid value " ++ Go.quote value)

def isLowerHex (c : Char) : Bool := c.isDigit || ('a' ≤ c && c ≤ 'f')

/-- A lowercase SHA-256 hex digest. -/
def requireHash (field value : String) : Check :=
  if value.toList.length = 64 ∧ value.toList.all isLowerHex then .ok ()
  else .error (field ++ ": invalid sha256 hash")

/-- Points at another contract object. -/
structure Reference where
  kind : String := ""
  id : String := ""
  version : String := ""

/-- Who produced or performed something. -/
structure Actor where
  kind : String := ""
  id : String := ""
  role : String := ""
  trade : String := ""
  workerId : String := ""
  model : String := ""

/-- Where a record came from. -/
structure Provenance where
  source : String := ""
  producedAt : String := ""
  producedBy : Option Actor := none
  confidence : String := ""
  evidence : List Reference := []
  contentHash : String := ""

/-- The shared header of contract objects. -/
structure Envelope where
  contractVersion : String := ""
  kind : String := ""
  id : String := ""
  projectId : String := ""
  createdAt : String := ""
  revision : Option ℤ := none
  provenance : Option Provenance := none

/-- Bounds an attempt or a workflow. -/
structure Budget where
  maxCalls : Option ℤ := none
  maxTokens : Option ℤ := none
  maxCostUSD : Option ℚ := none
  maxDurationSeconds : Option ℤ := none

def Reference.validate (reference : Reference) : Check := do
  requireIdentifier "reference.kind" reference.kind
  requireIdentifier "reference.id" reference.id

def Actor.validate (actor : Actor) : Check := do
  requireEnum "actor.kind" actor.kind ["human", "agent", "system", "service"]
  requireIdentifier "actor.id" actor.id

/-- The evidence entries from `index` on. -/
def validateEvidence (index : ℕ) : List Reference → Check
  | [] => .ok ()
  | reference :: rest =>
      match reference.validate with
      | .error message =>
          .error ("provenance.evidence[" ++ toString index ++ "]: " ++ message)
      | .ok () => validateEvidence (index + 1) rest

def Provenance.validate (provenance : Provenance) : Check := do
  requireIdentifier "provenance.source" provenance.source
  requireTimestamp "provenance.producedAt" provenance.producedAt
  if provenance.confidence ≠ "" then
    requireEnum "provenance.confidence" provenance.confidence
      ["exact", "correlated", "observed", "inferred"]
  if provenance.contentHash ≠ "" then
    requireHash "provenance.contentHash" provenance.contentHash
  match provenance.producedBy with
  | some actor => actor.validate
  | none => pure ()
  validateEvidence 0 provenance.evidence

def Envelope.validate (envelope : Envelope) : Check := do
  requireVersion "contractVersion" envelope.contractVersion
  requireIdentifier "kind" envelope.kind
  requireIdentifier "id" envelope.id
  optionalIdentifier "projectId" envelope.projectId
  optionalTimestamp "createdAt" envelope.createdAt
  match envelope.provenance with
  | some provenance => provenance.validate
  | none => pure ()

/-- A tool's isolation requirements. -/
structure SandboxSpec where
  required : Bool := false
  kind : String := ""
  network : Bool := false

/-- Declares a tool, plugin, or MCP server. -/
structure ToolManifest extends Envelope where
  name : String := ""
  toolKind : String := ""
  version : String := ""
  description : String := ""
  capabilities : List String := []
  permissions : List String := []
  inputSchema : Json.Object := []
  outputSchema : Json.Object := []
  sandbox : Option SandboxSpec := none
  endpoint : String := ""

def ToolManifest.validate (manifest : ToolManifest) : Check := do
  if manifest.kind ≠ "tool_manifest" then
    throw ("kind: expected \"tool_manifest\", got " ++ Go.quote manifest.kind)
  manifest.toEnvelope.validate
  if manifest.name = "" then throw "name: is required"
  requireEnum "toolKind" manifest.toolKind ["tool", "plugin", "mcp", "builtin"]
  if manifest.version = "" then throw "version: is required"
  if manifest.capabilities = [] then throw "capabilities: at least one is required"

/-- The capability vocabulary. -/
def capabilities : List String :=
  ["read_project", "write_workspace", "execute_command", "run_tests", "network_access",
    "install_dependencies", "call_model", "read_secrets", "create_artifact",
    "open_pull_request", "merge", "deploy"]

/-- The immutable, least-privilege authority for an attempt. -/
structure ExecutionContract extends Envelope where
  workPackageId : String := ""
  assignmentId : String := ""
  capabilities : List String := []
  denied : List String := []
  budget : Budget := {}
  gates : List String := []
  expiresAt : String := ""
  digest : String := ""

/-- One step in a workflow. -/
structure WorkflowStep where
  id : String := ""
  kind : String := ""
  role : String := ""
  trade : String := ""
  toolId : String := ""
  dependsOn : List String := []
  retries : Option ℤ := none
  gates : List String := []
  onFailure : String := ""
  config : Json.Object := []

/-- A declarative, resumable process definition. -/
structure Workflow extends Envelope where
  name : String := ""
  version : String := ""
  description : String := ""
  budget : Option Budget := none
  steps : List WorkflowStep := []

/-- The field path of a workflow step. -/
def stepField (index : ℕ) (field : String) : String :=
  "steps[" ++ toString index ++ "]." ++ field

/-- The steps from `index` on; `seen` holds the ids of the steps before. -/
def validateSteps (index : ℕ) (seen : List String) : List WorkflowStep → Check
  | [] => .ok ()
  | step :: rest => do
      requireIdentifier (stepField index "id") step.id
      if step.id ∈ seen then
        throw (stepField index "id" ++ ": duplicate id " ++ Go.quote step.id)
      requireEnum (stepField index "kind") step.kind
        ["task", "tool", "gate", "human_approval", "parallel", "conditional"]
      if step.onFailure ≠ "" then
        requireEnum (stepField index "onFailure") step.onFailure
          ["fail", "retry", "skip", "compensate"]
      validateSteps (index + 1) (step.id :: seen) rest

def Workflow.validate (workflow : Workflow) : Check := do
  if workflow.kind ≠ "workflow" then
    throw ("kind: expected \"workflow\", got " ++ Go.quote workflow.kind)
  workflow.toEnvelope.validate
  if workflow.version = "" then throw "version: is required"
  if workflow.steps = [] then throw "steps: at least one step is required"
  validateSteps 0 [] workflow.steps

end Aa.Contracts.V1
