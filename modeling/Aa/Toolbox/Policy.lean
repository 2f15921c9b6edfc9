import Aa.Toolbox.Basic

/-!
# The policy engine

A grant is the intersection of the tool manifest's declared capabilities and the
caller's execution contract, minus any capability the contract denies. Required
sandboxing and network access fail closed. Every decision is appended to an ordered
audit log.
-/

namespace Aa.Toolbox

open Aa.Library

/-- The isolation outcome of one evaluation. -/
structure SandboxDecision where
  required : Bool := false
  kind : String := ""
  network : Bool := false
  allowed : Bool := false
  reason : String := ""

/-- The outcome of a policy evaluation. -/
structure Decision where
  allowed : Bool
  toolId : String
  granted : List String
  missing : List String
  denied : List String
  permissions : List String
  sandbox : SandboxDecision
  reason : String := ""

/-- One decision in the ordered audit log. -/
structure AuditEntry where
  seq : ℕ
  toolId : String
  contractId : String
  allowed : Bool
  granted : List String
  missing : List String
  denied : List String
  sandbox : String
  reason : String
  time : ℕ

/-- Evaluates manifest and contract intersections and records an audit log. The
enforcer says which isolation kinds can be enforced; the clock gives the time of the
engine's n-th reading. -/
structure Engine where
  enforcer : Option (String → Bool)
  clock : ℕ → ℕ
  seq : ℕ := 0
  log : List AuditEntry := []

namespace Engine

def evaluateSandbox (engine : Engine) (manifest : Manifest) (granted : List String) :
    SandboxDecision :=
  match manifest.sandbox with
  | none => { allowed := true }
  | some spec =>
      let kind := if spec.kind = "" then "none" else spec.kind
      let decision : SandboxDecision :=
        { required := spec.required, kind := kind, network := spec.network, allowed := true }
      if spec.network ∧ capNetworkAccess ∉ granted then
        { decision with
          allowed := false
          reason := "network access requires the network_access capability" }
      else if spec.required then
        if kind = "none" then
          { decision with
            allowed := false
            reason := "sandbox is required but no isolation kind was declared" }
        else if !(engine.enforcer.any fun canEnforce => canEnforce kind) then
          { decision with
            allowed := false
            reason := "sandbox kind " ++ kind ++ " cannot be enforced" }
        else decision
      else decision

def reason (decision : Decision) : String :=
  if decision.denied ≠ [] then "explicitly denied capability"
  else if decision.missing ≠ [] then "caller lacks a declared capability"
  else if !decision.sandbox.allowed then decision.sandbox.reason
  else ""

/-- The decision of `Evaluate`, without the audit entry it records. -/
def decide (engine : Engine) (manifest : Manifest) (contract : ExecutionContract) : Decision :=
  let denied := manifest.capabilities.filter (· ∈ contract.denied)
  let others := manifest.capabilities.filter (· ∉ contract.denied)
  let granted := others.filter (· ∈ contract.capabilities)
  let missing := others.filter (· ∉ contract.capabilities)
  let sandbox := engine.evaluateSandbox manifest contract.capabilities
  let decision : Decision :=
    { toolId := manifest.id
      granted := Go.sortStrings granted
      missing := Go.sortStrings missing
      denied := Go.sortStrings denied
      permissions := manifest.permissions
      sandbox := sandbox
      allowed := missing.isEmpty && denied.isEmpty && sandbox.allowed }
  { decision with reason := reason decision }

def record (engine : Engine) (decision : Decision) (contractId : String) : Engine :=
  let entry : AuditEntry :=
    { seq := engine.seq + 1
      toolId := decision.toolId
      contractId := contractId
      allowed := decision.allowed
      granted := decision.granted
      missing := decision.missing
      denied := decision.denied
      sandbox := decision.sandbox.kind
      reason := decision.reason
      time := engine.clock engine.seq }
  { engine with seq := engine.seq + 1, log := engine.log ++ [entry] }

/-- Intersects a manifest's capabilities with an execution contract and decides the
sandbox, appending the result to the audit log. -/
def evaluate (engine : Engine) (manifest : Manifest) (contract : ExecutionContract) :
    Decision × Engine :=
  let decision := engine.decide manifest contract
  (decision, engine.record decision contract.id)

end Engine

end Aa.Toolbox
