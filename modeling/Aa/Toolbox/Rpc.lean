import Aa.Contracts.Rpc
import Aa.Library.Machine
import Aa.Toolbox.Host
import Aa.Toolbox.Workflow.Compile
import Aa.Toolbox.Workflow.Decode

/-!
# The toolbox RPC service

The adapter of the toolbox to inter-module RPC version 1: its methods, which resolve
the execution contract a request names at the callee, and the codes of its errors.
-/

namespace Aa.Toolbox.Rpc

open Aa.Library Aa.Contracts Aa.Contracts.Rpc

def methodInvoke : String := "toolbox.invoke"
def methodCompileWorkflow : String := "toolbox.compileWorkflow"
def methodRegistry : String := "toolbox.registry"

/-- The result object of a method. -/
inductive RpcResult where
  | output (output : Json.Object)
  | plan (plan : Workflow.Plan)
  | tools (tools : List Manifest)

/-- What the methods work on: the invocation host and the contract resolver. -/
structure Callee where
  host : Host
  contracts : Option (String → Option ExecutionContract)

abbrev Service := Contracts.Rpc.Service Callee RpcResult

/-- A service over an invocation host and a contract resolver. -/
def new (host : Host) (contracts : Option (String → Option ExecutionContract)) : Service :=
  { state := { host := host, contracts := contracts } }

def errorFrom (error : Error) : RpcError :=
  if error.is .invalid ∨ error.is .cycle then ⟨codeInvalidParams, error.message⟩
  else if error.is .notFound then ⟨codeNotFound, error.message⟩
  else if error.is .denied ∨ error.is .sandbox ∨ error.is .approval then
    ⟨codeUnauthorized, error.message⟩
  else if error.is .noProvider then ⟨codeUnavailable, error.message⟩
  else ⟨codeInternalError, error.message⟩

def stringField (params : Option Json.Object) (field : String) : Except Error String :=
  requiredString (.wrap .invalid) params field

/-- The input object of an invocation: absent or null is the empty object. -/
def inputField (params : Option Json.Object) : Except Error Json.Object :=
  match (params.getD []).lookup "input" with
  | none => .ok []
  | some .null => .ok []
  | some (.obj input) => .ok input
  | some _ => .error (.wrap .invalid "input must be an object")

/-- The contract a request names, resolved at the callee. -/
def resolveContract (callee : Callee) (request : Request) :
    Except Error (String × ExecutionContract) :=
  let contractId := (Json.stringAt request.params "executionContractId").getD ""
  if contractId = "" then .error (.wrap .invalid "executionContractId is required")
  else
    match callee.contracts with
    | none =>
        .error (.wrap .denied ("no execution contract for " ++ Go.quote contractId))
    | some resolve =>
        match resolve contractId with
        | none => .error (.wrap .notFound ("execution contract " ++ Go.quote contractId))
        | some contract => .ok (contractId, contract)

/-- Invokes a tool; a provider that runs returns `reply`. -/
def invoke (callee : Callee) (request : Request) (reply : Reply) :
    Except Error RpcResult × Callee :=
  match stringField request.params "toolId" with
  | .error error => (.error error, callee)
  | .ok toolId =>
      match resolveContract callee request with
      | .error error => (.error error, callee)
      | .ok (contractId, contract) =>
          match inputField request.params with
          | .error error => (.error error, callee)
          | .ok input =>
              let invocation : Invocation :=
                { toolId := toolId
                  input := input
                  executionContractId := contractId
                  idempotencyKey :=
                    (Json.stringAt request.params "idempotencyKey").getD "" }
              let (result, host) := callee.host.invoke invocation contract reply
              (result.map fun result => .output result.output, { callee with host := host })

def compileWorkflow (request : Request) : Except Error RpcResult := do
  let workflow ← Workflow.workflowParams request.params
  let plan ← Workflow.compile workflow
  return .plan plan

def listRegistry (callee : Callee) (request : Request) : RpcResult :=
  .tools (callee.host.registry.list ((Json.stringAt request.params "toolKind").getD ""))

def dispatch (reply : Reply) (callee : Callee) (request : Request) :
    Option (Except Error RpcResult × Callee) :=
  if request.method = methodInvoke then some (invoke callee request reply)
  else if request.method = methodCompileWorkflow then some (compileWorkflow request, callee)
  else if request.method = methodRegistry then some (.ok (listRegistry callee request), callee)
  else none

def adapter (reply : Reply) : Adapter Callee Error RpcResult where
  dispatch := dispatch reply
  errorFrom := errorFrom

def handle (service : Service) (request : Request) (reply : Reply) :
    Response RpcResult × Service :=
  (adapter reply).handle service request

/-- The service as a machine: an input is a request with what the provider returns. -/
def machine : Machine Service (Request × Reply) (Response RpcResult) where
  step service input :=
    let (response, service) := handle service input.1 input.2
    (service, response)

end Aa.Toolbox.Rpc
