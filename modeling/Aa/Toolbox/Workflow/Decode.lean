import Aa.Toolbox.Basic

/-!
# Decoding a workflow from request parameters
-/

namespace Aa.Toolbox.Workflow

open Aa.Library Aa.Contracts

def decodeReference : GoJson.Decoder V1.Reference :=
  GoJson.struct "v1.Reference"
    [GoJson.field "kind" GoJson.string (·.kind) (fun target value => { target with kind := value }),
      GoJson.field "id" GoJson.string (·.id) (fun target value => { target with id := value }),
      GoJson.field "version" GoJson.string (·.version)
        (fun target value => { target with version := value })]

def decodeActor : GoJson.Decoder V1.Actor :=
  GoJson.struct "v1.Actor"
    [GoJson.field "kind" GoJson.string (·.kind) (fun target value => { target with kind := value }),
      GoJson.field "id" GoJson.string (·.id) (fun target value => { target with id := value }),
      GoJson.field "role" GoJson.string (·.role) (fun target value => { target with role := value }),
      GoJson.field "trade" GoJson.string (·.trade)
        (fun target value => { target with trade := value }),
      GoJson.field "workerId" GoJson.string (·.workerId)
        (fun target value => { target with workerId := value }),
      GoJson.field "model" GoJson.string (·.model)
        (fun target value => { target with model := value })]

def decodeProvenance : GoJson.Decoder V1.Provenance :=
  GoJson.struct "v1.Provenance"
    [GoJson.field "source" GoJson.string (·.source)
        (fun target value => { target with source := value }),
      GoJson.field "producedAt" GoJson.string (·.producedAt)
        (fun target value => { target with producedAt := value }),
      GoJson.field "producedBy" (GoJson.pointer {} decodeActor) (·.producedBy)
        (fun target value => { target with producedBy := value }),
      GoJson.field "confidence" GoJson.string (·.confidence)
        (fun target value => { target with confidence := value }),
      GoJson.field "evidence" (GoJson.slice {} decodeReference) (·.evidence)
        (fun target value => { target with evidence := value }),
      GoJson.field "contentHash" GoJson.string (·.contentHash)
        (fun target value => { target with contentHash := value })]

def float : GoJson.Decoder ℚ
  | .null, target => .ok target
  | .num value, _ => .ok value
  | value, _ => .error (GoJson.typeError value "float64")

def decodeBudget : GoJson.Decoder V1.Budget :=
  GoJson.struct "v1.Budget"
    [GoJson.field "maxCalls" (GoJson.pointer 0 GoJson.int) (·.maxCalls)
        (fun target value => { target with maxCalls := value }),
      GoJson.field "maxTokens" (GoJson.pointer 0 GoJson.int) (·.maxTokens)
        (fun target value => { target with maxTokens := value }),
      GoJson.field "maxCostUsd" (GoJson.pointer 0 float) (·.maxCostUSD)
        (fun target value => { target with maxCostUSD := value }),
      GoJson.field "maxDurationSeconds" (GoJson.pointer 0 GoJson.int) (·.maxDurationSeconds)
        (fun target value => { target with maxDurationSeconds := value })]

def decodeWorkflowStep : GoJson.Decoder V1.WorkflowStep :=
  GoJson.struct "v1.WorkflowStep"
    [GoJson.field "id" GoJson.string (·.id) (fun target value => { target with id := value }),
      GoJson.field "kind" GoJson.string (·.kind) (fun target value => { target with kind := value }),
      GoJson.field "role" GoJson.string (·.role) (fun target value => { target with role := value }),
      GoJson.field "trade" GoJson.string (·.trade)
        (fun target value => { target with trade := value }),
      GoJson.field "toolId" GoJson.string (·.toolId)
        (fun target value => { target with toolId := value }),
      GoJson.field "dependsOn" (GoJson.slice "" GoJson.string) (·.dependsOn)
        (fun target value => { target with dependsOn := value }),
      GoJson.field "retries" (GoJson.pointer 0 GoJson.int) (·.retries)
        (fun target value => { target with retries := value }),
      GoJson.field "gates" (GoJson.slice "" GoJson.string) (·.gates)
        (fun target value => { target with gates := value }),
      GoJson.field "onFailure" GoJson.string (·.onFailure)
        (fun target value => { target with onFailure := value }),
      GoJson.field "config" GoJson.anyMap (·.config)
        (fun target value => { target with config := value })]

def decodeWorkflow : GoJson.Decoder V1.Workflow :=
  GoJson.struct "v1.Workflow"
    [GoJson.field "contractVersion" GoJson.string (·.contractVersion)
        (fun target value => { target with contractVersion := value }),
      GoJson.field "kind" GoJson.string (·.kind) (fun target value => { target with kind := value }),
      GoJson.field "id" GoJson.string (·.id) (fun target value => { target with id := value }),
      GoJson.field "projectId" GoJson.string (·.projectId)
        (fun target value => { target with projectId := value }),
      GoJson.field "createdAt" GoJson.string (·.createdAt)
        (fun target value => { target with createdAt := value }),
      GoJson.field "revision" (GoJson.pointer 0 GoJson.int) (·.revision)
        (fun target value => { target with revision := value }),
      GoJson.field "provenance" (GoJson.pointer {} decodeProvenance) (·.provenance)
        (fun target value => { target with provenance := value }),
      GoJson.field "name" GoJson.string (·.name) (fun target value => { target with name := value }),
      GoJson.field "version" GoJson.string (·.version)
        (fun target value => { target with version := value }),
      GoJson.field "description" GoJson.string (·.description)
        (fun target value => { target with description := value }),
      GoJson.field "budget" (GoJson.pointer {} decodeBudget) (·.budget)
        (fun target value => { target with budget := value }),
      GoJson.field "steps" (GoJson.slice {} decodeWorkflowStep) (·.steps)
        (fun target value => { target with steps := value })]

/-- The workflow in a request's parameters: under the key `workflow`, else the
parameters themselves. -/
def workflowParams (params : Option Json.Object) : Except Error V1.Workflow :=
  let raw :=
    match (params.getD []).lookup "workflow" with
    | some inner => inner
    | none => params.elim .null .obj
  match decodeWorkflow raw {} with
  | .ok workflow => .ok workflow
  | .error message => .error (.wrap .invalid ("workflow: " ++ message))

end Aa.Toolbox.Workflow
