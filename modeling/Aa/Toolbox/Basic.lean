import Aa.Contracts.V1
import Aa.Library.GoError

/-!
# Toolbox types, errors and idempotency keys
-/

namespace Aa.Toolbox

open Aa.Library Aa.Contracts

/-- The sentinel errors of the toolbox. -/
inductive Sentinel where
  | invalid
  | notFound
  | conflict
  | denied
  | sandbox
  | noProvider
  | cycle
  | failed
  | approval
deriving DecidableEq

instance : GoSentinel Sentinel where
  text
    | .invalid => "toolbox: invalid input"
    | .notFound => "toolbox: not found"
    | .conflict => "toolbox: conflict"
    | .denied => "toolbox: denied"
    | .sandbox => "toolbox: sandbox required"
    | .noProvider => "toolbox: no provider for kind"
    | .cycle => "toolbox: workflow cycle"
    | .failed => "toolbox: workflow step failed"
    | .approval => "toolbox: approval required"

abbrev Error := GoError Sentinel

abbrev Manifest := V1.ToolManifest
abbrev ExecutionContract := V1.ExecutionContract
abbrev Workflow := V1.Workflow
abbrev WorkflowStep := V1.WorkflowStep

def capNetworkAccess : String := "network_access"

/-- One request to run a registered tool. -/
structure Invocation where
  toolId : String
  input : Json.Object
  executionContractId : String
  idempotencyKey : String

/-- One invocation outcome. -/
structure Result where
  toolId : String
  output : Json.Object
  replayed : Bool := false

/-- A stable idempotency key from an operation name and its parts. -/
def key (operation : String) (parts : List String) : String :=
  Go.join ":" (Go.trimSpace operation :: parts.map Go.trimSpace)

/-- The idempotency key for invoking a tool under an execution contract. -/
def invocationKey (toolId contractId explicit : String) : String :=
  key "invoke" [toolId, if explicit = "" then contractId else explicit]

end Aa.Toolbox
