import Aa.Toolbox.Basic

/-!
# The workflow compiler

A workflow is data: the compiler validates its structure and its dependency graph
and yields a deterministic topological plan.
-/

namespace Aa.Toolbox.Workflow

open Aa.Library Aa.Contracts Aa.Toolbox

/-- A validated, deterministic execution plan for a workflow. -/
structure Plan where
  workflowId : String
  version : String
  budget : Option V1.Budget
  order : List String
  steps : GoMap String WorkflowStep
  dependsOn : GoMap String (List String)

/-- The distinct dependencies of a step in the order they are first listed. -/
def collectDepends (steps : GoMap String WorkflowStep) (step : WorkflowStep)
    (deps : List String) : List String → Except Error (List String)
  | [] => .ok deps
  | dep :: rest =>
      if dep = step.id then
        .error (.wrap .invalid ("step " ++ Go.quote step.id ++ " depends on itself"))
      else if (steps.lookup dep).isNone then
        .error (.wrap .invalid
          ("step " ++ Go.quote step.id ++ " depends on unknown step " ++ Go.quote dep))
      else if dep ∈ deps then collectDepends steps step deps rest
      else collectDepends steps step (deps ++ [dep]) rest

/-- The checks on one step, and its sorted dependencies. -/
def stepDepends (steps : GoMap String WorkflowStep) (step : WorkflowStep) :
    Except Error (List String) :=
  if step.kind = "tool" ∧ step.toolId = "" then
    .error (.wrap .invalid
      ("step " ++ Go.quote step.id ++ " is a tool step without a toolId"))
  else if step.kind = "gate" ∧ step.gates = [] then
    .error (.wrap .invalid
      ("step " ++ Go.quote step.id ++ " is a gate step without gates"))
  else if step.retries.any (· < 0) then
    .error (.wrap .invalid ("step " ++ Go.quote step.id ++ " has negative retries"))
  else (collectDepends steps step [] step.dependsOn).map Go.sortStrings

def dependsTable (steps : GoMap String WorkflowStep) (table : GoMap String (List String)) :
    List WorkflowStep → Except Error (GoMap String (List String))
  | [] => .ok table
  | step :: rest =>
      match stepDepends steps step with
      | .error error => .error error
      | .ok deps => dependsTable steps (table.insert step.id deps) rest

/-- The ids of the steps that depend on `id`, sorted. -/
def dependents (depends : GoMap String (List String)) (id : String) : List String :=
  Go.sortStrings ((depends.entries.filter fun entry => id ∈ entry.2).map (·.1))

/-- Counts one dependency of each listed step as done; a step left with none is ready. -/
def release : (String → ℤ) × List String → List String → (String → ℤ) × List String
  | state, [] => state
  | (indegree, ready), dep :: rest =>
      let indegree := Function.update indegree dep (indegree dep - 1)
      release (indegree, if indegree dep = 0 then ready ++ [dep] else ready) rest

/-- The main loop: the smallest ready id is emitted first. -/
def topoLoop (depends : GoMap String (List String)) :
    ℕ → (String → ℤ) → List String → List String → List String
  | 0, _, _, order => order
  | _ + 1, _, [], order => order
  | fuel + 1, indegree, id :: ready, order =>
      let (indegree, ready) := release (indegree, ready) (dependents depends id)
      topoLoop depends fuel indegree (Go.sortStrings ready) (order ++ [id])

/-- A deterministic order: among ready steps, the smallest id is emitted first. Each
step is emitted at most once, so that the number of steps bounds the iterations. -/
def topoOrder (steps : GoMap String WorkflowStep) (depends : GoMap String (List String)) :
    Except Error (List String) :=
  let indegree := fun id => (((depends.lookup id).getD []).length : ℤ)
  let ready := Go.sortStrings (steps.keys.filter fun id => indegree id = 0)
  let order := topoLoop depends steps.keys.length indegree ready []
  if order.length = steps.keys.length then .ok order
  else .error (.wrap .cycle "dependency graph has a cycle")

/-- Validates a workflow and produces a deterministic topological plan. -/
def compile (workflow : Toolbox.Workflow) : Except Error Plan :=
  match workflow.validate with
  | .error message => .error (.wrap .invalid message)
  | .ok () =>
      let steps : GoMap String WorkflowStep :=
        workflow.steps.foldl (fun table step => table.insert step.id step) ∅
      match dependsTable steps ∅ workflow.steps with
      | .error error => .error error
      | .ok depends =>
          match topoOrder steps depends with
          | .error error => .error error
          | .ok order =>
              .ok
                { workflowId := workflow.id
                  version := workflow.version
                  budget := workflow.budget
                  order := order
                  steps := steps
                  dependsOn := depends }

end Aa.Toolbox.Workflow
