import Aa.Library.Triple
import Aa.Toolbox.Workflow.Compile

/-!
# The workflow runtime

The runtime executes a compiled plan over a runner and a gate evaluator, with bounded
retries, gates and a failure policy for each step, and resumes from a prior state. The
runner, its compensator and the gate evaluator answer from outside; an invocation is
recorded together with the results of the run at that moment.
-/

namespace Aa.Toolbox.Workflow

open Aa.Library Aa.Contracts Aa.Toolbox

inductive RunStatus where
  | running
  | complete
  | failed
  | awaitingApproval
deriving DecidableEq

inductive StepState where
  | pending
  | running
  | complete
  | skipped
  | compensated
  | failed
  | awaitingGate
deriving DecidableEq

/-- The outcome of one step. -/
structure StepResult where
  id : String
  state : StepState
  attempts : ℤ := 0
  output : Option Json.Object := none
  reason : String := ""

/-- The step needs no further work on resume. -/
def StepResult.terminal (result : StepResult) : Bool :=
  match result.state with
  | .complete | .skipped | .compensated => true
  | _ => false

/-- A run state, used to resume a workflow. -/
structure RunState where
  workflowId : String
  version : String
  status : RunStatus
  order : List String
  results : GoMap String StepResult

/-- What the runtime invokes. -/
inductive Action where
  | run (step : WorkflowStep) (attempt : ℤ)
  | compensate (step : WorkflowStep) (output : Option Json.Object)
  | evaluate (step : WorkflowStep)

/-- An invocation, with the results of the run at that moment. -/
structure Op where
  action : Action
  results : GoMap String StepResult

def Action.Answer : Action → Type
  | .run _ _ => Except Error (Option Json.Object)
  | .compensate _ _ => Option Error
  | .evaluate _ => Bool × Option Error

def Op.Answer (op : Op) : Type := op.action.Answer

inductive Panic where
  | nilDereference
deriving DecidableEq

/-- How `Run` returns. -/
inductive Exit where
  | complete
  | unsatisfied (id : String)
  | gateError (error : Error)
  | gateClosed (id : String)
  | noRunner (id : String)
  | uncompensated (id : String) (error : Error)
  | failed (id : String) (text : String)

/-- The error `Run` returns. -/
def Exit.error : Exit → Option Error
  | .complete => none
  | .unsatisfied id => some (.wrap .failed ("step " ++ Go.quote id ++ " dependencies not satisfied"))
  | .gateError error => some error
  | .gateClosed id => some (.wrap .approval ("step " ++ Go.quote id))
  | .noRunner id => some (.wrap .failed ("step " ++ Go.quote id ++ " has no runner"))
  | .uncompensated id error =>
      some (.wrap .failed ("compensate step " ++ Go.quote id ++ ": " ++ error.message))
  | .failed id text => some (.wrap .failed ("step " ++ Go.quote id ++ ": " ++ text))

/-- Executes a compiled plan: whether it has a runner, whether the runner is a
compensator, and whether it has a gate evaluator. -/
structure Runtime where
  hasRunner : Bool
  compensates : Bool
  hasGates : Bool

abbrev RunM := Coroutine Op Op.Answer RunState Panic

def newRunState (plan : Plan) : RunState where
  workflowId := plan.workflowId
  version := plan.version
  status := .running
  order := plan.order
  results := ∅

/-- The state a run begins with: the prior state, if there is one, with the plan's name
where it has none. -/
def startState (plan : Plan) : Option RunState → RunState
  | none => newRunState plan
  | some prior =>
      { prior with
        workflowId := if prior.workflowId = "" then plan.workflowId else prior.workflowId
        version := if prior.version = "" then plan.version else prior.version
        status := .running }

def isTerminal (results : GoMap String StepResult) (id : String) : Bool :=
  (results.lookup id).any StepResult.terminal

def depsSatisfied (plan : Plan) (state : RunState) (id : String) : Bool :=
  ((plan.dependsOn.lookup id).getD []).all (isTerminal state.results)

/-- `retries + 1` in 64-bit integers. -/
def maxAttempts (step : WorkflowStep) : ℤ :=
  let retries := step.retries.getD 0
  let retries := if retries < 0 then 0 else retries
  (retries + 1).bmod (2 ^ 64)

def onFailure (step : WorkflowStep) : String :=
  if step.onFailure = "" then "fail" else step.onFailure

/-- The attempts a run state records for a step. -/
def attemptsOf (results : GoMap String StepResult) (id : String) : ℤ :=
  (results.lookup id).elim 0 StepResult.attempts

def isGate (step : WorkflowStep) : Bool := step.kind = "gate" || step.kind = "human_approval"

namespace RunM

def setResult (result : StepResult) : RunM PUnit :=
  Coroutine.modify fun state => { state with results := state.results.insert result.id result }

def setStatus (status : RunStatus) : RunM PUnit :=
  Coroutine.modify fun state => { state with status := status }

def invoke (action : Action) : RunM action.Answer := do
  let state ← Coroutine.read
  Coroutine.perform ⟨action, state.results⟩ .ok

def run (step : WorkflowStep) (attempt : ℤ) : RunM (Except Error (Option Json.Object)) :=
  invoke (.run step attempt)

def compensate (step : WorkflowStep) (output : Option Json.Object) : RunM (Option Error) :=
  invoke (.compensate step output)

def evaluate (step : WorkflowStep) : RunM (Bool × Option Error) := invoke (.evaluate step)

/-- The text of an error that may be nil. -/
def errorText : Option Error → RunM String
  | some error => pure error.message
  | none => Coroutine.raise .nilDereference

end RunM

open RunM

/-- The attempts still allowed, from `attempt` on: returns none when one succeeds, else
the last attempt and its error. -/
def attemptLoop (step : WorkflowStep) :
    ℕ → ℤ → Option Error → RunM (Option (ℤ × Option Error))
  | 0, attempt, lastErr => pure (some (attempt, lastErr))
  | remaining + 1, attempt, _ => do
      let answer ← run step (attempt + 1)
      match answer with
      | .ok output =>
          setResult { id := step.id, state := .complete, attempts := attempt + 1, output := output }
          pure none
      | .error error =>
          setResult
            { id := step.id, state := .running, attempts := attempt + 1, reason := error.message }
          attemptLoop step remaining (attempt + 1) (some error)

namespace Runtime

/-- The failure policy of a step whose attempts are used up; returns how the run ends, if
it does. -/
def settle (runtime : Runtime) (step : WorkflowStep) (output : Option Json.Object)
    (attempt : ℤ) (lastErr : Option Error) : RunM (Option Exit) :=
  if onFailure step = "skip" then do
    let reason ← errorText lastErr
    setResult { id := step.id, state := .skipped, attempts := attempt, reason := reason }
    pure none
  else if onFailure step = "compensate" ∧ runtime.compensates then do
    let compensated ← compensate step output
    match compensated with
    | some error =>
        setResult
          { id := step.id, state := .failed, attempts := attempt, reason := error.message }
        setStatus .failed
        pure (some (.uncompensated step.id error))
    | none =>
        let reason ← errorText lastErr
        setResult { id := step.id, state := .compensated, attempts := attempt, reason := reason }
        pure none
  else do
    let reason ← errorText lastErr
    setResult { id := step.id, state := .failed, attempts := attempt, reason := reason }
    setStatus .failed
    pure (some (.failed step.id reason))

def runWithPolicy (runtime : Runtime) (step : WorkflowStep) : RunM (Option Exit) :=
  if runtime.hasRunner then do
    let state ← Coroutine.read
    let attempt := attemptsOf state.results step.id
    let output := (state.results.lookup step.id).bind StepResult.output
    let used ← attemptLoop step (maxAttempts step - attempt).toNat attempt none
    match used with
    | none => pure none
    | some (attempt, lastErr) => runtime.settle step output attempt lastErr
  else do
    setResult { id := step.id, state := .failed, reason := "no runner configured" }
    setStatus .failed
    pure (some (.noRunner step.id))

def evaluateGate (runtime : Runtime) (step : WorkflowStep) : RunM (Bool × Option Error) :=
  if runtime.hasGates then evaluate step
  else
    pure (false,
      some (.wrap .approval ("step " ++ Go.quote step.id ++ " has no gate evaluator")))

/-- A gate or a human approval; `id` is the key the step is kept under. -/
def runGate (runtime : Runtime) (id : String) (step : WorkflowStep) : RunM (Option Exit) := do
  let verdict ← runtime.evaluateGate step
  match verdict with
  | (_, some error) =>
      setResult { id := id, state := .awaitingGate, reason := error.message }
      setStatus .awaitingApproval
      pure (some (.gateError error))
  | (false, none) =>
      setResult { id := id, state := .awaitingGate, reason := "gate not passed" }
      setStatus .awaitingApproval
      pure (some (.gateClosed id))
  | (true, none) =>
      setResult { id := id, state := .complete }
      pure none

def runStep (runtime : Runtime) (id : String) (step : WorkflowStep) : RunM (Option Exit) :=
  if isGate step then runtime.runGate id step else runtime.runWithPolicy step

/-- The steps of a plan in order. -/
def runOrder (runtime : Runtime) (plan : Plan) : List String → RunM Exit
  | [] => do
      setStatus .complete
      pure .complete
  | id :: rest =>
      match plan.steps.lookup id with
      | none => runtime.runOrder plan rest
      | some step => do
          let state ← Coroutine.read
          if isTerminal state.results id then runtime.runOrder plan rest
          else if !depsSatisfied plan state id then
            setResult { id := id, state := .awaitingGate, reason := "dependencies not satisfied" }
            setStatus .failed
            pure (.unsatisfied id)
          else
            let ended ← runtime.runStep id step
            match ended with
            | some exit => pure exit
            | none => runtime.runOrder plan rest

/-- `Run`, from the state that `startState` gives. -/
def run (runtime : Runtime) (plan : Plan) : RunM Exit := runtime.runOrder plan plan.order

end Runtime

end Aa.Toolbox.Workflow
