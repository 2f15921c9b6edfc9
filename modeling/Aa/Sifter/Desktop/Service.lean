import Aa.Library.EventLoop
import Aa.Sifter.App

/-!
# Tasks of the desktop service

A task runs on one event loop; it is submitted, cancelled and given the human's
decisions from other threads. A call from another thread is a sequence of
separate steps, as the threads may be interleaved between them. What a task does between
two suspensions is one step of the loop, and what the sifter's run does is open: it may
suspend, ask the human, return any result or raise.
-/

namespace Aa.Sifter.Desktop

open Aa.Library

def terminalStatuses : List String :=
  ["completed", "failed", "cancelled", "stopped", "error"]

def actionOfValue (text : String) : Option ApprovalAction :=
  [.approve, .reject, .modify, .chooseOption, .moreLocalAnalysis, .allowExpertAnalysis,
    .continueCurrent, .stop].find? fun action : ApprovalAction => action.value = text

/-- A future that a task waits for. Only one of an approval has a decision. -/
inductive Future
  | pending
  | done (decision : Option HumanDecision)
  | cancelled
  deriving DecidableEq

/-- The future that `run_coroutine_threadsafe` returns. -/
inductive Outer
  | pending
  | cancelled
  | finished
  deriving DecidableEq

/-- Where the coroutine of a task is. -/
inductive Control
  | unscheduled
  | created
  | running
  | approval (future : ℕ)
  | suspended (future : ℕ)
  | ended
  deriving DecidableEq

/-- A record with its task on the loop. `accepted` and `answers` are there to be spoken of:
the decisions for which `resolve_approval` has returned true, each with the future it was
meant for, and what each wait for an approval has returned. -/
structure TaskRecord where
  task : Task
  executionMode : String := "adaptive"
  status : String := "queued"
  result : Option SifterResult := none
  error : Option String := none
  approvalRequest : Option ApprovalRequest := none
  approvalFuture : Option ℕ := none
  hasFuture : Bool := false
  control : Control := .unscheduled
  mustCancel : Bool := false
  outer : Outer := .pending
  chained : Bool := false
  opened : ℕ := 0
  futures : ℕ → Future := fun _ => .pending
  accepted : List (Option ℕ × HumanDecision) := []
  answers : ℕ → Option HumanDecision := fun _ => none

/-- A callback of the loop. -/
inductive Handle
  | start
  | step
  | cancelTask
  | setFuture (future : Option ℕ) (decision : HumanDecision)
  | wakeup (future : ℕ)
  | finish
  deriving DecidableEq

/-- What the sifter's run does next: wait for something else, ask the human, return, raise,
or let a cancellation through. -/
inductive RunStep
  | suspends
  | asks (request : ApprovalRequest)
  | returns (result : SifterResult)
  | raises (message : String)
  | cancelled

namespace TaskRecord

variable (record : TaskRecord)

def terminal : Bool := record.status ∈ terminalStatuses

/-- Whether the task waits for a future. -/
def waitsFor (future : ℕ) : Bool :=
  record.control = .approval future || record.control = .suspended future

/-- Completes a future and schedules the task if it waits for it. -/
def settle (future : ℕ) (value : Future) : TaskRecord × List Handle :=
  ({ record with futures := Function.update record.futures future value },
    if record.waitsFor future then [.wakeup future] else [])

/-- The callback of `run_coroutine_threadsafe`: creates the task and passes on a
cancellation that came before. -/
def start : TaskRecord × List Handle :=
  ({ record with control := .created, chained := true },
    if record.outer = .cancelled then [.step, .cancelTask] else [.step])

/-- The first step of the task: the beginning of `_execute`, unless it is cancelled before. -/
def firstStep : TaskRecord × List Handle :=
  if record.mustCancel then ({ record with control := .ended, mustCancel := false }, [.finish])
  else ({ record with control := .running, status := "running" }, [])

/-- `Task.cancel`. -/
def cancelTask : TaskRecord × List Handle :=
  match record.control with
  | .ended => (record, [])
  | .approval future | .suspended future =>
      if record.futures future = .pending then record.settle future .cancelled
      else ({ record with mustCancel := true }, [])
  | .unscheduled | .created | .running => ({ record with mustCancel := true }, [])

/-- `_set_future`. -/
def setFuture (future : Option ℕ) (decision : HumanDecision) : TaskRecord × List Handle :=
  match future with
  | none => (record, [])
  | some future =>
      if record.futures future = .pending then record.settle future (.done (some decision))
      else (record, [])

/-- What the wait for a future returns, or nothing if it raises. -/
def returned (future : ℕ) : Option HumanDecision :=
  match record.mustCancel, record.futures future with
  | false, .done decision => decision
  | _, _ => none

/-- The task goes on after a wait; after one for an approval it leaves `_await_approval`. -/
def wakeup (future : ℕ) : TaskRecord × List Handle :=
  match record.control with
  | .approval _ =>
      ({ record with
        control := .running
        mustCancel := false
        approvalFuture := none
        approvalRequest := none
        status := if record.terminal then record.status else "running"
        answers := Function.update record.answers future (record.returned future) }, [])
  | _ => ({ record with control := .running, mustCancel := false }, [])

/-- Passes the end of the task on to the future of `run_coroutine_threadsafe`. -/
def finish : TaskRecord × List Handle :=
  ({ record with outer := if record.outer = .pending then .finished else record.outer }, [])

def handle : Handle → TaskRecord × List Handle
  | .start => record.start
  | .step => record.firstStep
  | .cancelTask => record.cancelTask
  | .setFuture future decision => record.setFuture future decision
  | .wakeup future => record.wakeup future
  | .finish => record.finish

/-- One step of the run, within `_execute` and `_await_approval`. -/
def act : RunStep → TaskRecord × List Handle
  | .suspends =>
      ({ record with
        control := .suspended record.opened
        opened := record.opened + 1
        futures := Function.update record.futures record.opened .pending }, [])
  | .asks request =>
      ({ record with
        status := "waiting_approval"
        approvalRequest := some request
        approvalFuture := some record.opened
        control := .approval record.opened
        opened := record.opened + 1
        futures := Function.update record.futures record.opened .pending }, [])
  | .returns result =>
      ({ record with status := result.status, result := some result, control := .ended }, [.finish])
  | .raises message =>
      ({ record with status := "failed", error := some message, control := .ended }, [.finish])
  | .cancelled => ({ record with status := "cancelled", control := .ended }, [.finish])

/-- What a task waits for besides the human has come. -/
def complete : TaskRecord × List Handle :=
  match record.control with
  | .suspended future =>
      if record.futures future = .pending then record.settle future (.done none) else (record, [])
  | _ => (record, [])

/-- `Future.cancel` of the future of `run_coroutine_threadsafe`. -/
def cancelFuture : TaskRecord × List Handle :=
  if record.outer = .pending then
    ({ record with outer := .cancelled }, if record.chained then [.cancelTask] else [])
  else (record, [])

/-- The last step of `resolve_approval`: the decision is queued and true returned. -/
def accept (future : Option ℕ) (decision : HumanDecision) : TaskRecord × List Handle :=
  ({ record with accepted := record.accepted ++ [(future, decision)] },
    [.setFuture future decision])

end TaskRecord

/-- A call from another thread that has passed its first step: `submit` before it keeps the
future, `cancel` after its test, `resolve_approval` before and after it has read the future
of the request. -/
inductive Call (TaskId : Type)
  | assigning (task : TaskId)
  | cancelling (task : TaskId)
  | reading (task : TaskId) (decision : HumanDecision)
  | resolving (task : TaskId) (decision : HumanDecision) (future : Option ℕ)

structure ComputeSifterService (TaskId : Type) where
  loop : EventLoop TaskId TaskRecord Handle := {}
  busy : Option TaskId := none
  calls : List (Call TaskId) := []

/-- A step of the loop or of another thread. -/
inductive Action (TaskId : Type)
  | submit (task : TaskId) (prompt : String) (context policy : Option String)
      (executionMode : String)
  | cancel (task : TaskId)
  | resolveApproval (task : TaskId) (action : String) (selectedOptions constraints : List String)
      (note : String)
  | proceed (index : ℕ)
  | turn
  | act (step : RunStep)
  | complete (task : TaskId)

def policyForMode (executionMode : String) (policy : Option String) : Option String :=
  match orElse policy none with
  | some given => some given
  | none =>
      if executionMode = "local_only" then some "local_only"
      else if executionMode = "expert_only" then some "expert_first"
      else none

namespace ComputeSifterService

variable {TaskId : Type} [DecidableEq TaskId] (service : ComputeSifterService TaskId)

/-- A new task under an identifier that is not taken, its callback queued. -/
def submit (task : TaskId) (prompt : String) (context policy : Option String)
    (executionMode : String) : Option (ComputeSifterService TaskId) :=
  match service.loop.states task with
  | some _ => none
  | none =>
      some
        { service with
          loop := service.loop.put task
            { task :=
                { prompt := prompt
                  context := context
                  policy := policyForMode executionMode policy }
              executionMode := executionMode } [.start]
          calls := service.calls ++ [.assigning task] }

/-- The test of `cancel`; where it fails the call returns false. -/
def cancel (task : TaskId) : ComputeSifterService TaskId :=
  match service.loop.states task with
  | none => service
  | some record =>
      if record.terminal || !record.hasFuture then service
      else { service with calls := service.calls ++ [.cancelling task] }

/-- The test of `resolve_approval`; where it fails the call returns false. -/
def resolveApproval (task : TaskId) (action : String) (selectedOptions constraints : List String)
    (note : String) : ComputeSifterService TaskId :=
  match service.loop.states task with
  | none => service
  | some record =>
      match record.approvalFuture, actionOfValue action with
      | some _, some action =>
          let decision : HumanDecision :=
            { action := action
              selectedOptions := selectedOptions
              constraints := constraints
              note := note }
          { service with calls := service.calls ++ [.reading task decision] }
      | _, _ => service

/-- A call that is under way goes on. -/
def proceed (index : ℕ) : Option (ComputeSifterService TaskId) :=
  match service.calls[index]? with
  | none => none
  | some (.assigning task) =>
      (service.loop.states task).map fun record =>
        { service with
          loop := service.loop.put task { record with hasFuture := true } []
          calls := service.calls.eraseIdx index }
  | some (.cancelling task) =>
      (service.loop.states task).map fun record =>
        { service with
          loop := service.loop.put task record.cancelFuture.1 record.cancelFuture.2
          calls := service.calls.eraseIdx index }
  | some (.reading task decision) =>
      (service.loop.states task).map fun record =>
        { service with
          calls := service.calls.set index (.resolving task decision record.approvalFuture) }
  | some (.resolving task decision future) =>
      (service.loop.states task).map fun record =>
        { service with
          loop := service.loop.put task (record.accept future decision).1
            (record.accept future decision).2
          calls := service.calls.eraseIdx index }

/-- The loop runs the callback that is due, unless a task is running. -/
def turn : Option (ComputeSifterService TaskId) :=
  match service.busy, service.loop.ready with
  | none, (task, handle) :: rest =>
      (service.loop.states task).map fun record =>
        let handled := record.handle handle
        { service with
          loop := { service.loop with ready := rest }.put task handled.1 handled.2
          busy := if handled.1.control = .running then some task else none }
  | _, _ => none

/-- The task that is running goes on to its next suspension or its end. -/
def act (step : RunStep) : Option (ComputeSifterService TaskId) :=
  match service.busy with
  | none => none
  | some task =>
      (service.loop.states task).map fun record =>
        { service with
          loop := service.loop.put task (record.act step).1 (record.act step).2
          busy := none }

def complete (task : TaskId) : Option (ComputeSifterService TaskId) :=
  (service.loop.states task).map fun record =>
    { service with loop := service.loop.put task record.complete.1 record.complete.2 }

def step : Action TaskId → Option (ComputeSifterService TaskId)
  | .submit task prompt context policy executionMode =>
      service.submit task prompt context policy executionMode
  | .cancel task => some (service.cancel task)
  | .resolveApproval task action selectedOptions constraints note =>
      some (service.resolveApproval task action selectedOptions constraints note)
  | .proceed index => service.proceed index
  | .turn => service.turn
  | .act step => service.act step
  | .complete task => service.complete task

/-- The service after some steps, all of which must be possible. -/
def run (service : ComputeSifterService TaskId) :
    List (Action TaskId) → Option (ComputeSifterService TaskId)
  | [] => some service
  | action :: rest => (service.step action).bind fun next => next.run rest

end ComputeSifterService

end Aa.Sifter.Desktop
