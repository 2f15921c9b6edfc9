import Aa.Library.Machine
import Aa.Sifter.Tasks.Graph

/-!
# The task executor

The executor runs the ready tasks of a graph in waves. The tasks of one wave run at the same
time, at most as many as the gate lets through, and the next wave is looked for when all of
them have ended.
-/

namespace Aa.Sifter.Tasks

open Aa.Library

/-- How the worker ends on a task. -/
inductive Outcome where
  | returns (result : String)
  | approvalRequired (reason : String)
  | raises (error : String)
deriving DecidableEq

namespace Task

/-- The task as its worker is called. -/
def begin (task : Task) : Task :=
  { task with status := .running, attemptCount := task.attemptCount + 1 }

/-- The task as `_run_one` leaves it. -/
def finish (outcome : Outcome) (task : Task) : Task :=
  match outcome with
  | .approvalRequired reason =>
      { task with
        status := .blockedApproval, verificationState := "blocked_approval", result := reason }
  | .raises error => { task with status := .failed, result := "error: " ++ error }
  | .returns result =>
      { task with result := result, status := if task.status = .running then .done else task.status }

end Task

/-- Where the executor stands: at the head of its loop, waiting for the tasks of a wave, of
which some wait for the gate and some are running, or returned. -/
inductive Phase where
  | looping
  | gathering (waiting running : List String)
  | returned
deriving DecidableEq

structure Execution where
  tasks : TaskMap
  phase : Phase

/-- What happens next: the executor goes on, the gate lets a task through, or the worker ends
on a task. -/
inductive Move where
  | proceed
  | start (id : String)
  | finish (id : String)

inductive ExecutorEvent where
  | proceeded
  | invoked (id : String)
  | finished (id : String)
deriving DecidableEq

variable (graph : TaskGraph) (outcome : String → Outcome) (maxConcurrency : ℕ)

/-- One move of an execution; none where it is not possible. -/
def Execution.step (execution : Execution) : Move → Execution × Option ExecutorEvent
  | .proceed =>
      match execution.phase with
      | .looping =>
          if graph.HasPending execution.tasks then
            match graph.readyTasks execution.tasks with
            | ([], tasks) => (⟨tasks, .returned⟩, some .proceeded)
            | (ready, tasks) => (⟨tasks, .gathering ready []⟩, some .proceeded)
          else (⟨execution.tasks, .returned⟩, some .proceeded)
      | .gathering [] [] =>
          (⟨graph.invalidateDependencies execution.tasks, .looping⟩, some .proceeded)
      | _ => (execution, none)
  | .start id =>
      match execution.phase with
      | .gathering waiting running =>
          if id ∈ waiting ∧ running.length < maxConcurrency then
            (⟨Function.update execution.tasks id (execution.tasks id).begin,
                .gathering (waiting.erase id) (running ++ [id])⟩, some (.invoked id))
          else (execution, none)
      | _ => (execution, none)
  | .finish id =>
      match execution.phase with
      | .gathering waiting running =>
          if id ∈ running then
            (⟨Function.update execution.tasks id ((execution.tasks id).finish (outcome id)),
                .gathering waiting (running.erase id)⟩, some (.finished id))
          else (execution, none)
      | _ => (execution, none)

/-- The executor as a machine whose inputs are the moves of an interleaving. -/
def executor : Machine Execution Move (Option ExecutorEvent) where
  step := Execution.step graph outcome maxConcurrency

/-- A call of `run` on tasks. -/
def Execution.begin (tasks : TaskMap) : Execution := ⟨tasks, .looping⟩

/-- The worker calls in some steps. -/
def invocations (steps : List (Machine.Step Execution Move (Option ExecutorEvent))) : List String :=
  steps.filterMap fun step =>
    match step.output with
    | some (.invoked id) => some id
    | _ => none

/-! ## Waves -/

/-- The tasks after a wave. -/
def settleWave (ready : List String) (tasks : TaskMap) : TaskMap := fun id =>
  if id ∈ ready then (tasks id).begin.finish (outcome id) else tasks id

/-- What the loop makes of the tasks when each wave is taken in one step. -/
inductive Settles : TaskMap → TaskMap → Prop
  | finished {tasks : TaskMap} (nonePending : ¬ graph.HasPending tasks) : Settles tasks tasks
  | stuck {tasks after : TaskMap} (isPending : graph.HasPending tasks)
      (noneReady : graph.readyTasks tasks = ([], after)) : Settles tasks after
  | wave {tasks marked after : TaskMap} {ready : List String} (isPending : graph.HasPending tasks)
      (found : graph.readyTasks tasks = (ready, marked)) (nonempty : ready ≠ [])
      (settles : Settles (graph.invalidateDependencies (settleWave outcome ready marked)) after) :
      Settles tasks after

variable {graph outcome}

/-- The waves determine the outcome. -/
theorem Settles.unique {tasks left right : TaskMap} (leftSettles : Settles graph outcome tasks left)
    (rightSettles : Settles graph outcome tasks right) : left = right := by
  induction leftSettles with
  | finished nonePending =>
      cases rightSettles with
      | finished _ => rfl
      | stuck isPending _ => exact absurd isPending nonePending
      | wave isPending _ _ _ => exact absurd isPending nonePending
  | stuck isPending noneReady =>
      cases rightSettles with
      | finished nonePending => exact absurd isPending nonePending
      | stuck _ alsoNone => exact (Prod.mk.inj (noneReady.symm.trans alsoNone)).2
      | wave _ found nonempty _ =>
          exact absurd (Prod.mk.inj (noneReady.symm.trans found)).1.symm nonempty
  | wave isPending found nonempty _ ih =>
      cases rightSettles with
      | finished nonePending => exact absurd isPending nonePending
      | stuck _ noneReady =>
          exact absurd (Prod.mk.inj (noneReady.symm.trans found)).1.symm nonempty
      | wave _ alsoFound _ settles =>
          rcases Prod.mk.inj (found.symm.trans alsoFound) with ⟨rfl, rfl⟩
          exact ih settles

end Aa.Sifter.Tasks
