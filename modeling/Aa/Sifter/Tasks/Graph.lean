import Mathlib.Data.List.Basic
import Aa.Library.Pass

/-!
# Task graphs

The tasks of decomposed work and what each depends on. The tasks are kept in the order they
were added, and each of the passes below runs over them once in that order while it changes
their statuses.
-/

namespace Aa.Sifter.Tasks

open Aa.Library

inductive TaskStatus where
  | pending
  | ready
  | running
  | blockedApproval
  | blockedDependency
  | done
  | failed
  | skipped
deriving DecidableEq

def TaskStatus.terminal (status : TaskStatus) : Prop :=
  status = .done ∨ status = .failed ∨ status = .skipped

instance (status : TaskStatus) : Decidable status.terminal :=
  inferInstanceAs (Decidable (_ ∨ _ ∨ _))

/-- What the graph and its executor read and write of a task. -/
structure Task where
  status : TaskStatus := .pending
  attemptCount : ℕ := 0
  result : String := ""
  verificationState : String := "unverified"
deriving DecidableEq

/-- The tasks of a graph, by id. -/
abbrev TaskMap := String → Task

def TaskMap.setStatus (tasks : TaskMap) (id : String) (status : TaskStatus) : TaskMap :=
  Function.update tasks id { tasks id with status := status }

/-- The ids of a graph in the order they were added, and the dependencies of each. An id is
added only once, and the dependencies exist. -/
structure TaskGraph where
  ids : List String
  dependencies : String → List String
  nodup : ids.Nodup
  closed : ∀ id ∈ ids, ∀ dep ∈ dependencies id, dep ∈ ids

namespace TaskGraph

variable (graph : TaskGraph)

/-- Some dependency has failed or is skipped. -/
def Broken (tasks : TaskMap) (id : String) : Prop :=
  ∃ dep ∈ graph.dependencies id, (tasks dep).status = .failed ∨ (tasks dep).status = .skipped

/-- All dependencies are done. -/
def Satisfied (tasks : TaskMap) (id : String) : Prop :=
  ∀ dep ∈ graph.dependencies id, (tasks dep).status = .done

instance (tasks : TaskMap) (id : String) : Decidable (graph.Broken tasks id) :=
  inferInstanceAs (Decidable (∃ dep ∈ graph.dependencies id, _))

instance (tasks : TaskMap) (id : String) : Decidable (graph.Satisfied tasks id) :=
  inferInstanceAs (Decidable (∀ dep ∈ graph.dependencies id, _))

/-- One step of `invalidate_dependencies`. -/
def invalidateOne (tasks : TaskMap) (id : String) : TaskMap :=
  if (tasks id).status = .pending ∧ graph.dependencies id ≠ [] ∧ graph.Broken tasks id then
    tasks.setStatus id .skipped
  else tasks

/-- Skips pending tasks whose dependencies failed or are skipped. -/
def invalidateDependencies (tasks : TaskMap) : TaskMap :=
  graph.ids.foldl graph.invalidateOne tasks

/-- One step of `ready_tasks`: the tasks found so far and the statuses. -/
def readyOne (found : List String × TaskMap) (id : String) : List String × TaskMap :=
  if (found.2 id).status ≠ .pending ∧ (found.2 id).status ≠ .ready then found
  else if graph.Broken found.2 id then (found.1, found.2.setStatus id .skipped)
  else if ¬ graph.Satisfied found.2 id then found
  else
    (found.1 ++ [id],
      if (found.2 id).status = .pending then found.2.setStatus id .ready else found.2)

/-- The tasks that can run; it marks them ready and skips tasks on the way. -/
def readyTasks (tasks : TaskMap) : List String × TaskMap :=
  graph.ids.foldl graph.readyOne ([], tasks)

/-- Some task is not in a terminal status. -/
def HasPending (tasks : TaskMap) : Prop := ∃ id ∈ graph.ids, ¬ (tasks id).status.terminal

instance (tasks : TaskMap) : Decidable (graph.HasPending tasks) :=
  inferInstanceAs (Decidable (∃ id ∈ graph.ids, _))

end TaskGraph

/-! ## The passes, task by task -/

namespace TaskGraph

variable {graph : TaskGraph} {tasks : TaskMap} {id : String}

/-- What `ready_tasks` makes of the statuses when it visits a task. -/
def readyVisit (graph : TaskGraph) (tasks : TaskMap) (id : String) : TaskMap :=
  (graph.readyOne ([], tasks) id).2

theorem readyOne_snd (graph : TaskGraph) (found : List String × TaskMap) (id : String) :
    (graph.readyOne found id).2 = graph.readyVisit found.2 id := by
  simp only [readyVisit, readyOne]
  split
  · rfl
  · split
    · rfl
    · split <;> rfl

theorem readyTasks_snd (graph : TaskGraph) (tasks : TaskMap) :
    (graph.readyTasks tasks).2 = graph.ids.foldl graph.readyVisit tasks := by
  have general : ∀ (ids : List String) (found : List String × TaskMap),
      (ids.foldl graph.readyOne found).2 = ids.foldl graph.readyVisit found.2 := by
    intro ids
    induction ids with
    | nil => intro found; rfl
    | cons first rest ih =>
        intro found
        rw [List.foldl_cons, ih, readyOne_snd, List.foldl_cons]
  exact general graph.ids ([], tasks)

theorem setStatus_of_ne {other : String} (tasks : TaskMap) (status : TaskStatus)
    (isOther : other ≠ id) : tasks.setStatus id status other = tasks other := by
  simp [TaskMap.setStatus, isOther]

@[simp]
theorem setStatus_self (tasks : TaskMap) (id : String) (status : TaskStatus) :
    tasks.setStatus id status id = { tasks id with status := status } := by
  simp [TaskMap.setStatus]

theorem local_invalidateOne (graph : TaskGraph) : Local graph.invalidateOne := by
  intro tasks id other isOther
  rw [invalidateOne]
  split
  · exact setStatus_of_ne tasks .skipped isOther
  · rfl

theorem local_readyVisit (graph : TaskGraph) : Local graph.readyVisit := by
  intro tasks id other isOther
  rw [readyVisit, readyOne]
  split
  · rfl
  · split
    · exact setStatus_of_ne tasks .skipped isOther
    · split
      · rfl
      · simp only
        split
        · exact setStatus_of_ne tasks .ready isOther
        · rfl

/-- A visit of `ready_tasks` leaves a task as it was, or skips it, or marks it ready. -/
theorem readyVisit_cases (graph : TaskGraph) (tasks : TaskMap) (id : String) :
    graph.readyVisit tasks id id = tasks id ∨
      ((tasks id).status = .pending ∨ (tasks id).status = .ready) ∧
        (graph.readyVisit tasks id id = { tasks id with status := .skipped } ∨
          graph.readyVisit tasks id id = { tasks id with status := .ready }) := by
  rw [readyVisit, readyOne]
  split
  · exact .inl rfl
  · rename_i isOpen
    have isOpen : (tasks id).status = .pending ∨ (tasks id).status = .ready := by
      by_contra isClosed
      exact isOpen (not_or.mp isClosed)
    split
    · exact .inr ⟨isOpen, .inl (setStatus_self tasks id .skipped)⟩
    · split
      · exact .inl rfl
      · simp only
        split
        · exact .inr ⟨isOpen, .inr (setStatus_self tasks id .ready)⟩
        · exact .inl rfl

/-- A visit of `invalidate_dependencies` leaves a task as it was or skips a pending one. -/
theorem invalidateOne_cases (graph : TaskGraph) (tasks : TaskMap) (id : String) :
    graph.invalidateOne tasks id id = tasks id ∨
      (tasks id).status = .pending ∧
        graph.invalidateOne tasks id id = { tasks id with status := .skipped } := by
  rw [invalidateOne]
  split
  · rename_i isBroken
    exact .inr ⟨isBroken.1, setStatus_self tasks id .skipped⟩
  · exact .inl rfl

end TaskGraph

end Aa.Sifter.Tasks
