import Aa.Sifter.Tasks.Executor

/-!
# Interleavings of the executor

Every interleaving ends, calls the worker at most once on a task and only when its
dependencies are done, and leaves the tasks that the waves determine.
-/

namespace Aa.Sifter.Tasks

open Aa.Library

/-- The task may still be run. -/
def Task.Open (task : Task) : Prop := task.status = .pending ∨ task.status = .ready

instance (task : Task) : Decidable task.Open := inferInstanceAs (Decidable (_ ∨ _))

namespace TaskGraph

variable {graph : TaskGraph}

theorem not_broken_of_satisfied {tasks : TaskMap} {id : String}
    (satisfied : graph.Satisfied tasks id) : ¬ graph.Broken tasks id := by
  rintro ⟨dep, isDep, isFailed | isSkipped⟩
  · simp [satisfied dep isDep] at isFailed
  · simp [satisfied dep isDep] at isSkipped

/-! ## Finding the ready tasks -/

/-- A visit neither finishes a task nor undoes one. -/
theorem readyVisit_done_iff (tasks : TaskMap) (id other : String) :
    (graph.readyVisit tasks id other).status = .done ↔ (tasks other).status = .done := by
  by_cases isOther : other = id
  · subst isOther
    rcases graph.readyVisit_cases tasks other with same | ⟨isOpen, skips | marks⟩
    · rw [same]
    · rcases isOpen with isPending | isReady
      · simp [skips, isPending]
      · simp [skips, isReady]
    · rcases isOpen with isPending | isReady
      · simp [marks, isPending]
      · simp [marks, isReady]
  · rw [graph.local_readyVisit tasks id other isOther]

theorem foldl_readyVisit_done_iff (ids : List String) (tasks : TaskMap) (other : String) :
    (ids.foldl graph.readyVisit tasks other).status = .done ↔ (tasks other).status = .done := by
  induction ids generalizing tasks with
  | nil => rfl
  | cons first rest ih => rw [List.foldl_cons, ih, readyVisit_done_iff]

theorem foldl_readyVisit_satisfied_iff (ids : List String) (tasks : TaskMap) (id : String) :
    graph.Satisfied (ids.foldl graph.readyVisit tasks) id ↔ graph.Satisfied tasks id := by
  constructor
  · intro satisfied dep isDep
    exact (foldl_readyVisit_done_iff ids tasks dep).mp (satisfied dep isDep)
  · intro satisfied dep isDep
    exact (foldl_readyVisit_done_iff ids tasks dep).mpr (satisfied dep isDep)

/-- A visit finds a task exactly when it leaves it ready with its dependencies done. -/
theorem readyOne_fst (found : List String × TaskMap) (id : String) :
    (graph.readyOne found id).1 =
      found.1 ++ if (graph.readyVisit found.2 id id).status = .ready ∧ graph.Satisfied found.2 id
        then [id] else [] := by
  simp only [readyVisit, readyOne]
  by_cases isClosed : (found.2 id).status ≠ .pending ∧ (found.2 id).status ≠ .ready
  · simp [isClosed]
  · by_cases isBroken : graph.Broken found.2 id
    · have notSatisfied : ¬ graph.Satisfied found.2 id := fun satisfied =>
        not_broken_of_satisfied satisfied isBroken
      simp [isClosed, isBroken, notSatisfied]
    · by_cases isSatisfied : graph.Satisfied found.2 id
      · by_cases isPending : (found.2 id).status = .pending
        · simp [isBroken, isSatisfied, isPending]
        · have isReady : (found.2 id).status = .ready := by
            by_contra notReady
            exact isClosed ⟨isPending, notReady⟩
          simp [isBroken, isSatisfied, isReady]
      · simp [isClosed, isBroken, isSatisfied]

/-- The tasks found are those that end up ready with their dependencies done. -/
theorem readyTasks_fst (graph : TaskGraph) (tasks : TaskMap) :
    (graph.readyTasks tasks).1 =
      graph.ids.filter fun id => ((graph.readyTasks tasks).2 id).status = .ready ∧
        graph.Satisfied (graph.readyTasks tasks).2 id := by
  have general : ∀ (ids : List String) (found : List String × TaskMap), ids.Nodup →
      (ids.foldl graph.readyOne found).1 = found.1 ++ ids.filter fun id =>
        (ids.foldl graph.readyVisit found.2 id).status = .ready ∧
          graph.Satisfied (ids.foldl graph.readyVisit found.2) id := by
    intro ids
    induction ids with
    | nil => intro found _; simp
    | cons first rest ih =>
        intro found nodup
        rcases List.nodup_cons.mp nodup with ⟨notLater, restNodup⟩
        have isFirst : rest.foldl graph.readyVisit (graph.readyVisit found.2 first) first =
            graph.readyVisit found.2 first first :=
          graph.local_readyVisit.foldl_of_not_mem notLater
        have satisfied : graph.Satisfied
            (rest.foldl graph.readyVisit (graph.readyVisit found.2 first)) first ↔
              graph.Satisfied found.2 first :=
          foldl_readyVisit_satisfied_iff (first :: rest) found.2 first
        simp only [List.foldl_cons]
        rw [ih _ restNodup, readyOne_snd, readyOne_fst, List.filter_cons]
        simp only [isFirst, satisfied, decide_eq_true_eq]
        split
        · rw [List.append_assoc, List.singleton_append]
          rfl
        · rw [List.append_nil]
          rfl
  have isFound := general graph.ids ([], tasks) graph.nodup
  rw [readyTasks_snd]
  simpa [readyTasks] using isFound

variable {tasks marked : TaskMap} {ready : List String}

theorem mem_ready (found : graph.readyTasks tasks = (ready, marked)) {id : String} :
    id ∈ ready ↔ id ∈ graph.ids ∧ (marked id).status = .ready ∧ graph.Satisfied marked id := by
  have isFound := graph.readyTasks_fst tasks
  rw [found] at isFound
  simp only at isFound
  rw [isFound]
  simp

theorem ready_nodup (found : graph.readyTasks tasks = (ready, marked)) : ready.Nodup := by
  have isFound := graph.readyTasks_fst tasks
  rw [found] at isFound
  simp only at isFound
  rw [isFound]
  exact graph.nodup.filter _

/-- Looking for ready tasks opens none. -/
theorem open_of_marked (found : graph.readyTasks tasks = (ready, marked)) {id : String}
    (isOpen : (marked id).Open) : (tasks id).Open := by
  have isMarked : marked = graph.ids.foldl graph.readyVisit tasks := by
    rw [← readyTasks_snd, found]
  subst isMarked
  clear found
  revert isOpen
  induction graph.ids generalizing tasks with
  | nil => exact fun isOpen => isOpen
  | cons first rest ih =>
      intro isOpen
      have isOpen := ih isOpen
      by_cases isFirst : id = first
      · subst isFirst
        rcases graph.readyVisit_cases tasks id with same | ⟨wasOpen, _⟩
        · rwa [same] at isOpen
        · exact wasOpen
      · rwa [graph.local_readyVisit tasks first id isFirst] at isOpen

theorem open_of_invalidated {id : String} (isOpen : (graph.invalidateDependencies tasks id).Open) :
    (tasks id).Open := by
  rw [invalidateDependencies] at isOpen
  revert isOpen
  induction graph.ids generalizing tasks with
  | nil => exact fun isOpen => isOpen
  | cons first rest ih =>
      intro isOpen
      have isOpen := ih isOpen
      by_cases isFirst : id = first
      · subst isFirst
        rcases graph.invalidateOne_cases tasks id with same | ⟨wasPending, _⟩
        · rwa [same] at isOpen
        · exact .inl wasPending
      · rwa [graph.local_invalidateOne tasks first id isFirst] at isOpen

end TaskGraph

/-! ## Tasks that are open -/

namespace Task

theorem not_open_begin (task : Task) : ¬ task.begin.Open := by
  simp [Open, begin]

theorem open_of_finish {task : Task} {outcome : Outcome} (isOpen : (task.finish outcome).Open) :
    task.Open := by
  cases outcome with
  | approvalRequired reason => simp [Open, finish] at isOpen
  | raises error => simp [Open, finish] at isOpen
  | returns result =>
      by_cases isRunning : task.status = .running
      · simp [Open, finish, isRunning] at isOpen
      · simpa [Open, finish, isRunning] using isOpen

end Task

/-- No move opens a task. -/
theorem Execution.open_of_step {graph : TaskGraph} {outcome : String → Outcome}
    {maxConcurrency : ℕ} {execution : Execution} {move : Move} {id : String}
    (isOpen : ((execution.step graph outcome maxConcurrency move).1.tasks id).Open) :
    (execution.tasks id).Open := by
  cases move with
  | proceed =>
      simp only [Execution.step] at isOpen
      split at isOpen
      · split at isOpen
        · split at isOpen
          · rename_i found
            exact graph.open_of_marked found isOpen
          · rename_i found
            exact graph.open_of_marked found isOpen
        · exact isOpen
      · exact graph.open_of_invalidated isOpen
      · exact isOpen
  | start other =>
      simp only [Execution.step] at isOpen
      split at isOpen
      · split at isOpen
        · by_cases isOther : id = other
          · subst isOther
            simp only [Function.update_self] at isOpen
            exact absurd isOpen (Task.not_open_begin _)
          · simpa [Function.update_of_ne isOther] using isOpen
        · exact isOpen
      · exact isOpen
  | finish other =>
      simp only [Execution.step] at isOpen
      split at isOpen
      · split at isOpen
        · by_cases isOther : id = other
          · subst isOther
            simp only [Function.update_self] at isOpen
            exact Task.open_of_finish isOpen
          · simpa [Function.update_of_ne isOther] using isOpen
        · exact isOpen
      · exact isOpen

/-! ## What an interleaving reaches -/

variable {graph : TaskGraph} {outcome : String → Outcome} {maxConcurrency : ℕ}

/-- In the middle of a wave: the tasks that wait for the gate are as they were marked, those
that run have begun, and all others are as the wave leaves them. -/
structure Gathering (outcome : String → Outcome) (marked : TaskMap)
    (ready waiting running : List String) (tasks : TaskMap) : Prop where
  nodup : (waiting ++ running).Nodup
  ofWave : ∀ id ∈ waiting ++ running, id ∈ ready
  isTask : ∀ id, tasks id =
    if id ∈ waiting then marked id
    else if id ∈ running then (marked id).begin
    else settleWave outcome ready marked id

/-- Where an execution stands relative to the waves of its tasks. -/
inductive Reached (graph : TaskGraph) (outcome : String → Outcome) (start : TaskMap) :
    Execution → Prop
  | looping {tasks : TaskMap}
      (leads : ∀ after, Settles graph outcome tasks after → Settles graph outcome start after) :
      Reached graph outcome start ⟨tasks, .looping⟩
  | gathering {head tasks marked : TaskMap} {ready waiting running : List String}
      (leads : ∀ after, Settles graph outcome head after → Settles graph outcome start after)
      (isPending : graph.HasPending head) (found : graph.readyTasks head = (ready, marked))
      (nonempty : ready ≠ []) (gathering : Gathering outcome marked ready waiting running tasks) :
      Reached graph outcome start ⟨tasks, .gathering waiting running⟩
  | returned {tasks : TaskMap} (settles : Settles graph outcome start tasks) :
      Reached graph outcome start ⟨tasks, .returned⟩

namespace Gathering

variable {marked tasks : TaskMap} {ready waiting running : List String} {id : String}

theorem begin (ready : List String) (marked : TaskMap) (nodup : ready.Nodup) :
    Gathering outcome marked ready ready [] marked := by
  refine ⟨by simpa using nodup, by simp, ?_⟩
  intro id
  by_cases isReady : id ∈ ready
  · simp [isReady]
  · simp [settleWave, isReady]

theorem not_running (gathering : Gathering outcome marked ready waiting running tasks)
    (isWaiting : id ∈ waiting) : id ∉ running := fun isRunning =>
  (List.nodup_append.mp gathering.nodup).2.2 id isWaiting id isRunning rfl

theorem waiting_eq (gathering : Gathering outcome marked ready waiting running tasks)
    (isWaiting : id ∈ waiting) : tasks id = marked id := by
  rw [gathering.isTask, if_pos isWaiting]

theorem start (gathering : Gathering outcome marked ready waiting running tasks)
    (isWaiting : id ∈ waiting) :
    Gathering outcome marked ready (waiting.erase id) (running ++ [id])
      (Function.update tasks id (tasks id).begin) := by
  have perm : (waiting.erase id ++ (running ++ [id])).Perm (waiting ++ running) := by
    refine List.perm_append_comm.trans ?_
    rw [List.append_assoc]
    exact ((List.perm_cons_erase isWaiting).symm.append_left running).trans List.perm_append_comm
  refine ⟨perm.nodup_iff.mpr gathering.nodup,
    fun other isThere => gathering.ofWave other (perm.mem_iff.mp isThere), ?_⟩
  intro other
  by_cases isOther : other = id
  · subst isOther
    have notWaiting : other ∉ waiting.erase other :=
      (List.nodup_append.mp gathering.nodup).1.not_mem_erase
    simp [notWaiting, gathering.waiting_eq isWaiting]
  · rw [Function.update_of_ne isOther, gathering.isTask]
    simp [List.mem_erase_of_ne isOther, isOther]

theorem finish (gathering : Gathering outcome marked ready waiting running tasks)
    (isRunning : id ∈ running) :
    Gathering outcome marked ready waiting (running.erase id)
      (Function.update tasks id ((tasks id).finish (outcome id))) := by
  have notWaiting : id ∉ waiting := fun isWaiting => gathering.not_running isWaiting isRunning
  have sublist : (waiting ++ running.erase id).Sublist (waiting ++ running) :=
    (List.Sublist.refl waiting).append List.erase_sublist
  refine ⟨gathering.nodup.sublist sublist,
    fun other isThere => gathering.ofWave other (sublist.subset isThere), ?_⟩
  intro other
  by_cases isOther : other = id
  · subst isOther
    have notRunning : other ∉ running.erase other :=
      (List.nodup_append.mp gathering.nodup).2.1.not_mem_erase
    have isReady := gathering.ofWave other (List.mem_append_right _ isRunning)
    rw [Function.update_self, if_neg notWaiting, if_neg notRunning, gathering.isTask,
      if_neg notWaiting, if_pos isRunning, settleWave, if_pos isReady]
  · rw [Function.update_of_ne isOther, gathering.isTask]
    simp [List.mem_erase_of_ne isOther]

theorem settled (gathering : Gathering outcome marked ready [] [] tasks) :
    tasks = settleWave outcome ready marked := by
  funext id
  simpa using gathering.isTask id

end Gathering

namespace Reached

variable {start : TaskMap} {execution : Execution}

theorem begin (start : TaskMap) : Reached graph outcome start (.begin start) :=
  .looping fun _ settles => settles

/-- Every move of an execution follows the waves. -/
theorem step (reached : Reached graph outcome start execution) (move : Move) :
    Reached graph outcome start (execution.step graph outcome maxConcurrency move).1 := by
  cases reached with
  | @looping tasks leads =>
      cases move with
      | proceed =>
          simp only [Execution.step]
          split
          · rename_i isPending
            split
            · rename_i after noneReady
              exact .returned (leads _ (.stuck isPending noneReady))
            · rename_i ready marked notEmpty found
              exact .gathering leads isPending found (fun isEmpty => notEmpty (by rw [isEmpty]))
                (.begin ready marked (graph.ready_nodup found))
          · rename_i nonePending
            exact .returned (leads _ (.finished nonePending))
      | start id => exact .looping leads
      | finish id => exact .looping leads
  | @gathering head tasks marked ready waiting running leads isPending found nonempty gathering =>
      have stays : Reached graph outcome start ⟨tasks, .gathering waiting running⟩ :=
        .gathering leads isPending found nonempty gathering
      cases move with
      | proceed =>
          simp only [Execution.step]
          split
          · rename_i isPhase
            cases isPhase
          · rename_i isPhase
            cases isPhase
            refine .looping fun after settles => leads after ?_
            rw [gathering.settled] at settles
            exact .wave isPending found nonempty settles
          · exact stays
      | start id =>
          simp only [Execution.step]
          split
          · rename_i canStart
            exact .gathering leads isPending found nonempty (gathering.start canStart.1)
          · exact stays
      | finish id =>
          simp only [Execution.step]
          split
          · rename_i isRunning
            exact .gathering leads isPending found nonempty (gathering.finish isRunning)
          · exact stays
  | @returned tasks settles =>
      cases move with
      | proceed => exact .returned settles
      | start id => exact .returned settles
      | finish id => exact .returned settles

/-- The worker is called on a task that is ready and whose dependencies are done. -/
theorem invoked (reached : Reached graph outcome start execution) {move : Move} {id : String}
    (isInvoked : (execution.step graph outcome maxConcurrency move).2 = some (.invoked id)) :
    (execution.tasks id).Open ∧ graph.Satisfied execution.tasks id ∧
      ((execution.step graph outcome maxConcurrency move).1.tasks id).status = .running := by
  cases move with
  | proceed =>
      simp only [Execution.step] at isInvoked
      split at isInvoked
      · split at isInvoked
        · split at isInvoked <;> cases isInvoked
        · cases isInvoked
      · cases isInvoked
      · cases isInvoked
  | finish other =>
      simp only [Execution.step] at isInvoked
      split at isInvoked
      · split at isInvoked <;> cases isInvoked
      · cases isInvoked
  | start other =>
      cases reached with
      | looping leads => cases isInvoked
      | returned settles => cases isInvoked
      | @gathering head tasks marked ready waiting running leads isPending found nonempty
          gathering =>
          simp only [Execution.step] at isInvoked ⊢
          split at isInvoked
          · rename_i canStart
            cases isInvoked
            have isReady := (graph.mem_ready found).mp
              (gathering.ofWave id (List.mem_append_left _ canStart.1))
            refine ⟨?_, ?_, ?_⟩
            · rw [gathering.waiting_eq canStart.1]
              exact .inr isReady.2.1
            · intro dep isDep
              have isDone := isReady.2.2 dep isDep
              have notReady : dep ∉ ready := by
                intro inWave
                simp [((graph.mem_ready found).mp inWave).2.1] at isDone
              have notWaiting : dep ∉ waiting := fun isWaiting =>
                notReady (gathering.ofWave dep (List.mem_append_left _ isWaiting))
              have notRunning : dep ∉ running := fun isRunning =>
                notReady (gathering.ofWave dep (List.mem_append_right _ isRunning))
              rw [gathering.isTask, if_neg notWaiting, if_neg notRunning, settleWave,
                if_neg notReady]
              exact isDone
            · simp [if_pos canStart, Task.begin]
          · cases isInvoked

/-- An execution that has returned leaves what the waves determine. -/
theorem settles (reached : Reached graph outcome start execution)
    (returned : execution.phase = .returned) : Settles graph outcome start execution.tasks := by
  cases reached with
  | looping leads => cases returned
  | gathering leads isPending found nonempty gathering => cases returned
  | returned settles => exact settles

/-- An execution that has not returned can move. -/
theorem moves (reached : Reached graph outcome start execution) (atLeastOne : 1 ≤ maxConcurrency) :
    execution.phase = .returned ∨
      ∃ move, (execution.step graph outcome maxConcurrency move).2 ≠ none := by
  cases reached with
  | @looping tasks leads =>
      refine .inr ⟨.proceed, ?_⟩
      simp only [Execution.step]
      split
      · split <;> simp
      · simp
  | returned settles => exact .inl rfl
  | @gathering head tasks marked ready waiting running leads isPending found nonempty gathering =>
      right
      cases running with
      | cons id rest => exact ⟨.finish id, by simp [Execution.step]⟩
      | nil =>
          cases waiting with
          | nil => exact ⟨.proceed, by simp [Execution.step]⟩
          | cons id rest =>
              have isFree : 0 < maxConcurrency := by omega
              exact ⟨.start id, by simp [Execution.step, isFree]⟩

end Reached

/-- A move that is not possible changes nothing. -/
theorem Execution.step_none {execution : Execution} {move : Move}
    (isNone : (execution.step graph outcome maxConcurrency move).2 = none) :
    (execution.step graph outcome maxConcurrency move).1 = execution := by
  cases move with
  | proceed =>
      simp only [Execution.step] at isNone ⊢
      split at isNone
      · split at isNone
        · split at isNone <;> cases isNone
        · cases isNone
      · cases isNone
      · rfl
  | start id =>
      simp only [Execution.step] at isNone ⊢
      split at isNone
      · split at isNone
        · cases isNone
        · rename_i cannot
          rw [if_neg cannot]
      · rfl
  | finish id =>
      simp only [Execution.step] at isNone ⊢
      split at isNone
      · split at isNone
        · cases isNone
        · rename_i cannot
          rw [if_neg cannot]
      · rfl

/-! ## How long an interleaving is -/

/-- The open tasks of a graph apart from some. -/
def TaskGraph.openCount (graph : TaskGraph) (tasks : TaskMap) (others : List String) : ℕ :=
  graph.ids.countP fun id => (tasks id).Open ∧ id ∉ others

/-- A bound for the moves that are left. -/
def Execution.measure (graph : TaskGraph) (execution : Execution) : ℕ :=
  match execution.phase with
  | .looping => 4 * graph.openCount execution.tasks [] + 1
  | .gathering waiting running =>
      4 * graph.openCount execution.tasks waiting + 2 * waiting.length + running.length + 2
  | .returned => 0

namespace TaskGraph

variable {tasks after marked : TaskMap} {ready others otherwise : List String}

theorem openCount_mono (fewer : ∀ id, (after id).Open → id ∉ otherwise →
    (tasks id).Open ∧ id ∉ others) :
    graph.openCount after otherwise ≤ graph.openCount tasks others := by
  refine List.countP_mono_left fun id _ isCounted => ?_
  simp only [decide_eq_true_eq] at isCounted ⊢
  exact fewer id isCounted.1 isCounted.2

theorem openCount_le (graph : TaskGraph) (tasks : TaskMap) (others : List String) :
    graph.openCount tasks others ≤ graph.ids.length := List.countP_le_length

/-- The tasks found and the tasks that stay open were open before. -/
theorem openCount_marked (found : graph.readyTasks tasks = (ready, marked)) :
    graph.openCount marked ready + ready.length ≤ graph.openCount tasks [] := by
  have isReady : ready = graph.ids.filter fun id => id ∈ ready := by
    have isFound := graph.readyTasks_fst tasks
    rw [found] at isFound
    simp only at isFound
    conv_lhs => rw [isFound]
    refine List.filter_congr fun id isThere => ?_
    simp only [mem_ready found, isThere, true_and]
  have split : ∀ ids : List String,
      (ids.countP fun id => (marked id).Open ∧ id ∉ ready) + (ids.filter fun id => id ∈ ready).length ≤
        ids.countP fun id => (tasks id).Open ∧ id ∉ ([] : List String) := by
    intro ids
    induction ids with
    | nil => simp
    | cons id rest ih =>
        rw [List.countP_cons, List.countP_cons, List.filter_cons]
        by_cases inWave : id ∈ ready
        · have isOpen : (tasks id).Open :=
            open_of_marked found (.inr ((mem_ready found).mp inWave).2.1)
          simp [inWave, isOpen] at ih ⊢
          omega
        · by_cases isOpen : (marked id).Open
          · have wasOpen : (tasks id).Open := open_of_marked found isOpen
            simp [inWave, isOpen, wasOpen] at ih ⊢
            omega
          · simp [inWave, isOpen] at ih ⊢
            omega
  calc graph.openCount marked ready + ready.length
    _ = graph.openCount marked ready + (graph.ids.filter fun id => id ∈ ready).length := by
        rw [← isReady]
    _ ≤ graph.openCount tasks [] := split graph.ids

end TaskGraph

/-- Every move that is possible leaves fewer. -/
theorem Execution.measure_step {execution : Execution} {move : Move} {event : ExecutorEvent}
    (isEvent : (execution.step graph outcome maxConcurrency move).2 = some event) :
    (execution.step graph outcome maxConcurrency move).1.measure graph + 1 ≤
      execution.measure graph := by
  rcases execution with ⟨tasks, phase⟩
  cases phase with
  | returned => cases move <;> cases isEvent
  | looping =>
      cases move with
      | start id => cases isEvent
      | finish id => cases isEvent
      | proceed =>
          simp only [Execution.step]
          split
          · split
            · simp [measure]
            · rename_i ready marked notEmpty found
              have counted := graph.openCount_marked found
              have positive : 0 < ready.length :=
                List.length_pos_iff.mpr fun isEmpty => notEmpty (by rw [isEmpty])
              simp only [measure, List.length_nil]
              omega
          · simp [measure]
  | gathering waiting running =>
      cases move with
      | proceed =>
          simp only [Execution.step] at isEvent ⊢
          split at isEvent
          · rename_i isPhase
            cases isPhase
          · rename_i isPhase
            cases isPhase
            have fewer : graph.openCount (graph.invalidateDependencies tasks) [] ≤
                graph.openCount tasks [] :=
              graph.openCount_mono fun id isOpen _ => ⟨graph.open_of_invalidated isOpen, by simp⟩
            simp only [measure, List.length_nil]
            omega
          · cases isEvent
      | start id =>
          simp only [Execution.step] at isEvent ⊢
          split at isEvent
          · rename_i canStart
            rw [if_pos canStart]
            have fewer : graph.openCount (Function.update tasks id (tasks id).begin)
                (waiting.erase id) ≤ graph.openCount tasks waiting := by
              refine graph.openCount_mono fun other isOpen notWaiting => ?_
              by_cases isOther : other = id
              · subst isOther
                rw [Function.update_self] at isOpen
                exact absurd isOpen (Task.not_open_begin _)
              · rw [Function.update_of_ne isOther] at isOpen
                exact ⟨isOpen, fun isWaiting =>
                  notWaiting ((List.mem_erase_of_ne isOther).mpr isWaiting)⟩
            have shorter := List.length_erase_of_mem canStart.1
            have positive := List.length_pos_of_mem canStart.1
            simp only [measure, List.length_append, List.length_singleton]
            omega
          · cases isEvent
      | finish id =>
          simp only [Execution.step] at isEvent ⊢
          split at isEvent
          · rename_i isRunning
            rw [if_pos isRunning]
            have fewer : graph.openCount
                (Function.update tasks id ((tasks id).finish (outcome id))) waiting ≤
                graph.openCount tasks waiting := by
              refine graph.openCount_mono fun other isOpen notWaiting => ⟨?_, notWaiting⟩
              by_cases isOther : other = id
              · subst isOther
                rw [Function.update_self] at isOpen
                exact Task.open_of_finish isOpen
              · rwa [Function.update_of_ne isOther] at isOpen
            have shorter := List.length_erase_of_mem isRunning
            have positive := List.length_pos_of_mem isRunning
            simp only [measure]
            omega
          · cases isEvent

/-! ## Runs -/

theorem reached_run (graph : TaskGraph) (outcome : String → Outcome) (maxConcurrency : ℕ)
    (tasks : TaskMap) (moves : List Move) :
    Reached graph outcome tasks
      ((executor graph outcome maxConcurrency).run (.begin tasks) moves) :=
  Machine.run_invariant (fun _ move reached => reached.step move) (.begin tasks)

/-- The moves made and the moves left are no more than at the start. -/
theorem length_moves_le (graph : TaskGraph) (outcome : String → Outcome) (maxConcurrency : ℕ)
    (execution : Execution) (moves : List Move) :
    (((executor graph outcome maxConcurrency).steps execution moves).filterMap (·.output)).length +
        ((executor graph outcome maxConcurrency).run execution moves).measure graph ≤
      execution.measure graph := by
  induction moves generalizing execution with
  | nil => simp
  | cons move rest ih =>
      have later := ih ((executor graph outcome maxConcurrency).step execution move).1
      rw [Machine.steps_cons, Machine.run_cons, List.filterMap_cons]
      cases isEvent : (execution.step graph outcome maxConcurrency move).2 with
      | none =>
          have stays : (execution.step graph outcome maxConcurrency move).1.measure graph ≤
              execution.measure graph :=
            Nat.le_of_eq (by rw [execution.step_none isEvent])
          simp only [Machine.stepAt, executor, isEvent] at later ⊢
          omega
      | some event =>
          have fewer := Execution.measure_step isEvent
          simp only [Machine.stepAt, executor, isEvent, List.length_cons] at later ⊢
          omega

/-- What a step of a run owes to the steps before it: a worker call is the first on its
task, whose dependencies are done. -/
def FirstCall (graph : TaskGraph)
    (past : List (Machine.Step Execution Move (Option ExecutorEvent)))
    (step : Machine.Step Execution Move (Option ExecutorEvent)) : Prop :=
  ∀ id, step.output = some (.invoked id) → graph.Satisfied step.before.tasks id ∧
    ∀ earlier ∈ past, earlier.output ≠ some (.invoked id)

theorem first_calls (graph : TaskGraph) (outcome : String → Outcome) (maxConcurrency : ℕ)
    (tasks : TaskMap) (moves : List Move) :
    Guarded (FirstCall graph) []
      ((executor graph outcome maxConcurrency).steps (.begin tasks) moves) := by
  refine Machine.guarded_steps (fun past execution => Reached graph outcome tasks execution ∧
    ∀ earlier ∈ past, ∀ id, earlier.output = some (.invoked id) →
      ¬ (execution.tasks id).Open) (fun _ => True) ?_ ⟨.begin tasks, by simp⟩ (fun _ _ => trivial)
  rintro past execution move _ _ ⟨reached, called⟩
  refine ⟨?_, reached.step move, ?_⟩
  · intro id isInvoked
    rcases reached.invoked isInvoked with ⟨isOpen, satisfied, _⟩
    exact ⟨satisfied, fun earlier isPast alsoInvoked => called earlier isPast id alsoInvoked isOpen⟩
  · intro earlier isThere id isInvoked isOpen
    rcases List.mem_append.mp isThere with isPast | isNow
    · exact called earlier isPast id isInvoked (Execution.open_of_step isOpen)
    · cases List.mem_singleton.mp isNow
      have isRunning := (reached.invoked isInvoked).2.2
      have isOpen : ((execution.step graph outcome maxConcurrency move).1.tasks id).Open := isOpen
      simp [Task.Open, isRunning] at isOpen

/-- Every interleaving of the executor makes a bounded number of moves and can move until it
returns; it calls the worker at most once on a task and only when the dependencies of the
task are done; and any two interleavings that return, under any limits, leave the same tasks. -/
theorem scheduled_safely (graph : TaskGraph) (outcome : String → Outcome) (tasks : TaskMap)
    {maxConcurrency : ℕ} (atLeastOne : 1 ≤ maxConcurrency) (moves : List Move) :
    let steps := (executor graph outcome maxConcurrency).steps (.begin tasks) moves
    let final := (executor graph outcome maxConcurrency).run (.begin tasks) moves
    (steps.filterMap (·.output)).length ≤ 4 * graph.ids.length + 1 ∧
    (final.phase = .returned ∨
      ∃ move, (final.step graph outcome maxConcurrency move).2 ≠ none) ∧
    (invocations steps).Nodup ∧
    (∀ step ∈ steps, ∀ id, step.output = some (.invoked id) →
      ∀ dep ∈ graph.dependencies id, (step.before.tasks dep).status = .done) ∧
    ∀ (otherLimit : ℕ) (otherMoves : List Move), 1 ≤ otherLimit → final.phase = .returned →
      ((executor graph outcome otherLimit).run (.begin tasks) otherMoves).phase = .returned →
      ((executor graph outcome otherLimit).run (.begin tasks) otherMoves).tasks = final.tasks := by
  have reached := reached_run graph outcome maxConcurrency tasks moves
  have guarded := first_calls graph outcome maxConcurrency tasks moves
  refine ⟨?_, reached.moves atLeastOne, ?_, ?_, ?_⟩
  · have bounded := length_moves_le graph outcome maxConcurrency (.begin tasks) moves
    have counted := graph.openCount_le tasks []
    simp only [Execution.begin, Execution.measure] at bounded ⊢
    omega
  · have distinct := (pairwise_of_guarded guarded
      (fun past step first earlier isPast => fun id isInvoked =>
        (first id isInvoked).2 earlier isPast)).1
    refine distinct.filterMap _ ?_
    intro earlier later differs first isFirst second isSecond same
    subst same
    split at isFirst
    · rename_i firstId isFirstId
      cases isFirst
      split at isSecond
      · rename_i secondId isSecondId
        cases isSecond
        exact differs _ isSecondId isFirstId
      · cases isSecond
    · cases isFirst
  · intro step isStep id isInvoked
    rcases List.append_of_mem isStep with ⟨before, after, isSplit⟩
    rw [isSplit] at guarded
    exact ((guarded_append.mp guarded).2.1 id isInvoked).1
  · intro otherLimit otherMoves _ returned otherReturned
    exact ((reached_run graph outcome otherLimit tasks otherMoves).settles otherReturned).unique
      (reached.settles returned)

/-- A task that two others depend on. -/
def fork : TaskGraph where
  ids := ["c", "a", "b"]
  dependencies
    | "b" => ["a"]
    | "c" => ["a"]
    | _ => []
  nodup := by decide
  closed := by decide

theorem fork_safely :
    let steps := (executor fork (fun _ => .returns "ok") 2).steps (.begin fun _ => {})
      [.proceed, .start "a", .finish "a", .proceed, .proceed, .start "b", .start "c", .finish "c"]
    (invocations steps).Nodup ∧
      ∀ step ∈ steps, ∀ id, step.output = some (.invoked id) →
        ∀ dep ∈ fork.dependencies id, (step.before.tasks dep).status = .done :=
  ⟨(scheduled_safely fork (fun _ => .returns "ok") (fun _ => {}) (by decide) _).2.2.1,
    (scheduled_safely fork (fun _ => .returns "ok") (fun _ => {}) (by decide) _).2.2.2.1⟩

end Aa.Sifter.Tasks
