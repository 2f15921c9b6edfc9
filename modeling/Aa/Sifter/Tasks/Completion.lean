import Mathlib.Data.Fintype.Card
import Mathlib.Data.Fintype.EquivFin
import Mathlib.Data.Fintype.Sets
import Mathlib.Logic.Relation
import Aa.Sifter.Tasks.Schedule

/-!
# What a run leaves of a graph

Which tasks run, and in which wave, depends on the graph and the outcomes of the worker only.
A failure is passed on to the tasks that depend on it by two passes for each wave, and a pass
carries it over any number of dependencies as long as each task was added after the one it
depends on.
-/

namespace Aa.Sifter.Tasks

open Aa.Library

namespace Outcome

def Succeeds : Outcome → Prop
  | .returns _ => True
  | _ => False

def Fails : Outcome → Prop
  | .raises _ => True
  | _ => False

instance : (outcome : Outcome) → Decidable outcome.Succeeds
  | .returns _ => isTrue trivial
  | .approvalRequired _ => isFalse id
  | .raises _ => isFalse id

instance : (outcome : Outcome) → Decidable outcome.Fails
  | .returns _ => isFalse id
  | .approvalRequired _ => isFalse id
  | .raises _ => isTrue trivial

end Outcome

namespace Task

/-- A task after its one execution. -/
def executed (outcome : Outcome) (task : Task) : Task := task.begin.finish outcome

/-- A task that is skipped. -/
def skip (task : Task) : Task := { task with status := .skipped }

variable {outcome : Outcome} {task : Task}

theorem executed_done_iff : (task.executed outcome).status = .done ↔ outcome.Succeeds := by
  cases outcome <;> simp [executed, begin, finish, Outcome.Succeeds]

theorem executed_failed_iff : (task.executed outcome).status = .failed ↔ outcome.Fails := by
  cases outcome <;> simp [executed, begin, finish, Outcome.Fails]

theorem executed_blocked_iff : (task.executed outcome).status = .blockedApproval ↔
    ¬ outcome.Succeeds ∧ ¬ outcome.Fails := by
  cases outcome <;> simp [executed, begin, finish, Outcome.Succeeds, Outcome.Fails]

theorem executed_closed (outcome : Outcome) (task : Task) :
    (task.executed outcome).status ≠ .pending ∧ (task.executed outcome).status ≠ .ready ∧
      (task.executed outcome).status ≠ .skipped := by
  cases outcome <;> simp [executed, begin, finish]

end Task

namespace TaskGraph

variable (graph : TaskGraph) (outcome : String → Outcome)

/-- A task of the graph and one that it depends on. -/
def DependsOn (id dep : String) : Prop := id ∈ graph.ids ∧ dep ∈ graph.dependencies id

def Acyclic : Prop := ∀ id, ¬ Relation.TransGen graph.DependsOn id id

/-- The task runs in one of the first waves: its dependencies all did before, and returned. -/
def RunsBy : ℕ → String → Prop
  | 0, _ => False
  | waves + 1, id => id ∈ graph.ids ∧
      ∀ dep ∈ graph.dependencies id, RunsBy waves dep ∧ (outcome dep).Succeeds

/-- Some task runs in the wave and in none before. -/
def HasWave (wave : ℕ) : Prop :=
  ∃ id, graph.RunsBy outcome wave id ∧ ¬ graph.RunsBy outcome (wave - 1) id

/-- A chain of dependencies from a task that fails. It starts at twice a wave by which that
task runs, and goes up by one with each task that was added before the one it depends on,
the first task after the failure apart. -/
inductive Chain : ℕ → String → Prop
  | start {wave : ℕ} {id failed : String} (dependsOn : graph.DependsOn id failed)
      (runs : graph.RunsBy outcome wave failed) (fails : (outcome failed).Fails) :
      Chain (2 * wave) id
  | link {height : ℕ} {id dep : String} (chain : Chain height dep)
      (dependsOn : graph.DependsOn id dep) :
      Chain (if graph.ids.idxOf dep < graph.ids.idxOf id then height else height + 1) id

/-- Every task with a chain from a failure has one that the passes up to some wave of the
graph cover. -/
def FailuresReach : Prop :=
  ∀ id height, graph.Chain outcome height id →
    ∃ lower wave, graph.Chain outcome lower id ∧ graph.HasWave outcome wave ∧ lower ≤ 2 * wave + 1

variable {graph outcome}

namespace RunsBy

variable {waves : ℕ} {id dep : String}

theorem mem (runs : graph.RunsBy outcome waves id) : id ∈ graph.ids := by
  cases waves with
  | zero => exact runs.elim
  | succ waves => exact runs.1

theorem succ (runs : graph.RunsBy outcome waves id) : graph.RunsBy outcome (waves + 1) id := by
  induction waves generalizing id with
  | zero => exact runs.elim
  | succ waves ih => exact ⟨runs.1, fun dep isDep => ⟨ih (runs.2 dep isDep).1, (runs.2 dep isDep).2⟩⟩

theorem mono {more : ℕ} (runs : graph.RunsBy outcome waves id) (isMore : waves ≤ more) :
    graph.RunsBy outcome more id := by
  induction isMore with
  | refl => exact runs
  | step _ ih => exact ih.succ

theorem dependency (runs : graph.RunsBy outcome waves id) (dependsOn : graph.DependsOn id dep) :
    graph.RunsBy outcome waves dep ∧ (outcome dep).Succeeds := by
  cases waves with
  | zero => exact runs.elim
  | succ waves => exact ⟨(runs.2 dep dependsOn.2).1.succ, (runs.2 dep dependsOn.2).2⟩

theorem transitive (runs : graph.RunsBy outcome waves id)
    (dependsOn : Relation.TransGen graph.DependsOn id dep) :
    graph.RunsBy outcome waves dep ∧ (outcome dep).Succeeds := by
  induction dependsOn with
  | single first => exact runs.dependency first
  | tail _ last ih => exact ih.1.dependency last

end RunsBy

namespace Chain

variable {height : ℕ} {id : String}

theorem mem (chain : graph.Chain outcome height id) : id ∈ graph.ids := by
  cases chain with
  | start dependsOn _ _ => exact dependsOn.1
  | link _ dependsOn => exact dependsOn.1

theorem not_runsBy (chain : graph.Chain outcome height id) (waves : ℕ) :
    ¬ graph.RunsBy outcome waves id := by
  induction chain with
  | @start wave id failed dependsOn runs fails =>
      intro runsToo
      have succeeds := (runsToo.dependency dependsOn).2
      cases isOutcome : outcome failed <;> simp_all [Outcome.Succeeds, Outcome.Fails]
  | link _ dependsOn ih => exact fun runs => ih (runs.dependency dependsOn).1

theorem two_le (chain : graph.Chain outcome height id) : 2 ≤ height := by
  induction chain with
  | @start wave _ _ _ runs _ =>
      cases wave with
      | zero => exact runs.elim
      | succ wave => omega
  | link _ _ ih => split <;> omega

/-- A chain leads to a task that fails. -/
theorem failure (chain : graph.Chain outcome height id) :
    ∃ failed wave, Relation.TransGen graph.DependsOn id failed ∧
      graph.RunsBy outcome wave failed ∧ (outcome failed).Fails := by
  induction chain with
  | start dependsOn runs fails => exact ⟨_, _, .single dependsOn, runs, fails⟩
  | link _ dependsOn ih =>
      rcases ih with ⟨failed, wave, leads, runs, fails⟩
      exact ⟨failed, wave, .head dependsOn leads, runs, fails⟩

theorem of_failure {wave : ℕ} {failed : String}
    (dependsOn : Relation.TransGen graph.DependsOn id failed)
    (runs : graph.RunsBy outcome wave failed) (fails : (outcome failed).Fails) :
    ∃ height, graph.Chain outcome height id := by
  induction dependsOn using Relation.TransGen.head_induction_on with
  | single first => exact ⟨_, .start first runs fails⟩
  | head first _ ih =>
      rcases ih with ⟨height, chain⟩
      exact ⟨_, .link chain first⟩

end Chain

/-! ## Passes -/

/-- What the visits of both passes have in common. -/
structure SkipVisit (graph : TaskGraph) (visit : TaskMap → String → TaskMap) : Prop where
  isLocal : Local visit
  skips : ∀ tasks id, (tasks id).status = .pending → graph.Broken tasks id →
    visit tasks id id = (tasks id).skip
  keeps : ∀ tasks id, (tasks id).status ≠ .pending → (tasks id).status ≠ .ready →
    visit tasks id id = tasks id
  spares : ∀ tasks id, (tasks id).status = .pending → ¬ graph.Broken tasks id →
    (visit tasks id id).status = .pending ∨ (visit tasks id id).status = .ready

theorem skipVisit_invalidateOne (graph : TaskGraph) : SkipVisit graph graph.invalidateOne := by
  refine ⟨graph.local_invalidateOne, ?_, ?_, ?_⟩
  · intro tasks id isPending isBroken
    have hasDependencies : graph.dependencies id ≠ [] := by
      rcases isBroken with ⟨dep, isDep, _⟩
      exact List.ne_nil_of_mem isDep
    rw [invalidateOne, if_pos ⟨isPending, hasDependencies, isBroken⟩, setStatus_self, Task.skip]
  · intro tasks id notPending _
    rw [invalidateOne, if_neg (fun isBroken => notPending isBroken.1)]
  · intro tasks id isPending notBroken
    rw [invalidateOne, if_neg (fun isBroken => notBroken isBroken.2.2)]
    exact .inl isPending

theorem skipVisit_readyVisit (graph : TaskGraph) : SkipVisit graph graph.readyVisit := by
  refine ⟨graph.local_readyVisit, ?_, ?_, ?_⟩
  · intro tasks id isPending isBroken
    simp [readyVisit, readyOne, isPending, isBroken, Task.skip]
  · intro tasks id notPending notReady
    simp [readyVisit, readyOne, notPending, notReady]
  · intro tasks id isPending notBroken
    by_cases satisfied : graph.Satisfied tasks id
    · simp [readyVisit, readyOne, isPending, notBroken, satisfied]
    · simp [readyVisit, readyOne, isPending, notBroken, satisfied]

/-- The tasks after some waves and passes: those that ran are as they were executed, those
the passes reached from a failure are skipped, and the others are as they were. -/
structure Stage (graph : TaskGraph) (outcome : String → Outcome) (start : TaskMap)
    (passes waves : ℕ) (tasks : TaskMap) : Prop where
  ran : ∀ id, graph.RunsBy outcome waves id → tasks id = (start id).executed (outcome id)
  skipped : ∀ id height, graph.Chain outcome height id → height ≤ passes →
    tasks id = (start id).skip
  kept : ∀ id ∈ graph.ids, ¬ graph.RunsBy outcome waves id →
    (∀ height ≤ passes, ¬ graph.Chain outcome height id) → tasks id = start id

namespace Stage

variable {start tasks : TaskMap} {passes waves : ℕ} {id dep : String}

/-- A task of the graph ran, is skipped, or waits. -/
theorem trichotomy (stage : graph.Stage outcome start passes waves tasks) (isId : id ∈ graph.ids) :
    graph.RunsBy outcome waves id ∨
      (∃ height, graph.Chain outcome height id ∧ height ≤ passes) ∨ tasks id = start id := by
  by_cases runs : graph.RunsBy outcome waves id
  · exact .inl runs
  · by_cases reached : ∃ height, graph.Chain outcome height id ∧ height ≤ passes
    · exact .inr (.inl reached)
    · refine .inr (.inr (stage.kept id isId runs ?_))
      intro height isLow chain
      exact reached ⟨height, chain, isLow⟩

variable (pending : ∀ id ∈ graph.ids, (start id).status = .pending)
include pending

theorem done_iff (stage : graph.Stage outcome start passes waves tasks) (isId : id ∈ graph.ids) :
    (tasks id).status = .done ↔ graph.RunsBy outcome waves id ∧ (outcome id).Succeeds := by
  rcases stage.trichotomy isId with runs | ⟨height, chain, isLow⟩ | isKept
  · rw [stage.ran id runs, Task.executed_done_iff]
    simp [runs]
  · simp [stage.skipped id height chain isLow, Task.skip, chain.not_runsBy waves]
  · constructor
    · intro isDone
      simp [isKept, pending id isId] at isDone
    · rintro ⟨runs, succeeds⟩
      rwa [stage.ran id runs, Task.executed_done_iff]

theorem failed_iff (stage : graph.Stage outcome start passes waves tasks) (isId : id ∈ graph.ids) :
    (tasks id).status = .failed ↔ graph.RunsBy outcome waves id ∧ (outcome id).Fails := by
  rcases stage.trichotomy isId with runs | ⟨height, chain, isLow⟩ | isKept
  · rw [stage.ran id runs, Task.executed_failed_iff]
    simp [runs]
  · simp [stage.skipped id height chain isLow, Task.skip, chain.not_runsBy waves]
  · constructor
    · intro isFailed
      simp [isKept, pending id isId] at isFailed
    · rintro ⟨runs, fails⟩
      rwa [stage.ran id runs, Task.executed_failed_iff]

theorem skipped_iff (stage : graph.Stage outcome start passes waves tasks)
    (isId : id ∈ graph.ids) :
    (tasks id).status = .skipped ↔ ∃ height, graph.Chain outcome height id ∧ height ≤ passes := by
  constructor
  · intro isSkipped
    rcases stage.trichotomy isId with runs | reached | isKept
    · rw [stage.ran id runs] at isSkipped
      exact absurd isSkipped (Task.executed_closed _ _).2.2
    · exact reached
    · simp [isKept, pending id isId] at isSkipped
  · rintro ⟨height, chain, isLow⟩
    rw [stage.skipped id height chain isLow]
    rfl

theorem pending_iff (stage : graph.Stage outcome start passes waves tasks)
    (isId : id ∈ graph.ids) :
    (tasks id).status = .pending ↔ ¬ graph.RunsBy outcome waves id ∧
      ¬ ∃ height, graph.Chain outcome height id ∧ height ≤ passes := by
  rcases stage.trichotomy isId with runs | ⟨height, chain, isLow⟩ | isKept
  · simp [stage.ran id runs, (Task.executed_closed _ _).1, runs]
  · have isReached : ∃ height, graph.Chain outcome height id ∧ height ≤ passes :=
      ⟨height, chain, isLow⟩
    simp [stage.skipped id height chain isLow, Task.skip, isReached]
  · simp only [isKept, pending id isId, true_iff]
    constructor
    · intro runs
      have isPending := pending id isId
      rw [← isKept, stage.ran id runs] at isPending
      exact (Task.executed_closed _ _).1 isPending
    · rintro ⟨height, chain, isLow⟩
      have isPending := pending id isId
      rw [← isKept, stage.skipped id height chain isLow] at isPending
      cases isPending

variable {visit : TaskMap → String → TaskMap}

omit pending in
/-- The visit to a task sees the task as it was, and each other task as it was or as the pass
leaves it. -/
theorem exists_seen (tasks : TaskMap) (skipVisit : SkipVisit graph visit) (isId : id ∈ graph.ids) :
    ∃ seen : TaskMap, graph.ids.foldl visit tasks id = visit seen id id ∧ seen id = tasks id ∧
      (∀ other, graph.ids.idxOf other < graph.ids.idxOf id →
        seen other = graph.ids.foldl visit tasks other) ∧
      ∀ other, ¬ graph.ids.idxOf other < graph.ids.idxOf id → seen other = tasks other := by
  rcases skipVisit.isLocal.foldl_of_mem graph.nodup isId with ⟨seen, isAfter, isBefore, isLater⟩
  exact ⟨seen, isAfter, isLater id (Nat.lt_irrefl _), isBefore, isLater⟩

theorem not_ready (stage : graph.Stage outcome start passes waves tasks) (isId : id ∈ graph.ids) :
    (tasks id).status ≠ .ready := by
  rcases stage.trichotomy isId with runs | ⟨height, chain, isLow⟩ | isKept
  · rw [stage.ran id runs]
    exact (Task.executed_closed _ _).2.1
  · simp [stage.skipped id height chain isLow, Task.skip]
  · simp [isKept, pending id isId]

/-- A task that does not wait is left alone. -/
theorem pass_of_closed (stage : graph.Stage outcome start passes waves tasks)
    (skipVisit : SkipVisit graph visit) (isId : id ∈ graph.ids)
    (notPending : (tasks id).status ≠ .pending) : graph.ids.foldl visit tasks id = tasks id := by
  rcases exists_seen tasks skipVisit isId with ⟨seen, isAfter, isSeen, _, _⟩
  have notReady := stage.not_ready pending isId
  rw [isAfter, skipVisit.keeps seen id (by rwa [isSeen]) (by rwa [isSeen]), isSeen]

/-- A pass finishes no task and fails none. -/
theorem pass_ended_iff (stage : graph.Stage outcome start passes waves tasks)
    (skipVisit : SkipVisit graph visit) (isId : id ∈ graph.ids) {status : TaskStatus}
    (isEnded : status = .done ∨ status = .failed) :
    (graph.ids.foldl visit tasks id).status = status ↔ (tasks id).status = status := by
  by_cases isPending : (tasks id).status = .pending
  · rcases exists_seen tasks skipVisit isId with ⟨seen, isAfter, isSeen, _, _⟩
    have seenPending : (seen id).status = .pending := by rw [isSeen, isPending]
    have isOpen : (visit seen id id).status = .skipped ∨ (visit seen id id).status = .pending ∨
        (visit seen id id).status = .ready := by
      by_cases isBroken : graph.Broken seen id
      · left
        rw [skipVisit.skips seen id seenPending isBroken]
        rfl
      · exact .inr (skipVisit.spares seen id seenPending isBroken)
    rw [isAfter, isPending]
    rcases isEnded with rfl | rfl
    · rcases isOpen with isAfter | isAfter | isAfter <;> simp [isAfter]
    · rcases isOpen with isAfter | isAfter | isAfter <;> simp [isAfter]
  · rw [stage.pass_of_closed pending skipVisit isId isPending]

/-- What a visit sees of the tasks that ended is what the stage says. -/
theorem seen_ended_iff (stage : graph.Stage outcome start passes waves tasks)
    (skipVisit : SkipVisit graph visit) {seen : TaskMap}
    (isBefore : ∀ other, graph.ids.idxOf other < graph.ids.idxOf id →
      seen other = graph.ids.foldl visit tasks other)
    (isLater : ∀ other, ¬ graph.ids.idxOf other < graph.ids.idxOf id → seen other = tasks other)
    (isDep : dep ∈ graph.ids) {status : TaskStatus} (isEnded : status = .done ∨ status = .failed) :
    (seen dep).status = status ↔ (tasks dep).status = status := by
  by_cases isEarlier : graph.ids.idxOf dep < graph.ids.idxOf id
  · rw [isBefore dep isEarlier, stage.pass_ended_iff pending skipVisit isDep isEnded]
  · rw [isLater dep isEarlier]

/-- A task that has not run and sees a broken dependency is skipped after the visit. -/
theorem pass_of_broken (stage : graph.Stage outcome start passes waves tasks)
    (skipVisit : SkipVisit graph visit) (isId : id ∈ graph.ids)
    (notRun : ¬ graph.RunsBy outcome waves id) {seen : TaskMap}
    (isAfter : graph.ids.foldl visit tasks id = visit seen id id) (isSeen : seen id = tasks id)
    (isBroken : graph.Broken seen id) :
    (graph.ids.foldl visit tasks id).status = .skipped := by
  rcases stage.trichotomy isId with runs | ⟨height, chain, isLow⟩ | isKept
  · exact absurd runs notRun
  · have isSkipped := stage.skipped id height chain isLow
    rw [stage.pass_of_closed pending skipVisit isId (by simp [isSkipped, Task.skip]), isSkipped]
    rfl
  · have isPending : (seen id).status = .pending := by rw [isSeen, isKept, pending id isId]
    rw [isAfter, skipVisit.skips seen id isPending isBroken]
    rfl

/-- A task that is skipped after a pass was skipped before it or saw a broken dependency. -/
theorem broken_of_pass (stage : graph.Stage outcome start passes waves tasks)
    (skipVisit : SkipVisit graph visit) (isId : id ∈ graph.ids) {seen : TaskMap}
    (isAfter : graph.ids.foldl visit tasks id = visit seen id id) (isSeen : seen id = tasks id)
    (isSkipped : (graph.ids.foldl visit tasks id).status = .skipped) :
    (tasks id).status = .skipped ∨ graph.Broken seen id := by
  by_cases isPending : (tasks id).status = .pending
  · right
    by_contra notBroken
    have spared := skipVisit.spares seen id (by rw [isSeen, isPending]) notBroken
    rw [isAfter] at isSkipped
    simp [isSkipped] at spared
  · left
    rwa [stage.pass_of_closed pending skipVisit isId isPending] at isSkipped

/-- The passes carry a failure along a chain up to their number. -/
theorem pass_of_chain (stage : graph.Stage outcome start passes waves tasks)
    (skipVisit : SkipVisit graph visit) (fromAbove : passes ≤ 2 * waves) {height : ℕ}
    (chain : graph.Chain outcome height id) (isLow : height ≤ passes + 1) :
    (graph.ids.foldl visit tasks id).status = .skipped := by
  induction chain with
  | @start wave id failed dependsOn runs fails =>
      rcases exists_seen tasks skipVisit dependsOn.1 with ⟨seen, isAfter, isSeen, isBefore, isLater⟩
      have runsNow : graph.RunsBy outcome waves failed := runs.mono (by omega)
      have hasFailed : (tasks failed).status = .failed :=
        (stage.failed_iff pending runs.mem).mpr ⟨runsNow, fails⟩
      have seenFailed : (seen failed).status = .failed :=
        (stage.seen_ended_iff pending skipVisit isBefore isLater runs.mem (.inr rfl)).mpr hasFailed
      exact stage.pass_of_broken pending skipVisit dependsOn.1
        ((Chain.start dependsOn runs fails).not_runsBy waves) isAfter isSeen
        ⟨failed, dependsOn.2, .inl seenFailed⟩
  | @link height id dep chain dependsOn ih =>
      rcases exists_seen tasks skipVisit dependsOn.1 with ⟨seen, isAfter, isSeen, isBefore, isLater⟩
      refine stage.pass_of_broken pending skipVisit dependsOn.1
        ((Chain.link chain dependsOn).not_runsBy waves) isAfter isSeen
        ⟨dep, dependsOn.2, .inr ?_⟩
      by_cases isEarlier : graph.ids.idxOf dep < graph.ids.idxOf id
      · rw [if_pos isEarlier] at isLow
        rw [isBefore dep isEarlier]
        exact ih isLow
      · rw [if_neg isEarlier] at isLow
        rw [isLater dep isEarlier, stage.skipped dep height chain (by omega)]
        rfl

/-- What a pass skips has a chain that is one longer at most. -/
theorem chain_of_pass (stage : graph.Stage outcome start passes waves tasks)
    (skipVisit : SkipVisit graph visit) (fromBelow : 2 * waves ≤ passes + 1)
    (isId : id ∈ graph.ids) (isSkipped : (graph.ids.foldl visit tasks id).status = .skipped) :
    ∃ height, graph.Chain outcome height id ∧ height ≤ passes + 1 := by
  induction isIndex : graph.ids.idxOf id using Nat.strong_induction_on generalizing id with
  | _ index ih =>
  rcases exists_seen tasks skipVisit isId with ⟨seen, isAfter, isSeen, isBefore, isLater⟩
  rcases stage.broken_of_pass pending skipVisit isId isAfter isSeen isSkipped with
    wasSkipped | ⟨dep, isDep, isBroken⟩
  · rcases (stage.skipped_iff pending isId).mp wasSkipped with ⟨height, chain, isLow⟩
    exact ⟨height, chain, by omega⟩
  · have dependsOn : graph.DependsOn id dep := ⟨isId, isDep⟩
    have isThere : dep ∈ graph.ids := graph.closed id isId dep isDep
    rcases isBroken with hasFailed | depSkipped
    · have wasFailed := (stage.seen_ended_iff pending skipVisit isBefore isLater isThere
        (.inr rfl)).mp hasFailed
      rcases (stage.failed_iff pending isThere).mp wasFailed with ⟨runs, fails⟩
      exact ⟨2 * waves, .start dependsOn runs fails, fromBelow⟩
    · by_cases isEarlier : graph.ids.idxOf dep < graph.ids.idxOf id
      · rw [isBefore dep isEarlier] at depSkipped
        rcases ih _ (by omega) isThere depSkipped rfl with ⟨height, chain, isLow⟩
        have linked := Chain.link chain dependsOn
        rw [if_pos isEarlier] at linked
        exact ⟨height, linked, isLow⟩
      · rw [isLater dep isEarlier] at depSkipped
        rcases (stage.skipped_iff pending isThere).mp depSkipped with ⟨height, chain, isLow⟩
        have linked := Chain.link chain dependsOn
        rw [if_neg isEarlier] at linked
        exact ⟨height + 1, linked, by omega⟩

/-- What a pass skips is as it was but for the status. -/
theorem pass_skip (stage : graph.Stage outcome start passes waves tasks)
    (skipVisit : SkipVisit graph visit) (fromAbove : passes ≤ 2 * waves) {height : ℕ}
    (chain : graph.Chain outcome height id) (isLow : height ≤ passes + 1) :
    graph.ids.foldl visit tasks id = (start id).skip := by
  have isId := chain.mem
  have isSkipped := stage.pass_of_chain pending skipVisit fromAbove chain isLow
  rcases stage.trichotomy isId with runs | ⟨lower, lowerChain, isLower⟩ | isKept
  · exact absurd runs (chain.not_runsBy waves)
  · have wasSkipped := stage.skipped id lower lowerChain isLower
    rw [stage.pass_of_closed pending skipVisit isId (by simp [wasSkipped, Task.skip]), wasSkipped]
  · rcases exists_seen tasks skipVisit isId with ⟨seen, isAfter, isSeen, _, _⟩
    rcases stage.broken_of_pass pending skipVisit isId isAfter isSeen isSkipped with
      wasSkipped | isBroken
    · simp [isKept, pending id isId] at wasSkipped
    · have isPending : (seen id).status = .pending := by rw [isSeen, isKept, pending id isId]
      rw [isAfter, skipVisit.skips seen id isPending isBroken, isSeen, isKept]

/-- What a pass does not skip sees no broken dependency. -/
theorem pass_spared (stage : graph.Stage outcome start passes waves tasks)
    (skipVisit : SkipVisit graph visit) (fromBelow : 2 * waves ≤ passes + 1)
    (isId : id ∈ graph.ids) (notRun : ¬ graph.RunsBy outcome waves id)
    (notReached : ∀ height ≤ passes + 1, ¬ graph.Chain outcome height id) :
    ∃ seen : TaskMap, graph.ids.foldl visit tasks id = visit seen id id ∧ seen id = start id ∧
      ¬ graph.Broken seen id ∧ (graph.Satisfied seen id ↔ graph.RunsBy outcome (waves + 1) id) := by
  rcases exists_seen tasks skipVisit isId with ⟨seen, isAfter, isSeen, isBefore, isLater⟩
  have isKept := stage.kept id isId notRun fun height isLow => notReached height (by omega)
  refine ⟨seen, isAfter, by rw [isSeen, isKept], ?_, ?_⟩
  · intro isBroken
    have isSkipped := stage.pass_of_broken pending skipVisit isId notRun isAfter isSeen isBroken
    rcases stage.chain_of_pass pending skipVisit fromBelow isId isSkipped with
      ⟨height, chain, isLow⟩
    exact notReached height isLow chain
  · have depends : ∀ dep ∈ graph.dependencies id, (seen dep).status = .done ↔
        graph.RunsBy outcome waves dep ∧ (outcome dep).Succeeds := by
      intro dep isDep
      have isThere := graph.closed id isId dep isDep
      rw [stage.seen_ended_iff pending skipVisit isBefore isLater isThere (.inl rfl),
        stage.done_iff pending isThere]
    constructor
    · exact fun satisfied => ⟨isId, fun dep isDep => (depends dep isDep).mp (satisfied dep isDep)⟩
    · exact fun runs dep isDep => (depends dep isDep).mpr (runs.2 dep isDep)

/-- After a wave, the pass that skips dependents. -/
theorem invalidate (stage : graph.Stage outcome start passes waves tasks)
    (fromBelow : 2 * waves ≤ passes + 1) (fromAbove : passes ≤ 2 * waves) :
    graph.Stage outcome start (passes + 1) waves (graph.invalidateDependencies tasks) where
  ran id runs := by
    have isRun := stage.ran id runs
    have notPending : (tasks id).status ≠ .pending := by
      rw [isRun]
      exact (Task.executed_closed _ _).1
    exact (stage.pass_of_closed pending graph.skipVisit_invalidateOne runs.mem notPending).trans
      isRun
  skipped id height chain isLow :=
    stage.pass_skip pending graph.skipVisit_invalidateOne fromAbove chain isLow
  kept id isId notRun notReached := by
    rcases stage.pass_spared pending graph.skipVisit_invalidateOne fromBelow isId notRun notReached
      with ⟨seen, isAfter, isSeen, notBroken, _⟩
    rw [invalidateDependencies, isAfter, invalidateOne,
      if_neg (fun isBroken => notBroken isBroken.2.2), isSeen]

/-- A task whose dependencies are all done is marked ready. -/
theorem marked_ready (stage : graph.Stage outcome start passes waves tasks)
    (fromBelow : 2 * waves ≤ passes + 1) (notRun : ¬ graph.RunsBy outcome waves id)
    (runs : graph.RunsBy outcome (waves + 1) id) :
    (graph.readyTasks tasks).2 id = { start id with status := .ready } := by
  have notReached : ∀ height ≤ passes + 1, ¬ graph.Chain outcome height id :=
    fun height _ chain => chain.not_runsBy _ runs
  rcases stage.pass_spared pending graph.skipVisit_readyVisit fromBelow runs.mem notRun notReached
    with ⟨seen, isAfter, isSeen, notBroken, satisfied_iff⟩
  have isPending := pending id runs.mem
  rw [readyTasks_snd, isAfter]
  simp [readyVisit, readyOne, isPending, notBroken, satisfied_iff.mpr runs, isSeen]

/-- A task that still waits for one is left alone. -/
theorem marked_kept (stage : graph.Stage outcome start passes waves tasks)
    (fromBelow : 2 * waves ≤ passes + 1) (isId : id ∈ graph.ids)
    (notRun : ¬ graph.RunsBy outcome (waves + 1) id)
    (notReached : ∀ height ≤ passes + 1, ¬ graph.Chain outcome height id) :
    (graph.readyTasks tasks).2 id = start id := by
  have notBefore : ¬ graph.RunsBy outcome waves id := fun runs => notRun runs.succ
  rcases stage.pass_spared pending graph.skipVisit_readyVisit fromBelow isId notBefore notReached
    with ⟨seen, isAfter, isSeen, notBroken, satisfied_iff⟩
  have isPending := pending id isId
  have notSatisfied : ¬ graph.Satisfied seen id :=
    fun satisfied => notRun (satisfied_iff.mp satisfied)
  rw [readyTasks_snd, isAfter]
  simp [readyVisit, readyOne, isPending, notBroken, notSatisfied, isSeen]

theorem marked_ran (stage : graph.Stage outcome start passes waves tasks)
    (runs : graph.RunsBy outcome waves id) :
    (graph.readyTasks tasks).2 id = (start id).executed (outcome id) := by
  have isRun := stage.ran id runs
  have notPending : (tasks id).status ≠ .pending := by
    rw [isRun]
    exact (Task.executed_closed _ _).1
  rw [readyTasks_snd, stage.pass_of_closed pending graph.skipVisit_readyVisit runs.mem notPending,
    isRun]

theorem marked_skipped (stage : graph.Stage outcome start passes waves tasks)
    (fromAbove : passes ≤ 2 * waves) {height : ℕ} (chain : graph.Chain outcome height id)
    (isLow : height ≤ passes + 1) : (graph.readyTasks tasks).2 id = (start id).skip := by
  rw [readyTasks_snd]
  exact stage.pass_skip pending graph.skipVisit_readyVisit fromAbove chain isLow

variable {ready : List String} {marked : TaskMap}

/-- `ready_tasks` finds the tasks of the next wave. -/
theorem mem_ready_iff (stage : graph.Stage outcome start passes waves tasks)
    (fromBelow : 2 * waves ≤ passes + 1) (fromAbove : passes ≤ 2 * waves)
    (found : graph.readyTasks tasks = (ready, marked)) :
    id ∈ ready ↔ graph.RunsBy outcome (waves + 1) id ∧ ¬ graph.RunsBy outcome waves id := by
  have isMarked : (graph.readyTasks tasks).2 = marked := by rw [found]
  rw [mem_ready found]
  constructor
  · rintro ⟨isId, isReady, _⟩
    have notRun : ¬ graph.RunsBy outcome waves id := by
      intro runs
      rw [← isMarked, stage.marked_ran pending runs] at isReady
      exact (Task.executed_closed _ _).2.1 isReady
    have notReached : ∀ height ≤ passes + 1, ¬ graph.Chain outcome height id := by
      intro height isLow chain
      rw [← isMarked, stage.marked_skipped pending fromAbove chain isLow] at isReady
      cases isReady
    refine ⟨?_, notRun⟩
    by_contra notNext
    rw [← isMarked, stage.marked_kept pending fromBelow isId notNext notReached,
      pending id isId] at isReady
    cases isReady
  · rintro ⟨runs, notRun⟩
    refine ⟨runs.mem, ?_, ?_⟩
    · rw [← isMarked, stage.marked_ready pending fromBelow notRun runs]
    · intro dep isDep
      have isThere := graph.closed id runs.mem dep isDep
      rw [← isMarked, readyTasks_snd,
        stage.pass_ended_iff pending graph.skipVisit_readyVisit isThere (.inl rfl),
        stage.done_iff pending isThere]
      exact runs.2 dep isDep

/-- A wave that has run. -/
theorem wave (stage : graph.Stage outcome start passes waves tasks)
    (fromBelow : 2 * waves ≤ passes + 1) (fromAbove : passes ≤ 2 * waves)
    (found : graph.readyTasks tasks = (ready, marked)) :
    graph.Stage outcome start (passes + 1) (waves + 1) (settleWave outcome ready marked) := by
  have isMarked : (graph.readyTasks tasks).2 = marked := by rw [found]
  have inWave : ∀ id, id ∈ ready ↔
      graph.RunsBy outcome (waves + 1) id ∧ ¬ graph.RunsBy outcome waves id :=
    fun id => stage.mem_ready_iff pending fromBelow fromAbove found
  refine ⟨?_, ?_, ?_⟩
  · intro id runs
    by_cases before : graph.RunsBy outcome waves id
    · have notIn : id ∉ ready := fun isIn => ((inWave id).mp isIn).2 before
      rw [settleWave, if_neg notIn, ← isMarked, stage.marked_ran pending before]
    · rw [settleWave, if_pos ((inWave id).mpr ⟨runs, before⟩), ← isMarked,
        stage.marked_ready pending fromBelow before runs]
      rfl
  · intro id height chain isLow
    have notIn : id ∉ ready := fun isIn => chain.not_runsBy _ ((inWave id).mp isIn).1
    rw [settleWave, if_neg notIn, ← isMarked, stage.marked_skipped pending fromAbove chain isLow]
  · intro id isId notRun notReached
    have notIn : id ∉ ready := fun isIn => notRun ((inWave id).mp isIn).1
    rw [settleWave, if_neg notIn, ← isMarked,
      stage.marked_kept pending fromBelow isId notRun notReached]

end Stage

end TaskGraph

/-! ## Whole runs -/

variable {graph : TaskGraph} {outcome : String → Outcome} {start tasks after : TaskMap}

/-- What a run leaves: some number of waves ran, the last of them not empty, no task is left
that could run, and one more pass was made than two for each wave. -/
structure Settled (graph : TaskGraph) (outcome : String → Outcome) (start : TaskMap) (waves : ℕ)
    (tasks : TaskMap) : Prop where
  stage : graph.Stage outcome start (2 * waves + 1) waves tasks
  last : waves = 0 ∨ graph.HasWave outcome waves
  stable : ∀ id, graph.RunsBy outcome (waves + 1) id → graph.RunsBy outcome waves id

namespace Settled

variable {waves : ℕ}

/-- No task runs after the last wave. -/
theorem runsBy (settled : Settled graph outcome start waves tasks) {more : ℕ} {id : String}
    (runs : graph.RunsBy outcome more id) : graph.RunsBy outcome waves id := by
  induction more generalizing id with
  | zero => exact runs.elim
  | succ more ih =>
      refine settled.stable id ⟨runs.1, fun dep isDep => ?_⟩
      exact ⟨ih (runs.2 dep isDep).1, (runs.2 dep isDep).2⟩

theorem wave_le (settled : Settled graph outcome start waves tasks) {wave : ℕ}
    (hasWave : graph.HasWave outcome wave) : wave ≤ waves := by
  rcases hasWave with ⟨id, runs, notBefore⟩
  by_contra isLater
  exact notBefore ((settled.runsBy runs).mono (by omega))

/-- Failures reach what depends on them when every chain has one that the passes cover. -/
theorem failuresReach_iff (settled : Settled graph outcome start waves tasks) :
    graph.FailuresReach outcome ↔ ∀ id height, graph.Chain outcome height id →
      ∃ lower, graph.Chain outcome lower id ∧ lower ≤ 2 * waves + 1 := by
  constructor
  · intro reach id height chain
    rcases reach id height chain with ⟨lower, wave, lowerChain, hasWave, isLow⟩
    have isWave := settled.wave_le hasWave
    exact ⟨lower, lowerChain, by omega⟩
  · intro reach id height chain
    rcases reach id height chain with ⟨lower, lowerChain, isLow⟩
    rcases settled.last with isNone | hasWave
    · rcases chain.failure with ⟨failed, wave, _, runs, _⟩
      have neverRuns := settled.runsBy runs
      rw [isNone] at neverRuns
      exact neverRuns.elim
    · exact ⟨lower, waves, lowerChain, hasWave, isLow⟩

end Settled

theorem stage_zero (graph : TaskGraph) (outcome : String → Outcome) (start : TaskMap) :
    graph.Stage outcome start (2 * 0) 0 start where
  ran _ runs := runs.elim
  skipped _ _ chain isLow := absurd chain.two_le (by omega)
  kept _ _ _ _ := rfl

/-- The loop leaves settled tasks. -/
theorem Settles.settled (pending : ∀ id ∈ graph.ids, (start id).status = .pending) {waves : ℕ}
    (settles : Settles graph outcome tasks after)
    (stage : graph.Stage outcome start (2 * waves) waves tasks)
    (last : waves = 0 ∨ graph.HasWave outcome waves) :
    ∃ waves, Settled graph outcome start waves after := by
  induction settles generalizing waves with
  | @finished tasks nonePending =>
      have ended : ∀ id ∈ graph.ids, graph.RunsBy outcome waves id ∨
          ∃ height, graph.Chain outcome height id ∧ height ≤ 2 * waves := by
        intro id isId
        rcases stage.trichotomy isId with runs | reached | isKept
        · exact .inl runs
        · exact .inr reached
        · have isOpen : ¬ (tasks id).status.terminal := by
            simp [isKept, pending id isId, TaskStatus.terminal]
          exact absurd ⟨id, isId, isOpen⟩ nonePending
      refine ⟨waves, ⟨stage.ran, ?_, ?_⟩, last, ?_⟩
      · intro id height chain _
        rcases ended id chain.mem with runs | ⟨lower, lowerChain, isLow⟩
        · exact absurd runs (chain.not_runsBy waves)
        · exact stage.skipped id lower lowerChain isLow
      · intro id isId notRun notReached
        exact stage.kept id isId notRun fun height isLow => notReached height (by omega)
      · intro id runs
        rcases ended id runs.mem with runsBefore | ⟨height, chain, _⟩
        · exact runsBefore
        · exact absurd runs (chain.not_runsBy _)
  | @stuck tasks after isPending noneReady =>
      have isAfter := stage.wave pending (by omega) (by omega) noneReady
      have noneNew : ∀ id, graph.RunsBy outcome (waves + 1) id → graph.RunsBy outcome waves id := by
        intro id runs
        by_contra notBefore
        have isReady := (stage.mem_ready_iff pending (by omega) (by omega) noneReady).mpr
          ⟨runs, notBefore⟩
        cases isReady
      have unchanged : settleWave outcome [] after = after := by
        funext id
        simp [settleWave]
      rw [unchanged] at isAfter
      refine ⟨waves, ⟨fun id runs => isAfter.ran id runs.succ, isAfter.skipped, ?_⟩, last, noneNew⟩
      exact fun id isId notRun => isAfter.kept id isId fun runs => notRun (noneNew id runs)
  | @wave tasks marked after ready isPending found nonempty settles ih =>
      have isWave := stage.wave pending (by omega) (by omega) found
      have isNext := isWave.invalidate pending (by omega) (by omega)
      have isTwice : 2 * waves + 1 + 1 = 2 * (waves + 1) := by omega
      rw [isTwice] at isNext
      refine ih isNext (.inr ?_)
      rcases List.exists_mem_of_ne_nil ready nonempty with ⟨id, isReady⟩
      exact ⟨id, (stage.mem_ready_iff pending (by omega) (by omega) found).mp isReady⟩

/-- What is promised of a task when a run returns. -/
structure Completed (graph : TaskGraph) (outcome : String → Outcome) (start tasks : TaskMap)
    (id : String) : Prop where
  decided : tasks id = (start id).executed (outcome id) ∨ (tasks id).status = .skipped ∨
    (tasks id).status = .pending
  skipped_iff : (tasks id).status = .skipped ↔
    ∃ dep, Relation.TransGen graph.DependsOn id dep ∧ (tasks dep).status = .failed
  pending_iff : (tasks id).status = .pending ↔
    (∃ dep, Relation.TransGen graph.DependsOn id dep ∧ (tasks dep).status = .blockedApproval) ∧
      ¬ ∃ dep, Relation.TransGen graph.DependsOn id dep ∧ (tasks dep).status = .failed

theorem mem_of_transGen {id dep : String} (leads : Relation.TransGen graph.DependsOn id dep) :
    dep ∈ graph.ids := by
  induction leads with
  | single first => exact graph.closed _ first.1 _ first.2
  | tail _ last _ => exact graph.closed _ last.1 _ last.2

theorem TaskGraph.Acyclic.of_rank (rank : String → ℕ)
    (falls : ∀ id ∈ graph.ids, ∀ dep ∈ graph.dependencies id, rank dep < rank id) :
    graph.Acyclic := by
  have descends : ∀ id dep, Relation.TransGen graph.DependsOn id dep → rank dep < rank id := by
    intro id dep leads
    induction leads with
    | single first => exact falls _ first.1 _ first.2
    | tail _ last ih => exact (falls _ last.1 _ last.2).trans ih
  exact fun id leads => Nat.lt_irrefl _ (descends id id leads)

/-- In an acyclic graph, what holds of a task whenever it holds of those it depends on holds of
every task. -/
theorem TaskGraph.Acyclic.induction (acyclic : graph.Acyclic) {motive : String → Prop}
    (step : ∀ id ∈ graph.ids, (∀ dep ∈ graph.dependencies id, motive dep) → motive id) :
    ∀ id ∈ graph.ids, motive id := by
  let below (dep id : { id // id ∈ graph.ids }) : Prop := Relation.TransGen graph.DependsOn id dep
  have : IsTrans _ below := ⟨fun _ _ _ first second => second.trans first⟩
  have : Std.Irrefl below := ⟨fun id leads => acyclic id leads⟩
  have wellFounded : WellFounded below := Finite.wellFounded_of_trans_of_irrefl below
  have general : ∀ id : { id // id ∈ graph.ids }, motive id := by
    intro id
    induction id using wellFounded.induction with
    | _ id ih =>
        refine step id id.2 fun dep isDep => ?_
        exact ih ⟨dep, graph.closed id id.2 dep isDep⟩ (.single ⟨id.2, isDep⟩)
  exact fun id isId => general ⟨id, isId⟩

namespace Settled

variable {waves : ℕ} {id : String}
variable (pending : ∀ id ∈ graph.ids, (start id).status = .pending)
include pending

theorem failed_iff (settled : Settled graph outcome start waves tasks) :
    (∃ dep, Relation.TransGen graph.DependsOn id dep ∧ (tasks dep).status = .failed) ↔
      ∃ height, graph.Chain outcome height id := by
  constructor
  · rintro ⟨dep, leads, hasFailed⟩
    rcases (settled.stage.failed_iff pending (mem_of_transGen leads)).mp hasFailed with ⟨runs, fails⟩
    exact TaskGraph.Chain.of_failure leads runs fails
  · rintro ⟨height, chain⟩
    rcases chain.failure with ⟨failed, wave, leads, runs, fails⟩
    exact ⟨failed, leads, (settled.stage.failed_iff pending runs.mem).mpr
      ⟨settled.runsBy runs, fails⟩⟩

theorem blocked_iff (settled : Settled graph outcome start waves tasks) (isId : id ∈ graph.ids) :
    (tasks id).status = .blockedApproval ↔
      graph.RunsBy outcome waves id ∧ ¬ (outcome id).Succeeds ∧ ¬ (outcome id).Fails := by
  rcases settled.stage.trichotomy isId with runs | ⟨height, chain, isLow⟩ | isKept
  · rw [settled.stage.ran id runs, Task.executed_blocked_iff]
    simp [runs]
  · simp [settled.stage.skipped id height chain isLow, Task.skip, chain.not_runsBy waves]
  · constructor
    · intro isBlocked
      simp [isKept, pending id isId] at isBlocked
    · rintro ⟨runs, isBlocked⟩
      rwa [settled.stage.ran id runs, Task.executed_blocked_iff]

/-- A task that waits at the end waits for one that is blocked, if failures reach all that
depends on them. -/
theorem exists_blocked (settled : Settled graph outcome start waves tasks) (acyclic : graph.Acyclic)
    (reach : graph.FailuresReach outcome) : ∀ id ∈ graph.ids, (tasks id).status = .pending →
      ∃ dep, Relation.TransGen graph.DependsOn id dep ∧
        (tasks dep).status = .blockedApproval := by
  refine acyclic.induction fun id isId ih isPending => ?_
  rcases (settled.stage.pending_iff pending isId).mp isPending with ⟨notRun, notReached⟩
  have noChain : ∀ height, ¬ graph.Chain outcome height id := fun height chain =>
    notReached (settled.failuresReach_iff.mp reach id height chain)
  have waits : ∃ dep ∈ graph.dependencies id,
      ¬ (graph.RunsBy outcome waves dep ∧ (outcome dep).Succeeds) := by
    by_contra noneWaits
    refine notRun (settled.stable id ⟨isId, fun dep isDep => ?_⟩)
    by_contra isWaiting
    exact noneWaits ⟨dep, isDep, isWaiting⟩
  rcases waits with ⟨dep, isDep, notDone⟩
  have dependsOn : graph.DependsOn id dep := ⟨isId, isDep⟩
  have isThere : dep ∈ graph.ids := graph.closed id isId dep isDep
  by_cases runs : graph.RunsBy outcome waves dep
  · have notFails : ¬ (outcome dep).Fails := fun fails => noChain _ (.start dependsOn runs fails)
    have notSucceeds : ¬ (outcome dep).Succeeds := fun succeeds => notDone ⟨runs, succeeds⟩
    exact ⟨dep, .single dependsOn,
      (settled.blocked_iff pending isThere).mpr ⟨runs, notSucceeds, notFails⟩⟩
  · have depPending : (tasks dep).status = .pending := by
      refine (settled.stage.pending_iff pending isThere).mpr ⟨runs, ?_⟩
      rintro ⟨height, chain, _⟩
      exact noChain _ (.link chain dependsOn)
    rcases ih dep isDep depPending with ⟨blocked, leads, isBlocked⟩
    exact ⟨blocked, .head dependsOn leads, isBlocked⟩

/-- What the tasks are left as is what is promised of each exactly if failures reach all that
depends on them. -/
theorem completed_iff (settled : Settled graph outcome start waves tasks)
    (acyclic : graph.Acyclic) :
    (∀ id ∈ graph.ids, Completed graph outcome start tasks id) ↔ graph.FailuresReach outcome := by
  constructor
  · intro completed
    refine settled.failuresReach_iff.mpr fun id height chain => ?_
    have hasFailed := (settled.failed_iff pending).mpr ⟨height, chain⟩
    have isSkipped := (completed id chain.mem).skipped_iff.mpr hasFailed
    exact (settled.stage.skipped_iff pending chain.mem).mp isSkipped
  · intro reach id isId
    have skipped_iff : (tasks id).status = .skipped ↔ ∃ height, graph.Chain outcome height id := by
      rw [settled.stage.skipped_iff pending isId]
      constructor
      · rintro ⟨height, chain, _⟩
        exact ⟨height, chain⟩
      · rintro ⟨height, chain⟩
        exact settled.failuresReach_iff.mp reach id height chain
    refine ⟨?_, ?_, ?_, ?_⟩
    · rcases settled.stage.trichotomy isId with runs | ⟨height, chain, _⟩ | isKept
      · exact .inl (settled.stage.ran id runs)
      · exact .inr (.inl (skipped_iff.mpr ⟨height, chain⟩))
      · exact .inr (.inr (by rw [isKept, pending id isId]))
    · rw [skipped_iff, settled.failed_iff pending]
    · intro isPending
      refine ⟨settled.exists_blocked pending acyclic reach id isId isPending, ?_⟩
      rw [settled.failed_iff pending, ← skipped_iff, isPending]
      simp
    · rintro ⟨⟨blocked, leads, isBlocked⟩, noneFailed⟩
      rw [settled.failed_iff pending, ← skipped_iff] at noneFailed
      have blockedRuns := (settled.blocked_iff pending (mem_of_transGen leads)).mp isBlocked
      rcases settled.stage.trichotomy isId with runs | ⟨height, chain, _⟩ | isKept
      · exact absurd (runs.transitive leads).2 blockedRuns.2.1
      · exact absurd (skipped_iff.mpr ⟨height, chain⟩) noneFailed
      · rw [isKept, pending id isId]

end Settled

/-- A run on pending tasks of an acyclic graph leaves each as is promised, in every
interleaving, exactly if failures reach all that depends on them. -/
theorem completes_iff (graph : TaskGraph) (acyclic : graph.Acyclic) (outcome : String → Outcome)
    (start : TaskMap) (pending : ∀ id ∈ graph.ids, (start id).status = .pending)
    {maxConcurrency : ℕ} (moves : List Move)
    (returned : ((executor graph outcome maxConcurrency).run (.begin start) moves).phase =
      .returned) :
    (∀ id ∈ graph.ids, Completed graph outcome start
      ((executor graph outcome maxConcurrency).run (.begin start) moves).tasks id) ↔
      graph.FailuresReach outcome := by
  have settles := (reached_run graph outcome maxConcurrency start moves).settles returned
  rcases settles.settled pending (stage_zero graph outcome start) (.inl rfl) with ⟨waves, settled⟩
  exact settled.completed_iff pending acyclic

/-- Fails on one task. -/
def failsOnA (id : String) : Outcome := if id = "a" then .raises "boom" else .returns "ok"

theorem fork_acyclic : fork.Acyclic :=
  .of_rank (fun id => if id = "a" then 0 else 1) (by decide)

theorem fork_reach : fork.FailuresReach failsOnA := by
  have runs : fork.RunsBy failsOnA 1 "a" := ⟨by decide, by simp [fork]⟩
  intro id height chain
  have isLate : id = "b" ∨ id = "c" := by
    have isThere := chain.mem
    simp only [fork, List.mem_cons, List.not_mem_nil, or_false] at isThere
    rcases isThere with rfl | rfl | rfl
    · exact .inr rfl
    · exact absurd runs (chain.not_runsBy 1)
    · exact .inl rfl
  have dependsOn : fork.DependsOn id "a" := by
    rcases isLate with rfl | rfl
    · exact ⟨by decide, by simp [fork]⟩
    · exact ⟨by decide, by simp [fork]⟩
  have hasWave : fork.HasWave failsOnA 1 := ⟨"a", runs, fun neverRuns => neverRuns⟩
  exact ⟨2 * 1, 1, .start dependsOn runs trivial, hasWave, by decide⟩

theorem fork_completes : fork.ids.Forall (Completed fork failsOnA (fun _ => {})
    ((executor fork failsOnA 2).run (.begin fun _ => {})
      [.proceed, .start "a", .finish "a", .proceed, .proceed]).tasks) :=
  List.forall_iff_forall_mem.mpr <|
    (completes_iff fork fork_acyclic failsOnA (fun _ => {}) (fun _ _ => rfl) _
      (by decide +kernel)).mpr fork_reach

/-- A chain of tasks, each added before the one it depends on. -/
def upstream : TaskGraph where
  ids := ["d", "c", "b", "a"]
  dependencies
    | "d" => ["c"]
    | "c" => ["b"]
    | "b" => ["a"]
    | _ => []
  nodup := by decide
  closed := by decide

/-- A task that depends on a failed one is still pending when the run returns. -/
theorem upstream_stays_pending :
    let final := (executor upstream failsOnA 1).run (.begin fun _ => {})
      [.proceed, .start "a", .finish "a", .proceed, .proceed]
    upstream.Acyclic ∧ final.phase = .returned ∧ (final.tasks "d").status = .pending ∧
      Relation.TransGen upstream.DependsOn "d" "a" ∧ (final.tasks "a").status = .failed ∧
      ¬ Completed upstream failsOnA (fun _ => {}) final.tasks "d" := by
  intro final
  have acyclic : upstream.Acyclic := .of_rank upstream.ids.reverse.idxOf (by decide)
  have ends : final.phase = .returned ∧ (final.tasks "d").status = .pending ∧
      (final.tasks "a").status = .failed := by decide +kernel
  have leads : Relation.TransGen upstream.DependsOn "d" "a" := by
    have first : upstream.DependsOn "d" "c" := ⟨by decide, by simp [upstream]⟩
    have second : upstream.DependsOn "c" "b" := ⟨by decide, by simp [upstream]⟩
    have third : upstream.DependsOn "b" "a" := ⟨by decide, by simp [upstream]⟩
    exact .head first (.head second (.single third))
  refine ⟨acyclic, ends.1, ends.2.1, leads, ends.2.2, fun completed => ?_⟩
  exact (completed.pending_iff.mp ends.2.1).2 ⟨"a", leads, ends.2.2⟩

end Aa.Sifter.Tasks
