import Aa.Sifter.Desktop.Service

/-!
# Callbacks of a task

`Tidy` says what a record and the callbacks of its task have to do with each other: a
callback that resumes the task is queued once and only where the task waits for it, and
no cancellation comes before the first step.
-/

namespace Aa.Sifter.Desktop

open Aa.Library

/-- Callbacks that the coroutine is resumed by. -/
def Handle.resumes : Handle → Bool
  | .start | .step | .wakeup _ => true
  | .cancelTask | .setFuture _ _ | .finish => false

namespace TaskRecord

variable {record : TaskRecord} {queue rest : List Handle} {handle : Handle} {future : ℕ}

@[simp]
theorem waitsFor_iff : record.waitsFor future = true ↔
    record.control = .approval future ∨ record.control = .suspended future := by
  simp [waitsFor]

structure Tidy (record : TaskRecord) (queue : List Handle) : Prop where
  unscheduled : record.control = .unscheduled → record.chained = false ∧ .cancelTask ∉ queue
  created : record.control = .created →
    ∃ early later, queue = early ++ .step :: later ∧ .cancelTask ∉ early
  start : .start ∈ queue → record.control = .unscheduled
  step : .step ∈ queue → record.control = .created
  wakeup : ∀ future, .wakeup future ∈ queue →
    record.waitsFor future = true ∧ record.futures future ≠ .pending
  once : ∀ handle, handle.resumes = true → queue.count handle ≤ 1
  approval : ∀ future, record.approvalFuture = some future ↔ record.control = .approval future
  opened : ∀ future, record.waitsFor future = true → future < record.opened
  mustCancel : record.mustCancel = true →
    ∃ future, record.waitsFor future = true ∧ record.futures future ≠ .pending

theorem waitsFor_unique {first second : ℕ} (isFirst : record.waitsFor first = true)
    (isSecond : record.waitsFor second = true) : first = second := by
  simp only [waitsFor_iff] at isFirst isSecond
  rcases isFirst with isFirst | isFirst <;> rcases isSecond with isSecond | isSecond <;>
    simp_all

/-- A cancellation of a task that waits cancels what it waits for, or is kept for later if
that is completed. -/
theorem cancelTask_eq (waits : record.waitsFor future = true) :
    record.cancelTask =
      if record.futures future = .pending then record.settle future .cancelled
      else ({ record with mustCancel := true }, []) := by
  have isFuture (other : ℕ) (isOther : record.waitsFor other = true) : other = future :=
    waitsFor_unique isOther waits
  unfold cancelTask
  split
  · rename_i isEnded
    simp [isEnded] at waits
  · rename_i other isControl
    rw [isFuture other (by simp [isControl])]
  · rename_i other isControl
    rw [isFuture other (by simp [isControl])]
  · rename_i isControl
    simp [isControl] at waits
  · rename_i isControl
    simp [isControl] at waits
  · rename_i isControl
    simp [isControl] at waits

namespace Tidy

/-- A record that agrees in what the coroutine and its futures are about. -/
theorem congr {other : TaskRecord} (tidy : record.Tidy queue)
    (control : other.control = record.control) (chained : other.chained = record.chained)
    (futures : other.futures = record.futures)
    (approvalFuture : other.approvalFuture = record.approvalFuture)
    (opened : other.opened = record.opened) (mustCancel : other.mustCancel = record.mustCancel) :
    other.Tidy queue := by
  have waits (future : ℕ) : other.waitsFor future = record.waitsFor future := by
    simp only [waitsFor, control]
  constructor
  · rw [control, chained]
    exact tidy.unscheduled
  · rw [control]
    exact tidy.created
  · rw [control]
    exact tidy.start
  · rw [control]
    exact tidy.step
  · simp only [waits, futures]
    exact tidy.wakeup
  · exact tidy.once
  · simp only [control, approvalFuture]
    exact tidy.approval
  · simp only [waits, opened]
    exact tidy.opened
  · simp only [mustCancel, waits, futures]
    exact tidy.mustCancel

/-- A callback other than the first step may be taken off. -/
theorem tail (tidy : record.Tidy (handle :: rest)) (notStep : handle ≠ .step) :
    record.Tidy rest where
  unscheduled isUnscheduled := by
    rcases tidy.unscheduled isUnscheduled with ⟨notChained, noCancel⟩
    exact ⟨notChained, fun isThere => noCancel (List.mem_cons_of_mem _ isThere)⟩
  created isCreated := by
    rcases tidy.created isCreated with ⟨early, later, isQueue, noCancel⟩
    cases early with
    | nil =>
        cases isQueue
        exact absurd rfl notStep
    | cons first early =>
        cases isQueue
        exact ⟨early, later, rfl, fun isThere => noCancel (List.mem_cons_of_mem _ isThere)⟩
  start isThere := tidy.start (List.mem_cons_of_mem _ isThere)
  step isThere := tidy.step (List.mem_cons_of_mem _ isThere)
  wakeup future isThere := tidy.wakeup future (List.mem_cons_of_mem _ isThere)
  once resuming resumes := (List.count_le_count_cons ..).trans (tidy.once resuming resumes)
  approval := tidy.approval
  opened := tidy.opened
  mustCancel := tidy.mustCancel

/-- Callbacks that do not resume the task may be queued, a cancellation only if the
task has been created. -/
theorem append {queued : List Handle} (tidy : record.Tidy queue)
    (notResuming : ∀ handle ∈ queued, handle.resumes = false)
    (cancels : .cancelTask ∈ queued → record.control ≠ .unscheduled) :
    record.Tidy (queue ++ queued) := by
  have old {handle : Handle} (resumes : handle.resumes = true) (isThere : handle ∈ queue ++ queued) :
      handle ∈ queue := by
    refine (List.mem_append.mp isThere).resolve_right fun isNew => ?_
    rw [notResuming handle isNew] at resumes
    cases resumes
  exact {
    unscheduled isUnscheduled := by
      rcases tidy.unscheduled isUnscheduled with ⟨notChained, noCancel⟩
      refine ⟨notChained, fun isThere => ?_⟩
      rcases List.mem_append.mp isThere with isOld | isNew
      · exact noCancel isOld
      · exact cancels isNew isUnscheduled
    created isCreated := by
      rcases tidy.created isCreated with ⟨early, later, rfl, noCancel⟩
      exact ⟨early, later ++ queued, by simp, noCancel⟩
    start isThere := tidy.start (old rfl isThere)
    step isThere := tidy.step (old rfl isThere)
    wakeup future isThere := tidy.wakeup future (old rfl isThere)
    once handle resumes := by
      have notNew : handle ∉ queued := fun isNew => by
        rw [notResuming handle isNew] at resumes
        cases resumes
      rw [List.count_append, List.count_eq_zero.mpr notNew, add_zero]
      exact tidy.once handle resumes
    approval := tidy.approval
    opened := tidy.opened
    mustCancel := tidy.mustCancel }

/-- The callback that resumes the task is the only one that does. -/
theorem notResumed (tidy : record.Tidy (handle :: rest)) (resumes : handle.resumes = true) :
    ∀ other ∈ rest, other.resumes = false := by
  intro other isThere
  by_contra isResuming
  have otherResumes : other.resumes = true := by simpa using isResuming
  have isOther : other ∈ handle :: rest := List.mem_cons_of_mem _ isThere
  have isSame : other = handle := by
    cases handle with
    | start =>
        have isUnscheduled := tidy.start (by simp)
        cases other with
        | start => rfl
        | step => simp [tidy.step isOther] at isUnscheduled
        | wakeup future => simpa [isUnscheduled] using (tidy.wakeup future isOther).1
        | cancelTask => cases otherResumes
        | setFuture future decision => cases otherResumes
        | finish => cases otherResumes
    | step =>
        have isCreated := tidy.step (by simp)
        cases other with
        | start => simp [tidy.start isOther] at isCreated
        | step => rfl
        | wakeup future => simpa [isCreated] using (tidy.wakeup future isOther).1
        | cancelTask => cases otherResumes
        | setFuture future decision => cases otherResumes
        | finish => cases otherResumes
    | wakeup future =>
        have waits := (tidy.wakeup future (by simp)).1
        cases other with
        | start => simp [tidy.start isOther] at waits
        | step => simp [tidy.step isOther] at waits
        | wakeup another => rw [waitsFor_unique waits (tidy.wakeup another isOther).1]
        | cancelTask => cases otherResumes
        | setFuture future decision => cases otherResumes
        | finish => cases otherResumes
    | cancelTask => cases resumes
    | setFuture future decision => cases resumes
    | finish => cases resumes
  subst isSame
  have isTwice : 1 < (other :: rest).count other := by
    rw [List.count_cons_self]
    have := List.count_pos_iff.mpr isThere
    omega
  exact absurd (tidy.once other resumes) (not_le.mpr isTwice)

/-- A queue without callbacks that resume the task. -/
theorem of_notResuming (notResuming : ∀ handle ∈ queue, handle.resumes = false)
    (notUnscheduled : record.control ≠ .unscheduled) (notCreated : record.control ≠ .created)
    (approval : ∀ future, record.approvalFuture = some future ↔ record.control = .approval future)
    (opened : ∀ future, record.waitsFor future = true → future < record.opened)
    (notCancelled : record.mustCancel = false) : record.Tidy queue where
  unscheduled isUnscheduled := absurd isUnscheduled notUnscheduled
  created isCreated := absurd isCreated notCreated
  start isThere := by cases notResuming _ isThere
  step isThere := by cases notResuming _ isThere
  wakeup future isThere := by cases notResuming _ isThere
  once handle resumes := by
    rw [List.count_eq_zero.mpr fun isThere => ?_]
    · exact Nat.zero_le 1
    · rw [notResuming handle isThere] at resumes
      cases resumes
  approval := approval
  opened := opened
  mustCancel isCancelled := by
    rw [notCancelled] at isCancelled
    cases isCancelled

/-! ## Each step keeps it -/

/-- A pending future is completed. -/
theorem settle {value : Future} (tidy : record.Tidy queue) (isPending : record.futures future = .pending)
    (isSettled : value ≠ .pending) :
    (record.settle future value).1.Tidy (queue ++ (record.settle future value).2) := by
  have notQueued : .wakeup future ∉ queue := fun isThere => (tidy.wakeup future isThere).2 isPending
  have stillSettled {other : ℕ} (isOther : record.futures other ≠ .pending) :
      Function.update record.futures future value other ≠ .pending := by
    by_cases isSame : other = future
    · simpa [isSame] using isSettled
    · simpa [isSame] using isOther
  have base : { record with futures := Function.update record.futures future value }.Tidy queue := {
    unscheduled := tidy.unscheduled
    created := tidy.created
    start := tidy.start
    step := tidy.step
    wakeup other isThere := ⟨(tidy.wakeup other isThere).1, stillSettled (tidy.wakeup other isThere).2⟩
    once := tidy.once
    approval := tidy.approval
    opened := tidy.opened
    mustCancel isCancelled := by
      rcases tidy.mustCancel isCancelled with ⟨other, waits, isOther⟩
      exact ⟨other, waits, stillSettled isOther⟩ }
  by_cases waits : record.waitsFor future = true
  · simp only [TaskRecord.settle, waits, if_true]
    exact {
      unscheduled isUnscheduled := by
        simp only [waitsFor_iff] at waits
        simp_all
      created isCreated := by
        simp only [waitsFor_iff] at waits
        simp_all
      start isThere := base.start (by simpa using isThere)
      step isThere := base.step (by simpa using isThere)
      wakeup other isThere := by
        rcases List.mem_append.mp isThere with isOld | isNew
        · exact base.wakeup other isOld
        · cases List.mem_singleton.mp isNew
          exact ⟨waits, by simpa using isSettled⟩
      once handle resumes := by
        by_cases isNew : handle = .wakeup future
        · subst isNew
          simp [List.count_append, List.count_eq_zero.mpr notQueued]
        · simpa [List.count_append, List.count_singleton, Ne.symm isNew] using tidy.once handle resumes
      approval := base.approval
      opened := base.opened
      mustCancel := base.mustCancel }
  · simp only [TaskRecord.settle, if_neg waits, List.append_nil]
    exact base

theorem start_step (tidy : record.Tidy (.start :: rest)) :
    record.start.1.Tidy (rest ++ record.start.2) := by
  have isUnscheduled := tidy.start (by simp)
  have notResumed := tidy.notResumed rfl
  rcases tidy.unscheduled isUnscheduled with ⟨_, noCancel⟩
  have noCancelRest : .cancelTask ∉ rest := fun isThere => noCancel (List.mem_cons_of_mem _ isThere)
  have notCancelled : record.mustCancel = false := by
    by_contra isCancelled
    rcases tidy.mustCancel (by simpa using isCancelled) with ⟨future, waits, _⟩
    simp [isUnscheduled] at waits
  have base : record.start.1.Tidy (rest ++ [.step]) := {
    unscheduled no := by cases no
    created _ := ⟨rest, [], rfl, noCancelRest⟩
    start isThere := by
      rcases List.mem_append.mp isThere with isOld | isNew
      · cases notResumed _ isOld
      · cases List.mem_singleton.mp isNew
    step _ := rfl
    wakeup future isThere := by
      rcases List.mem_append.mp isThere with isOld | isNew
      · cases notResumed _ isOld
      · cases List.mem_singleton.mp isNew
    once handle resumes := by
      have notOld : handle ∉ rest := fun isOld => by
        rw [notResumed handle isOld] at resumes
        cases resumes
      rw [List.count_append, List.count_eq_zero.mpr notOld, zero_add]
      exact List.count_le_length
    approval future := by simpa [TaskRecord.start, isUnscheduled] using tidy.approval future
    opened future waits := by simp [TaskRecord.start] at waits
    mustCancel isCancelled := by
      change record.mustCancel = true at isCancelled
      rw [notCancelled] at isCancelled
      cases isCancelled }
  rw [TaskRecord.start]
  split
  · have cancelled : record.start.1.Tidy ((rest ++ [.step]) ++ [.cancelTask]) :=
      base.append (by simp [Handle.resumes]) (by simp [TaskRecord.start])
    simpa [TaskRecord.start] using cancelled
  · exact base

/-- Where a step of the loop leaves the queue to the other callbacks and the task runs. -/
theorem running {other : TaskRecord} (tidy : record.Tidy (handle :: rest))
    (resumes : handle.resumes = true) (isRunning : other.control = .running)
    (noApproval : other.approvalFuture = none) (notCancelled : other.mustCancel = false) :
    other.Tidy rest := by
  refine of_notResuming (tidy.notResumed resumes) ?_ ?_ ?_ ?_ notCancelled
  · simp [isRunning]
  · simp [isRunning]
  · simp [isRunning, noApproval]
  · simp [isRunning]

theorem approvalFuture_eq_none (tidy : record.Tidy queue)
    (notApproval : ∀ future, record.control ≠ .approval future) : record.approvalFuture = none := by
  by_contra isSome
  rcases Option.ne_none_iff_exists'.mp isSome with ⟨future, isFuture⟩
  exact notApproval future ((tidy.approval future).mp isFuture)

theorem mustCancel_eq_false (tidy : record.Tidy queue)
    (notWaiting : ∀ future, record.waitsFor future = false) : record.mustCancel = false := by
  by_contra isCancelled
  rcases tidy.mustCancel (by simpa using isCancelled) with ⟨future, waits, _⟩
  rw [notWaiting] at waits
  cases waits

/-- No cancellation comes before the first step. -/
theorem firstStep_eq (tidy : record.Tidy (.step :: rest)) :
    record.firstStep = ({ record with control := .running, status := "running" }, []) := by
  have isCreated := tidy.step (by simp)
  have notCancelled := tidy.mustCancel_eq_false (by simp [waitsFor, isCreated])
  simp [TaskRecord.firstStep, notCancelled]

theorem step_step (tidy : record.Tidy (.step :: rest)) :
    record.firstStep.1.Tidy (rest ++ record.firstStep.2) := by
  have isCreated := tidy.step (by simp)
  rw [tidy.firstStep_eq, List.append_nil]
  refine tidy.running rfl rfl (tidy.approvalFuture_eq_none (by simp [isCreated])) ?_
  exact tidy.mustCancel_eq_false (by simp [waitsFor, isCreated])

theorem cancelTask_step (tidy : record.Tidy (.cancelTask :: rest))
    (notRunning : record.control ≠ .running) :
    record.cancelTask.1.Tidy (rest ++ record.cancelTask.2) := by
  have tail := tidy.tail (by simp)
  have settled (future : ℕ) (waits : record.waitsFor future = true) :
      record.cancelTask.1.Tidy (rest ++ record.cancelTask.2) := by
    rw [cancelTask_eq waits]
    split
    · rename_i isPending
      exact tail.settle isPending (by simp)
    · rename_i notPending
      rw [List.append_nil]
      exact { tail with mustCancel := fun _ => ⟨future, waits, notPending⟩ }
  cases isControl : record.control with
  | unscheduled =>
      exact absurd List.mem_cons_self (tidy.unscheduled isControl).2
  | created =>
      rcases tidy.created isControl with ⟨early, later, isQueue, noCancel⟩
      cases early with
      | nil => cases isQueue
      | cons first early =>
          cases isQueue
          exact absurd List.mem_cons_self noCancel
  | running => exact absurd isControl notRunning
  | approval future => exact settled future (by simp [isControl])
  | suspended future => exact settled future (by simp [isControl])
  | ended =>
      simp only [TaskRecord.cancelTask, isControl, List.append_nil]
      exact tail

theorem setFuture_step {decision : HumanDecision} {target : Option ℕ}
    (tidy : record.Tidy (.setFuture target decision :: rest)) :
    (record.setFuture target decision).1.Tidy (rest ++ (record.setFuture target decision).2) := by
  have tail := tidy.tail (by simp)
  cases target with
  | none => simpa [TaskRecord.setFuture] using tail
  | some future =>
      simp only [TaskRecord.setFuture]
      split
      · rename_i isPending
        exact tail.settle isPending (by simp)
      · simpa using tail

theorem wakeup_step (tidy : record.Tidy (.wakeup future :: rest)) :
    (record.wakeup future).1.Tidy (rest ++ (record.wakeup future).2) := by
  unfold TaskRecord.wakeup
  split
  · simp only [List.append_nil]
    exact tidy.running rfl rfl rfl rfl
  · rename_i notApproval
    have none := tidy.approvalFuture_eq_none notApproval
    simp only [List.append_nil]
    exact tidy.running rfl rfl none rfl

theorem finish_step (tidy : record.Tidy (.finish :: rest)) :
    record.finish.1.Tidy (rest ++ record.finish.2) := by
  rw [TaskRecord.finish, List.append_nil]
  exact (tidy.tail (by simp)).congr rfl rfl rfl rfl rfl rfl

theorem handle_step (tidy : record.Tidy (handle :: rest)) (notRunning : record.control ≠ .running) :
    (record.handle handle).1.Tidy (rest ++ (record.handle handle).2) := by
  cases handle with
  | start => exact tidy.start_step
  | step => exact tidy.step_step
  | cancelTask => exact tidy.cancelTask_step notRunning
  | setFuture future decision => exact tidy.setFuture_step
  | wakeup future => exact tidy.wakeup_step
  | finish => exact tidy.finish_step

theorem notResuming_of_running (tidy : record.Tidy queue) (isRunning : record.control = .running) :
    ∀ handle ∈ queue, handle.resumes = false := by
  intro handle isThere
  cases handle with
  | start => simp [tidy.start isThere] at isRunning
  | step => simp [tidy.step isThere] at isRunning
  | wakeup future => simpa [isRunning] using (tidy.wakeup future isThere).1
  | cancelTask => rfl
  | setFuture future decision => rfl
  | finish => rfl

theorem act_step (tidy : record.Tidy queue) (isRunning : record.control = .running) (step : RunStep) :
    (record.act step).1.Tidy (queue ++ (record.act step).2) := by
  have notResuming := tidy.notResuming_of_running isRunning
  have none := tidy.approvalFuture_eq_none (by simp [isRunning])
  have notCancelled := tidy.mustCancel_eq_false (by simp [waitsFor, isRunning])
  have withFinish : ∀ handle ∈ queue ++ [.finish], handle.resumes = false := by
    intro handle isThere
    rcases List.mem_append.mp isThere with isOld | isNew
    · exact notResuming handle isOld
    · rw [List.mem_singleton.mp isNew]
      rfl
  cases step with
  | suspends =>
      rw [act, List.append_nil]
      exact of_notResuming notResuming (by simp) (by simp) (by simp [none]) (by simp) notCancelled
  | asks request =>
      rw [act, List.append_nil]
      exact of_notResuming notResuming (by simp) (by simp) (by simp) (by simp) notCancelled
  | returns result =>
      exact of_notResuming withFinish (by simp [act]) (by simp [act]) (by simp [act, none])
        (by simp [act]) notCancelled
  | raises message =>
      exact of_notResuming withFinish (by simp [act]) (by simp [act]) (by simp [act, none])
        (by simp [act]) notCancelled
  | cancelled =>
      exact of_notResuming withFinish (by simp [act]) (by simp [act]) (by simp [act, none])
        (by simp [act]) notCancelled

theorem complete_step (tidy : record.Tidy queue) :
    record.complete.1.Tidy (queue ++ record.complete.2) := by
  unfold TaskRecord.complete
  split
  · split
    · rename_i isPending
      exact tidy.settle isPending (by simp)
    · simpa using tidy
  · simpa using tidy

theorem cancelFuture_step (tidy : record.Tidy queue) :
    record.cancelFuture.1.Tidy (queue ++ record.cancelFuture.2) := by
  unfold TaskRecord.cancelFuture
  split
  · refine append (tidy.congr rfl rfl rfl rfl rfl rfl) ?_ ?_
    · split <;> simp [Handle.resumes]
    · split
      · rename_i isChained
        intro _ isUnscheduled
        rw [(tidy.unscheduled isUnscheduled).1] at isChained
        cases isChained
      · simp
  · simpa using tidy

theorem accept_step (tidy : record.Tidy queue) (target : Option ℕ) (decision : HumanDecision) :
    (record.accept target decision).1.Tidy (queue ++ (record.accept target decision).2) :=
  append (tidy.congr rfl rfl rfl rfl rfl rfl) (by simp [accept, Handle.resumes]) (by simp [accept])

/-- A new record and its callback. -/
theorem new (task : Task) (executionMode : String) :
    TaskRecord.Tidy { task := task, executionMode := executionMode } [.start] where
  unscheduled _ := ⟨rfl, by simp⟩
  created no := by cases no
  start _ := rfl
  step isThere := by simp at isThere
  wakeup future isThere := by simp at isThere
  once handle _ := List.count_le_length
  approval future := by simp
  opened future waits := by simp at waits
  mustCancel no := by cases no

end Tidy

end TaskRecord

end Aa.Sifter.Desktop
