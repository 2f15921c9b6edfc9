import Aa.Sifter.Desktop.Tidy
import Aa.Sifter.Trace

/-!
# The life of a task

Once a task has ended, its record has a terminal status that no step changes, and a
decision that was accepted is the one its request is given. Both hold in every
run whose steps are orderly: the sifter's run never returns a status that is not terminal,
no task is cancelled before it has begun or while a decision is on its way, and a
decision is accepted only where the request will take it.
-/

namespace Aa.Sifter.Desktop

open Aa.Library

/-! ## The statuses of a run -/

section Statuses

variable {sifter : ComputeSifter} {before after : Session} {events : List (Event Op Op.Answer)}
  {result : SifterResult}

theorem carryOut_status {task : Task} {direction : ComputeSifter.Direction}
    (does : (sifter.carryOut task direction).Does before events (.ok result) after) :
    result.status ∈ terminalStatuses := by
  simp only [ComputeSifter.carryOut] at does
  rcases Coroutine.does_bind.mp does with ⟨_, _, _, _, _, executing, _⟩ | ⟨_, _, no⟩
  · rcases Coroutine.does_bind.mp executing with ⟨_, _, _, _, _, resolving, _⟩ | ⟨_, _, no⟩
    · rcases Coroutine.does_bind.mp resolving with ⟨_, _, _, _, _, finishing, _⟩ | ⟨_, _, no⟩
      · rw [(ComputeSifter.finish_reports finishing).1]
        split <;> simp [terminalStatuses]
      · cases no
    · cases no
  · cases no

theorem runBody_status {task : Task}
    (does : (sifter.runBody task).Does before events (.ok result) after) :
    result.status ∈ terminalStatuses := by
  simp only [ComputeSifter.runBody] at does
  split at does
  · rcases Coroutine.does_bind.mp does with ⟨direction, _, _, _, _, rest, _⟩ | ⟨_, _, no⟩
    · cases direction with
      | none =>
          rw [(ComputeSifter.finish_reports rest).1]
          simp [terminalStatuses]
      | some direction => exact carryOut_status rest
    · cases no
  · exact carryOut_status does

/-- What a run of the sifter returns has a terminal status, unless the run was blocked by its
budget. -/
theorem run_status {task : Task}
    (does : (sifter.run task).Does before events (.ok result) after) :
    result.status ∈ terminalStatuses ∨ result.status = "blocked" := by
  rcases Coroutine.does_catching.mp does with ⟨_, running, isResult⟩ | ⟨raised, _, _, _, _, handling, _⟩
  · cases isResult
    exact .inl (runBody_status running)
  · cases raised with
    | budgetExceeded exceeded => exact .inr (ComputeSifter.finish_reports handling).1
    | providerError message =>
        rw [(ComputeSifter.finish_reports handling).1]
        exact .inl (by simp [terminalStatuses])
    | other message => cases (Coroutine.does_raise.mp handling).2.1

end Statuses

namespace TaskRecord

variable {record : TaskRecord} {queue rest : List Handle} {handle : Handle} {future : ℕ}

/-! ## The end of a task -/

/-- A task that has ended, or was cancelled before its first step. -/
def Over (record : TaskRecord) : Prop :=
  record.control = .ended ∨
    record.outer = .cancelled ∧ (record.control = .unscheduled ∨ record.control = .created)

/-- No callback brings a task back that has ended. -/
theorem handle_ended (tidy : record.Tidy (handle :: rest)) (isEnded : record.control = .ended) :
    (record.handle handle).1.control = .ended ∧
      (record.handle handle).1.status = record.status := by
  cases handle with
  | start => simp [tidy.start (by simp)] at isEnded
  | step => simp [tidy.step (by simp)] at isEnded
  | wakeup future => simpa [isEnded] using (tidy.wakeup future (by simp)).1
  | cancelTask => simp [TaskRecord.handle, cancelTask, isEnded]
  | setFuture target decision =>
      cases target with
      | none => exact ⟨isEnded, rfl⟩
      | some future =>
          simp only [TaskRecord.handle, setFuture]
          split
          · exact ⟨isEnded, rfl⟩
          · exact ⟨isEnded, rfl⟩
  | finish => exact ⟨isEnded, rfl⟩

/-! ## The decisions -/

/-- The request `future` is waiting and, as things are, would be given `decision`: no
cancellation and no other decision is queued before it, or it has been given it and the
task is not cancelled before it goes on. -/
def Takes (record : TaskRecord) (queue : List Handle) (future : ℕ) (decision : HumanDecision) :
    Prop :=
  record.control = .approval future ∧
    (record.futures future = .pending ∧ .cancelTask ∉ queue ∧
        (∀ other, .setFuture (some future) other ∈ queue → other = decision) ∨
      record.futures future = .done (some decision) ∧ record.mustCancel = false ∧
        ∃ early later, queue = early ++ .wakeup future :: later ∧ .cancelTask ∉ early)

/-- The decision is on its way to the request. -/
structure Carries (record : TaskRecord) (queue : List Handle) (future : ℕ)
    (decision : HumanDecision) : Prop where
  takes : record.Takes queue future decision
  queued : record.futures future = .pending → .setFuture (some future) decision ∈ queue

/-- A decision for which `resolve_approval` has returned true was meant for a request, and
what the request has been given when it no longer waits is that decision. -/
def Honoured (record : TaskRecord) : Prop :=
  ∀ target decision, (target, decision) ∈ record.accepted →
    ∃ future, target = some future ∧
      (record.approvalFuture ≠ some future → record.answers future = some decision)

/-- What the steps of a service keep as long as they are orderly. -/
structure Sound (record : TaskRecord) (queue : List Handle) : Prop where
  ended : record.control = .ended → record.terminal = true
  early : record.control = .unscheduled ∨ record.control = .created → record.outer ≠ .cancelled
  kept : ∀ target decision, (target, decision) ∈ record.accepted →
    ∃ future, target = some future ∧ future < record.opened ∧
      (record.control ≠ .approval future ∧ record.answers future = some decision ∨
        record.Carries queue future decision)

namespace Carries

variable {decision : HumanDecision}

theorem mustCancel (carries : record.Carries queue future decision) (tidy : record.Tidy queue) :
    record.mustCancel = false := by
  rcases carries.takes with ⟨isControl, ⟨isPending, _⟩ | ⟨_, notCancelled, _⟩⟩
  · by_contra isCancelled
    rcases tidy.mustCancel (by simpa using isCancelled) with ⟨other, waits, notPending⟩
    have isWaiting : record.waitsFor future = true := by simp [isControl]
    rw [waitsFor_unique waits isWaiting] at notPending
    exact notPending isPending
  · exact notCancelled

/-- More callbacks at the end of the queue: no cancellation and no other decision where the
request still waits. -/
theorem append {queued : List Handle} (carries : record.Carries queue future decision)
    (harmless : record.futures future = .pending → .cancelTask ∉ queued ∧
      ∀ other, .setFuture (some future) other ∈ queued → other = decision) :
    record.Carries (queue ++ queued) future decision := by
  rcases carries with ⟨⟨isControl, ⟨isPending, noCancel, same⟩ | ⟨isDone, notCancelled, isWoken⟩⟩,
    isQueued⟩
  · rcases harmless isPending with ⟨noNewCancel, newSame⟩
    refine ⟨⟨isControl, .inl ⟨isPending, by simp [noCancel, noNewCancel], ?_⟩⟩, fun _ => ?_⟩
    · intro other isThere
      rcases List.mem_append.mp isThere with isOld | isNew
      · exact same other isOld
      · exact newSame other isNew
    · exact List.mem_append_left _ (isQueued isPending)
  · rcases isWoken with ⟨early, later, rfl, noCancel⟩
    refine ⟨⟨isControl, .inr ⟨isDone, notCancelled, early, later ++ queued, by simp, noCancel⟩⟩, ?_⟩
    intro isPending
    rw [isDone] at isPending
    cases isPending

/-- A record that agrees in what is said about the request. -/
theorem congr {other : TaskRecord} (carries : record.Carries queue future decision)
    (control : other.control = record.control)
    (futures : other.futures future = record.futures future)
    (mustCancel : other.mustCancel = record.mustCancel) : other.Carries queue future decision := by
  refine ⟨?_, ?_⟩
  · rw [Takes, control, futures, mustCancel]
    exact carries.takes
  · rw [futures]
    exact carries.queued

/-- The next callback is taken off: neither one that gives the request its decision nor
one that lets the task go on. -/
theorem tail (carries : record.Carries (handle :: rest) future decision)
    (notGiven : record.futures future = .pending →
      ∀ given, handle ≠ .setFuture (some future) given)
    (notWoken : handle ≠ .wakeup future) : record.Carries rest future decision := by
  rcases carries with ⟨⟨isControl, ⟨isPending, noCancel, same⟩ | ⟨isDone, notCancelled, isWoken⟩⟩,
    isQueued⟩
  · refine ⟨⟨isControl, .inl ⟨isPending, fun isThere => noCancel (List.mem_cons_of_mem _ isThere),
      fun other isThere => same other (List.mem_cons_of_mem _ isThere)⟩⟩, fun _ => ?_⟩
    exact (List.mem_cons.mp (isQueued isPending)).resolve_left fun isHandle =>
      notGiven isPending decision isHandle.symm
  · rcases isWoken with ⟨early, later, isQueue, noCancel⟩
    cases early with
    | nil =>
        cases isQueue
        exact absurd rfl notWoken
    | cons first early =>
        cases isQueue
        refine ⟨⟨isControl, .inr ⟨isDone, notCancelled, early, later, rfl, ?_⟩⟩, ?_⟩
        · exact fun isThere => noCancel (List.mem_cons_of_mem _ isThere)
        · intro isPending
          rw [isDone] at isPending
          cases isPending

/-- A cancellation is not the next callback while a decision is on its way. -/
theorem not_cancelTask (carries : record.Carries (.cancelTask :: rest) future decision) : False := by
  rcases carries.takes with ⟨_, ⟨_, noCancel, _⟩ | ⟨_, _, early, later, isQueue, noCancel⟩⟩
  · simp at noCancel
  · cases early with
    | nil => cases isQueue
    | cons first early =>
        cases isQueue
        simp at noCancel

end Carries

/-! ## Each step is sound -/

theorem cancelTask_frame (record : TaskRecord) :
    ∃ futures mustCancel,
      record.cancelTask.1 = { record with futures := futures, mustCancel := mustCancel } := by
  unfold cancelTask
  split
  · exact ⟨record.futures, record.mustCancel, rfl⟩
  · split
    · exact ⟨_, record.mustCancel, rfl⟩
    · exact ⟨record.futures, true, rfl⟩
  · split
    · exact ⟨_, record.mustCancel, rfl⟩
    · exact ⟨record.futures, true, rfl⟩
  · exact ⟨record.futures, true, rfl⟩
  · exact ⟨record.futures, true, rfl⟩
  · exact ⟨record.futures, true, rfl⟩

/-- A settled future queues nothing but the task that waits for it. -/
theorem settle_harmless {value : Future} {other : ℕ} {decision : HumanDecision} :
    .cancelTask ∉ (record.settle future value).2 ∧
      ∀ given, .setFuture (some other) given ∈ (record.settle future value).2 → given = decision := by
  unfold settle
  split <;> simp

namespace Sound

/-- While no request waits, what was accepted has been answered. -/
theorem answered (sound : record.Sound queue)
    (notApproval : ∀ future, record.control ≠ .approval future) :
    ∀ target decision, (target, decision) ∈ record.accepted →
      ∃ future, target = some future ∧ future < record.opened ∧
        record.answers future = some decision := by
  intro target decision isAccepted
  rcases sound.kept target decision isAccepted with ⟨future, rfl, isOpened, ⟨_, isAnswer⟩ | carries⟩
  · exact ⟨future, rfl, isOpened, isAnswer⟩
  · exact absurd carries.takes.1 (notApproval future)

/-- From a record in which no request waits to one that keeps its answers. -/
theorem of_answered {other : TaskRecord} {laterQueue : List Handle} (sound : record.Sound queue)
    (notApproval : ∀ future, record.control ≠ .approval future)
    (accepted : other.accepted = record.accepted) (answers : other.answers = record.answers)
    (opened : record.opened ≤ other.opened)
    (notAgain : ∀ future, future < record.opened → other.control ≠ .approval future)
    (ended : other.control = .ended → other.terminal = true)
    (early : other.control = .unscheduled ∨ other.control = .created → other.outer ≠ .cancelled) :
    other.Sound laterQueue where
  ended := ended
  early := early
  kept target decision isAccepted := by
    rw [accepted] at isAccepted
    rcases sound.answered notApproval target decision isAccepted with
      ⟨future, rfl, isOpened, isAnswer⟩
    refine ⟨future, rfl, isOpened.trans_le opened, .inl ⟨notAgain future isOpened, ?_⟩⟩
    rw [answers, isAnswer]

theorem start_step (sound : record.Sound (.start :: rest)) (tidy : record.Tidy (.start :: rest)) :
    record.start.1.Sound (rest ++ record.start.2) := by
  have isUnscheduled := tidy.start (by simp)
  refine sound.of_answered (by simp [isUnscheduled]) rfl rfl le_rfl (by simp [start]) ?_ ?_
  · simp [start]
  · exact fun _ => sound.early (.inl isUnscheduled)

theorem step_step (sound : record.Sound (.step :: rest)) (tidy : record.Tidy (.step :: rest)) :
    record.firstStep.1.Sound (rest ++ record.firstStep.2) := by
  have isCreated := tidy.step (by simp)
  rw [tidy.firstStep_eq]
  exact sound.of_answered (by simp [isCreated]) rfl rfl le_rfl (by simp) (by simp) (by simp)

theorem cancelTask_step (sound : record.Sound (.cancelTask :: rest)) :
    record.cancelTask.1.Sound (rest ++ record.cancelTask.2) := by
  rcases record.cancelTask_frame with ⟨futures, mustCancel, isRecord⟩
  rw [isRecord]
  refine ⟨sound.ended, sound.early, fun target decision isAccepted => ?_⟩
  rcases sound.kept target decision isAccepted with ⟨future, rfl, isOpened, isAnswered | carries⟩
  · exact ⟨future, rfl, isOpened, .inl isAnswered⟩
  · exact carries.not_cancelTask.elim

theorem setFuture_step {given : HumanDecision} {target : Option ℕ}
    (sound : record.Sound (.setFuture target given :: rest))
    (tidy : record.Tidy (.setFuture target given :: rest)) :
    (record.setFuture target given).1.Sound (rest ++ (record.setFuture target given).2) := by
  have unchanged (isOther : ∀ future, target = some future → record.futures future ≠ .pending) :
      record.Sound rest := by
    refine ⟨sound.ended, sound.early, fun meant decision isAccepted => ?_⟩
    rcases sound.kept meant decision isAccepted with ⟨future, rfl, isOpened, isAnswered | carries⟩
    · exact ⟨future, rfl, isOpened, .inl isAnswered⟩
    · refine ⟨future, rfl, isOpened, .inr (carries.tail ?_ (by simp))⟩
      intro isPending _ isHandle
      cases isHandle
      exact isOther future rfl isPending
  cases target with
  | none => simpa [setFuture] using unchanged (by simp)
  | some future =>
      simp only [setFuture]
      split
      · rename_i isPending
        refine ⟨sound.ended, sound.early, fun meant decision isAccepted => ?_⟩
        rcases sound.kept meant decision isAccepted with ⟨other, rfl, isOpened, isAnswered | carries⟩
        · exact ⟨other, rfl, isOpened, .inl isAnswered⟩
        · refine ⟨other, rfl, isOpened, .inr ?_⟩
          by_cases isSame : other = future
          · subst isSame
            rcases carries.takes with ⟨isControl, ⟨_, noCancel, same⟩ | ⟨isDone, _⟩⟩
            · have isGiven := same given (by simp)
              subst isGiven
              have isWoken : (record.settle other (.done (some given))).2 = [.wakeup other] := by
                simp [settle, waitsFor, isControl]
              have noCancelRest : .cancelTask ∉ rest := fun isThere =>
                noCancel (List.mem_cons_of_mem _ isThere)
              refine ⟨⟨isControl, .inr ⟨by simp [settle], carries.mustCancel tidy, rest, [], ?_,
                noCancelRest⟩⟩, ?_⟩
              · rw [isWoken]
              · simp [settle]
            · rw [isPending] at isDone
              cases isDone
          · have later : record.Carries rest other decision := by
              refine carries.tail (fun _ _ isHandle => ?_) (by simp)
              cases isHandle
              exact isSame rfl
            refine Carries.append (later.congr rfl ?_ rfl) fun _ => settle_harmless
            simp [settle, isSame]
      · rename_i notPending
        rw [List.append_nil]
        refine unchanged fun other isOther => ?_
        cases isOther
        exact notPending

theorem wakeup_step (sound : record.Sound (.wakeup future :: rest))
    (tidy : record.Tidy (.wakeup future :: rest)) :
    (record.wakeup future).1.Sound (rest ++ (record.wakeup future).2) := by
  rcases tidy.wakeup future (by simp) with ⟨waits, notPending⟩
  unfold wakeup
  split
  · rename_i other isControl
    have isOther : other = future := waitsFor_unique (by simp [isControl]) waits
    subst isOther
    refine ⟨by simp, by simp, fun target decision isAccepted => ?_⟩
    rcases sound.kept target decision isAccepted with
      ⟨known, rfl, isOpened, ⟨notWaiting, isAnswer⟩ | carries⟩
    · have notSame : known ≠ other := by
        rintro rfl
        exact notWaiting isControl
      exact ⟨known, rfl, isOpened, .inl ⟨by simp, by simpa [notSame] using isAnswer⟩⟩
    · have isSame : known = other := by
        have := carries.takes.1
        rw [isControl] at this
        cases this
        rfl
      subst isSame
      rcases carries.takes.2 with ⟨isPending, _⟩ | ⟨isDone, notCancelled, _⟩
      · exact absurd isPending notPending
      · exact ⟨known, rfl, isOpened, .inl ⟨by simp, by simp [returned, isDone, notCancelled]⟩⟩
  · rename_i notApproval
    exact sound.of_answered notApproval rfl rfl le_rfl (by simp) (by simp) (by simp)

theorem finish_step (sound : record.Sound (.finish :: rest)) :
    record.finish.1.Sound (rest ++ record.finish.2) := by
  rw [finish, List.append_nil]
  refine ⟨sound.ended, fun isEarly => ?_, fun target decision isAccepted => ?_⟩
  · have notCancelled := sound.early isEarly
    dsimp only
    split
    · simp
    · exact notCancelled
  · rcases sound.kept target decision isAccepted with ⟨future, rfl, isOpened, isAnswered | carries⟩
    · exact ⟨future, rfl, isOpened, .inl isAnswered⟩
    · have later : record.Carries rest future decision := carries.tail (by simp) (by simp)
      exact ⟨future, rfl, isOpened, .inr (later.congr rfl rfl rfl)⟩

theorem handle_step (sound : record.Sound (handle :: rest)) (tidy : record.Tidy (handle :: rest)) :
    (record.handle handle).1.Sound (rest ++ (record.handle handle).2) := by
  cases handle with
  | start => exact sound.start_step tidy
  | step => exact sound.step_step tidy
  | cancelTask => exact sound.cancelTask_step
  | setFuture future decision => exact sound.setFuture_step tidy
  | wakeup future => exact sound.wakeup_step tidy
  | finish => exact sound.finish_step

/-- The run's step is sound unless it returns a result whose status is not terminal. -/
theorem act_step (sound : record.Sound queue) (isRunning : record.control = .running)
    {step : RunStep} (returnsTerminal : ∀ result, step = .returns result →
      result.status ∈ terminalStatuses) :
    (record.act step).1.Sound (queue ++ (record.act step).2) := by
  have notApproval (future : ℕ) : record.control ≠ .approval future := by simp [isRunning]
  cases step with
  | suspends =>
      exact sound.of_answered notApproval rfl rfl (Nat.le_succ _) (by simp [act]) (by simp [act])
        (by simp [act])
  | asks request =>
      refine sound.of_answered notApproval rfl rfl (Nat.le_succ _) (fun future isOpened => ?_)
        (by simp [act]) (by simp [act])
      simpa [act] using (Nat.ne_of_lt isOpened).symm
  | returns result =>
      have isTerminal := returnsTerminal result rfl
      exact sound.of_answered notApproval rfl rfl le_rfl (by simp [act])
        (by simp [act, terminal, isTerminal]) (by simp [act])
  | raises message =>
      exact sound.of_answered notApproval rfl rfl le_rfl (by simp [act])
        (by simp [act, terminal, terminalStatuses]) (by simp [act])
  | cancelled =>
      exact sound.of_answered notApproval rfl rfl le_rfl (by simp [act])
        (by simp [act, terminal, terminalStatuses]) (by simp [act])

theorem complete_step (sound : record.Sound queue) :
    record.complete.1.Sound (queue ++ record.complete.2) := by
  unfold complete
  split
  · rename_i future isControl
    split
    · exact sound.of_answered (by simp [isControl]) rfl rfl le_rfl
        (by simp [settle, isControl]) (by simp [settle, isControl]) (by simp [settle, isControl])
    · rw [List.append_nil]
      exact sound
  · rw [List.append_nil]
    exact sound


end Sound

/-- The task may be cancelled now: it has begun, and no decision is on its way to a request
that still waits. -/
def Cancellable (record : TaskRecord) (queue : List Handle) : Prop :=
  record.outer = .pending →
    (record.control ≠ .unscheduled ∧ record.control ≠ .created) ∧
      ∀ future decision, record.control = .approval future →
        record.futures future = .pending → .setFuture (some future) decision ∉ queue

namespace Sound

theorem cancelFuture_step (sound : record.Sound queue) (cancellable : record.Cancellable queue) :
    record.cancelFuture.1.Sound (queue ++ record.cancelFuture.2) := by
  unfold cancelFuture
  split
  · rename_i isPending
    rcases cancellable isPending with ⟨⟨notUnscheduled, notCreated⟩, noDecision⟩
    refine ⟨sound.ended, fun isEarly => ?_, fun target decision isAccepted => ?_⟩
    · exact absurd isEarly (not_or.mpr ⟨notUnscheduled, notCreated⟩)
    · rcases sound.kept target decision isAccepted with ⟨future, rfl, isOpened, isAnswered | carries⟩
      · exact ⟨future, rfl, isOpened, .inl isAnswered⟩
      · refine ⟨future, rfl, isOpened, .inr (Carries.append (carries.congr rfl rfl rfl) ?_)⟩
        intro isWaiting
        exact absurd (carries.queued isWaiting)
          (noDecision future decision carries.takes.1 isWaiting)
  · rw [List.append_nil]
    exact sound

theorem accept_step (sound : record.Sound queue) (tidy : record.Tidy queue) {future : ℕ}
    {decision : HumanDecision} (takes : record.Takes queue future decision) :
    (record.accept (some future) decision).1.Sound
      (queue ++ (record.accept (some future) decision).2) := by
  refine ⟨sound.ended, sound.early, fun target given isAccepted => ?_⟩
  rcases List.mem_append.mp isAccepted with isOld | isNew
  · rcases sound.kept target given isOld with ⟨known, rfl, isOpened, isAnswered | carries⟩
    · exact ⟨known, rfl, isOpened, .inl isAnswered⟩
    · refine ⟨known, rfl, isOpened, .inr (Carries.append (carries.congr rfl rfl rfl) ?_)⟩
      intro isWaiting
      refine ⟨by simp [accept], fun other isThere => ?_⟩
      simp only [accept, List.mem_singleton, Handle.setFuture.injEq, Option.some.injEq] at isThere
      rcases isThere with ⟨rfl, rfl⟩
      rcases takes.2 with ⟨_, _, same⟩ | ⟨isDone, _⟩
      · exact (same given (carries.queued isWaiting)).symm
      · change record.futures known = .pending at isWaiting
        rw [isDone] at isWaiting
        cases isWaiting
  · cases List.mem_singleton.mp isNew
    have isOpened := tidy.opened future (by simp [takes.1])
    refine ⟨future, rfl, isOpened, .inr ⟨⟨takes.1, ?_⟩, fun _ => by simp [accept]⟩⟩
    rcases takes.2 with ⟨isPending, noCancel, same⟩ | ⟨isDone, notCancelled, early, later, rfl, noCancel⟩
    · refine .inl ⟨isPending, by simp [accept, noCancel], fun other isThere => ?_⟩
      rcases List.mem_append.mp isThere with isOld | isLast
      · exact same other isOld
      · simpa [accept] using isLast
    · exact .inr ⟨isDone, notCancelled, early, later ++ [.setFuture (some future) decision],
        by simp [accept], noCancel⟩

theorem new (task : Task) (executionMode : String) :
    TaskRecord.Sound { task := task, executionMode := executionMode } [.start] where
  ended no := by cases no
  early _ no := by cases no
  kept target decision isAccepted := by cases isAccepted

/-- What has been accepted is honoured. -/
theorem honoured (sound : record.Sound queue) (tidy : record.Tidy queue) : record.Honoured := by
  intro target decision isAccepted
  rcases sound.kept target decision isAccepted with
    ⟨future, rfl, _, ⟨_, isAnswer⟩ | carries⟩
  · exact ⟨future, rfl, fun _ => isAnswer⟩
  · exact ⟨future, rfl, fun notWaiting =>
      absurd ((tidy.approval future).mpr carries.takes.1) notWaiting⟩

theorem terminal_of_over (sound : record.Sound queue) (isOver : record.Over) :
    record.control = .ended ∧ record.terminal = true := by
  rcases isOver with isEnded | ⟨isCancelled, isEarly⟩
  · exact ⟨isEnded, sound.ended isEnded⟩
  · exact absurd isCancelled (sound.early isEarly)

end Sound

end TaskRecord

/-! ## The service -/

namespace ComputeSifterService

variable {TaskId : Type} [DecidableEq TaskId] {service after : ComputeSifterService TaskId}
  {task : TaskId} {record : TaskRecord}

/-- Every task is tidy, and the one that runs is the one the loop is busy with. -/
structure Valid (service : ComputeSifterService TaskId) : Prop where
  tidy : service.loop.Each TaskRecord.Tidy
  running : ∀ task record, service.loop.states task = some record →
    record.control = .running → service.busy = some task
  busy : ∀ task, service.busy = some task →
    ∃ record, service.loop.states task = some record ∧ record.control = .running

/-- What makes a step orderly: a run returns a result with a terminal status; a task is
cancelled only while it can be; a decision is accepted for a request that takes it. -/
def Orderly (service : ComputeSifterService TaskId) : Action TaskId → Prop
  | .act (.returns result) => result.status ∈ terminalStatuses
  | .proceed index =>
      match service.calls[index]? with
      | some (.cancelling task) =>
          ∀ record, service.loop.states task = some record →
            record.Cancellable (service.loop.own task)
      | some (.resolving task decision target) =>
          ∀ record, service.loop.states task = some record →
            ∃ future, target = some future ∧
              record.Takes (service.loop.own task) future decision
      | _ => True
  | _ => True

/-- A run whose steps are all orderly. -/
def OrderlyRun : ComputeSifterService TaskId → List (Action TaskId) → Prop
  | _, [] => True
  | service, action :: rest =>
      service.Orderly action ∧ ∀ next, service.step action = some next → next.OrderlyRun rest

namespace Valid

theorem empty : Valid ({} : ComputeSifterService TaskId) where
  tidy := .empty
  running task record isRecord := by cases isRecord
  busy task isBusy := by cases isBusy

/-- A step that changes one task and leaves its coroutine where it is. -/
theorem put (valid : service.Valid) (isRecord : service.loop.states task = some record)
    {changed : TaskRecord} {queued : List Handle}
    (tidy : changed.Tidy (service.loop.own task ++ queued))
    (sameControl : changed.control = record.control) (calls : List (Call TaskId)) :
    Valid { service with loop := service.loop.put task changed queued, calls := calls } where
  tidy := valid.tidy.put tidy
  running other known isKnown isRunning := by
    by_cases isSame : other = task
    · subst isSame
      rw [EventLoop.states_put_self] at isKnown
      cases isKnown
      rw [sameControl] at isRunning
      exact valid.running other record isRecord isRunning
    · rw [EventLoop.states_put_of_ne isSame] at isKnown
      exact valid.running other known isKnown isRunning
  busy other isBusy := by
    rcases valid.busy other isBusy with ⟨known, isKnown, isRunning⟩
    by_cases isSame : other = task
    · subst isSame
      rw [isRecord] at isKnown
      cases isKnown
      exact ⟨changed, EventLoop.states_put_self, sameControl.trans isRunning⟩
    · exact ⟨known, by rwa [EventLoop.states_put_of_ne isSame], isRunning⟩

/-- The due callback of a task that does not run. -/
theorem own_due (valid : service.Valid) (notBusy : service.busy = none) {handle : Handle}
    {rest : List (TaskId × Handle)} (isReady : service.loop.ready = (task, handle) :: rest)
    (isRecord : service.loop.states task = some record) :
    record.control ≠ .running ∧
      record.Tidy (handle :: { service.loop with ready := rest }.own task) := by
  refine ⟨fun isRunning => ?_, ?_⟩
  · have isBusy := valid.running task record isRecord isRunning
    rw [notBusy] at isBusy
    cases isBusy
  · rw [← EventLoop.own_of_ready isReady]
    exact valid.tidy.state task record isRecord

theorem submit (valid : service.Valid) {prompt : String} {context policy : Option String}
    {executionMode : String}
    (submitted : service.submit task prompt context policy executionMode = some after) :
    after.Valid := by
  unfold ComputeSifterService.submit at submitted
  split at submitted
  · cases submitted
  · rename_i isFree
    cases submitted
    refine ⟨valid.tidy.put ?_, fun other known isKnown isRunning => ?_, fun other isBusy => ?_⟩
    · rw [valid.tidy.absent task isFree]
      exact .new _ _
    · by_cases isSame : other = task
      · subst isSame
        rw [EventLoop.states_put_self] at isKnown
        cases isKnown
        cases isRunning
      · rw [EventLoop.states_put_of_ne isSame] at isKnown
        exact valid.running other known isKnown isRunning
    · rcases valid.busy other isBusy with ⟨known, isKnown, isRunning⟩
      have isOther : other ≠ task := by
        rintro rfl
        rw [isFree] at isKnown
        cases isKnown
      exact ⟨known, by rwa [EventLoop.states_put_of_ne isOther], isRunning⟩

theorem withCalls (valid : service.Valid) (calls : List (Call TaskId)) :
    Valid { service with calls := calls } :=
  ⟨valid.tidy, valid.running, valid.busy⟩

theorem cancel (valid : service.Valid) (task : TaskId) : (service.cancel task).Valid := by
  unfold ComputeSifterService.cancel
  split
  · exact valid
  · split
    · exact valid
    · exact valid.withCalls _

theorem resolveApproval (valid : service.Valid) (task : TaskId) (action : String)
    (selectedOptions constraints : List String) (note : String) :
    (service.resolveApproval task action selectedOptions constraints note).Valid := by
  unfold ComputeSifterService.resolveApproval
  split
  · exact valid
  · split
    · exact valid.withCalls _
    · exact valid

theorem proceed (valid : service.Valid) {index : ℕ} (proceeds : service.proceed index = some after) :
    after.Valid := by
  unfold ComputeSifterService.proceed at proceeds
  split at proceeds
  · cases proceeds
  · rcases Option.map_eq_some_iff.mp proceeds with ⟨record, isRecord, rfl⟩
    refine valid.put isRecord ?_ ?_ _
    · rw [List.append_nil]
      exact (valid.tidy.state _ record isRecord).congr rfl rfl rfl rfl rfl rfl
    · rfl
  · rcases Option.map_eq_some_iff.mp proceeds with ⟨record, isRecord, rfl⟩
    refine valid.put isRecord (valid.tidy.state _ record isRecord).cancelFuture_step ?_ _
    unfold TaskRecord.cancelFuture
    split
    · rfl
    · rfl
  · rcases Option.map_eq_some_iff.mp proceeds with ⟨record, isRecord, rfl⟩
    exact valid.withCalls _
  · rcases Option.map_eq_some_iff.mp proceeds with ⟨record, isRecord, rfl⟩
    exact valid.put isRecord ((valid.tidy.state _ record isRecord).accept_step _ _) rfl _

theorem turn (valid : service.Valid) (turns : service.turn = some after) : after.Valid := by
  unfold ComputeSifterService.turn at turns
  split at turns
  · rename_i task handle rest notBusy isReady
    rcases Option.map_eq_some_iff.mp turns with ⟨record, isRecord, rfl⟩
    rcases valid.own_due notBusy isReady isRecord with ⟨notRunning, tidy⟩
    have noneRuns (other : TaskId) (known : TaskRecord)
        (isKnown : service.loop.states other = some known) : known.control ≠ .running := by
      intro isRunning
      have isBusy := valid.running other known isKnown isRunning
      rw [notBusy] at isBusy
      cases isBusy
    refine ⟨valid.tidy.put_of_ready isReady (tidy.handle_step notRunning),
      fun other known isKnown isRunning => ?_, fun other isBusy => ?_⟩
    · by_cases isSame : other = task
      · subst isSame
        rw [EventLoop.states_put_self] at isKnown
        cases isKnown
        simp [isRunning]
      · rw [EventLoop.states_put_of_ne isSame] at isKnown
        exact absurd isRunning (noneRuns other known isKnown)
    · dsimp only at isBusy
      split at isBusy
      · rename_i isRunning
        cases isBusy
        exact ⟨_, EventLoop.states_put_self, isRunning⟩
      · cases isBusy
  · cases turns

theorem act (valid : service.Valid) {step : RunStep} (acts : service.act step = some after) :
    after.Valid := by
  unfold ComputeSifterService.act at acts
  split at acts
  · cases acts
  · rename_i task isBusy
    rcases Option.map_eq_some_iff.mp acts with ⟨record, isRecord, rfl⟩
    rcases valid.busy task isBusy with ⟨known, isKnown, isRunning⟩
    rw [isRecord] at isKnown
    cases isKnown
    refine ⟨valid.tidy.put ((valid.tidy.state task record isRecord).act_step isRunning step),
      fun other known isKnown runs => ?_, fun other no => by cases no⟩
    by_cases isSame : other = task
    · subst isSame
      rw [EventLoop.states_put_self] at isKnown
      cases isKnown
      cases step <;> cases runs
    · rw [EventLoop.states_put_of_ne isSame] at isKnown
      have isOther := valid.running other known isKnown runs
      rw [isBusy] at isOther
      cases isOther
      exact absurd rfl isSame

theorem complete (valid : service.Valid) (completes : service.complete task = some after) :
    after.Valid := by
  rcases Option.map_eq_some_iff.mp completes with ⟨record, isRecord, rfl⟩
  refine valid.put isRecord (valid.tidy.state _ record isRecord).complete_step ?_ _
  unfold TaskRecord.complete
  split
  · split
    · rfl
    · rfl
  · rfl

theorem step (valid : service.Valid) {action : Action TaskId}
    (steps : service.step action = some after) : after.Valid := by
  cases action with
  | submit task prompt context policy executionMode => exact valid.submit steps
  | cancel task =>
      cases steps
      exact valid.cancel task
  | resolveApproval task action selectedOptions constraints note =>
      cases steps
      exact valid.resolveApproval task action selectedOptions constraints note
  | proceed index => exact valid.proceed steps
  | turn => exact valid.turn steps
  | act step => exact valid.act steps
  | complete task => exact valid.complete steps

end Valid

/-! ## Orderly runs -/

abbrev Sound (service : ComputeSifterService TaskId) : Prop :=
  service.loop.Each TaskRecord.Sound

namespace Sound

theorem proceed (sound : service.Sound) (valid : service.Valid) {index : ℕ}
    (orderly : service.Orderly (.proceed index)) (proceeds : service.proceed index = some after) :
    after.Sound := by
  unfold ComputeSifterService.proceed at proceeds
  simp only [Orderly] at orderly
  split at proceeds
  · cases proceeds
  · rcases Option.map_eq_some_iff.mp proceeds with ⟨record, isRecord, rfl⟩
    have old := sound.state _ record isRecord
    refine sound.put ?_
    rw [List.append_nil]
    exact ⟨old.ended, old.early, fun target decision isAccepted => by
      rcases old.kept target decision isAccepted with ⟨future, rfl, isOpened, isAnswered | carries⟩
      · exact ⟨future, rfl, isOpened, .inl isAnswered⟩
      · exact ⟨future, rfl, isOpened, .inr (carries.congr rfl rfl rfl)⟩⟩
  · rename_i task isCall
    rcases Option.map_eq_some_iff.mp proceeds with ⟨record, isRecord, rfl⟩
    rw [isCall] at orderly
    exact sound.put ((sound.state _ record isRecord).cancelFuture_step (orderly record isRecord))
  · rcases Option.map_eq_some_iff.mp proceeds with ⟨record, isRecord, rfl⟩
    exact sound
  · rename_i task decision target isCall
    rcases Option.map_eq_some_iff.mp proceeds with ⟨record, isRecord, rfl⟩
    rw [isCall] at orderly
    rcases orderly record isRecord with ⟨future, rfl, takes⟩
    exact sound.put ((sound.state _ record isRecord).accept_step
      (valid.tidy.state _ record isRecord) takes)

theorem turn (sound : service.Sound) (valid : service.Valid) (turns : service.turn = some after) :
    after.Sound := by
  unfold ComputeSifterService.turn at turns
  split at turns
  · rename_i task handle rest notBusy isReady
    rcases Option.map_eq_some_iff.mp turns with ⟨record, isRecord, rfl⟩
    have old := sound.state task record isRecord
    rw [EventLoop.own_of_ready isReady] at old
    exact sound.put_of_ready isReady
      (old.handle_step (valid.own_due notBusy isReady isRecord).2)
  · cases turns

theorem act (sound : service.Sound) (valid : service.Valid) {step : RunStep}
    (orderly : service.Orderly (.act step)) (acts : service.act step = some after) :
    after.Sound := by
  unfold ComputeSifterService.act at acts
  split at acts
  · cases acts
  · rename_i task isBusy
    rcases Option.map_eq_some_iff.mp acts with ⟨record, isRecord, rfl⟩
    rcases valid.busy task isBusy with ⟨known, isKnown, isRunning⟩
    rw [isRecord] at isKnown
    cases isKnown
    refine sound.put ((sound.state task record isRecord).act_step isRunning ?_)
    rintro result rfl
    exact orderly

theorem step (sound : service.Sound) (valid : service.Valid) {action : Action TaskId}
    (orderly : service.Orderly action) (steps : service.step action = some after) :
    after.Sound := by
  cases action with
  | submit task prompt context policy executionMode =>
      simp only [ComputeSifterService.step, submit] at steps
      split at steps
      · cases steps
      · rename_i isFree
        cases steps
        refine EventLoop.Each.put sound ?_
        rw [sound.absent task isFree]
        exact .new _ _
  | cancel task =>
      cases steps
      unfold cancel
      split
      · exact sound
      · split
        · exact sound
        · exact sound
  | resolveApproval task action selectedOptions constraints note =>
      cases steps
      unfold resolveApproval
      split
      · exact sound
      · split
        · exact sound
        · exact sound
  | proceed index => exact sound.proceed valid orderly steps
  | turn => exact sound.turn valid steps
  | act step => exact sound.act valid orderly steps
  | complete task =>
      rcases Option.map_eq_some_iff.mp steps with ⟨record, isRecord, rfl⟩
      exact EventLoop.Each.put sound (sound.state task record isRecord).complete_step

end Sound

/-- What an orderly run leaves is valid and sound. -/
theorem run_sound {actions : List (Action TaskId)} (valid : service.Valid) (sound : service.Sound)
    (orderly : service.OrderlyRun actions) (runs : service.run actions = some after) :
    after.Valid ∧ after.Sound := by
  induction actions generalizing service with
  | nil =>
      cases runs
      exact ⟨valid, sound⟩
  | cons action rest ih =>
      rcases Option.bind_eq_some_iff.mp runs with ⟨next, steps, runs⟩
      exact ih (valid.step steps) (sound.step valid orderly.1 steps) (orderly.2 next steps) runs

/-! ## After the end -/

/-- The record has ended with this status. -/
def EndedAs (service : ComputeSifterService TaskId) (task : TaskId) (status : String) : Prop :=
  ∃ record, service.loop.states task = some record ∧ record.control = .ended ∧
    record.status = status

theorem EndedAs.put {status : String} (ended : service.EndedAs task status) {changed : TaskId}
    {ready : List (TaskId × Handle)} {record : TaskRecord} {queued : List Handle}
    (keeps : changed = task → record.control = .ended ∧ record.status = status)
    (calls : List (Call TaskId)) (busy : Option TaskId) :
    EndedAs
      { loop := { service.loop with ready := ready }.put changed record queued
        busy := busy
        calls := calls } task status := by
  rcases ended with ⟨known, isKnown, isEnded, isStatus⟩
  by_cases isSame : task = changed
  · subst isSame
    exact ⟨record, EventLoop.states_put_self, keeps rfl⟩
  · exact ⟨known, by rwa [EventLoop.states_put_of_ne isSame], isEnded, isStatus⟩

/-- No step changes the status of a task that has ended. -/
theorem EndedAs.step {status : String} (ended : service.EndedAs task status) (valid : service.Valid)
    {action : Action TaskId} (steps : service.step action = some after) :
    after.EndedAs task status := by
  have isSame {changed : TaskId} {record : TaskRecord}
      (isRecord : service.loop.states changed = some record) (isTask : changed = task) :
      record.control = .ended ∧ record.status = status := by
    rcases ended with ⟨known, isKnown, isEnded⟩
    rw [isTask, isKnown] at isRecord
    cases isRecord
    exact isEnded
  cases action with
  | submit changed prompt context policy executionMode =>
      simp only [ComputeSifterService.step, submit] at steps
      split at steps
      · cases steps
      · rename_i isFree
        cases steps
        refine EndedAs.put ended (fun isTask => ?_) _ _
        rcases ended with ⟨known, isKnown, _⟩
        rw [isTask, isKnown] at isFree
        cases isFree
  | cancel changed =>
      cases steps
      unfold cancel
      split
      · exact ended
      · split
        · exact ended
        · exact ended
  | resolveApproval changed action selectedOptions constraints note =>
      cases steps
      unfold resolveApproval
      split
      · exact ended
      · split
        · exact ended
        · exact ended
  | proceed index =>
      simp only [ComputeSifterService.step, proceed] at steps
      split at steps
      · cases steps
      · rcases Option.map_eq_some_iff.mp steps with ⟨record, isRecord, rfl⟩
        refine ended.put (fun isTask => ?_) _ _
        rcases isSame isRecord isTask with ⟨isEnded, isStatus⟩
        exact ⟨isEnded, isStatus⟩
      · rcases Option.map_eq_some_iff.mp steps with ⟨record, isRecord, rfl⟩
        refine ended.put (fun isTask => ?_) _ _
        rcases isSame isRecord isTask with ⟨isEnded, isStatus⟩
        unfold TaskRecord.cancelFuture
        split
        · exact ⟨isEnded, isStatus⟩
        · exact ⟨isEnded, isStatus⟩
      · rcases Option.map_eq_some_iff.mp steps with ⟨record, isRecord, rfl⟩
        exact ended
      · rcases Option.map_eq_some_iff.mp steps with ⟨record, isRecord, rfl⟩
        refine ended.put (fun isTask => ?_) _ _
        rcases isSame isRecord isTask with ⟨isEnded, isStatus⟩
        exact ⟨isEnded, isStatus⟩
  | turn =>
      simp only [ComputeSifterService.step, turn] at steps
      split at steps
      · rename_i changed handle rest notBusy isReady
        rcases Option.map_eq_some_iff.mp steps with ⟨record, isRecord, rfl⟩
        refine ended.put (fun isTask => ?_) _ _
        rcases isSame isRecord isTask with ⟨isEnded, rfl⟩
        exact TaskRecord.handle_ended (valid.own_due notBusy isReady isRecord).2 isEnded
      · cases steps
  | act step =>
      simp only [ComputeSifterService.step, act] at steps
      split at steps
      · cases steps
      · rename_i changed isBusy
        rcases Option.map_eq_some_iff.mp steps with ⟨record, isRecord, rfl⟩
        refine ended.put (fun isTask => ?_) _ _
        rcases valid.busy changed isBusy with ⟨known, isKnown, isRunning⟩
        rw [isRecord] at isKnown
        cases isKnown
        rw [(isSame isRecord isTask).1] at isRunning
        cases isRunning
  | complete changed =>
      rcases Option.map_eq_some_iff.mp steps with ⟨record, isRecord, rfl⟩
      refine ended.put (fun isTask => ?_) _ _
      rcases isSame isRecord isTask with ⟨isEnded, isStatus⟩
      simpa [TaskRecord.complete, isEnded] using isStatus

theorem EndedAs.run {status : String} {actions : List (Action TaskId)}
    (ended : service.EndedAs task status) (valid : service.Valid)
    (runs : service.run actions = some after) : after.EndedAs task status := by
  induction actions generalizing service with
  | nil =>
      cases runs
      exact ended
  | cons action rest ih =>
      rcases Option.bind_eq_some_iff.mp runs with ⟨next, steps, runs⟩
      exact ih (ended.step valid steps) (valid.step steps) runs

/-- In every state of an orderly run, a task that is over has a terminal status that no later
step changes, and every accepted decision is honoured. -/
theorem lifecycle {actions : List (Action TaskId)}
    (orderly : ({} : ComputeSifterService TaskId).OrderlyRun actions)
    (runs : ({} : ComputeSifterService TaskId).run actions = some service)
    (isRecord : service.loop.states task = some record) :
    (record.Over → record.terminal = true ∧
      ∀ later after, service.run later = some after →
        ∃ final, after.loop.states task = some final ∧ final.status = record.status) ∧
      record.Honoured := by
  rcases run_sound .empty .empty orderly runs with ⟨valid, sound⟩
  have recordSound := sound.state task record isRecord
  refine ⟨fun isOver => ?_, recordSound.honoured (valid.tidy.state task record isRecord)⟩
  rcases recordSound.terminal_of_over isOver with ⟨isEnded, isTerminal⟩
  refine ⟨isTerminal, fun later after runs => ?_⟩
  have ended : service.EndedAs task record.status := ⟨record, isRecord, isEnded, rfl⟩
  rcases ended.run valid runs with ⟨final, isFinal, _, isStatus⟩
  exact ⟨final, isFinal, isStatus⟩

/-! ## Runs on one task -/

def resultWith (status : String) : SifterResult where
  status := status
  answer := ""
  route := "cloud"
  decisionLevel := .major
  requiresHumanApproval := true
  blockedReason := none
  assessment := {}
  usage := {}
  approvals := []

def analysisRequest : ApprovalRequest where
  category := .major
  issue := "Replace the persistence layer"

/-- A task is submitted and asks the human. -/
def askingActions : List (Action ℕ) :=
  [.submit 0 "Replace the persistence layer" none none "adaptive", .proceed 0, .turn, .turn,
    .act (.asks analysisRequest)]

/-- One decision is accepted and given to the request. -/
def approvedActions : List (Action ℕ) :=
  askingActions ++
    [.resolveApproval 0 "approve" [] [] "", .proceed 0, .proceed 0, .turn, .turn,
      .act (.returns (resultWith "completed"))]

theorem OrderlyRun.cons {next : ComputeSifterService TaskId} {action : Action TaskId}
    {rest : List (Action TaskId)} (orderly : service.Orderly action)
    (steps : service.step action = some next) (restOrderly : next.OrderlyRun rest) :
    service.OrderlyRun (action :: rest) := by
  refine ⟨orderly, fun other isOther => ?_⟩
  rw [steps] at isOther
  cases isOther
  exact restOrderly

theorem approvedActions_orderly : ({} : ComputeSifterService ℕ).OrderlyRun approvedActions := by
  have isTerminal : "completed" ∈ terminalStatuses := by simp [terminalStatuses]
  refine .cons trivial rfl (.cons trivial rfl (.cons trivial rfl (.cons trivial rfl
    (.cons trivial rfl (.cons trivial rfl (.cons trivial rfl (.cons ?_ rfl (.cons trivial rfl
      (.cons trivial rfl (.cons isTerminal rfl trivial))))))))))
  intro record isRecord
  cases isRecord
  exact ⟨0, rfl, rfl, .inl ⟨rfl, List.not_mem_nil, fun _ isThere =>
    absurd isThere List.not_mem_nil⟩⟩

/-- The approved task is completed for good, and the approval was given to its request. -/
theorem approvedActions_lifecycle :
    ∃ service record, ({} : ComputeSifterService ℕ).run approvedActions = some service ∧
      service.loop.states 0 = some record ∧ record.status = "completed" ∧
      (record.Over → record.terminal = true ∧
        ∀ later after, service.run later = some after →
          ∃ final, after.loop.states 0 = some final ∧ final.status = record.status) ∧
      record.Honoured :=
  ⟨_, _, rfl, rfl, rfl, lifecycle approvedActions_orderly rfl rfl⟩

/-- The run of the task stops at its budget. -/
def blockedActions : List (Action ℕ) :=
  askingActions ++
    [.resolveApproval 0 "approve" [] [] "", .proceed 0, .proceed 0, .turn, .turn,
      .act (.returns (resultWith "blocked"))]

/-- Two calls decide the same request. -/
def decidedTwiceActions : List (Action ℕ) :=
  askingActions ++
    [.resolveApproval 0 "approve" [] [] "", .resolveApproval 0 "stop_task" [] [] "", .proceed 0,
      .proceed 1, .proceed 0, .proceed 0, .turn, .turn, .turn]

/-- A task that has ended is not terminal, and a decision that was accepted is not the one its
request is given. -/
theorem lifecycle_broken :
    (∃ service record, ({} : ComputeSifterService ℕ).run blockedActions = some service ∧
      service.loop.states 0 = some record ∧ record.Over ∧ record.terminal = false) ∧
      ∃ service record, ({} : ComputeSifterService ℕ).run decidedTwiceActions = some service ∧
        service.loop.states 0 = some record ∧ ¬ record.Honoured := by
  refine ⟨⟨_, _, rfl, rfl, .inl rfl, rfl⟩, _, _, rfl, rfl, fun honoured => ?_⟩
  rcases honoured (some 0) { action := .stop } (.tail _ (.head _)) with ⟨future, isFuture, given⟩
  cases isFuture
  have notWaiting : (none : Option ℕ) ≠ some 0 := by simp
  have isAnswer : (some { action := .approve } : Option HumanDecision) = some { action := .stop } :=
    given notWaiting
  simp at isAnswer

end ComputeSifterService

end Aa.Sifter.Desktop
