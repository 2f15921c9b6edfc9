import Aa.Kernel.Control
import Aa.Library.Machine

/-!
# Runs of an assignment

An assignment is changed by four methods. A retry brings an expired or failed assignment back to
planned, counts the attempt and clears the lease; a plain transition may take the same edge of
the table without either. The attempts of a run are therefore the returns to planned exactly
if every return is a retry.
-/

namespace Aa.Kernel.Control

open Aa.Library

/-- The state with a text, if there is one. -/
def State.ofText : String → Option State
  | "planned" => some .planned
  | "leased" => some .leased
  | "preparing" => some .preparing
  | "running" => some .running
  | "paused" => some .paused
  | "collecting" => some .collecting
  | "awaiting_gates" => some .awaitingGates
  | "accepted" => some .accepted
  | "failed" => some .failed
  | "canceled" => some .canceled
  | "expired" => some .expired
  | _ => none

theorem State.ofText_text (state : State) : State.ofText state.text = some state := by
  cases state <;> rfl

/-- A call of a method of an assignment; the state asked for may be any text. -/
inductive Call where
  | transition (target : String)
  | leaseFor (owner : String) (now ttl : ℤ)
  | expire (now : ℤ)
  | retry
deriving DecidableEq

namespace Assignment

/-- A transition to the state with a text; there is no edge to a text that is no state. -/
def transitionTo (assignment : Assignment) (target : String) : Except Error Assignment :=
  match State.ofText target with
  | some state => assignment.transition state
  | none => .error (.wrap .invalidTransition (assignment.state.text ++ " -> " ++ target))

/-- What a call returns, and the assignment after it if it does not fail. -/
def call (assignment : Assignment) : Call → Except Error Assignment
  | .transition target => assignment.transitionTo target
  | .leaseFor owner now ttl => .ok (assignment.leaseFor owner now ttl)
  | .expire now => assignment.expire now
  | .retry => assignment.retry

end Assignment

/-- Calls one after another; a call that fails leaves the assignment as it is. -/
def machine : Machine Assignment Call (Option Error) where
  step assignment call :=
    match assignment.call call with
    | .ok after => (after, none)
    | .error error => (assignment, some error)

/-- A step of a run of an assignment. -/
abbrev CallStep := Machine.Step Assignment Call (Option Error)

namespace Assignment

variable {assignment : Assignment}

/-- What a call makes of an assignment. -/
inductive Follows (assignment : Assignment) (call : Call) : Assignment → Prop
  | stays (lease : Lease) : Follows assignment call { assignment with lease := lease }
  | moves {state : State} (edge : state ∈ transitions assignment.state)
      (notRetry : call ≠ .retry) (byTransition : state = .planned → call = .transition "planned") :
      Follows assignment call { assignment with state := state }
  | retries (isRetry : call = .retry) (edge : .planned ∈ transitions assignment.state) :
      Follows assignment call
        { assignment with state := .planned, attempt := assignment.attempt + 1, lease := {} }

theorem transition_ok {state : State} {after : Assignment}
    (moves : assignment.transition state = .ok after) :
    after = assignment ∨
      state ∈ transitions assignment.state ∧ after = { assignment with state := state } := by
  rw [transition] at moves
  split at moves
  · rename_i permitted
    cases moves
    simp only [canTransition, Bool.or_eq_true, decide_eq_true_eq] at permitted
    rcases permitted with rfl | isEdge
    · exact .inl rfl
    · exact .inr ⟨isEdge, rfl⟩
  · cases moves

theorem ofText_planned {target : String} (isPlanned : State.ofText target = some .planned) :
    target = "planned" := by
  unfold State.ofText at isPlanned
  split at isPlanned
  all_goals first
    | rfl
    | simp at isPlanned

theorem transitionTo_follows {target : String} {after : Assignment}
    (moves : assignment.transitionTo target = .ok after) :
    assignment.Follows (.transition target) after := by
  rw [transitionTo] at moves
  split at moves
  · rename_i state isState
    rcases transition_ok moves with rfl | ⟨isEdge, rfl⟩
    · exact .stays _
    · refine .moves isEdge (by simp) ?_
      rintro rfl
      rw [ofText_planned isState]
  · cases moves

theorem expire_follows {now : ℤ} {after : Assignment}
    (expires : assignment.expire now = .ok after) : assignment.Follows (.expire now) after := by
  rw [expire] at expires
  split at expires
  · cases expires
    exact .stays assignment.lease
  · split at expires
    · cases expires
      exact .stays assignment.lease
    · rcases transition_ok expires with rfl | ⟨isEdge, rfl⟩
      · exact .stays _
      · exact .moves isEdge (by simp) (by simp)

theorem retry_follows {after : Assignment} (retries : assignment.retry = .ok after) :
    assignment.Follows .retry after := by
  rw [retry] at retries
  split at retries
  · cases retries
  · rename_i notOther
    have edge : State.planned ∈ transitions assignment.state := by
      by_cases isExpired : assignment.state = .expired
      · simp [isExpired, transitions]
      · have isFailed : assignment.state = .failed := by
          by_contra notFailed
          exact notOther ⟨isExpired, notFailed⟩
        simp [isFailed, transitions]
    have permitted : assignment.canTransition .planned = true := by
      simp [canTransition, edge]
    rw [transition_eq_ok permitted] at retries
    cases retries
    exact .retries rfl edge

/-- Every step of a run stays, moves along an edge of the table, or retries. -/
theorem step_follows (assignment : Assignment) (call : Call) :
    assignment.Follows call (machine.step assignment call).1 := by
  simp only [machine]
  split
  · rename_i after isOk
    cases call with
    | transition target => exact transitionTo_follows isOk
    | leaseFor owner now ttl =>
        cases isOk
        exact .stays { owner := owner, expiresAt := now + ttl }
    | expire now => exact expire_follows isOk
    | retry => exact retry_follows isOk
  · exact .stays assignment.lease

theorem Follows.state_eq {call : Call} {after : Assignment}
    (follows : assignment.Follows call after) (noEdge : transitions assignment.state = []) :
    after.state = assignment.state := by
  cases follows with
  | stays lease => rfl
  | moves edge notRetry byTransition => simp [noEdge] at edge
  | retries isRetry edge => simp [noEdge] at edge

end Assignment

/-! ## Returns to planned -/

/-- The assignment failed or expired: it may be planned again. -/
def Assignment.Over (assignment : Assignment) : Prop :=
  assignment.state = .failed ∨ assignment.state = .expired

instance (assignment : Assignment) : Decidable assignment.Over := inferInstanceAs (Decidable (_ ∨ _))

/-- The step brings a failed or expired assignment back to planned. -/
def Returned (step : CallStep) : Prop := step.before.Over ∧ step.after.state = .planned

/-- A plain transition asks for planned where the assignment is failed or expired. -/
def Replans (step : CallStep) : Prop :=
  step.before.Over ∧ step.input = .transition "planned"

instance (step : CallStep) : Decidable (Returned step) := inferInstanceAs (Decidable (_ ∧ _))

instance (step : CallStep) : Decidable (Replans step) := inferInstanceAs (Decidable (_ ∧ _))

/-- The times that an assignment returned to planned. -/
def returns (steps : List CallStep) : ℕ := steps.countP Returned

namespace Assignment

variable {assignment after : Assignment} {call : Call}

theorem planned_mem_transitions :
    .planned ∈ transitions assignment.state ↔ assignment.Over := by
  rw [Over]
  cases assignment.state <;> simp [transitions]

theorem Over.not_planned (ended : assignment.Over) : assignment.state ≠ .planned := by
  intro isPlanned
  rcases ended with isOver | isOver <;> simp [isPlanned] at isOver

/-- A plain transition to planned only changes the state. -/
theorem step_replanned (ended : assignment.Over) :
    (machine.step assignment (.transition "planned")).1 =
      { assignment with state := .planned } := by
  have permitted : assignment.canTransition .planned = true := by
    simp [canTransition, planned_mem_transitions.mpr ended]
  have isOk : assignment.call (.transition "planned") =
      .ok { assignment with state := .planned } :=
    transition_eq_ok permitted
  simp only [machine, isOk]

/-- Any other return to planned counts the attempt and clears the lease. -/
theorem Follows.retried (follows : assignment.Follows call after)
    (notReplans : ¬ (assignment.Over ∧ call = .transition "planned")) :
    (assignment.Over ∧ after.state = .planned →
      after.attempt = assignment.attempt + 1 ∧ after.lease = {}) ∧
    (¬ (assignment.Over ∧ after.state = .planned) → after.attempt = assignment.attempt) := by
  cases follows with
  | stays lease => exact ⟨fun ⟨ended, isPlanned⟩ => absurd isPlanned ended.not_planned, fun _ => rfl⟩
  | moves edge notRetry byTransition =>
      refine ⟨?_, fun _ => rfl⟩
      rintro ⟨ended, isPlanned⟩
      exact absurd ⟨ended, byTransition isPlanned⟩ notReplans
  | retries isRetry edge =>
      refine ⟨fun _ => ⟨rfl, rfl⟩, fun notReturned => ?_⟩
      exact absurd ⟨planned_mem_transitions.mp edge, rfl⟩ notReturned

end Assignment

/-- A step counts an attempt or is a plain transition exactly if it is a return. -/
theorem attempt_step (assignment : Assignment) (call : Call) :
    (machine.step assignment call).1.attempt +
        (if Replans (machine.stepAt assignment call) then 1 else 0 : ℕ) =
      assignment.attempt + (if Returned (machine.stepAt assignment call) then 1 else 0 : ℕ) := by
  by_cases replans : Replans (machine.stepAt assignment call)
  · rcases replans with ⟨ended, isCall⟩
    have ended : assignment.Over := ended
    have isCall : call = .transition "planned" := isCall
    subst isCall
    have isStep := assignment.step_replanned ended
    have isReturn : Returned (machine.stepAt assignment (.transition "planned")) :=
      ⟨ended, by simp only [Machine.stepAt, isStep]⟩
    rw [if_pos isReturn, if_pos ⟨ended, rfl⟩, isStep]
  · have retried := (assignment.step_follows call).retried replans
    rw [if_neg replans]
    split
    · rename_i isReturn
      simpa using (retried.1 isReturn).1
    · rename_i notReturn
      simpa using retried.2 notReturn

/-- The attempts of a run and the plain transitions to planned make up the returns. -/
theorem attempt_run (assignment : Assignment) (calls : List Call) :
    (machine.run assignment calls).attempt +
        (machine.steps assignment calls).countP (Replans ·) =
      assignment.attempt + returns (machine.steps assignment calls) := by
  induction calls generalizing assignment with
  | nil => rfl
  | cons call rest ih =>
      have now := attempt_step assignment call
      have later := ih (machine.step assignment call).1
      simp only [Machine.run_cons, Machine.steps_cons, returns, List.countP_cons,
        decide_eq_true_eq] at later ⊢
      omega

/-! ## What a run keeps -/

/-- An accepted or canceled assignment stays what it is. -/
def Final (step : CallStep) : Prop :=
  step.before.state = .accepted ∨ step.before.state = .canceled →
    step.after.state = step.before.state

theorem step_final (assignment : Assignment) (call : Call) :
    Final (machine.stepAt assignment call) := by
  intro isFinal
  have isFinal : assignment.state = .accepted ∨ assignment.state = .canceled := isFinal
  have noEdge : transitions assignment.state = [] := by
    rcases isFinal with isAccepted | isCanceled
    · rw [isAccepted]; rfl
    · rw [isCanceled]; rfl
  exact (assignment.step_follows call).state_eq noEdge

/-- No accepted or canceled assignment is left, a return to planned leaves no lease, and the
attempts are the returns at every moment. -/
structure Booked (assignment : Assignment) (calls : List Call) : Prop where
  final : ∀ step ∈ machine.steps assignment calls, Final step
  unleased : ∀ step ∈ machine.steps assignment calls, Returned step → step.after.lease = {}
  counted : ∀ count, (machine.run assignment (calls.take count)).attempt =
    returns (machine.steps assignment (calls.take count))

/-- The books of a new assignment are right exactly if no plain transition takes it from failed or
expired to planned. -/
theorem booked_iff (id projectId workPackageId workerId : String) (calls : List Call) :
    Booked (.new id projectId workPackageId workerId) calls ↔
      ∀ step ∈ machine.steps (.new id projectId workPackageId workerId) calls,
        ¬ Replans step := by
  generalize isNew : Assignment.new id projectId workPackageId workerId = assignment
  have noAttempt : assignment.attempt = 0 := by rw [← isNew]; rfl
  constructor
  · intro booked step isStep replans
    have total := attempt_run assignment calls
    have counted := booked.counted calls.length
    rw [List.take_length] at counted
    have isCounted : 0 < (machine.steps assignment calls).countP (Replans ·) :=
      List.countP_pos_iff.mpr ⟨step, isStep, by simpa using replans⟩
    omega
  · intro retried
    refine ⟨?_, ?_, ?_⟩
    · intro step isStep
      rw [Machine.step_eq_stepAt isStep]
      exact step_final _ _
    · intro step isStep returned
      have notReplans := retried step isStep
      rw [Machine.step_eq_stepAt isStep] at returned notReplans ⊢
      exact (((Assignment.step_follows _ _).retried notReplans).1 returned).2
    · intro count
      have total := attempt_run assignment (calls.take count)
      have none : (machine.steps assignment (calls.take count)).countP (Replans ·) = 0 := by
        refine List.countP_eq_zero.mpr fun step isStep => ?_
        simpa using retried step (Machine.steps_take_subset _ _ _ isStep)
      omega

/-- An assignment that fails while it is prepared and is planned again by a plain transition. -/
def replanned : List Call :=
  [.transition "leased", .leaseFor "wrk_1" 0 60, .transition "preparing", .transition "failed",
    .transition "planned"]

/-- It is planned for the second time with no attempt counted and the first lease. -/
theorem replanned_not_booked :
    ¬ Booked (.new "asg_1" "prj_1" "wp_1" "wrk_1") replanned := by
  intro booked
  have counted := booked.counted 5
  exact absurd counted (by decide)

end Aa.Kernel.Control
