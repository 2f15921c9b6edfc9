import Aa.Toolbox.Workflow.Order
import Aa.Toolbox.Workflow.Runtime

/-!
# When a run panics

The last error of a step is set by its attempts. A step that has no attempt left when the
run reaches it has none, and its failure policy dereferences it: a prior state records the
attempts of a step that failed, and the largest number of retries leaves no attempt at
all. These are the only panics of a run.
-/

namespace Aa.Toolbox.Workflow

open Aa.Library Aa.Contracts Aa.Toolbox

/-! ## Results -/

section Results

variable {results : GoMap String StepResult} {result : StepResult} {id : String}

theorem isTerminal_insert_self :
    isTerminal (results.insert result.id result) result.id = result.terminal := by
  rw [isTerminal, AList.lookup_insert]
  rfl

theorem isTerminal_insert_ne (other : id ≠ result.id) :
    isTerminal (results.insert result.id result) id = isTerminal results id := by
  rw [isTerminal, AList.lookup_insert_ne other]
  rfl

theorem attemptsOf_insert_self :
    attemptsOf (results.insert result.id result) result.id = result.attempts := by
  rw [attemptsOf, AList.lookup_insert]
  rfl

theorem attemptsOf_insert_ne (other : id ≠ result.id) :
    attemptsOf (results.insert result.id result) id = attemptsOf results id := by
  rw [attemptsOf, AList.lookup_insert_ne other]
  rfl

end Results

/-- Where everything before a step in the order is terminal, its dependencies are
satisfied. -/
theorem depsSatisfied_of_done {plan : Plan} (wellFormed : plan.WellFormed) {id : String}
    {before rest : List String} (orderEq : plan.order = before ++ id :: rest) {state : RunState}
    (done : ∀ dep ∈ before, isTerminal state.results dep = true) :
    depsSatisfied plan state id = true := by
  refine List.all_eq_true.mpr ?_
  intro dep isDep
  exact done dep (wellFormed.first before id rest orderEq dep isDep)

/-! ## Spent steps -/

/-- The step is run by the runner, is not terminal, and has used all its attempts. -/
def Spent (plan : Plan) (results : GoMap String StepResult) (id : String) : Prop :=
  ∃ step, plan.steps.lookup id = some step ∧ isGate step = false ∧
    isTerminal results id = false ∧ maxAttempts step ≤ attemptsOf results id

theorem spent_insert_ne {plan : Plan} {results : GoMap String StepResult} {result : StepResult}
    {id : String} (other : id ≠ result.id) :
    Spent plan (results.insert result.id result) id ↔ Spent plan results id := by
  simp only [Spent, isTerminal_insert_ne other, attemptsOf_insert_ne other]

/-- None of the listed steps is spent. -/
def Fresh (plan : Plan) (ids : List String) (state : RunState) : Prop :=
  ∀ id ∈ ids, ¬ Spent plan state.results id

/-- A law that only forbids panics. -/
def quiet : Law Op Op.Answer Panic Unit where
  emit _ := ()
  permits _ _ := True
  raises _ := False

namespace Fresh

variable {plan : Plan} {ids : List String} {α : Type}

/-- A coroutine that keeps the listed steps fresh and does not panic. -/
abbrev Keeps (plan : Plan) (ids : List String) (coroutine : RunM α) : Prop :=
  Coroutine.Triple quiet (fun _ state => Fresh plan ids state) coroutine
    (fun _ _ state => Fresh plan ids state)

theorem setResult {result : StepResult} (other : result.id ∉ ids) :
    Keeps plan ids (RunM.setResult result) := by
  refine .modify ?_
  intro _ state fresh id isListed
  have notResult : id ≠ result.id := fun isResult => other (isResult ▸ isListed)
  exact fun isSpent => fresh id isListed ((spent_insert_ne notResult).mp isSpent)

theorem setStatus (status : RunStatus) : Keeps plan ids (RunM.setStatus status) :=
  .modify fun _ _ fresh => fresh

theorem invoke (action : Action) : Keeps plan ids (RunM.invoke action) := by
  refine .read_bind ?_
  intro current
  exact .perform fun _ _ _ holds => ⟨trivial, holds.1⟩

theorem pure (value : α) : Keeps plan ids (Pure.pure value : RunM α) :=
  .pure fun _ _ fresh => fresh

theorem errorText (error : Error) : Keeps plan ids (RunM.errorText (some error)) :=
  pure _

/-- The attempts end with a success, or with the error of the last one. -/
theorem attemptLoop {step : WorkflowStep} (other : step.id ∉ ids) :
    ∀ (remaining : ℕ) (attempt : ℤ) (lastErr : Option Error),
      0 < remaining ∨ lastErr.isSome = true →
      Coroutine.Triple quiet (fun _ state => Fresh plan ids state)
        (attemptLoop step remaining attempt lastErr)
        (fun used _ state => Fresh plan ids state ∧
          ∀ last, used = some last → last.2.isSome = true)
  | 0, attempt, lastErr, left => by
      refine .pure ?_
      intro _ state fresh
      refine ⟨fresh, ?_⟩
      rintro last ⟨⟩
      exact left.resolve_left (Nat.lt_irrefl 0)
  | remaining + 1, attempt, lastErr, _ => by
      refine .bind (invoke (.run step (attempt + 1))) ?_
      intro answer
      cases answer with
      | ok output =>
          refine .bind (setResult other) ?_
          intro _
          exact .pure fun _ state fresh => ⟨fresh, by simp⟩
      | error error =>
          refine .bind (setResult other) ?_
          intro _
          exact attemptLoop other remaining (attempt + 1) (some error) (.inr rfl)

theorem settle {runtime : Runtime} {step : WorkflowStep} (other : step.id ∉ ids)
    (output : Option Json.Object) (attempt : ℤ) (error : Error) :
    Keeps plan ids (runtime.settle step output attempt (some error)) := by
  unfold Runtime.settle
  split
  · refine .bind (errorText error) fun reason => ?_
    refine .bind (setResult other) fun _ => ?_
    exact pure none
  · split
    · refine .bind (invoke (.compensate step output)) fun compensated => ?_
      cases compensated with
      | some error =>
          refine .bind (setResult other) fun _ => ?_
          refine .bind (setStatus .failed) fun _ => ?_
          exact pure _
      | none =>
          refine .bind (errorText error) fun reason => ?_
          refine .bind (setResult other) fun _ => ?_
          exact pure none
    · refine .bind (errorText error) fun reason => ?_
      refine .bind (setResult other) fun _ => ?_
      refine .bind (setStatus .failed) fun _ => ?_
      exact pure _

theorem runGate {runtime : Runtime} {id : String} (other : id ∉ ids) (step : WorkflowStep) :
    Keeps plan ids (runtime.runGate id step) := by
  have evaluates : Keeps plan ids (runtime.evaluateGate step) := by
    unfold Runtime.evaluateGate
    split
    · exact invoke (.evaluate step)
    · exact pure _
  refine .bind evaluates ?_
  rintro ⟨passed, error⟩
  cases error with
  | some error =>
      refine .bind (setResult other) fun _ => ?_
      refine .bind (setStatus .awaitingApproval) fun _ => ?_
      exact pure _
  | none =>
      cases passed with
      | false =>
          refine .bind (setResult other) fun _ => ?_
          refine .bind (setStatus .awaitingApproval) fun _ => ?_
          exact pure _
      | true =>
          refine .bind (setResult other) fun _ => ?_
          exact pure none

/-- A step with an attempt left runs without a panic. -/
theorem runWithPolicy {runtime : Runtime} {step : WorkflowStep} (other : step.id ∉ ids) :
    Coroutine.Triple quiet
      (fun _ state => Fresh plan ids state ∧ attemptsOf state.results step.id < maxAttempts step)
      (runtime.runWithPolicy step) (fun _ _ state => Fresh plan ids state) := by
  unfold Runtime.runWithPolicy
  split
  · refine .read_bind ?_
    intro current
    refine .assume (attemptsOf current.results step.id < maxAttempts step) ?_ ?_
    · rintro _ state ⟨⟨_, isLeft⟩, rfl⟩
      exact isLeft
    · intro isLeft
      refine .bind ((attemptLoop other _ _ none (.inl (by omega))).weaken
        (fun _ _ holds => holds.1.1) fun _ _ _ holds => holds) ?_
      intro used
      refine .assume (∀ last, used = some last → last.2.isSome = true) (fun _ _ holds => holds.2) ?_
      intro hasError
      cases used with
      | none => exact .pure fun _ _ holds => holds.1
      | some last =>
          rcases last with ⟨attempt, lastErr⟩
          rcases Option.isSome_iff_exists.mp (hasError _ rfl) with ⟨error, rfl⟩
          exact (settle other _ attempt error).weaken (fun _ _ holds => holds.1)
            fun _ _ _ fresh => fresh
  · have fails : Keeps plan ids (do
        RunM.setResult { id := step.id, state := .failed, reason := "no runner configured" }
        RunM.setStatus .failed
        Pure.pure (some (Exit.noRunner step.id))) := by
      refine .bind (setResult other) fun _ => ?_
      exact .bind (setStatus .failed) fun _ => pure _
    exact fails.weaken (fun _ _ holds => holds.1) fun _ _ _ fresh => fresh

theorem rest {id : String} {ids : List String} {state : RunState}
    (fresh : Fresh plan (id :: ids) state) : Fresh plan ids state :=
  fun other isListed => fresh other (List.mem_cons_of_mem _ isListed)

/-- A fresh step that is reached has an attempt left. -/
theorem left {id : String} {step : WorkflowStep} {state : RunState}
    (fresh : Fresh plan (id :: ids) state) (found : plan.steps.lookup id = some step)
    (isRun : isGate step = false) (notTerminal : isTerminal state.results id = false) :
    attemptsOf state.results id < maxAttempts step := by
  by_contra notLeft
  exact fresh id List.mem_cons_self ⟨step, found, isRun, notTerminal, not_lt.mp notLeft⟩

/-- From fresh steps, each listed once, the run does not panic. -/
theorem runOrder {runtime : Runtime} (wellFormed : plan.WellFormed) {ids : List String}
    (nodup : ids.Nodup) :
    Coroutine.Triple quiet (fun _ state => Fresh plan ids state) (runtime.runOrder plan ids)
      (fun _ _ _ => True) := by
  induction ids with
  | nil =>
      refine .bind (setStatus .complete) fun _ => ?_
      exact .pure fun _ _ _ => trivial
  | cons id ids ih =>
      rcases List.nodup_cons.mp nodup with ⟨notRest, restNodup⟩
      have continues := ih restNodup
      rw [Runtime.runOrder]
      split
      · exact continues.weaken (fun _ _ fresh => fresh.rest) fun _ _ _ holds => holds
      · rename_i step found
        have keyed := wellFormed.keyed id step found
        refine .read_bind ?_
        intro current
        split
        · exact continues.weaken (fun _ _ holds => holds.1.rest) fun _ _ _ holds => holds
        · rename_i notTerminal
          split
          · refine .bind ((setResult notRest).weaken (fun _ _ holds => holds.1.rest)
              fun _ _ _ fresh => fresh) fun _ => ?_
            refine .bind (setStatus .failed) fun _ => ?_
            exact .pure fun _ _ _ => trivial
          · have ends : Coroutine.Triple quiet
                (fun _ state => Fresh plan (id :: ids) state ∧ state = current)
                (runtime.runStep id step) (fun _ _ state => Fresh plan ids state) := by
              unfold Runtime.runStep
              split
              · exact (runGate notRest step).weaken (fun _ _ holds => holds.1.rest)
                  fun _ _ _ fresh => fresh
              · rename_i isRun
                refine (runWithPolicy (keyed.symm ▸ notRest)).weaken ?_ fun _ _ _ fresh => fresh
                rintro _ state ⟨fresh, rfl⟩
                refine ⟨fresh.rest, ?_⟩
                rw [keyed]
                exact fresh.left found (by simpa using isRun) (by simpa using notTerminal)
            refine ends.bind ?_
            intro ended
            cases ended with
            | some exit => exact .pure fun _ _ _ => trivial
            | none => exact continues

end Fresh

/-! ## Reaching a spent step -/

/-- A runtime whose runner cannot compensate. -/
def plainRuntime : Runtime where
  hasRunner := true
  compensates := false
  hasGates := true

/-- The step became terminal and no other result changed. -/
structure Completes (id : String) (before after : RunState) : Prop where
  terminal : isTerminal after.results id = true
  others : ∀ other, other ≠ id → after.results.lookup other = before.results.lookup other

theorem completes_setResult (state : RunState) (result : StepResult)
    (isTerminal : result.terminal = true) :
    Completes result.id state
      { state with results := state.results.insert result.id result } where
  terminal := isTerminal_insert_self.trans isTerminal
  others _ other := AList.lookup_insert_ne other

theorem invoke_does (action : Action) (state : RunState) (answer : action.Answer) :
    (RunM.invoke action).Does state [⟨⟨action, state.results⟩, answer⟩] (.ok answer) state :=
  Coroutine.does_bind_ok (Coroutine.does_read.mpr ⟨rfl, rfl, rfl⟩)
    (Coroutine.does_perform.mpr ⟨answer, rfl, rfl, rfl⟩)

theorem runGate_passes (id : String) (step : WorkflowStep) (state : RunState) :
    (plainRuntime.runGate id step).May state
      fun outcome after => outcome = .ok none ∧ Completes id state after := by
  refine Coroutine.may_bind (invoke_does (.evaluate step) state (true, none)) ?_
  refine Coroutine.may_modify_bind ?_
  exact Coroutine.may_pure ⟨rfl, completes_setResult state { id := id, state := .complete } rfl⟩

theorem runWithPolicy_passes {step : WorkflowStep} {state : RunState}
    (isLeft : attemptsOf state.results step.id < maxAttempts step) :
    (plainRuntime.runWithPolicy step).May state
      fun outcome after => outcome = .ok none ∧ Completes step.id state after := by
  have someLeft : (maxAttempts step - attemptsOf state.results step.id).toNat ≠ 0 := by omega
  rcases Nat.exists_eq_succ_of_ne_zero someLeft with ⟨remaining, remainingEq⟩
  let result : StepResult :=
    { id := step.id, state := .complete, attempts := attemptsOf state.results step.id + 1 }
  have loops : ∃ events, (attemptLoop step
      (maxAttempts step - attemptsOf state.results step.id).toNat
      (attemptsOf state.results step.id) none).Does state events (.ok none)
      { state with results := state.results.insert result.id result } := by
    rw [remainingEq, attemptLoop]
    exact ⟨_, Coroutine.does_bind_ok (invoke_does (.run step _) state (.ok none))
      (Coroutine.does_bind_ok (Coroutine.does_modify.mpr ⟨rfl, rfl, rfl⟩)
        (Coroutine.does_pure.mpr ⟨rfl, rfl, rfl⟩))⟩
  rcases loops with ⟨events, loopDoes⟩
  refine Coroutine.may_read_bind ?_
  refine Coroutine.may_bind loopDoes ?_
  exact Coroutine.may_pure ⟨rfl, completes_setResult state result rfl⟩

/-- Without a last error every failure policy dereferences it. -/
theorem settle_panics (step : WorkflowStep) (output : Option Json.Object) (attempt : ℤ)
    (state : RunState) :
    (plainRuntime.settle step output attempt none).May state
      fun outcome _ => outcome = .error .nilDereference := by
  have noText : (RunM.errorText none).Does state [] (.error .nilDereference) state :=
    Coroutine.does_raise.mpr ⟨rfl, rfl, rfl⟩
  unfold Runtime.settle
  split
  · exact Coroutine.may_bind_error noText rfl
  · split
    · rename_i compensating
      exact absurd compensating.2 (by simp [plainRuntime])
    · exact Coroutine.may_bind_error noText rfl

theorem runWithPolicy_panics {step : WorkflowStep} {state : RunState}
    (noneLeft : maxAttempts step ≤ attemptsOf state.results step.id) :
    (plainRuntime.runWithPolicy step).May state
      fun outcome _ => outcome = .error .nilDereference := by
  have noAttempt : (maxAttempts step - attemptsOf state.results step.id).toNat = 0 := by omega
  have loops : (attemptLoop step (maxAttempts step - attemptsOf state.results step.id).toNat
      (attemptsOf state.results step.id) none).Does state []
      (.ok (some (attemptsOf state.results step.id, none))) state := by
    rw [noAttempt]
    exact Coroutine.does_pure.mpr ⟨rfl, rfl, rfl⟩
  refine Coroutine.may_read_bind ?_
  refine Coroutine.may_bind loops ?_
  exact settle_panics step _ _ state

theorem runStep_passes {id : String} {step : WorkflowStep} {state : RunState}
    (keyed : step.id = id)
    (isLeft : isGate step = false → attemptsOf state.results id < maxAttempts step) :
    (plainRuntime.runStep id step).May state
      fun outcome after => outcome = .ok none ∧ Completes id state after := by
  unfold Runtime.runStep
  split
  · exact runGate_passes id step state
  · rename_i isRun
    subst keyed
    exact runWithPolicy_passes (isLeft (by simpa using isRun))

theorem spent_of_completes {plan : Plan} {before after : RunState} {id other : String}
    (completes : Completes id before after) (isOther : other ≠ id)
    (spent : Spent plan before.results other) : Spent plan after.results other := by
  have same := completes.others other isOther
  simpa only [Spent, isTerminal, attemptsOf, same] using spent

/-- With a runner and gates that always pass, the run reaches a spent step and panics. -/
theorem runOrder_panics {plan : Plan} (wellFormed : plan.WellFormed) {ids : List String} :
    ∀ {before : List String} {state : RunState}, plan.order = before ++ ids →
      (∀ dep ∈ before, isTerminal state.results dep = true) →
      (∃ id ∈ ids, Spent plan state.results id) →
      (plainRuntime.runOrder plan ids).May state fun outcome _ => outcome = .error .nilDereference := by
  induction ids with
  | nil => simp
  | cons id ids ih =>
      rintro before state orderEq done ⟨spentId, isListed, spent⟩
      have isStep : (plan.steps.lookup id).isSome = true :=
        (wellFormed.listed id).mp (by simp [orderEq])
      rcases Option.isSome_iff_exists.mp isStep with ⟨step, found⟩
      have keyed := wellFormed.keyed id step found
      have nextOrder : plan.order = (before ++ [id]) ++ ids := by simp [orderEq]
      have nodup : (id :: ids).Nodup := (List.nodup_append.mp (orderEq ▸ wellFormed.nodup)).2.1
      have notAgain := (List.nodup_cons.mp nodup).1
      have later {after : RunState} (terminal : isTerminal after.results id = true)
          (kept : ∀ dep ∈ before, isTerminal after.results dep = true) :
          ∀ dep ∈ before ++ [id], isTerminal after.results dep = true := by
        intro dep isDep
        rcases List.mem_append.mp isDep with isBefore | isNow
        · exact kept dep isBefore
        · exact List.mem_singleton.mp isNow ▸ terminal
      rw [Runtime.runOrder, found]
      refine Coroutine.may_read_bind ?_
      cases terminal : isTerminal state.results id with
      | true =>
          have isOther : spentId ∈ ids := by
            rcases List.mem_cons.mp isListed with rfl | isRest
            · rcases spent with ⟨_, _, _, notTerminal, _⟩
              rw [terminal] at notTerminal
              cases notTerminal
            · exact isRest
          exact ih nextOrder (later terminal done) ⟨spentId, isOther, spent⟩
      | false =>
          simp only [depsSatisfied_of_done wellFormed orderEq done, Bool.false_eq_true, if_false,
            Bool.not_true]
          by_cases isSpent : Spent plan state.results id
          · rcases isSpent with ⟨sameStep, sameFound, isRun, _, noneLeft⟩
            rw [found] at sameFound
            cases sameFound
            rw [← keyed] at noneLeft
            rcases runWithPolicy_panics noneLeft with ⟨events, outcome, after, does, rfl⟩
            have stepDoes : (plainRuntime.runStep id step).Does state events
                (.error .nilDereference) after := by
              rwa [Runtime.runStep, isRun]
            exact Coroutine.may_bind_error stepDoes rfl
          · have isOther : spentId ∈ ids := by
              rcases List.mem_cons.mp isListed with rfl | isRest
              · exact absurd spent isSpent
              · exact isRest
            have isLeft : isGate step = false → attemptsOf state.results id < maxAttempts step := by
              intro isRun
              by_contra notLeft
              exact isSpent ⟨step, found, isRun, terminal, not_lt.mp notLeft⟩
            rcases runStep_passes keyed isLeft with
              ⟨events, outcome, after, does, rfl, completes⟩
            refine Coroutine.may_bind does (ih nextOrder (later completes.terminal ?_) ?_)
            · intro dep isBefore
              have notId : dep ≠ id := by
                rintro rfl
                have nodupAll := orderEq ▸ wellFormed.nodup
                exact (List.nodup_append.mp nodupAll).2.2 dep isBefore dep (by simp) rfl
              rw [isTerminal, completes.others dep notId]
              exact done dep isBefore
            · have notId : spentId ≠ id := fun isId => notAgain (isId ▸ isOther)
              exact ⟨spentId, isOther, spent_of_completes completes notId spent⟩

/-! ## Runs -/

/-- No runner and no gate evaluator makes the run panic. -/
def NeverPanics (plan : Plan) (prior : Option RunState) : Prop :=
  ∀ (runtime : Runtime) (events : List (Event Op Op.Answer)) (panic : Panic) (after : RunState),
    ¬ (runtime.run plan).Does (startState plan prior) events (.error panic) after

/-- The results a run begins with. -/
def priorResults (prior : Option RunState) : GoMap String StepResult :=
  prior.elim ∅ RunState.results

theorem startState_results (plan : Plan) (prior : Option RunState) :
    (startState plan prior).results = priorResults prior := by
  cases prior with
  | none => rfl
  | some prior => rfl

/-- A run of a compiled plan never panics, whatever the runner and the gates do, exactly
when the prior state has a further attempt for every step it leaves to the runner. -/
theorem neverPanics_iff {workflow : Toolbox.Workflow} {plan : Plan}
    (compiled : compile workflow = .ok plan) (prior : Option RunState) :
    NeverPanics plan prior ↔ ∀ id, ¬ Spent plan (priorResults prior) id := by
  have wellFormed := compile_wellFormed compiled
  constructor
  · intro never id spent
    have isListed : id ∈ plan.order := by
      rcases spent with ⟨step, found, _⟩
      exact (wellFormed.listed id).mpr (by simp [found])
    have reached : ∃ id ∈ plan.order, Spent plan (startState plan prior).results id :=
      ⟨id, isListed, by rwa [startState_results]⟩
    have orderEq : plan.order = [] ++ plan.order := rfl
    rcases runOrder_panics wellFormed orderEq (by simp) reached with
      ⟨events, outcome, after, does, rfl⟩
    exact never plainRuntime events _ after does
  · intro noneSpent runtime events panic after does
    have fresh : Fresh plan plan.order (startState plan prior) := by
      intro id _
      rw [startState_results]
      exact noneSpent id
    exact (Fresh.runOrder wellFormed wellFormed.nodup [] _ events _ after fresh does).2

/-- The prior states of a plan: none, or what an earlier run of the plan returned. -/
inductive Returned (plan : Plan) : Option RunState → Prop
  | fresh : Returned plan none
  | run {prior : Option RunState} (before : Returned plan prior) (runtime : Runtime)
      {events : List (Event Op Op.Answer)} {exit : Exit} {after : RunState}
      (does : (runtime.run plan).Does (startState plan prior) events (.ok exit) after) :
      Returned plan (some after)

def loneStep : WorkflowStep where
  id := "a"
  kind := "task"

/-- A workflow of one step that is tried once. -/
def loneWorkflow : Toolbox.Workflow where
  contractVersion := "1.0"
  kind := "workflow"
  id := "wf"
  version := "1.0"
  steps := [loneStep]

def lonePlan : Plan where
  workflowId := "wf"
  version := "1.0"
  budget := none
  order := ["a"]
  steps := (∅ : GoMap String WorkflowStep).insert "a" loneStep
  dependsOn := (∅ : GoMap String (List String)).insert "a" []

theorem compile_loneWorkflow : compile loneWorkflow = .ok lonePlan := rfl

/-- What a run of the plan returns when its step fails. -/
def failedOnce : RunState :=
  { newRunState lonePlan with
    status := .failed
    results := (∅ : GoMap String StepResult).insert "a"
      { id := "a", state := .failed, attempts := 1, reason := "boom" } }

theorem returned_failedOnce : Returned lonePlan (some failedOnce) := by
  let boom : Except Error (Option Json.Object) := .error (.plain "boom")
  have does : (plainRuntime.run lonePlan).Does (startState lonePlan none)
      [⟨⟨.run loneStep 1, ∅⟩, boom⟩] (.ok (.failed "a" "boom")) failedOnce :=
    .perform (.done _)
  exact .run .fresh plainRuntime does

theorem spent_failedOnce : Spent lonePlan failedOnce.results "a" :=
  ⟨loneStep, rfl, rfl, rfl, by decide⟩

theorem failedOnce_neverPanics_iff :
    NeverPanics lonePlan (some failedOnce) ↔
      ∀ id, ¬ Spent lonePlan (priorResults (some failedOnce)) id :=
  neverPanics_iff compile_loneWorkflow (some failedOnce)

/-- Resuming a run whose step has failed for good panics. -/
theorem resumed_failedOnce_panics :
    ¬ ∀ (workflow : Toolbox.Workflow) (plan : Plan) (prior : Option RunState),
      compile workflow = .ok plan → Returned plan prior → NeverPanics plan prior := by
  intro never
  have wellFormed := compile_wellFormed compile_loneWorkflow
  have reached : ∃ id ∈ lonePlan.order, Spent lonePlan
      (startState lonePlan (some failedOnce)).results id :=
    ⟨"a", List.mem_singleton.mpr rfl, spent_failedOnce⟩
  have orderEq : lonePlan.order = [] ++ lonePlan.order := rfl
  rcases runOrder_panics wellFormed orderEq (by simp) reached with ⟨events, outcome, after, does, rfl⟩
  exact never loneWorkflow lonePlan (some failedOnce) compile_loneWorkflow returned_failedOnce
    plainRuntime events _ after does

end Aa.Toolbox.Workflow
