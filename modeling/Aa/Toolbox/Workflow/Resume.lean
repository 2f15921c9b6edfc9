import Aa.Toolbox.Workflow.Panics

/-!
# Resuming a run

A chain of runs of one plan, each resumed from the state the run before it returned. The
moments of a chain are the invocations of its runs and the states they return. A run
keeps the recorded results of terminal steps and records every attempt it makes; the one
exit that forgets the attempts is that of a runtime without a runner.

The invariant relates the moments so far to the current results: a terminal gate was
approved, and no attempt made so far is later than the recorded one.
-/

namespace Aa.Toolbox.Workflow

open Aa.Library Aa.Contracts Aa.Toolbox

/-! ## Chains of runs -/

/-- One call of `Run` that returns. -/
structure Call where
  runtime : Runtime
  prior : Option RunState
  events : List (Event Op Op.Answer)
  exit : Exit
  after : RunState

def Call.Returns (plan : Plan) (call : Call) : Prop :=
  (call.runtime.run plan).Does (startState plan call.prior) call.events (.ok call.exit) call.after

/-- Calls of `Run` that return, each from the state returned by the one before it. -/
def Chain (plan : Plan) : Option RunState → List Call → Prop
  | _, [] => True
  | prior, call :: rest =>
      call.prior = prior ∧ call.Returns plan ∧ Chain plan (some call.after) rest

/-- What happens in a chain: an invocation, or the return of a run. -/
inductive Moment where
  | invoked (event : Event Op Op.Answer)
  | returned (exit : Exit) (state : RunState)

def Action.step : Action → WorkflowStep
  | .run step _ => step
  | .compensate step _ => step
  | .evaluate step => step

namespace Moment

/-- The results of the run at this moment. -/
def results : Moment → GoMap String StepResult
  | .invoked event => event.op.results
  | .returned _ state => state.results

def action : Moment → Option Action
  | .invoked event => some event.op.action
  | .returned _ _ => none

/-- The number of the attempt that the runner makes at a step at this moment. -/
def attemptAt (id : String) (moment : Moment) : Option ℤ :=
  match moment.action with
  | some (.run step attempt) => if step.id = id then some attempt else none
  | _ => none

/-- The evaluator answered that the gate passes. -/
def Approves (id : String) (moment : Moment) : Prop :=
  ∃ step results, step.id = id ∧ moment = .invoked ⟨⟨.evaluate step, results⟩, (true, none)⟩

end Moment

def Call.moments (call : Call) : List Moment :=
  call.events.map .invoked ++ [.returned call.exit call.after]

/-- Terminal steps stay terminal and recorded attempts do not decrease. -/
structure Precedes (earlier later : GoMap String StepResult) : Prop where
  terminal : ∀ id, isTerminal earlier id = true → isTerminal later id = true
  attempts : ∀ id, attemptsOf earlier id ≤ attemptsOf later id

/-- A gate or human approval of the plan. -/
def Plan.IsGate (plan : Plan) (id : String) : Prop :=
  ∃ step, plan.steps.lookup id = some step ∧ isGate step = true

/-- What is permitted of a moment after those before it. -/
structure Permitted (plan : Plan) (past : List Moment) (moment : Moment) : Prop where
  kept : ∀ earlier ∈ past, Precedes earlier.results moment.results
  live : ∀ action, moment.action = some action →
    isTerminal moment.results action.step.id = false
  ready : ∀ action, moment.action = some action →
    ∀ dep, Upstream plan.dependencies dep action.step.id → isTerminal moment.results dep = true
  approved : ∀ action, moment.action = some action →
    ∀ gate, Upstream plan.dependencies gate action.step.id → plan.IsGate gate →
      ∃ earlier ∈ past, earlier.Approves gate
  attempt : ∀ id attempt, moment.attemptAt id = some attempt →
    1 ≤ attempt ∧ (∀ earlier ∈ past, ∀ number, earlier.attemptAt id = some number →
      number < attempt) ∧
      ∃ step, plan.steps.lookup id = some step ∧ attempt ≤ step.retries.getD 0 + 1
  returned : ∀ exit state, moment = .returned exit state →
    (∀ id, exit ≠ .unsatisfied id) ∧ (state.status = .complete →
      ∀ id, (plan.steps.lookup id).isSome = true → isTerminal state.results id = true)

/-! ## The invariant -/

namespace Precedes

variable {first second third : GoMap String StepResult}

theorem refl (results : GoMap String StepResult) : Precedes results results :=
  ⟨fun _ terminal => terminal, fun _ => le_rfl⟩

theorem trans (left : Precedes first second) (right : Precedes second third) :
    Precedes first third where
  terminal id isTerminal := right.terminal id (left.terminal id isTerminal)
  attempts id := (left.attempts id).trans (right.attempts id)

theorem insert {result : StepResult} (notTerminal : isTerminal first result.id = false)
    (notFewer : attemptsOf first result.id ≤ result.attempts) :
    Precedes first (first.insert result.id result) where
  terminal id terminal := by
    have other : id ≠ result.id := by
      rintro rfl
      rw [notTerminal] at terminal
      cases terminal
    rwa [isTerminal_insert_ne other]
  attempts id := by
    by_cases same : id = result.id
    · rw [same, attemptsOf_insert_self]
      exact notFewer
    · rw [attemptsOf_insert_ne same]

end Precedes

/-- The moments so far and the current results. -/
structure History (plan : Plan) (past : List Moment) (results : GoMap String StepResult) :
    Prop where
  kept : ∀ earlier ∈ past, Precedes earlier.results results
  approved : ∀ id, plan.IsGate id → isTerminal results id = true →
    ∃ earlier ∈ past, earlier.Approves id
  recorded : ∀ earlier ∈ past, ∀ id number, earlier.attemptAt id = some number →
    number ≤ attemptsOf results id
  counted : ∀ id, 0 ≤ attemptsOf results id
  gates : ∀ id, plan.IsGate id → attemptsOf results id = 0

namespace History

variable {plan : Plan} {past : List Moment} {results : GoMap String StepResult}

theorem start (plan : Plan) : History plan [] ∅ where
  kept := by simp
  approved id _ terminal := by cases terminal
  recorded := by simp
  counted id := le_rfl
  gates id _ := rfl

/-- A moment that is no attempt, at the current results. -/
theorem snoc (history : History plan past results) {moment : Moment}
    (now : moment.results = results) (noAttempt : ∀ id, moment.attemptAt id = none) :
    History plan (past ++ [moment]) results where
  kept earlier isEarlier := by
    rcases List.mem_append.mp isEarlier with isPast | isNow
    · exact history.kept earlier isPast
    · rw [List.mem_singleton.mp isNow, now]
      exact .refl results
  approved id isGate terminal := by
    rcases history.approved id isGate terminal with ⟨earlier, isPast, approves⟩
    exact ⟨earlier, List.mem_append_left _ isPast, approves⟩
  recorded earlier isEarlier id number isAttempt := by
    rcases List.mem_append.mp isEarlier with isPast | isNow
    · exact history.recorded earlier isPast id number isAttempt
    · rw [List.mem_singleton.mp isNow, noAttempt id] at isAttempt
      cases isAttempt
  counted := history.counted
  gates := history.gates

/-- A result recorded for a step that is not terminal. -/
theorem insert (history : History plan past results) {result : StepResult}
    (notTerminal : isTerminal results result.id = false)
    (notFewer : attemptsOf results result.id ≤ result.attempts)
    (asGate : plan.IsGate result.id → result.attempts = 0 ∧
      (result.terminal = true → ∃ earlier ∈ past, earlier.Approves result.id)) :
    History plan past (results.insert result.id result) where
  kept earlier isEarlier := (history.kept earlier isEarlier).trans (.insert notTerminal notFewer)
  approved id isGate terminal := by
    by_cases same : id = result.id
    · subst same
      rw [isTerminal_insert_self] at terminal
      exact (asGate isGate).2 terminal
    · rw [isTerminal_insert_ne same] at terminal
      exact history.approved id isGate terminal
  recorded earlier isEarlier id number isAttempt :=
    (history.recorded earlier isEarlier id number isAttempt).trans
      ((Precedes.insert notTerminal notFewer).attempts id)
  counted id := (history.counted id).trans ((Precedes.insert notTerminal notFewer).attempts id)
  gates id isGate := by
    by_cases same : id = result.id
    · subst same
      rw [attemptsOf_insert_self]
      exact (asGate isGate).1
    · rw [attemptsOf_insert_ne same]
      exact history.gates id isGate

/-- The next attempt at a step, and the result recorded for it. -/
theorem attempt (history : History plan past results) {moment : Moment} {result : StepResult}
    (now : moment.results = results) (notTerminal : isTerminal results result.id = false)
    (next : result.attempts = attemptsOf results result.id + 1)
    (isAttempt : ∀ id number, moment.attemptAt id = some number →
      id = result.id ∧ number = result.attempts)
    (isRun : ¬ plan.IsGate result.id) :
    History plan (past ++ [moment]) (results.insert result.id result) where
  kept earlier isEarlier := by
    have precedes : Precedes results (results.insert result.id result) :=
      .insert notTerminal (by omega)
    rcases List.mem_append.mp isEarlier with isPast | isNow
    · exact (history.kept earlier isPast).trans precedes
    · rw [List.mem_singleton.mp isNow, now]
      exact precedes
  approved id isGate terminal := by
    have other : id ≠ result.id := by
      rintro rfl
      exact isRun isGate
    rw [isTerminal_insert_ne other] at terminal
    rcases history.approved id isGate terminal with ⟨earlier, isPast, approves⟩
    exact ⟨earlier, List.mem_append_left _ isPast, approves⟩
  recorded earlier isEarlier id number numbered := by
    have precedes : Precedes results (results.insert result.id result) :=
      .insert notTerminal (by omega)
    rcases List.mem_append.mp isEarlier with isPast | isNow
    · exact (history.recorded earlier isPast id number numbered).trans (precedes.attempts id)
    · rw [List.mem_singleton.mp isNow] at numbered
      rcases isAttempt id number numbered with ⟨rfl, rfl⟩
      rw [attemptsOf_insert_self]
  counted id := by
    have precedes : Precedes results (results.insert result.id result) :=
      .insert notTerminal (by omega)
    exact (history.counted id).trans (precedes.attempts id)
  gates id isGate := by
    have other : id ≠ result.id := by
      rintro rfl
      exact isRun isGate
    rw [attemptsOf_insert_ne other]
    exact history.gates id isGate

end History

/-! ## One run -/

theorem maxAttempts_le {step : WorkflowStep} (natural : ∀ retries ∈ step.retries, 0 ≤ retries) :
    maxAttempts step ≤ step.retries.getD 0 + 1 := by
  have notNegative : 0 ≤ step.retries.getD 0 := by
    cases isRetries : step.retries with
    | none => exact le_rfl
    | some retries => exact natural retries (by simp [isRetries])
  rw [maxAttempts, if_neg (not_lt.mpr notNegative)]
  rw [Int.bmod_eq_emod]
  split <;> omega

/-- The step is run by the runner, is not terminal, and has recorded attempts. -/
def Tried (plan : Plan) (results : GoMap String StepResult) (id : String) : Prop :=
  ∃ step, plan.steps.lookup id = some step ∧ isGate step = false ∧
    isTerminal results id = false ∧ attemptsOf results id ≠ 0

/-- The law of a run that is part of a chain. -/
def chained (plan : Plan) : Law Op Op.Answer Panic Moment where
  emit := .invoked
  permits := Permitted plan
  raises _ := True

/-- The run has come past the steps in `before`. A runtime without a runner is never at a
step with recorded attempts. -/
structure Running (runtime : Runtime) (plan : Plan) (before : List String) (past : List Moment)
    (state : RunState) : Prop where
  history : History plan past state.results
  done : ∀ id ∈ before, isTerminal state.results id = true
  untried : runtime.hasRunner = false → ∀ id, ¬ Tried plan state.results id

/-- The run has come to a step that is not terminal. -/
structure At (runtime : Runtime) (plan : Plan) (before : List String) (id : String)
    (past : List Moment) (state : RunState) : Prop extends
    Running runtime plan before past state where
  live : isTerminal state.results id = false

/-- How a run may return. -/
structure Stopped (plan : Plan) (exit : Exit) (past : List Moment) (state : RunState) : Prop where
  history : History plan past state.results
  satisfied : ∀ id, exit ≠ .unsatisfied id
  complete : state.status = .complete →
    ∀ id, (plan.steps.lookup id).isSome = true → isTerminal state.results id = true

/-- After a step the run goes on past it, or returns. -/
def AfterStep (runtime : Runtime) (plan : Plan) (before : List String) (id : String)
    (ended : Option Exit) (past : List Moment) (state : RunState) : Prop :=
  match ended with
  | none => Running runtime plan (before ++ [id]) past state
  | some exit => Stopped plan exit past state

section Step

variable {runtime : Runtime} {plan : Plan} {before rest : List String} {id : String}
  {step : WorkflowStep}

theorem not_isGate (found : plan.steps.lookup id = some step) (isRun : isGate step = false) :
    ¬ plan.IsGate id := by
  rintro ⟨sameStep, sameFound, isGate⟩
  rw [found] at sameFound
  cases sameFound
  rw [isRun] at isGate
  cases isGate

/-- A result recorded for a gate. -/
theorem not_tried_insert {results : GoMap String StepResult} {result : StepResult}
    (gate : plan.IsGate result.id) (untried : ¬ Tried plan results id) :
    ¬ Tried plan (results.insert result.id result) id := by
  rintro ⟨step, found, isRun, live, tried⟩
  have other : id ≠ result.id := by
    rintro rfl
    exact not_isGate found isRun gate
  rw [isTerminal_insert_ne other] at live
  rw [attemptsOf_insert_ne other] at tried
  exact untried ⟨step, found, isRun, live, tried⟩

/-- An invocation on the step that the run has come to. -/
theorem At.permits {past : List Moment} {state : RunState} (wellFormed : plan.WellFormed)
    (orderEq : plan.order = before ++ id :: rest) (reached : At runtime plan before id past state)
    {action : Action} (onStep : action.step.id = id) (answer : action.Answer)
    (attempts : ∀ number, Moment.attemptAt id (.invoked ⟨⟨action, state.results⟩, answer⟩) =
      some number → number = attemptsOf state.results id + 1 ∧
        ∃ step, plan.steps.lookup id = some step ∧ number ≤ step.retries.getD 0 + 1) :
    Permitted plan past (.invoked ⟨⟨action, state.results⟩, answer⟩) where
  kept := reached.history.kept
  live := by
    rintro _ ⟨⟩
    exact onStep.symm ▸ reached.live
  ready := by
    rintro _ ⟨⟩ dep upstream
    exact reached.done dep (wellFormed.first.upstream_mem orderEq (onStep ▸ upstream))
  approved := by
    rintro _ ⟨⟩ gate upstream isGate
    have terminal := reached.done gate (wellFormed.first.upstream_mem orderEq (onStep ▸ upstream))
    exact reached.history.approved gate isGate terminal
  attempt := by
    intro other number isAttempt
    have same : other = id := by
      cases action with
      | run actionStep attempt =>
          simp only [Moment.attemptAt, Moment.action] at isAttempt
          split at isAttempt
          · rename_i isOther
            exact isOther.symm.trans onStep
          · cases isAttempt
      | compensate actionStep output => cases isAttempt
      | evaluate actionStep => cases isAttempt
    subst same
    rcases attempts number isAttempt with ⟨numberEq, step, found, bounded⟩
    have counted := reached.history.counted other
    refine ⟨by omega, ?_, step, found, bounded⟩
    intro earlier isPast earlierNumber isEarlier
    have recorded := reached.history.recorded earlier isPast other earlierNumber isEarlier
    omega
  returned := by
    rintro exit state ⟨⟩

/-- Recording a result that is not terminal leaves the run at the step. -/
theorem At.record {earlier past : List Moment} {state : RunState} (result : StepResult)
    (reached : At runtime plan before result.id earlier state) (notTerminal : result.terminal = false)
    (history : History plan past (state.results.insert result.id result))
    (counts : runtime.hasRunner = true ∨ plan.IsGate result.id) :
    At runtime plan before result.id past
      { state with results := state.results.insert result.id result } where
  history := history
  done dep isDone := by
    have terminal := reached.done dep isDone
    have other : dep ≠ result.id := by
      rintro rfl
      rw [reached.live] at terminal
      cases terminal
    rwa [isTerminal_insert_ne other]
  untried noRunner other := by
    rcases counts with hasRunner | isGate
    · rw [hasRunner] at noRunner
      cases noRunner
    · exact not_tried_insert isGate (reached.untried noRunner other)
  live := isTerminal_insert_self.trans notTerminal

/-- Recording a terminal result takes the run past the step. -/
theorem At.finish {earlier past : List Moment} {state : RunState} (result : StepResult)
    (reached : At runtime plan before result.id earlier state) (isTerminal : result.terminal = true)
    (history : History plan past (state.results.insert result.id result))
    (counts : runtime.hasRunner = true ∨ plan.IsGate result.id) :
    Running runtime plan (before ++ [result.id]) past
      { state with results := state.results.insert result.id result } where
  history := history
  done dep isDone := by
    by_cases same : dep = result.id
    · rw [same]
      exact isTerminal_insert_self.trans isTerminal
    · rw [isTerminal_insert_ne same]
      exact reached.done dep ((List.mem_append.mp isDone).resolve_right (by simpa using same))
  untried noRunner other := by
    rcases counts with hasRunner | isGate
    · rw [hasRunner] at noRunner
      cases noRunner
    · exact not_tried_insert isGate (reached.untried noRunner other)

/-- An invocation that is no attempt, or the next attempt, at the step. -/
theorem invoke_chained (wellFormed : plan.WellFormed)
    (orderEq : plan.order = before ++ id :: rest) {holds : RunState → Prop} {action : Action}
    (onStep : action.step.id = id)
    (attempts : ∀ state, holds state → ∀ answer number,
      Moment.attemptAt id (.invoked ⟨⟨action, state.results⟩, answer⟩) = some number →
        number = attemptsOf state.results id + 1 ∧
          ∃ step, plan.steps.lookup id = some step ∧ number ≤ step.retries.getD 0 + 1) :
    Coroutine.Triple (chained plan)
      (fun past state => At runtime plan before id past state ∧ holds state) (RunM.invoke action)
      (fun answer past state => ∃ earlier, past = earlier ++
        [.invoked ⟨⟨action, state.results⟩, answer⟩] ∧
          At runtime plan before id earlier state ∧ holds state) := by
  refine .read_bind ?_
  intro current
  refine .perform ?_
  rintro past state answer ⟨⟨reached, held⟩, rfl⟩
  exact ⟨reached.permits wellFormed orderEq onStep answer (attempts state held answer), past, rfl,
    reached, held⟩

theorem attemptAt_run (number : ℤ) (results : GoMap String StepResult)
    (answer : Except Error (Option Json.Object)) (other : String) :
    Moment.attemptAt other (.invoked ⟨⟨.run step number, results⟩, answer⟩) =
      if step.id = other then some number else none := rfl

/-- The attempts at a step: each is the next one, and the last is the one recorded. -/
theorem attemptLoop_chained (wellFormed : plan.WellFormed)
    (orderEq : plan.order = before ++ step.id :: rest)
    (found : plan.steps.lookup step.id = some step) (isRun : isGate step = false)
    (hasRunner : runtime.hasRunner = true) :
    ∀ (remaining : ℕ) (attempt : ℤ) (lastErr : Option Error),
      (0 < remaining → attempt + remaining ≤ maxAttempts step) →
      Coroutine.Triple (chained plan)
        (fun past state => At runtime plan before step.id past state ∧
          attemptsOf state.results step.id = attempt)
        (attemptLoop step remaining attempt lastErr)
        (fun used past state => match used with
          | none => Running runtime plan (before ++ [step.id]) past state
          | some (last, _) => At runtime plan before step.id past state ∧
              attemptsOf state.results step.id = last)
  | 0, attempt, lastErr, _ => .pure fun _ _ reached => reached
  | remaining + 1, attempt, lastErr, bound => by
      have inBound := bound (Nat.succ_pos remaining)
      have allowed := maxAttempts_le (wellFormed.retries step.id step found)
      push_cast at inBound
      have isNext {results : GoMap String StepResult}
          {answer : Except Error (Option Json.Object)} {other : String} {number : ℤ}
          (isAttempt : Moment.attemptAt other
            (.invoked ⟨⟨.run step (attempt + 1), results⟩, answer⟩) = some number) :
          other = step.id ∧ number = attempt + 1 := by
        rw [attemptAt_run] at isAttempt
        split at isAttempt
        · rename_i isOther
          cases isAttempt
          exact ⟨isOther.symm, rfl⟩
        · cases isAttempt
      refine .bind (invoke_chained wellFormed orderEq rfl ?_) ?_
      · rintro state rfl answer number isAttempt
        rw [(isNext isAttempt).2]
        exact ⟨rfl, step, found, by omega⟩
      · intro answer
        have records (result : StepResult) (isResult : result.id = step.id)
            (counted : result.attempts = attempt + 1) {earlier : List Moment} {state : RunState}
            (reached : At runtime plan before step.id earlier state)
            (recorded : attemptsOf state.results step.id = attempt) :
            History plan (earlier ++ [.invoked ⟨⟨.run step (attempt + 1), state.results⟩, answer⟩])
              (state.results.insert result.id result) := by
          refine reached.history.attempt rfl (isResult ▸ reached.live) ?_ ?_ ?_
          · rw [isResult, counted, recorded]
          · intro other number isAttempt
            rw [isResult, counted]
            exact isNext isAttempt
          · rw [isResult]
            exact not_isGate found isRun
        cases answer with
        | ok output =>
            let result : StepResult :=
              { id := step.id, state := .complete, attempts := attempt + 1, output := output }
            refine .bind (.modify ?_) fun _ => .pure fun _ _ holds => holds
            rintro _ state ⟨earlier, rfl, reached, recorded⟩
            exact At.finish result reached rfl (records result rfl rfl reached recorded)
              (.inl hasRunner)
        | error error =>
            let result : StepResult :=
              { id := step.id, state := .running, attempts := attempt + 1, reason := error.message }
            refine .bind (.modify ?_) fun _ => attemptLoop_chained wellFormed orderEq found isRun
              hasRunner remaining (attempt + 1) (some error) (by omega)
            rintro _ state ⟨earlier, rfl, reached, recorded⟩
            refine ⟨At.record result reached rfl (records result rfl rfl reached recorded)
              (.inl hasRunner), ?_⟩
            exact @attemptsOf_insert_self _ result

theorem At.snoc {past : List Moment} {state : RunState} {moment : Moment}
    (reached : At runtime plan before id past state) (now : moment.results = state.results)
    (noAttempt : ∀ other, moment.attemptAt other = none) :
    At runtime plan before id (past ++ [moment]) state :=
  { reached with history := reached.history.snoc now noAttempt }

theorem errorText_chained {pre : List Moment → RunState → Prop} (lastErr : Option Error) :
    Coroutine.Triple (chained plan) pre (RunM.errorText lastErr) (fun _ => pre) := by
  cases lastErr with
  | none => exact .raise fun _ _ _ => trivial
  | some error => exact .pure fun _ _ holds => holds

/-- A run returns with an error. -/
theorem stop_chained {status : RunStatus} {exit : Exit} (notComplete : status ≠ .complete)
    (satisfied : ∀ id, exit ≠ .unsatisfied id) :
    Coroutine.Triple (chained plan) (fun past state => History plan past state.results)
      (do RunM.setStatus status; pure (some exit)) (AfterStep runtime plan before id) := by
  have marks : Coroutine.Triple (chained plan) (fun past state => History plan past state.results)
      (RunM.setStatus status)
      (fun _ past state => History plan past state.results ∧ state.status = status) :=
    .modify fun _ _ history => ⟨history, rfl⟩
  refine marks.bind fun _ => .pure ?_
  rintro past state ⟨history, rfl⟩
  exact ⟨history, satisfied, fun isComplete => absurd isComplete notComplete⟩

/-- Recording how a step of the runner ended, with the attempts it made. -/
theorem record_chained {stepState : StepState} {attempts : ℤ} {reason : String}
    (isRun : ¬ plan.IsGate id) :
    Coroutine.Triple (chained plan)
      (fun past state => At runtime plan before id past state ∧
        attemptsOf state.results id ≤ attempts)
      (RunM.setResult { id := id, state := stepState, attempts := attempts, reason := reason })
      (fun _ past state => History plan past state.results) := by
  refine .modify ?_
  rintro past state ⟨reached, counted⟩
  exact reached.history.insert reached.live counted fun isGate => absurd isGate isRun

theorem finish_chained {stepState : StepState} {attempts : ℤ} {reason : String}
    (isTerminal : StepResult.terminal { id := id, state := stepState } = true)
    (isRun : ¬ plan.IsGate id) (hasRunner : runtime.hasRunner = true) :
    Coroutine.Triple (chained plan)
      (fun past state => At runtime plan before id past state ∧
        attemptsOf state.results id ≤ attempts)
      (do
        RunM.setResult { id := id, state := stepState, attempts := attempts, reason := reason }
        pure none) (AfterStep runtime plan before id) := by
  refine .bind (.modify ?_) fun _ => .pure fun _ _ holds => holds
  rintro past state ⟨reached, counted⟩
  let result : StepResult :=
    { id := id, state := stepState, attempts := attempts, reason := reason }
  exact At.finish result reached isTerminal
    (reached.history.insert reached.live counted fun isGate => absurd isGate isRun) (.inl hasRunner)

theorem settle_chained (wellFormed : plan.WellFormed)
    (orderEq : plan.order = before ++ step.id :: rest) (isRun : ¬ plan.IsGate step.id)
    (hasRunner : runtime.hasRunner = true) (output : Option Json.Object) (attempt : ℤ)
    (lastErr : Option Error) :
    Coroutine.Triple (chained plan)
      (fun past state => At runtime plan before step.id past state ∧
        attemptsOf state.results step.id ≤ attempt)
      (runtime.settle step output attempt lastErr) (AfterStep runtime plan before step.id) := by
  unfold Runtime.settle
  split
  · refine .bind (errorText_chained lastErr) fun reason => ?_
    exact finish_chained rfl isRun hasRunner
  · split
    · have compensates : Coroutine.Triple (chained plan)
          (fun past state => At runtime plan before step.id past state ∧
            attemptsOf state.results step.id ≤ attempt) (RunM.compensate step output)
          (fun _ past state => At runtime plan before step.id past state ∧
            attemptsOf state.results step.id ≤ attempt) := by
        have noAttempt (results : GoMap String StepResult) (answer : Option Error) (other : String) :
            Moment.attemptAt other (.invoked ⟨⟨.compensate step output, results⟩, answer⟩) = none :=
          rfl
        refine (invoke_chained wellFormed orderEq rfl ?_).weaken (fun _ _ holds => holds) ?_
        · intro state _ answer number isAttempt
          cases isAttempt
        · rintro answer _ state ⟨earlier, rfl, reached, counted⟩
          exact ⟨reached.snoc rfl (noAttempt state.results answer), counted⟩
      refine .bind compensates fun compensated => ?_
      cases compensated with
      | some error =>
          refine .bind (record_chained isRun) fun _ => ?_
          exact stop_chained (by decide) (by simp)
      | none =>
          refine .bind (errorText_chained lastErr) fun reason => ?_
          exact finish_chained rfl isRun hasRunner
    · refine .bind (errorText_chained lastErr) fun reason => ?_
      refine .bind (record_chained isRun) fun _ => ?_
      exact stop_chained (by decide) (by simp)

theorem runWithPolicy_chained (wellFormed : plan.WellFormed)
    (orderEq : plan.order = before ++ step.id :: rest)
    (found : plan.steps.lookup step.id = some step) (isRun : isGate step = false) :
    Coroutine.Triple (chained plan) (At runtime plan before step.id) (runtime.runWithPolicy step)
      (AfterStep runtime plan before step.id) := by
  have notGate := not_isGate found isRun
  unfold Runtime.runWithPolicy
  split
  · rename_i hasRunner
    refine .read_bind fun current => ?_
    have bound : 0 < (maxAttempts step - attemptsOf current.results step.id).toNat →
        attemptsOf current.results step.id +
          (maxAttempts step - attemptsOf current.results step.id).toNat ≤ maxAttempts step := by
      omega
    refine .bind ((attemptLoop_chained wellFormed orderEq found isRun hasRunner _ _ none
      bound).weaken ?_ fun _ _ _ holds => holds) fun used => ?_
    · rintro _ state ⟨reached, rfl⟩
      exact ⟨reached, rfl⟩
    · cases used with
      | none => exact .pure fun _ _ running => running
      | some last =>
          exact (settle_chained wellFormed orderEq notGate hasRunner _ last.1 last.2).weaken
            (fun _ _ holds => ⟨holds.1, holds.2.le⟩) fun _ _ _ holds => holds
  · rename_i noRunner
    have records := @record_chained runtime plan before step.id .failed 0 "no runner configured"
      notGate
    refine .bind (records.weaken ?_ fun _ _ _ holds => holds) fun _ => ?_
    · rintro past state reached
      have untried := reached.untried (by simpa using noRunner) step.id
      refine ⟨reached, ?_⟩
      by_contra counted
      exact untried ⟨step, found, isRun, reached.live, fun zero => counted zero.le⟩
    · exact stop_chained (by decide) (by simp)

/-- A verdict that a gate passes is the evaluator's. -/
theorem evaluateGate_chained (wellFormed : plan.WellFormed)
    (orderEq : plan.order = before ++ id :: rest) (keyed : step.id = id) :
    Coroutine.Triple (chained plan) (At runtime plan before id) (runtime.evaluateGate step)
      (fun verdict past state => At runtime plan before id past state ∧
        (verdict = (true, none) → ∃ earlier ∈ past, earlier.Approves id)) := by
  unfold Runtime.evaluateGate
  split
  · have evaluates := @invoke_chained runtime plan before rest id wellFormed orderEq
      (fun _ => True) (.evaluate step) keyed (fun _ _ _ _ isAttempt => by cases isAttempt)
    refine evaluates.weaken (fun _ _ reached => ⟨reached, trivial⟩) ?_
    rintro verdict _ state ⟨earlier, rfl, reached, _⟩
    refine ⟨reached.snoc rfl fun _ => rfl, ?_⟩
    rintro rfl
    exact ⟨_, List.mem_append_right _ (List.mem_singleton.mpr rfl), step, state.results, keyed, rfl⟩
  · exact .pure fun _ _ reached => ⟨reached, by simp⟩

theorem runGate_chained (wellFormed : plan.WellFormed)
    (orderEq : plan.order = before ++ id :: rest) (found : plan.steps.lookup id = some step)
    (isGate : isGate step = true) :
    Coroutine.Triple (chained plan) (At runtime plan before id) (runtime.runGate id step)
      (AfterStep runtime plan before id) := by
  have planGate : plan.IsGate id := ⟨step, found, isGate⟩
  have awaits (reason : String) : Coroutine.Triple (chained plan) (At runtime plan before id)
      (RunM.setResult { id := id, state := .awaitingGate, reason := reason })
      (fun _ past state => History plan past state.results) := by
    refine .modify fun past state reached => ?_
    exact reached.history.insert reached.live (reached.history.gates id planGate).le
      fun _ => ⟨rfl, fun terminal => by cases terminal⟩
  refine .bind (evaluateGate_chained wellFormed orderEq (wellFormed.keyed id step found)) ?_
  rintro ⟨passed, error⟩
  cases error with
  | some error =>
      refine .bind ((awaits error.message).weaken (fun _ _ holds => holds.1)
        fun _ _ _ holds => holds) fun _ => ?_
      exact stop_chained (by decide) (by simp)
  | none =>
      cases passed with
      | false =>
          refine .bind ((awaits "gate not passed").weaken (fun _ _ holds => holds.1)
            fun _ _ _ holds => holds) fun _ => ?_
          exact stop_chained (by decide) (by simp)
      | true =>
          refine .bind (.modify ?_) fun _ => .pure fun _ _ holds => holds
          rintro past state ⟨reached, approved⟩
          let result : StepResult := { id := id, state := .complete }
          exact At.finish result reached rfl
            (reached.history.insert reached.live (reached.history.gates id planGate).le
              fun _ => ⟨rfl, fun _ => approved rfl⟩) (.inr planGate)

theorem runStep_chained (wellFormed : plan.WellFormed)
    (orderEq : plan.order = before ++ id :: rest) (found : plan.steps.lookup id = some step) :
    Coroutine.Triple (chained plan) (At runtime plan before id) (runtime.runStep id step)
      (AfterStep runtime plan before id) := by
  unfold Runtime.runStep
  split
  · rename_i isGate
    exact runGate_chained wellFormed orderEq found isGate
  · rename_i isRun
    have keyed := wellFormed.keyed id step found
    subst keyed
    exact runWithPolicy_chained wellFormed orderEq found (by simpa using isRun)

end Step

/-- A run that has come past the first steps of the order keeps to the law to its end. -/
theorem runOrder_chained {runtime : Runtime} {plan : Plan} (wellFormed : plan.WellFormed)
    {ids : List String} : ∀ {before : List String}, plan.order = before ++ ids →
      Coroutine.Triple (chained plan) (Running runtime plan before) (runtime.runOrder plan ids)
        (Stopped plan) := by
  induction ids with
  | nil =>
      intro before orderEq
      rw [List.append_nil] at orderEq
      have marks : Coroutine.Triple (chained plan) (Running runtime plan before)
          (RunM.setStatus .complete) (fun _ past state => Running runtime plan before past state) :=
        .modify fun _ _ running => { running with }
      refine marks.bind fun _ => .pure ?_
      intro past state running
      refine ⟨running.history, by simp, ?_⟩
      intro _ id isStep
      exact running.done id (orderEq ▸ (wellFormed.listed id).mpr isStep)
  | cons id ids ih =>
      intro before orderEq
      have nextOrder : plan.order = (before ++ [id]) ++ ids := by simp [orderEq]
      have isStep : (plan.steps.lookup id).isSome = true :=
        (wellFormed.listed id).mp (by simp [orderEq])
      rcases Option.isSome_iff_exists.mp isStep with ⟨step, found⟩
      rw [Runtime.runOrder, found]
      refine .read_bind fun current => ?_
      cases terminal : isTerminal current.results id with
      | true =>
          refine (ih nextOrder).weaken ?_ fun _ _ _ holds => holds
          rintro past state ⟨running, rfl⟩
          refine { running with done := ?_ }
          intro dep isDep
          rcases List.mem_append.mp isDep with isBefore | isNow
          · exact running.done dep isBefore
          · exact List.mem_singleton.mp isNow ▸ terminal
      | false =>
          refine .assume (depsSatisfied plan current id = true) ?_ fun satisfied => ?_
          · rintro past state ⟨running, rfl⟩
            exact depsSatisfied_of_done wellFormed orderEq running.done
          · simp only [satisfied, Bool.false_eq_true, if_false, Bool.not_true]
            refine .bind ((runStep_chained wellFormed orderEq found).weaken ?_
              fun _ _ _ holds => holds) fun ended => ?_
            · rintro past state ⟨running, rfl⟩
              exact { running with live := terminal }
            · cases ended with
              | none => exact ih nextOrder
              | some exit => exact .pure fun _ _ stopped => stopped

/-! ## Chains -/

/-- The call does not run without a runner from results that record attempts at a step left
to the runner. -/
def Call.Remembers (plan : Plan) (call : Call) : Prop :=
  call.runtime.hasRunner = true ∨ ∀ id, ¬ Tried plan (priorResults call.prior) id

/-- One call of a chain. -/
theorem call_chained {plan : Plan} (wellFormed : plan.WellFormed) {call : Call}
    (returns : call.Returns plan) (remembers : call.Remembers plan) {past : List Moment}
    (history : History plan past (priorResults call.prior)) :
    Guarded (Permitted plan) past call.moments ∧
      History plan (past ++ call.moments) call.after.results := by
  have running : Running call.runtime plan [] past (startState plan call.prior) := by
    refine ⟨by rwa [startState_results], by simp, ?_⟩
    intro noRunner
    rw [startState_results]
    exact remembers.resolve_left (by simp [noRunner])
  have orderEq : plan.order = [] ++ plan.order := rfl
  rcases runOrder_chained wellFormed orderEq past _ call.events _ call.after running returns with
    ⟨guarded, stopped⟩
  have kept : ∀ earlier ∈ past ++ call.events.map .invoked,
      Precedes earlier.results call.after.results := stopped.history.kept
  have permitted : Permitted plan (past ++ call.events.map .invoked)
      (.returned call.exit call.after) := by
    refine ⟨kept, ?_, ?_, ?_, ?_, ?_⟩
    · rintro action ⟨⟩
    · rintro action ⟨⟩
    · rintro action ⟨⟩
    · rintro id attempt ⟨⟩
    · rintro exit state ⟨⟩
      exact ⟨stopped.satisfied, stopped.complete⟩
  have final := @History.snoc _ _ _ stopped.history (.returned call.exit call.after) rfl
    fun _ => rfl
  rw [Call.moments, ← List.append_assoc]
  exact ⟨guarded_append.mpr ⟨guarded, permitted, trivial⟩, final⟩

/-- Every moment of a chain is permitted by those before it. -/
theorem chain_guarded {plan : Plan} (wellFormed : plan.WellFormed) {calls : List Call} :
    ∀ {prior : Option RunState} {past : List Moment}, Chain plan prior calls →
      (∀ call ∈ calls, call.Remembers plan) → History plan past (priorResults prior) →
      Guarded (Permitted plan) past (calls.flatMap Call.moments) := by
  induction calls with
  | nil =>
      intro prior past _ _ _
      trivial
  | cons call calls ih =>
      rintro prior past ⟨rfl, returns, later⟩ remembers history
      rcases call_chained wellFormed returns (remembers call (by simp)) history with
        ⟨guarded, next⟩
      rw [List.flatMap_cons]
      exact guarded_append.mpr ⟨guarded, ih later
        (fun other isLater => remembers other (by simp [isLater])) next⟩

/-- What a chain of runs promises. -/
structure Safe (plan : Plan) (trace : List Moment) : Prop where
  /-- Terminal steps stay terminal, and recorded attempts never decrease. -/
  kept : trace.Pairwise fun earlier later => Precedes earlier.results later.results
  /-- Nothing is invoked on a terminal step. -/
  live : ∀ moment ∈ trace, ∀ action, moment.action = some action →
    isTerminal moment.results action.step.id = false
  /-- What is invoked has all its dependencies terminal. -/
  ready : ∀ moment ∈ trace, ∀ action, moment.action = some action →
    ∀ dep, Upstream plan.dependencies dep action.step.id → isTerminal moment.results dep = true
  /-- Every gate upstream of what is invoked was approved before. -/
  approved : ∀ before moment after, trace = before ++ moment :: after →
    ∀ action, moment.action = some action →
      ∀ gate, Upstream plan.dependencies gate action.step.id → plan.IsGate gate →
        ∃ earlier ∈ before, earlier.Approves gate
  /-- The attempts at a step are numbered upwards. -/
  increasing : ∀ id, (trace.filterMap (Moment.attemptAt id)).Pairwise (· < ·)
  /-- A step has at most one attempt more than it has retries. -/
  bounded : ∀ id step, plan.steps.lookup id = some step →
    (trace.filterMap (Moment.attemptAt id)).length ≤ step.retries.getD 0 + 1
  /-- The dependencies of a step that is reached are satisfied. -/
  satisfied : ∀ exit state, .returned exit state ∈ trace → ∀ id, exit ≠ .unsatisfied id
  /-- A run that is complete has every step terminal. -/
  complete : ∀ exit state, .returned exit state ∈ trace → state.status = .complete →
    ∀ id, (plan.steps.lookup id).isSome = true → isTerminal state.results id = true

/-- Increasing integers between two bounds. -/
theorem length_le_of_increasing {numbers : List ℤ} {low high : ℤ}
    (increasing : numbers.Pairwise (· < ·)) (between : ∀ number ∈ numbers, low < number ∧ number ≤ high)
    (room : low ≤ high) : (numbers.length : ℤ) ≤ high - low := by
  induction numbers generalizing low with
  | nil =>
      rw [List.length_nil]
      omega
  | cons first rest ih =>
      rcases List.pairwise_cons.mp increasing with ⟨later, restIncreasing⟩
      have firstBetween := between first (by simp)
      have restBetween : ∀ number ∈ rest, first < number ∧ number ≤ high :=
        fun number isRest => ⟨later number isRest, (between number (by simp [isRest])).2⟩
      have restLength := ih restIncreasing restBetween firstBetween.2
      rw [List.length_cons]
      omega

theorem safe_of_guarded {plan : Plan} (wellFormed : plan.WellFormed) {trace : List Moment}
    (guarded : Guarded (Permitted plan) [] trace) : Safe plan trace := by
  have permitted := guarded_iff_split.mp guarded
  simp only [List.nil_append] at permitted
  have ofMem {moment : Moment} (isThere : moment ∈ trace) :
      ∃ before, Permitted plan before moment := by
    rcases List.append_of_mem isThere with ⟨before, after, traceEq⟩
    exact ⟨before, permitted before moment after traceEq⟩
  have increasing : ∀ id, (trace.filterMap (Moment.attemptAt id)).Pairwise (· < ·) := by
    intro id
    refine List.pairwise_filterMap.mpr (pairwise_of_guarded guarded ?_).1
    intro past moment isPermitted earlier isEarlier number isNumber attempt isAttempt
    exact (isPermitted.attempt id attempt isAttempt).2.1 earlier isEarlier number isNumber
  refine ⟨(pairwise_of_guarded guarded fun _ _ isPermitted => isPermitted.kept).1, ?_, ?_, ?_,
    increasing, ?_, ?_, ?_⟩
  · intro moment isThere
    rcases ofMem isThere with ⟨before, isPermitted⟩
    exact isPermitted.live
  · intro moment isThere
    rcases ofMem isThere with ⟨before, isPermitted⟩
    exact isPermitted.ready
  · intro before moment after traceEq
    exact (permitted before moment after traceEq).approved
  · intro id step found
    have natural : 0 ≤ step.retries.getD 0 := by
      cases isRetries : step.retries with
      | none => exact le_rfl
      | some retries => exact wellFormed.retries id step found retries (by simp [isRetries])
    have between : ∀ number ∈ trace.filterMap (Moment.attemptAt id),
        0 < number ∧ number ≤ step.retries.getD 0 + 1 := by
      intro number isAttempt
      rcases List.mem_filterMap.mp isAttempt with ⟨moment, isThere, numbered⟩
      rcases ofMem isThere with ⟨before, isPermitted⟩
      rcases isPermitted.attempt id number numbered with ⟨positive, _, sameStep, sameFound, inBound⟩
      rw [found] at sameFound
      cases sameFound
      exact ⟨by omega, inBound⟩
    have length := length_le_of_increasing (increasing id) between (by omega)
    omega
  · intro exit state isThere
    rcases ofMem isThere with ⟨before, isPermitted⟩
    exact (isPermitted.returned exit state rfl).1
  · intro exit state isThere
    rcases ofMem isThere with ⟨before, isPermitted⟩
    exact (isPermitted.returned exit state rfl).2

/-- A chain of runs of a compiled plan is safe, whatever runners and gates do, when no call
without a runner resumes a state that records attempts at an unfinished step of the runner. -/
theorem resumable_safely {workflow : Toolbox.Workflow} {plan : Plan}
    (compiled : compile workflow = .ok plan) {calls : List Call} (chain : Chain plan none calls)
    (remembers : ∀ call ∈ calls, call.Remembers plan) :
    Safe plan (calls.flatMap Call.moments) := by
  have wellFormed := compile_wellFormed compiled
  exact safe_of_guarded wellFormed (chain_guarded wellFormed chain remembers (.start plan))

/-- A call whose step fails. -/
def failingCall (prior : Option RunState) : Call where
  runtime := plainRuntime
  prior := prior
  events :=
    [⟨⟨.run loneStep 1, priorResults prior⟩,
      (.error (.plain "boom") : Except Error (Option Json.Object))⟩]
  exit := .failed "a" "boom"
  after := failedOnce

theorem failingCall_chain : Chain lonePlan none [failingCall none] :=
  ⟨rfl, .perform (.done _), trivial⟩

theorem failingCall_safely : Safe lonePlan ([failingCall none].flatMap Call.moments) :=
  resumable_safely compile_loneWorkflow failingCall_chain
    (by simp [Call.Remembers, failingCall, plainRuntime])

/-- What a call without a runner returns. -/
def forgotten : RunState :=
  { failedOnce with
    results := (∅ : GoMap String StepResult).insert "a"
      { id := "a", state := .failed, reason := "no runner configured" } }

def runnerlessCall : Call where
  runtime := { hasRunner := false, compensates := false, hasGates := true }
  prior := some failedOnce
  events := []
  exit := .noRunner "a"
  after := forgotten

/-- A call without a runner forgets the attempt made, and the step is tried again. -/
theorem forgotten_attempts :
    ¬ ∀ (workflow : Toolbox.Workflow) (plan : Plan) (calls : List Call),
      compile workflow = .ok plan → Chain plan none calls →
        Safe plan (calls.flatMap Call.moments) := by
  intro safe
  let calls := [failingCall none, runnerlessCall, failingCall (some forgotten)]
  have chain : Chain lonePlan none calls :=
    ⟨rfl, .perform (.done _), rfl, .done _, rfl, .perform (.done _), trivial⟩
  have bounded := (safe loneWorkflow lonePlan calls compile_loneWorkflow chain).bounded "a" loneStep rfl
  revert bounded
  decide

end Aa.Toolbox.Workflow
