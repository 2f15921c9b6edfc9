import Aa.Library.Program

/-!
# Deterministic machines and their runs

A service that handles one request after another is a deterministic machine: a
step function from a state and an input to a new state and an output. This file
gives the runs of such a machine and the two induction rules used for safety
properties: an invariant of every step is an invariant of every run, and a fact
that each step establishes from the invariant holds of every step of every run.
-/

namespace Aa.Library

universe u v w

/-- A deterministic machine with inputs and outputs. -/
structure Machine (State : Type u) (Input : Type v) (Output : Type w) where
  /-- One transition: the next state and the output. -/
  step : State → Input → State × Output

namespace Machine

variable {State : Type u} {Input : Type v} {Output : Type w}

/-- One step of a run, with the state on either side of it. -/
structure Step (State : Type u) (Input : Type v) (Output : Type w) where
  before : State
  input : Input
  output : Output
  after : State

variable (machine : Machine State Input Output)

/-- The step taken from `state` on `input`. -/
def stepAt (state : State) (input : Input) : Step State Input Output :=
  { before := state
    input := input
    output := (machine.step state input).2
    after := (machine.step state input).1 }

/-- The state reached from `state` after all of `inputs`. -/
def run (state : State) : List Input → State
  | [] => state
  | input :: rest => run (machine.step state input).1 rest

/-- The steps taken from `state` on `inputs`, in order. -/
def steps (state : State) : List Input → List (Step State Input Output)
  | [] => []
  | input :: rest => machine.stepAt state input :: steps (machine.step state input).1 rest

@[simp]
theorem run_nil (state : State) : machine.run state [] = state := rfl

@[simp]
theorem run_cons (state : State) (input : Input) (rest : List Input) :
    machine.run state (input :: rest) = machine.run (machine.step state input).1 rest := rfl

@[simp]
theorem steps_nil (state : State) : machine.steps state [] = [] := rfl

@[simp]
theorem steps_cons (state : State) (input : Input) (rest : List Input) :
    machine.steps state (input :: rest) =
      machine.stepAt state input :: machine.steps (machine.step state input).1 rest := rfl

theorem run_append (state : State) (first second : List Input) :
    machine.run state (first ++ second) = machine.run (machine.run state first) second := by
  induction first generalizing state with
  | nil => rfl
  | cons input rest ih => exact ih _

theorem steps_append (state : State) (first second : List Input) :
    machine.steps state (first ++ second) =
      machine.steps state first ++ machine.steps (machine.run state first) second := by
  induction first generalizing state with
  | nil => rfl
  | cons input rest ih =>
      simp only [List.cons_append, steps_cons, run_cons]
      rw [ih]

variable {machine}

/-- An invariant kept by every step whose guard holds is kept by every run all
of whose steps meet the guard. -/
theorem run_invariant_of_guard {invariant : State → Prop} (guard : State → Input → Prop)
    (preserved : ∀ state input, invariant state → guard state input →
      invariant (machine.step state input).1)
    {state : State} {inputs : List Input} (initial : invariant state)
    (guarded : ∀ step ∈ machine.steps state inputs, guard step.before step.input) :
    invariant (machine.run state inputs) := by
  induction inputs generalizing state with
  | nil => exact initial
  | cons input rest ih =>
      have guardNow : guard state input := guarded (machine.stepAt state input) (by simp)
      refine ih (preserved state input initial guardNow) ?_
      intro step stepMem
      exact guarded step (by simp [stepMem])

/-- An invariant kept by every step whose guard holds is held by every state that a run, all of
whose steps meet the guard, takes a step from. -/
theorem invariant_before_of_guard {invariant : State → Prop} (guard : State → Input → Prop)
    (preserved : ∀ state input, invariant state → guard state input →
      invariant (machine.step state input).1)
    {state : State} {inputs : List Input} (initial : invariant state)
    (guarded : ∀ step ∈ machine.steps state inputs, guard step.before step.input) :
    ∀ step ∈ machine.steps state inputs, invariant step.before := by
  induction inputs generalizing state with
  | nil => simp
  | cons input rest ih =>
      have guardNow : guard state input := guarded (machine.stepAt state input) (by simp)
      intro step stepMem
      rcases List.mem_cons.mp stepMem with rfl | later
      · exact initial
      · exact ih (preserved state input initial guardNow)
          (fun other isLater => guarded other (by simp [isLater])) step later

/-- A step of a run is on one of its inputs. -/
theorem input_mem {state : State} {inputs : List Input} :
    ∀ step ∈ machine.steps state inputs, step.input ∈ inputs := by
  induction inputs generalizing state with
  | nil => simp
  | cons input rest ih =>
      intro step stepMem
      rcases List.mem_cons.mp stepMem with rfl | later
      · exact List.mem_cons_self
      · exact List.mem_cons_of_mem _ (ih step later)

/-- An invariant kept by every step is kept by every run. -/
theorem run_invariant {invariant : State → Prop}
    (preserved : ∀ state input, invariant state → invariant (machine.step state input).1)
    {state : State} {inputs : List Input} (initial : invariant state) :
    invariant (machine.run state inputs) :=
  run_invariant_of_guard (fun _ _ => True)
    (fun state input holds _ => preserved state input holds) initial (fun _ _ => trivial)

/-- What every step of a run relates, and every state to itself, consecutive moments of the run
relate. -/
theorem take_related (related : State → State → Prop) (refl : ∀ state, related state state)
    {state : State} {inputs : List Input}
    (steps : ∀ step ∈ machine.steps state inputs, related step.before step.after) (count : ℕ) :
    related (machine.run state (inputs.take count)) (machine.run state (inputs.take (count + 1))) := by
  induction inputs generalizing state count with
  | nil => simpa using refl state
  | cons input rest ih =>
      cases count with
      | zero => exact steps (machine.stepAt state input) (by simp)
      | succ count =>
          refine ih ?_ count
          intro step stepMem
          exact steps step (by simp [stepMem])

/-- If, from good states, exactly the guarded steps are fine and lead to good states, then all
states and steps of a run are exactly when every step of the run is guarded. -/
theorem forall_take_steps_iff {invariant good : State → Prop} {fine guard : State → Input → Prop}
    (preserved : ∀ state input, invariant state → invariant (machine.step state input).1)
    (keeps_iff : ∀ state input, invariant state → good state →
      (good (machine.step state input).1 ∧ fine state input ↔ guard state input))
    {state : State} {inputs : List Input} (initial : invariant state) (isGood : good state) :
    ((∀ count, good (machine.run state (inputs.take count))) ∧
        ∀ step ∈ machine.steps state inputs, fine step.before step.input) ↔
      ∀ step ∈ machine.steps state inputs, guard step.before step.input := by
  induction inputs generalizing state with
  | nil => simp [isGood]
  | cons input rest ih =>
      have now := keeps_iff state input initial isGood
      constructor
      · rintro ⟨throughout, allFine⟩ step stepMem
        have goodNext : good (machine.step state input).1 := throughout 1
        rcases List.mem_cons.mp stepMem with rfl | later
        · exact now.mp ⟨goodNext, allFine (machine.stepAt state input) (by simp)⟩
        · refine (ih (preserved state input initial) goodNext).mp ⟨?_, ?_⟩ step later
          · intro count
            exact throughout (count + 1)
          · intro step later
            exact allFine step (by simp [later])
      · intro guarded
        rcases now.mpr (guarded (machine.stepAt state input) (by simp)) with ⟨goodNext, fineNow⟩
        rcases (ih (preserved state input initial) goodNext).mpr
          (fun step later => guarded step (by simp [later])) with ⟨throughout, fineLater⟩
        constructor
        · intro count
          cases count with
          | zero => exact isGood
          | succ count => exact throughout count
        · intro step stepMem
          rcases List.mem_cons.mp stepMem with rfl | later
          · exact fineNow
          · exact fineLater step later

/-- A property that, from good states, exactly the guarded steps keep is held by every state
of a run exactly when every step of the run is guarded. -/
theorem forall_take_iff {invariant good : State → Prop} {guard : State → Input → Prop}
    (preserved : ∀ state input, invariant state → invariant (machine.step state input).1)
    (keeps_iff : ∀ state input, invariant state → good state →
      (good (machine.step state input).1 ↔ guard state input))
    {state : State} {inputs : List Input} (initial : invariant state) (isGood : good state) :
    (∀ count, good (machine.run state (inputs.take count))) ↔
      ∀ step ∈ machine.steps state inputs, guard step.before step.input := by
  have fine : ∀ state input, invariant state → good state →
      (good (machine.step state input).1 ∧ True ↔ guard state input) := by
    intro state input holds holdsGood
    rw [and_true]
    exact keeps_iff state input holds holdsGood
  rw [← forall_take_steps_iff preserved fine initial isGood]
  simp

/-- A machine and an abstract one on the same inputs: as long as guarded steps keep the two
related, and a step that is not guarded breaks what related states have, all states of the
runs have it exactly when every step of the abstract run is guarded. -/
theorem forall_take_related_iff {Abstract : Type*} {Result : Type*}
    {abstract : Machine Abstract Input Result} {related good : State → Abstract → Prop}
    {guard : Abstract → Input → Prop}
    (kept : ∀ state shadow input, related state shadow → guard shadow input →
      related (machine.step state input).1 (abstract.step shadow input).1)
    (broken : ∀ state shadow input, related state shadow → ¬ guard shadow input →
      ¬ good (machine.step state input).1 (abstract.step shadow input).1)
    (isGood : ∀ state shadow, related state shadow → good state shadow)
    {state : State} {shadow : Abstract} {inputs : List Input} (initial : related state shadow) :
    (∀ count, good (machine.run state (inputs.take count))
        (abstract.run shadow (inputs.take count))) ↔
      ∀ step ∈ abstract.steps shadow inputs, guard step.before step.input := by
  induction inputs generalizing state shadow with
  | nil => simp [isGood state shadow initial]
  | cons input rest ih =>
      constructor
      · intro throughout step stepMem
        have guarded : guard shadow input := by
          by_contra notGuarded
          exact broken state shadow input initial notGuarded (throughout 1)
        rcases List.mem_cons.mp stepMem with rfl | later
        · exact guarded
        · exact (ih (kept state shadow input initial guarded)).mp
            (fun count => throughout (count + 1)) step later
      · intro guarded count
        have guardedNow : guard shadow input := guarded (abstract.stepAt shadow input) (by simp)
        cases count with
        | zero => exact isGood state shadow initial
        | succ count =>
            refine (ih (kept state shadow input initial guardedNow)).mpr ?_ count
            intro step later
            exact guarded step (by simp [later])

/-- A fact that each step establishes from an invariant holds of every step of
every run. -/
theorem forall_steps (invariant : State → Prop) (holds : Step State Input Output → Prop)
    (preserved : ∀ state input, invariant state → invariant (machine.step state input).1)
    (established : ∀ state input, invariant state → holds (machine.stepAt state input))
    {state : State} {inputs : List Input} (initial : invariant state) :
    ∀ step ∈ machine.steps state inputs, holds step := by
  induction inputs generalizing state with
  | nil => simp
  | cons input rest ih =>
      intro step stepMem
      rcases List.mem_cons.mp stepMem with rfl | later
      · exact established state input initial
      · exact ih (preserved state input initial) step later

/-- A part of the inputs takes a part of the steps. -/
theorem steps_take_subset (state : State) (inputs : List Input) (count : ℕ) :
    machine.steps state (inputs.take count) ⊆ machine.steps state inputs := by
  intro step stepMem
  rw [← List.take_append_drop count inputs, steps_append]
  exact List.mem_append_left _ stepMem

/-- Every step of a run is the machine's step at the state it starts from. -/
theorem step_eq_stepAt {state : State} {inputs : List Input} {step : Step State Input Output}
    (stepMem : step ∈ machine.steps state inputs) :
    step = machine.stepAt step.before step.input :=
  forall_steps (fun _ => True) (fun step => step = machine.stepAt step.before step.input)
    (fun _ _ _ => trivial) (fun _ _ _ => rfl) trivial step stepMem

/-- Every state a step of a run starts from satisfies an invariant of the machine. -/
theorem invariant_before {invariant : State → Prop}
    (preserved : ∀ state input, invariant state → invariant (machine.step state input).1)
    {state : State} {inputs : List Input} (initial : invariant state)
    {step : Step State Input Output} (stepMem : step ∈ machine.steps state inputs) :
    invariant step.before :=
  forall_steps invariant (fun step => invariant step.before) preserved
    (fun _ _ holds => holds) initial step stepMem

/-- A fact about each step and the steps before it holds throughout every run on admitted
inputs, when each step establishes it from an invariant of the past and the state. -/
theorem guarded_steps {permits : List (Step State Input Output) → Step State Input Output → Prop}
    (invariant : List (Step State Input Output) → State → Prop) (admits : Input → Prop)
    (preserved : ∀ past state input, (∀ earlier ∈ past, admits earlier.input) → admits input →
      invariant past state → permits past (machine.stepAt state input) ∧
        invariant (past ++ [machine.stepAt state input]) (machine.step state input).1)
    {state : State} {inputs : List Input} (initial : invariant [] state)
    (admitted : ∀ input ∈ inputs, admits input) :
    Guarded permits [] (machine.steps state inputs) := by
  suffices fromPast : ∀ past state, (∀ earlier ∈ past, admits earlier.input) →
      invariant past state → Guarded permits past (machine.steps state inputs) from
    fromPast [] state (by simp) initial
  induction inputs with
  | nil =>
      intro past state _ _
      trivial
  | cons input rest ih =>
      intro past state pastAdmitted holds
      have isAdmitted : admits input := admitted input (by simp)
      rcases preserved past state input pastAdmitted isAdmitted holds with ⟨permitted, kept⟩
      refine ⟨permitted, ih (fun later isLater => admitted later (by simp [isLater])) _ _ ?_ kept⟩
      intro earlier isEarlier
      rcases List.mem_append.mp isEarlier with isPast | isNow
      · exact pastAdmitted earlier isPast
      · cases List.mem_singleton.mp isNow
        exact isAdmitted

end Machine

end Aa.Library
