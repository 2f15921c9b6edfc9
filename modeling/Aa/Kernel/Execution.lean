import Aa.Kernel.Consistency
import Aa.Library.TopologicalOrder

/-!
# What the control cycle executes

A run hands each work package to the adapter at most once, only with permitted
capabilities and only after everything upstream of it has completed, and completes a
package only in a call whose gates all pass on a result that finished.

The invariant says that work that has begun has its dependencies completed, and that an
assignment awaiting its gates belongs to a running package whose result the adapter
returned. One lemma for each call says what it does to the one package it concerns.
-/

namespace Aa.Kernel

open Aa.Library

namespace Plan.Graph

theorem dependencies_setState (graph : Graph) (id other : String) (state : State) :
    (graph.setStateIgnoring id state).dependencies other = graph.dependencies other := by
  unfold setStateIgnoring setState
  split
  · rename_i updated updateEq
    split at updateEq
    · simp at updateEq
    · rename_i wp found
      have sameId : wp.id = id := graph.identified id wp found
      cases updateEq
      simp only [dependencies, get, sameId]
      by_cases same : other = id
      · rw [same, AList.lookup_insert, found]
        rfl
      · rw [AList.lookup_insert_ne same]
  · rfl

/-- The dependencies of a ready work package are completed. -/
theorem completed_of_ready {graph : Graph} {id : String} (isReady : id ∈ graph.ready) :
    ∀ dep ∈ graph.dependencies id, graph.stateOf dep = some .completed := by
  simp only [ready, Go.sortStrings, List.mem_insertionSort, List.mem_filter] at isReady
  rcases Option.any_eq_true_iff_get _ _ |>.mp isReady.2 with ⟨present, readyNow⟩
  intro dep isDep
  rw [dependencies, ← Option.some_get present] at isDep
  simp only [Graph.isReady, Bool.and_eq_true, List.all_eq_true] at readyNow
  have completed := readyNow.2 dep isDep
  rcases Option.any_eq_true_iff_get _ _ |>.mp completed with ⟨depPresent, isCompleted⟩
  rw [stateOf, ← Option.some_get depPresent]
  exact congrArg some (of_decide_eq_true isCompleted)

end Plan.Graph

/-- A result of work that finished, in full or in part. -/
def Runtime.Result.Finished (result : Runtime.Result) : Prop :=
  result.status = "succeeded" ∨ result.status = "partial"

/-- Every gate passes and none is pending. -/
def GatesPass (gates : List Gate) (subject : Subject) : Prop :=
  ∀ gate ∈ gates, (gate.evaluate subject).passed = true ∧ (gate.evaluate subject).pending = false

theorem evaluateGates_passed {gates : List Gate} {subject : Subject} :
    (evaluateGates gates subject).passed = true ↔ GatesPass gates subject := by
  simp [evaluateGates, GatesPass, List.mem_insertionSort]

namespace Orchestrator

/-- The work package has been handed to the adapter. -/
def Begun (orchestrator : Orchestrator) (id : String) : Prop :=
  ∃ state, orchestrator.graph.stateOf id = some state ∧
    (state = .running ∨ state = .completed ∨ state = .deficient)

/-! ## What a call changes -/

/-- A change that concerns one work package, with its assignment and its result. -/
structure Confined (before after : Orchestrator) (id : String) : Prop where
  config : after.config = before.config
  dependencies : ∀ other, after.graph.dependencies other = before.graph.dependencies other
  states : ∀ other, other ≠ id → after.graph.stateOf other = before.graph.stateOf other
  assignments : ∀ other, other ≠ id →
    after.assignments.lookup other = before.assignments.lookup other
  results : ∀ other, other ≠ id → after.results.lookup other = before.results.lookup other

namespace Confined

variable {before middle after : Orchestrator} {id : String}

theorem refl (orchestrator : Orchestrator) (id : String) : Confined orchestrator orchestrator id :=
  ⟨rfl, fun _ => rfl, fun _ _ => rfl, fun _ _ => rfl, fun _ _ => rfl⟩

theorem trans (left : Confined before middle id) (right : Confined middle after id) :
    Confined before after id where
  config := right.config.trans left.config
  dependencies other := (right.dependencies other).trans (left.dependencies other)
  states other different := (right.states other different).trans (left.states other different)
  assignments other different :=
    (right.assignments other different).trans (left.assignments other different)
  results other different := (right.results other different).trans (left.results other different)

theorem setState (orchestrator : Orchestrator) (known : (orchestrator.graph.get id).isSome)
    (state : Plan.State) : Confined orchestrator (orchestrator.setState id state) id where
  config := rfl
  dependencies other := Plan.Graph.dependencies_setState _ _ _ _
  states other different := by
    rw [Orchestrator.setState, Plan.Graph.stateOf_setState known, if_neg different]
  assignments _ _ := rfl
  results _ _ := rfl

theorem keep (orchestrator : Orchestrator) (assignment : Control.Assignment) :
    Confined orchestrator (orchestrator.keep id assignment) id where
  config := rfl
  dependencies _ := rfl
  states _ _ := rfl
  assignments _ different := AList.lookup_insert_ne different
  results _ _ := rfl

/-- An assignment recorded together with the state of its work package. -/
theorem keepState (orchestrator : Orchestrator) (known : (orchestrator.graph.get id).isSome)
    (assignment : Control.Assignment) (state : Plan.State) :
    Confined orchestrator ((orchestrator.keep id assignment).setState id state) id :=
  have knownKept : ((orchestrator.keep id assignment).graph.get id).isSome := known
  (keep orchestrator assignment).trans (setState _ knownKept state)

end Confined

/-- How a call leaves the work package it concerns; `source` says where its result is from. -/
structure Outcome (source : Runtime.Result → Prop) (id : String)
    (output : Except String (Option DispatchReport)) (after : Orchestrator) : Prop where
  begun : after.Begun id
  completed : after.graph.stateOf id = some .completed → ∃ result report, source result ∧
    result.Finished ∧ GatesPass after.config.gates (subject id result) ∧
    output = .ok (some report) ∧ report.gates = evaluateGates after.config.gates (subject id result)
  awaiting : ∀ assignment, after.assignments.lookup id = some assignment →
    assignment.state = .awaitingGates → assignment.workPackageId = id ∧
      after.graph.stateOf id = some .running ∧
      ∃ result, after.results.lookup id = some result ∧ source result ∧ result.Finished

section Outcome

variable {source : Runtime.Result → Prop} {orchestrator : Orchestrator} {id : String}
  {assignment : Control.Assignment} {report : GateReport}

theorem begun_setState (known : (orchestrator.graph.get id).isSome) {state : Plan.State}
    (isBegun : state = .running ∨ state = .completed ∨ state = .deficient) :
    (orchestrator.setState id state).Begun id :=
  ⟨state, stateOf_setState_self known state, isBegun⟩

/-- A rejected package is deficient, and its assignment does not await gates. -/
theorem reject_outcome (known : (orchestrator.graph.get id).isSome)
    (permitted : assignment.canTransition .failed = true) (accepted : Bool) :
    Confined orchestrator (orchestrator.reject id assignment report accepted).2 id ∧
      Outcome source id (.ok (some (orchestrator.reject id assignment report accepted).1))
        (orchestrator.reject id assignment report accepted).2 := by
  have deficient : (orchestrator.reject id assignment report accepted).2.graph.stateOf id =
      some .deficient := stateOf_setState_self known .deficient
  refine ⟨.keepState orchestrator known _ .deficient,
    begun_setState known (by simp), ?_, ?_⟩
  · intro completed
    rw [deficient] at completed
    cases completed
  · intro other recorded awaits
    simp only [reject, Control.Assignment.transitionIgnoring_eq permitted, setState, keep,
      AList.lookup_insert] at recorded
    cases recorded
    cases awaits

/-- The gates decide about a finished result of a running package. -/
theorem settle_outcome (known : (orchestrator.graph.get id).isSome)
    (owner : assignment.workPackageId = id) (awaits : assignment.state = .awaitingGates)
    (running : orchestrator.graph.stateOf id = some .running)
    (recorded : orchestrator.assignments.lookup id = some assignment) {result : Runtime.Result}
    (kept : orchestrator.results.lookup id = some result) (isSource : source result)
    (finished : result.Finished) (onPass otherwise : Bool) :
    Confined orchestrator (orchestrator.settle id assignment
        (evaluateGates orchestrator.config.gates (subject id result)) onPass otherwise).2 id ∧
      Outcome source id (.ok (some (orchestrator.settle id assignment
        (evaluateGates orchestrator.config.gates (subject id result)) onPass otherwise).1))
        (orchestrator.settle id assignment
          (evaluateGates orchestrator.config.gates (subject id result)) onPass otherwise).2 := by
  unfold settle
  split
  · rename_i passed
    have permitted : assignment.canTransition .accepted = true := by
      simp [Control.Assignment.canTransition, awaits, Control.transitions]
    subst owner
    simp only [accept, Control.Assignment.transitionIgnoring_eq permitted]
    refine ⟨?_, ?_, ?_, ?_⟩
    · exact { Confined.keepState orchestrator known _ .completed with }
    · exact begun_setState known (by simp)
    · intro _
      exact ⟨result, _, isSource, finished, evaluateGates_passed.mp passed, rfl, rfl⟩
    · intro other otherRecorded otherAwaits
      simp only [emit, setState, keep, AList.lookup_insert] at otherRecorded
      cases otherRecorded
      cases otherAwaits
  · split
    · refine ⟨.refl _ _, ⟨.running, running, by simp⟩, ?_, ?_⟩
      · intro completed
        rw [running] at completed
        cases completed
      · intro other otherRecorded _
        rw [recorded] at otherRecorded
        cases otherRecorded
        exact ⟨owner, running, result, kept, isSource, finished⟩
    · have permitted : assignment.canTransition .failed = true := by
        simp [Control.Assignment.canTransition, awaits, Control.transitions]
      exact reject_outcome known permitted otherwise

/-- A package left running, with no assignment that awaits gates. -/
theorem running_outcome {output : Except String (Option DispatchReport)}
    (running : orchestrator.graph.stateOf id = some .running)
    (noneAwaits : ∀ assignment, orchestrator.assignments.lookup id = some assignment →
      assignment.state ≠ .awaitingGates) : Outcome source id output orchestrator := by
  refine ⟨⟨.running, running, by simp⟩, ?_, ?_⟩
  · intro completed
    rw [running] at completed
    cases completed
  · intro assignment recorded awaits
    exact absurd awaits (noneAwaits assignment recorded)

/-- A dispatch after its adapter has replied. -/
theorem conclude_outcome {prepared : Prepared}
    (known : (orchestrator.graph.get prepared.workPackageId).isSome)
    (owner : prepared.assignment.workPackageId = prepared.workPackageId)
    (isRunning : prepared.assignment.state = .running)
    (running : orchestrator.graph.stateOf prepared.workPackageId = some .running)
    (noneAwaits : ∀ assignment, orchestrator.assignments.lookup prepared.workPackageId =
      some assignment → assignment.state ≠ .awaitingGates) (reply : Reply) :
    Confined orchestrator (orchestrator.conclude prepared reply).2 prepared.workPackageId ∧
      Outcome (fun result => reply = .ok result) prepared.workPackageId
        ((orchestrator.conclude prepared reply).1.map some)
        (orchestrator.conclude prepared reply).2 := by
  cases reply with
  | error message =>
      exact reject_outcome known
        (by simp [Control.Assignment.canTransition, isRunning, Control.transitions]) false
  | ok result =>
      let source : Runtime.Result → Prop := fun other => (.ok result : Reply) = .ok other
      have isSource : source result := rfl
      have collecting : prepared.assignment.transition .collecting =
          .ok { prepared.assignment with state := .collecting } :=
        Control.Assignment.transition_eq_ok
          (by simp [Control.Assignment.canTransition, isRunning, Control.transitions])
      simp only [conclude, collecting, reported]
      split
      · rename_i error intake submitted
        exact ⟨{ Confined.refl orchestrator prepared.workPackageId with },
          running_outcome running noneAwaits⟩
      · rename_i accepted intake submitted
        let collected : Control.Assignment := { prepared.assignment with state := .collecting }
        let recorded : Orchestrator := ({ orchestrator with
          intake := intake
          results := orchestrator.results.insert prepared.workPackageId result }.keep
            prepared.workPackageId collected).recordTelemetry collected result
        have confined : Confined orchestrator recorded prepared.workPackageId :=
          { Confined.keep orchestrator collected with
            results := fun _ different => AList.lookup_insert_ne different }
        have knownNow : (recorded.graph.get prepared.workPackageId).isSome := known
        have runningNow : recorded.graph.stateOf prepared.workPackageId = some .running := running
        have kept : recorded.results.lookup prepared.workPackageId = some result :=
          AList.lookup_insert _
        split
        · have permitted : collected.canTransition .failed = true := by
            simp [Control.Assignment.canTransition, collected, Control.transitions]
          have rejected := @reject_outcome source recorded prepared.workPackageId collected
            (evaluateGates recorded.config.gates (subject prepared.workPackageId result)) knownNow
            permitted accepted
          exact ⟨confined.trans rejected.1, rejected.2⟩
        · rename_i notFailed
          have finished : result.Finished := by
            by_contra notFinished
            exact notFailed (not_or.mp notFinished)
          let gated : Control.Assignment := { prepared.assignment with state := .awaitingGates }
          have awaiting : Control.Assignment.transition
              { prepared.assignment with state := .collecting } .awaitingGates = .ok gated :=
            Control.Assignment.transition_eq_ok
              (by simp [Control.Assignment.canTransition, Control.transitions])
          simp only [awaiting]
          have settled := @settle_outcome source (recorded.keep prepared.workPackageId gated)
            prepared.workPackageId gated knownNow owner rfl runningNow (AList.lookup_insert _)
            result kept isSource finished accepted accepted
          exact ⟨(confined.trans (.keep recorded gated)).trans settled.1, settled.2⟩

end Outcome

theorem Confined.start (orchestrator : Orchestrator) (prepared : Prepared)
    (known : (orchestrator.graph.get prepared.workPackageId).isSome) :
    Confined orchestrator (orchestrator.start prepared) prepared.workPackageId := by
  have knownNow : (({ orchestrator with readings := orchestrator.readings + 1 } :
    Orchestrator).graph.get prepared.workPackageId).isSome := known
  exact { Confined.setState _ knownNow .running with }

/-- The request a dispatch makes: for a ready package, with permitted capabilities. -/
theorem prepare_request {orchestrator : Orchestrator} {prepared : Prepared}
    (preparedEq : orchestrator.prepare = .ok (some prepared)) :
    prepared.request.workPackageId = prepared.workPackageId ∧
      prepared.workPackageId ∈ orchestrator.graph.ready ∧
      ∀ capability ∈ prepared.request.capabilities,
        capability ∈ orchestrator.config.permitted := by
  unfold prepare at preparedEq
  split at preparedEq
  · simp at preparedEq
  · rename_i wp readyEq
    split at preparedEq
    · simp at preparedEq
    · rename_i worker selected
      split at preparedEq
      · simp at preparedEq
      · rename_i contract built
        rw [runningAssignment_eq] at preparedEq
        simp only [Except.ok.injEq, Option.some.injEq] at preparedEq
        subst preparedEq
        rcases Option.bind_eq_some_iff.mp readyEq with ⟨id, first, present⟩
        have sameId : wp.id = id := orchestrator.graph.identified id wp present
        refine ⟨rfl, sameId ▸ List.mem_of_mem_head? first, ?_⟩
        intro capability granted
        simp only [buildContract, Contract.build] at built
        split at built
        · cases built
        · split at built
          · cases built
          · cases built
            exact of_decide_eq_true (List.mem_filter.mp granted).2

end Orchestrator

open Orchestrator

/-! ## Runs -/

/-- One call of a run. -/
abbrev Moment := Machine.Step Orchestrator Call (Except String (Option DispatchReport))

/-- The call made at a state of the orchestrator. -/
abbrev callAt (orchestrator : Orchestrator) (call : Call) : Moment :=
  machine.stepAt orchestrator call

/-- The request a call makes to the adapter, if it makes one. -/
def Moment.invoked (moment : Moment) : Option Runtime.Request :=
  match moment.input, moment.before.prepare with
  | .dispatch _, .ok (some prepared) => some prepared.request
  | _, _ => none

/-- The call hands the work package to the adapter, which returns the result. -/
def Moment.Returns (moment : Moment) (id : String) (result : Runtime.Result) : Prop :=
  (∃ request, moment.invoked = some request ∧ request.workPackageId = id) ∧
    ∃ reply, moment.input = .dispatch reply ∧ run moment.before.config reply = .ok result

/-- What is permitted of a call after those before it. -/
structure Permitted (graph : Plan.Graph) (config : Config) (past : List Moment)
    (moment : Moment) : Prop where
  /-- The package handed to the adapter was never handed to it before. -/
  once : ∀ request, moment.invoked = some request → ∀ earlier ∈ past,
    ∀ other, earlier.invoked = some other → other.workPackageId ≠ request.workPackageId
  /-- Everything upstream of it is completed. -/
  ready : ∀ request, moment.invoked = some request →
    ∀ dep, Upstream graph.dependencies dep request.workPackageId →
      moment.before.graph.stateOf dep = some .completed
  /-- It is granted permitted capabilities only. -/
  granted : ∀ request, moment.invoked = some request →
    ∀ capability ∈ request.capabilities, capability ∈ config.permitted
  /-- A package becomes completed on a finished result of its own, in a call that evaluates
  the gates on it and finds that all of them pass. -/
  completed : ∀ id, moment.before.graph.stateOf id ≠ some .completed →
    moment.after.graph.stateOf id = some .completed →
      ∃ result report, result.Finished ∧ (∃ origin ∈ past ++ [moment], origin.Returns id result) ∧
        GatesPass moment.before.config.gates (subject id result) ∧
        moment.output = .ok (some report) ∧
        report.gates = evaluateGates moment.before.config.gates (subject id result)

/-- What holds of the orchestrator after the calls so far. -/
structure Executing (graph : Plan.Graph) (config : Config) (past : List Moment)
    (orchestrator : Orchestrator) : Prop where
  dependencies : ∀ id, orchestrator.graph.dependencies id = graph.dependencies id
  permitted : orchestrator.config.permitted = config.permitted
  begun : ∀ earlier ∈ past, ∀ request, earlier.invoked = some request →
    orchestrator.Begun request.workPackageId
  closed : ∀ id, orchestrator.Begun id → ∀ dep ∈ graph.dependencies id,
    orchestrator.graph.stateOf dep = some .completed
  awaiting : ∀ id assignment, orchestrator.assignments.lookup id = some assignment →
    assignment.state = .awaitingGates → assignment.workPackageId = id ∧
      orchestrator.graph.stateOf id = some .running ∧
      ∃ result, orchestrator.results.lookup id = some result ∧
        (∃ origin ∈ past, origin.Returns id result) ∧ result.Finished

namespace Executing

variable {graph : Plan.Graph} {config : Config} {past : List Moment} {orchestrator : Orchestrator}

/-- Everything upstream of work that has begun is completed. -/
theorem upstream (executing : Executing graph config past orchestrator) {id dep : String}
    (isUpstream : Upstream graph.dependencies dep id)
    (direct : ∀ dep ∈ graph.dependencies id, orchestrator.graph.stateOf dep = some .completed) :
    orchestrator.graph.stateOf dep = some .completed := by
  induction isUpstream with
  | single isDep => exact direct _ isDep
  | tail _ isDep ih =>
      refine ih (executing.closed _ ⟨.completed, direct _ isDep, by simp⟩)

theorem new {created : Orchestrator} (isNew : Orchestrator.new graph config = .ok created)
    (proposed : ∀ id wp, graph.get id = some wp → wp.state = .proposed) :
    Executing graph config [] created := by
  unfold Orchestrator.new at isNew
  split at isNew
  · simp at isNew
  · cases isNew
    refine ⟨fun _ => rfl, rfl, by simp, ?_, by simp⟩
    rintro id ⟨state, stateEq, isBegun⟩
    rcases Option.map_eq_some_iff.mp stateEq with ⟨wp, present, rfl⟩
    rw [proposed id wp present] at isBegun
    simp at isBegun

section Step

variable {moment : Moment} {after : Orchestrator} {id : String} {source : Runtime.Result → Prop}
  {output : Except String (Option DispatchReport)}

theorem begun_of_ne (confined : Confined orchestrator after id) {other : String}
    (different : other ≠ id) : after.Begun other ↔ orchestrator.Begun other := by
  simp only [Begun, confined.states other different]

theorem completed_of_confined (confined : Confined orchestrator after id)
    (notCompleted : orchestrator.graph.stateOf id ≠ some .completed) {other : String}
    (completed : orchestrator.graph.stateOf other = some .completed) :
    after.graph.stateOf other = some .completed := by
  have different : other ≠ id := by
    rintro rfl
    exact notCompleted completed
  rw [confined.states other different]
  exact completed

/-- A call that concerns one work package, which was not completed before and has its
dependencies completed. -/
theorem of_confined (executing : Executing graph config past orchestrator)
    (confined : Confined orchestrator after id) (outcome : Outcome source id output after)
    (notCompleted : orchestrator.graph.stateOf id ≠ some .completed)
    (direct : ∀ dep ∈ graph.dependencies id, orchestrator.graph.stateOf dep = some .completed)
    (returned : ∀ result, source result → ∃ origin ∈ past ++ [moment], origin.Returns id result)
    (invokes : ∀ request, moment.invoked = some request → request.workPackageId = id) :
    Executing graph config (past ++ [moment]) after where
  dependencies other := (confined.dependencies other).trans (executing.dependencies other)
  permitted := (congrArg Config.permitted confined.config).trans executing.permitted
  begun earlier isEarlier request invoked := by
    by_cases same : request.workPackageId = id
    · rw [same]
      exact outcome.begun
    · rcases List.mem_append.mp isEarlier with isPast | isNow
      · exact (begun_of_ne confined same).mpr (executing.begun earlier isPast request invoked)
      · rw [List.mem_singleton.mp isNow] at invoked
        exact absurd (invokes request invoked) same
  closed other begun dep isDep := by
    refine completed_of_confined confined notCompleted ?_
    by_cases same : other = id
    · subst same
      exact direct dep isDep
    · exact executing.closed other ((begun_of_ne confined same).mp begun) dep isDep
  awaiting other assignment recorded awaits := by
    by_cases same : other = id
    · subst same
      rcases outcome.awaiting assignment recorded awaits with
        ⟨owner, running, result, kept, isSource, finished⟩
      exact ⟨owner, running, result, kept, returned result isSource, finished⟩
    · rw [confined.assignments other same] at recorded
      rcases executing.awaiting other assignment recorded awaits with
        ⟨owner, running, result, kept, ⟨origin, isPast, returns⟩, finished⟩
      rw [confined.states other same, confined.results other same]
      exact ⟨owner, running, result, kept, ⟨origin, List.mem_append_left _ isPast, returns⟩,
        finished⟩

/-- A package that such a call completes. -/
theorem completed_of_outcome (confined : Confined orchestrator after id)
    (outcome : Outcome source id output after)
    (returned : ∀ result, source result → ∃ origin ∈ past ++ [moment], origin.Returns id result)
    {other : String} (notCompleted : orchestrator.graph.stateOf other ≠ some .completed)
    (completed : after.graph.stateOf other = some .completed) :
    ∃ result report, result.Finished ∧
      (∃ origin ∈ past ++ [moment], origin.Returns other result) ∧
      GatesPass orchestrator.config.gates (subject other result) ∧ output = .ok (some report) ∧
      report.gates = evaluateGates orchestrator.config.gates (subject other result) := by
  have same : other = id := by
    by_contra different
    rw [confined.states other different] at completed
    exact notCompleted completed
  subst same
  rcases outcome.completed completed with
    ⟨result, report, isSource, finished, pass, outputEq, reportEq⟩
  rw [confined.config] at pass reportEq
  exact ⟨result, report, finished, returned result isSource, pass, outputEq, reportEq⟩

/-- A call that makes no request and changes no package, dependency, assignment or result. -/
theorem of_same (executing : Executing graph config past orchestrator)
    (invokes : moment.invoked = none) (sameGraph : after.graph = orchestrator.graph)
    (samePermitted : after.config.permitted = orchestrator.config.permitted)
    (sameAssignments : after.assignments = orchestrator.assignments)
    (sameResults : after.results = orchestrator.results) :
    Executing graph config (past ++ [moment]) after where
  dependencies := by
    rw [sameGraph]
    exact executing.dependencies
  permitted := samePermitted.trans executing.permitted
  begun earlier isEarlier request invoked := by
    rcases List.mem_append.mp isEarlier with isPast | isNow
    · rw [Begun, sameGraph]
      exact executing.begun earlier isPast request invoked
    · rw [List.mem_singleton.mp isNow, invokes] at invoked
      cases invoked
  closed := by
    simp only [Begun, sameGraph]
    exact executing.closed
  awaiting id assignment recorded awaits := by
    rw [sameAssignments] at recorded
    rw [sameGraph, sameResults]
    rcases executing.awaiting id assignment recorded awaits with
      ⟨owner, running, result, kept, ⟨origin, isPast, returns⟩, finished⟩
    exact ⟨owner, running, result, kept, ⟨origin, List.mem_append_left _ isPast, returns⟩,
      finished⟩

theorem permitted_of_same (invokes : moment.invoked = none)
    (sameGraph : moment.after.graph = moment.before.graph) : Permitted graph config past moment := by
  refine ⟨?_, ?_, ?_, ?_⟩
  · intro request invoked
    rw [invokes] at invoked
    cases invoked
  · intro request invoked
    rw [invokes] at invoked
    cases invoked
  · intro request invoked
    rw [invokes] at invoked
    cases invoked
  · intro id notCompleted completed
    rw [sameGraph] at completed
    exact absurd completed notCompleted

end Step

theorem dispatch_idle {reply : Reply}
    (idle : ∀ prepared, orchestrator.prepare ≠ .ok (some prepared)) :
    (callAt orchestrator (.dispatch reply)).invoked = none ∧
      (callAt orchestrator (.dispatch reply)).after = orchestrator := by
  cases preparedEq : orchestrator.prepare with
  | error message =>
      simp [callAt, Moment.invoked, Machine.stepAt, machine, Orchestrator.dispatch, preparedEq]
  | ok outcome =>
      cases outcome with
      | none =>
          simp [callAt, Moment.invoked, Machine.stepAt, machine, Orchestrator.dispatch, preparedEq]
      | some prepared => exact absurd preparedEq (idle prepared)

/-- What a dispatch that reaches the adapter does to its work package. -/
theorem dispatch_effect {prepared : Prepared}
    (preparedEq : orchestrator.prepare = .ok (some prepared))
    (noneAwaits : ∀ assignment, orchestrator.assignments.lookup prepared.workPackageId =
      some assignment → assignment.state ≠ .awaitingGates) (reply : Reply) :
    Confined orchestrator (callAt orchestrator (.dispatch reply)).after prepared.workPackageId ∧
      Outcome (fun result => run orchestrator.config reply = .ok result) prepared.workPackageId
        (callAt orchestrator (.dispatch reply)).output
        (callAt orchestrator (.dispatch reply)).after := by
  have spec := prepare_spec preparedEq
  have known : (orchestrator.graph.get prepared.workPackageId).isSome := by
    rcases spec.undispatched with stateEq | stateEq
    · exact get_isSome_of_stateOf stateEq
    · exact get_isSome_of_stateOf stateEq
  have running := stateOf_start orchestrator prepared known
  have started := Confined.start orchestrator prepared known
  have knownNow : ((orchestrator.start prepared).graph.get prepared.workPackageId).isSome :=
    get_isSome_of_stateOf running
  have noneAwaitsNow : ∀ assignment, (orchestrator.start prepared).assignments.lookup
      prepared.workPackageId = some assignment → assignment.state ≠ .awaitingGates := noneAwaits
  rcases conclude_outcome knownNow spec.owner spec.running running noneAwaitsNow
    (run orchestrator.config reply) with ⟨concluded, outcome⟩
  have confined := started.trans concluded
  have dispatchEq : orchestrator.dispatch reply =
      (((orchestrator.start prepared).conclude prepared (run orchestrator.config reply)).1.map some,
        ((orchestrator.start prepared).conclude prepared (run orchestrator.config reply)).2) := by
    simp [Orchestrator.dispatch, preparedEq]
  have afterEq : (callAt orchestrator (.dispatch reply)).after =
      ((orchestrator.start prepared).conclude prepared (run orchestrator.config reply)).2 :=
    congrArg Prod.snd dispatchEq
  have outputEq : (callAt orchestrator (.dispatch reply)).output =
      ((orchestrator.start prepared).conclude prepared (run orchestrator.config reply)).1.map some :=
    congrArg Prod.fst dispatchEq
  rw [afterEq, outputEq]
  exact ⟨confined, outcome⟩

theorem dispatch (executing : Executing graph config past orchestrator) (reply : Reply) :
    Permitted graph config past (callAt orchestrator (.dispatch reply)) ∧
      Executing graph config (past ++ [callAt orchestrator (.dispatch reply)])
        (callAt orchestrator (.dispatch reply)).after := by
  by_cases idle : ∀ prepared, orchestrator.prepare ≠ .ok (some prepared)
  · rcases @dispatch_idle orchestrator reply idle with ⟨invokes, same⟩
    refine ⟨permitted_of_same invokes (congrArg Orchestrator.graph same), ?_⟩
    rw [same]
    exact executing.of_same invokes rfl rfl rfl rfl
  · simp only [not_forall, not_not] at idle
    rcases idle with ⟨prepared, preparedEq⟩
    have spec := prepare_spec preparedEq
    rcases prepare_request preparedEq with ⟨requested, isReady, granted⟩
    have notBegun : ¬ orchestrator.Begun prepared.workPackageId := by
      rintro ⟨state, stateEq, isBegun⟩
      have undispatched := spec.undispatched
      rw [stateEq] at undispatched
      rcases undispatched with same | same
      all_goals
        cases same
        simp at isBegun
    have notCompleted : orchestrator.graph.stateOf prepared.workPackageId ≠ some .completed :=
      fun completed => notBegun ⟨.completed, completed, by simp⟩
    have direct : ∀ dep ∈ graph.dependencies prepared.workPackageId,
        orchestrator.graph.stateOf dep = some .completed := by
      rw [← executing.dependencies]
      exact Plan.Graph.completed_of_ready isReady
    have noneAwaits : ∀ assignment, orchestrator.assignments.lookup prepared.workPackageId =
        some assignment → assignment.state ≠ .awaitingGates := by
      intro assignment recorded awaits
      have running := (executing.awaiting _ assignment recorded awaits).2.1
      exact notBegun ⟨.running, running, by simp⟩
    rcases dispatch_effect preparedEq noneAwaits reply with ⟨confined, outcome⟩
    have invokes : (callAt orchestrator (.dispatch reply)).invoked = some prepared.request := by
      simp [callAt, Moment.invoked, Machine.stepAt, preparedEq]
    have invokesOnly : ∀ request,
        (callAt orchestrator (.dispatch reply)).invoked = some request →
        request.workPackageId = prepared.workPackageId := by
      intro request isInvoked
      rw [invokes] at isInvoked
      exact Option.some.inj isInvoked ▸ requested
    have returned : ∀ result, run orchestrator.config reply = .ok result →
        ∃ origin ∈ past ++ [callAt orchestrator (.dispatch reply)],
          origin.Returns prepared.workPackageId result := by
      intro result isReply
      exact ⟨_, List.mem_append_right _ (List.mem_singleton.mpr rfl),
        ⟨prepared.request, invokes, requested⟩, reply, rfl, isReply⟩
    refine ⟨⟨?_, ?_, ?_, ?_⟩, executing.of_confined confined outcome notCompleted direct
      returned invokesOnly⟩
    · intro request isInvoked earlier isPast other isOther same
      have begun := executing.begun earlier isPast other isOther
      rw [same, invokesOnly request isInvoked] at begun
      exact notBegun begun
    · intro request isInvoked dep isUpstream
      rw [invokesOnly request isInvoked] at isUpstream
      exact executing.upstream isUpstream direct
    · intro request isInvoked capability isGranted
      rw [invokes] at isInvoked
      cases isInvoked
      rw [← executing.permitted]
      exact granted capability isGranted
    · intro id notBefore completed
      exact completed_of_outcome confined outcome returned notBefore completed

theorem approve (executing : Executing graph config past orchestrator) (id : String) :
    Permitted graph config past (callAt orchestrator (.approve id)) ∧
      Executing graph config (past ++ [callAt orchestrator (.approve id)])
        (callAt orchestrator (.approve id)).after :=
  ⟨permitted_of_same rfl rfl, executing.of_same rfl rfl rfl rfl rfl⟩

theorem resolve (executing : Executing graph config past orchestrator) (id : String) :
    Permitted graph config past (callAt orchestrator (.resolve id)) ∧
      Executing graph config (past ++ [callAt orchestrator (.resolve id)])
        (callAt orchestrator (.resolve id)).after := by
  have invokes : (callAt orchestrator (.resolve id)).invoked = none := rfl
  have idle (same : (callAt orchestrator (.resolve id)).after = orchestrator) :
      Permitted graph config past (callAt orchestrator (.resolve id)) ∧
        Executing graph config (past ++ [callAt orchestrator (.resolve id)])
          (callAt orchestrator (.resolve id)).after := by
    refine ⟨permitted_of_same invokes (congrArg Orchestrator.graph same), ?_⟩
    rw [same]
    exact executing.of_same invokes rfl rfl rfl rfl
  cases recorded : orchestrator.assignments.lookup id with
  | none => exact idle (by simp [callAt, Machine.stepAt, machine, Orchestrator.resolve, recorded])
  | some assignment =>
      by_cases awaits : assignment.state = .awaitingGates
      · rcases executing.awaiting id assignment recorded awaits with
          ⟨owner, running, result, kept, returned, finished⟩
        let source : Runtime.Result → Prop := fun result => ∃ origin ∈ past, origin.Returns id result
        have isSource : source result := returned
        have resolveEq : orchestrator.resolve id = reported (orchestrator.settle id assignment
            (evaluateGates orchestrator.config.gates (subject id result)) true false) := by
          simp [Orchestrator.resolve, recorded, awaits, kept]
        have afterEq : (callAt orchestrator (.resolve id)).after = (orchestrator.settle id assignment
            (evaluateGates orchestrator.config.gates (subject id result)) true false).2 :=
          congrArg Prod.snd resolveEq
        have outputEq : (callAt orchestrator (.resolve id)).output =
            .ok (some (orchestrator.settle id assignment
              (evaluateGates orchestrator.config.gates (subject id result)) true false).1) :=
          congrArg (fun resolved => resolved.1.map some) resolveEq
        rcases settle_outcome (get_isSome_of_stateOf running) owner awaits running recorded kept
          isSource finished true false with ⟨confined, outcome⟩
        rw [← afterEq] at confined outcome
        rw [← outputEq] at outcome
        have notCompleted : orchestrator.graph.stateOf id ≠ some .completed := by
          rw [running]
          simp
        have direct := executing.closed id ⟨.running, running, by simp⟩
        have origins : ∀ result, source result →
            ∃ origin ∈ past ++ [callAt orchestrator (.resolve id)], origin.Returns id result := by
          rintro other ⟨origin, isPast, returns⟩
          exact ⟨origin, List.mem_append_left _ isPast, returns⟩
        have invokesOnly : ∀ request, (callAt orchestrator (.resolve id)).invoked = some request →
            request.workPackageId = id := by
          intro request isInvoked
          rw [invokes] at isInvoked
          cases isInvoked
        refine ⟨⟨?_, ?_, ?_, ?_⟩, executing.of_confined confined outcome notCompleted direct
          origins invokesOnly⟩
        · intro request isInvoked
          rw [invokes] at isInvoked
          cases isInvoked
        · intro request isInvoked
          rw [invokes] at isInvoked
          cases isInvoked
        · intro request isInvoked
          rw [invokes] at isInvoked
          cases isInvoked
        · intro other notBefore completed
          exact completed_of_outcome confined outcome origins notBefore completed
      · exact idle
          (by simp [callAt, Machine.stepAt, machine, Orchestrator.resolve, recorded, awaits])

theorem step (executing : Executing graph config past orchestrator) (call : Call) :
    Permitted graph config past (callAt orchestrator call) ∧
      Executing graph config (past ++ [callAt orchestrator call])
        (callAt orchestrator call).after := by
  cases call with
  | dispatch reply => exact executing.dispatch reply
  | approve id => exact executing.approve id
  | resolve id => exact executing.resolve id

end Executing

/-- From a graph that validates and whose work packages are all proposed, every call of every
run is permitted by the calls before it, whatever the adapter returns. -/
theorem executes_safely {graph : Plan.Graph} {config : Config} {orchestrator : Orchestrator}
    (created : Orchestrator.new graph config = .ok orchestrator)
    (proposed : ∀ id wp, graph.get id = some wp → wp.state = .proposed) (calls : List Call) :
    Guarded (Permitted graph config) [] (machine.steps orchestrator calls) := by
  refine Machine.guarded_steps (Executing graph config) (fun _ => True) ?_
    (.new created proposed) (fun _ _ => trivial)
  intro past state call _ _ executing
  exact executing.step call

theorem single_executes_safely :
    Guarded (Permitted singleGraph singleConfig) [] (machine.steps singleOrchestrator
      [.dispatch (.ok { status := "succeeded" }), .resolve "wp_1", .dispatch (.error "gone")]) :=
  executes_safely (show Orchestrator.new singleGraph singleConfig = .ok singleOrchestrator from rfl)
    singleGraph_proposed _

end Aa.Kernel
