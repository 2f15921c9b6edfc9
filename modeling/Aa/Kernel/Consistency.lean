import Aa.Kernel.Orchestrator

/-!
# Consistency of the graph and the assignments

The graph state of a work package and the state of its recorded assignment have to tell
the same story. A dispatch marks the package as running before the adapter replies and
records the assignment only after intake has accepted the reply, so that a reply intake
rejects leaves a running package that nothing can resolve. This file proves that a run is
consistent exactly when no dispatch meets such a reply.

Every other call ends with the package and its assignment moved together. The invariant
also says that an assignment is recorded under its own package and that intake has seen
results of recorded packages only: a package is dispatched at most once, and its result
id is new when it is.
-/

namespace Aa.Kernel

open Aa.Library

/-- The graph state of a work package agrees with the state of its recorded assignment. -/
structure Matches (state : Plan.State) (assignment : Option Control.State) : Prop where
  running : state = .running ↔ assignment = some .awaitingGates
  completed : state = .completed ↔ assignment = some .accepted
  deficient : state = .deficient ↔ assignment = some .failed
  undispatched : (state = .proposed ∨ state = .ready) ↔ assignment = none

namespace Orchestrator

/-- The state of the recorded assignment of a work package, if there is one. -/
def assignmentState (orchestrator : Orchestrator) (id : String) : Option Control.State :=
  (orchestrator.assignments.lookup id).map (·.state)

def Consistent (orchestrator : Orchestrator) : Prop :=
  ∀ id state, orchestrator.graph.stateOf id = some state →
    Matches state (orchestrator.assignmentState id)

/-- What holds of the orchestrator between two calls of a consistent run. -/
structure Invariant (orchestrator : Orchestrator) : Prop where
  consistent : orchestrator.Consistent
  recorded : ∀ id assignment, orchestrator.assignments.lookup id = some assignment →
    (orchestrator.graph.get id).isSome ∧ assignment.workPackageId = id
  submitted : ∀ result, (orchestrator.intake.lookup result).isSome →
    ∃ id, result = resultId id ∧ (orchestrator.assignments.lookup id).isSome

end Orchestrator

open Orchestrator

/-- A result that intake accepts: its status is known, and a failed or blocked one says why. -/
def Runtime.Result.WellFormed (result : Runtime.Result) : Prop :=
  result.status ∈ Intake.statuses ∧
    ((result.status = "failed" ∨ result.status = "blocked") → result.failure.isSome)

instance (result : Runtime.Result) : Decidable result.WellFormed :=
  inferInstanceAs (Decidable (_ ∧ _))

/-- A dispatch reaches the adapter: the first ready work package has an eligible worker, and
all the capabilities it asks for or the project permits are known. -/
structure ReachesRuntime (orchestrator : Orchestrator) (wp : Plan.WorkPackage) : Prop where
  first : orchestrator.graph.ready.head? = some wp.id
  present : orchestrator.graph.get wp.id = some wp
  eligible : (orchestrator.selectWorker wp).isSome
  known : ∀ capability ∈ wp.capabilities ++ orchestrator.config.permitted,
    capability ∈ knownCapabilities

/-- A call that strands a work package: a dispatch that reaches the adapter and gets a result
that is not well formed. -/
inductive Strands (orchestrator : Orchestrator) : Call → Prop where
  | dispatch (reply : Reply) (wp : Plan.WorkPackage) (result : Runtime.Result)
      (reaches : ReachesRuntime orchestrator wp)
      (replied : run orchestrator.config reply = .ok result)
      (malformed : ¬ result.WellFormed) : Strands orchestrator (.dispatch reply)

theorem resultId_injective {left right : String} (same : resultId left = resultId right) :
    left = right := by
  have chars := congrArg String.toList same
  simpa [resultId, assignmentId, String.toList_append, String.toList_inj] using chars

theorem resultId_ne_empty (id : String) : resultId id ≠ "" := by
  intro empty
  have chars := congrArg String.toList empty
  simp [resultId, assignmentId, String.toList_append] at chars

theorem assignmentId_ne_empty (id : String) : assignmentId id ≠ "" := by
  intro empty
  have chars := congrArg String.toList empty
  simp [assignmentId, String.toList_append] at chars

theorem attemptId_ne_empty (id : String) : attemptId id ≠ "" := by
  intro empty
  have chars := congrArg String.toList empty
  simp [attemptId, String.toList_append] at chars

/-- The running assignment of a fresh dispatch. -/
theorem runningAssignment_eq (projectId : String) (wp : Plan.WorkPackage) (worker : Worker) :
    runningAssignment projectId wp worker =
      .ok { id := assignmentId wp.id, projectId := projectId, workPackageId := wp.id
            workerId := worker.id, state := .running } := rfl

namespace Orchestrator

/-- What a dispatch has put together, when it reaches the adapter. -/
structure PreparedFor (orchestrator : Orchestrator) (prepared : Prepared) : Prop where
  reaches : ∃ wp, wp.id = prepared.workPackageId ∧ ReachesRuntime orchestrator wp
  named : prepared.workPackageId ≠ ""
  undispatched : orchestrator.graph.stateOf prepared.workPackageId = some .proposed ∨
    orchestrator.graph.stateOf prepared.workPackageId = some .ready
  owner : prepared.assignment.workPackageId = prepared.workPackageId
  running : prepared.assignment.state = .running

theorem known_of_build {computeDigest : Contract → String} {request : ContractRequest}
    {contract : Contract} (built : Contract.build computeDigest request = .ok contract) :
    ∀ capability ∈ request.requested ++ request.permitted,
      capability ∈ knownCapabilities := by
  unfold Contract.build at built
  split at built
  · simp at built
  · split at built
    · simp at built
    · rename_i allKnown
      intro capability capabilityMem
      have found := List.find?_eq_none.mp allKnown capability capabilityMem
      simpa using found

theorem build_ok {computeDigest : Contract → String} {request : ContractRequest}
    (workPackage : request.workPackageId ≠ "") (assignment : request.assignmentId ≠ "")
    (known : ∀ capability ∈ request.requested ++ request.permitted,
      capability ∈ knownCapabilities) :
    ∃ contract, Contract.build computeDigest request = .ok contract := by
  have allKnown : (request.requested ++ request.permitted).find?
      (fun capability => decide (capability ∉ knownCapabilities)) = none := by
    rw [List.find?_eq_none]
    intro capability capabilityMem
    simpa using known capability capabilityMem
  unfold Contract.build
  rw [if_neg (by simp [workPackage, assignment]), allKnown]
  exact ⟨_, rfl⟩

theorem prepare_spec {orchestrator : Orchestrator} {prepared : Prepared}
    (preparedEq : orchestrator.prepare = .ok (some prepared)) :
    orchestrator.PreparedFor prepared := by
  unfold prepare at preparedEq
  split at preparedEq
  · simp at preparedEq
  · rename_i wp readyEq
    split at preparedEq
    · simp at preparedEq
    · rename_i worker selected
      split at preparedEq
      · simp at preparedEq
      · rename_i contract built
        rw [runningAssignment_eq] at preparedEq
        simp only [Except.ok.injEq, Option.some.injEq] at preparedEq
        subst preparedEq
        rcases Option.bind_eq_some_iff.mp readyEq with ⟨id, first, present⟩
        have sameId : wp.id = id := orchestrator.graph.identified id wp present
        subst sameId
        rcases Plan.Graph.mem_ready (List.mem_of_mem_head? first) with
          ⟨named, other, otherPresent, dispatchable⟩
        have same : wp = other := Option.some.inj (present.symm.trans otherPresent)
        subst same
        unfold buildContract at built
        refine ⟨⟨wp, rfl, first, present, by simp [selected], known_of_build built⟩, named, ?_,
          rfl, rfl⟩
        simpa [Plan.Graph.stateOf, present] using dispatchable

theorem prepare_of_reaches {orchestrator : Orchestrator} {wp : Plan.WorkPackage}
    (reaches : ReachesRuntime orchestrator wp) :
    ∃ prepared, orchestrator.prepare = .ok (some prepared) := by
  have named := (Plan.Graph.mem_ready (List.mem_of_mem_head? reaches.first)).1
  rcases Option.isSome_iff_exists.mp reaches.eligible with ⟨worker, selected⟩
  have built : ∃ contract, orchestrator.buildContract wp = .ok contract := by
    unfold buildContract
    exact build_ok named (assignmentId_ne_empty wp.id) reaches.known
  rcases built with ⟨contract, built⟩
  unfold prepare
  simp only [reaches.first, Option.bind_some, reaches.present, selected, built,
    runningAssignment_eq]
  exact ⟨_, rfl⟩

/-- A change that concerns one work package only, with its assignment and its result. -/
structure Touches (before after : Orchestrator) (id : String) : Prop where
  graph : ∀ other, other ≠ id → after.graph.stateOf other = before.graph.stateOf other
  present : ∀ other, (after.graph.get other).isSome = (before.graph.get other).isSome
  assignments : ∀ other, other ≠ id →
    after.assignments.lookup other = before.assignments.lookup other
  intake : ∀ result, (after.intake.lookup result).isSome →
    (before.intake.lookup result).isSome ∨ result = resultId id

namespace Touches

variable {before after : Orchestrator} {id : String}

theorem refl (orchestrator : Orchestrator) (id : String) : Touches orchestrator orchestrator id :=
  ⟨fun _ _ => rfl, fun _ => rfl, fun _ _ => rfl, fun _ seen => Or.inl seen⟩

theorem setState (touches : Touches before after id) (known : (after.graph.get id).isSome)
    (state : Plan.State) : Touches before (after.setState id state) id := by
  refine ⟨?_, ?_, touches.assignments, touches.intake⟩
  · intro other different
    rw [Orchestrator.setState, Plan.Graph.stateOf_setState known, if_neg different]
    exact touches.graph other different
  · intro other
    rw [Orchestrator.setState, Plan.Graph.get_isSome_setState]
    exact touches.present other

theorem keep (touches : Touches before after id) (assignment : Control.Assignment) :
    Touches before (after.keep id assignment) id := by
  refine ⟨touches.graph, touches.present, ?_, touches.intake⟩
  intro other different
  rw [Orchestrator.keep, AList.lookup_insert_ne different]
  exact touches.assignments other different

/-- A change of the graph, the assignments and the intake decides what is touched. -/
theorem of_eq (touches : Touches before after id) {next : Orchestrator}
    (graph : next.graph = after.graph) (assignments : next.assignments = after.assignments)
    (intake : ∀ result, (next.intake.lookup result).isSome →
      (after.intake.lookup result).isSome ∨ result = resultId id) :
    Touches before next id := by
  refine ⟨?_, ?_, ?_, ?_⟩
  · rw [graph]
    exact touches.graph
  · rw [graph]
    exact touches.present
  · rw [assignments]
    exact touches.assignments
  · intro result seen
    rcases intake result seen with earlier | new
    · exact touches.intake result earlier
    · exact Or.inr new

end Touches

/-- A change that leaves the touched work package in agreement with its assignment keeps the
invariant. -/
theorem Invariant.of_touches {before after : Orchestrator} {id : String} {state : Plan.State}
    {assignment : Control.Assignment} (invariant : before.Invariant)
    (touches : Touches before after id) (known : (before.graph.get id).isSome)
    (stateEq : after.graph.stateOf id = some state)
    (recorded : after.assignments.lookup id = some assignment)
    (owner : assignment.workPackageId = id) (agrees : Matches state (some assignment.state)) :
    after.Invariant := by
  refine ⟨?_, ?_, ?_⟩
  · intro other otherState otherEq
    by_cases same : other = id
    · subst same
      have sameState : state = otherState := Option.some.inj (stateEq.symm.trans otherEq)
      rw [← sameState, assignmentState, recorded]
      exact agrees
    · rw [touches.graph other same] at otherEq
      rw [assignmentState, touches.assignments other same]
      exact invariant.consistent other otherState otherEq
  · intro other otherAssignment lookupEq
    rw [touches.present]
    by_cases same : other = id
    · subst same
      have sameAssignment : assignment = otherAssignment :=
        Option.some.inj (recorded.symm.trans lookupEq)
      exact ⟨known, sameAssignment ▸ owner⟩
    · rw [touches.assignments other same] at lookupEq
      exact invariant.recorded other otherAssignment lookupEq
  · intro result seen
    rcases touches.intake result seen with earlier | new
    · rcases invariant.submitted result earlier with ⟨other, resultEq, otherRecorded⟩
      refine ⟨other, resultEq, ?_⟩
      by_cases same : other = id
      · rw [same, recorded]
        rfl
      · rwa [touches.assignments other same]
    · exact ⟨id, new, by rw [recorded]; rfl⟩

theorem stateOf_setState_self {orchestrator : Orchestrator} {id : String}
    (known : (orchestrator.graph.get id).isSome) (state : Plan.State) :
    (orchestrator.setState id state).graph.stateOf id = some state := by
  rw [Orchestrator.setState, Plan.Graph.stateOf_setState known, if_pos rfl]

theorem matches_running : Matches .running (some .awaitingGates) := by
  constructor <;> simp

theorem matches_completed : Matches .completed (some .accepted) := by
  constructor <;> simp

theorem matches_deficient : Matches .deficient (some .failed) := by
  constructor <;> simp

/-- Rejecting a work package fails it together with its assignment. -/
theorem Invariant.reject {before orchestrator : Orchestrator} {id : String}
    {assignment : Control.Assignment} (invariant : before.Invariant)
    (touches : Touches before orchestrator id) (known : (before.graph.get id).isSome)
    (owner : assignment.workPackageId = id) (permitted : assignment.canTransition .failed = true)
    (report : GateReport) (accepted : Bool) :
    (orchestrator.reject id assignment report accepted).2.Invariant := by
  have knownNow : (orchestrator.graph.get id).isSome := by rwa [touches.present]
  simp only [Orchestrator.reject, Control.Assignment.transitionIgnoring_eq permitted]
  refine invariant.of_touches ((touches.keep _).setState knownNow .deficient) known
    (stateOf_setState_self knownNow _) (AList.lookup_insert _) ?_ matches_deficient
  exact owner

/-- Accepting a work package completes it together with its assignment. -/
theorem Invariant.accept {before orchestrator : Orchestrator} {id : String}
    {assignment : Control.Assignment} (invariant : before.Invariant)
    (touches : Touches before orchestrator id) (known : (before.graph.get id).isSome)
    (owner : assignment.workPackageId = id)
    (permitted : assignment.canTransition .accepted = true)
    (report : GateReport) (accepted : Bool) :
    (orchestrator.accept id assignment report accepted).2.Invariant := by
  have knownNow : (orchestrator.graph.get id).isSome := by rwa [touches.present]
  subst owner
  simp only [Orchestrator.accept, Control.Assignment.transitionIgnoring_eq permitted]
  refine invariant.of_touches ?_ known (stateOf_setState_self knownNow .completed)
    (AList.lookup_insert _) ?_ matches_completed
  · exact ((touches.keep _).setState knownNow .completed).of_eq rfl rfl
      (fun _ seen => Or.inl seen)
  · rfl

/-- Settling an assignment that awaits its gates leaves it awaiting, accepted or failed, and
the work package with it. -/
theorem Invariant.settle {before orchestrator : Orchestrator} {id : String}
    {assignment : Control.Assignment} (invariant : before.Invariant)
    (touches : Touches before orchestrator id) (known : (before.graph.get id).isSome)
    (owner : assignment.workPackageId = id) (awaiting : assignment.state = .awaitingGates)
    (stateEq : orchestrator.graph.stateOf id = some .running)
    (recorded : orchestrator.assignments.lookup id = some assignment)
    (report : GateReport) (onPass otherwise : Bool) :
    (orchestrator.settle id assignment report onPass otherwise).2.Invariant := by
  unfold Orchestrator.settle
  split
  · exact invariant.accept touches known owner
      (by simp [Control.Assignment.canTransition, awaiting, Control.transitions]) report onPass
  · split
    · exact invariant.of_touches touches known stateEq recorded owner
        (awaiting ▸ matches_running)
    · exact invariant.reject touches known owner
        (by simp [Control.Assignment.canTransition, awaiting, Control.transitions]) report
        otherwise

theorem submit_spec (hashResult : Runtime.Result → String) {seen : Intake.Service}
    (submitted : Intake.Result) (ids : submitted.id ≠ "" ∧ submitted.attemptId ≠ "" ∧
      submitted.assignmentId ≠ "" ∧ submitted.workPackageId ≠ "")
    (new : seen.lookup submitted.id = none) :
    (submitted.result.WellFormed ∧ ∃ hash, Intake.submit hashResult seen submitted =
        (.ok true, seen.insert submitted.id hash)) ∨
      (¬ submitted.result.WellFormed ∧ ∃ error,
        Intake.submit hashResult seen submitted = (.error error, seen)) := by
  unfold Intake.submit
  rw [if_neg (by simp [ids])]
  by_cases status : submitted.result.status ∈ Intake.statuses
  · rw [if_neg (by simpa using status)]
    by_cases explained : (submitted.result.status = "failed" ∨
        submitted.result.status = "blocked") → submitted.result.failure.isSome
    · left
      rw [if_neg (by simpa [Option.isSome_iff_ne_none] using explained)]
      simp only [new]
      exact ⟨⟨status, explained⟩, _, rfl⟩
    · right
      rw [if_pos (by simpa [Option.isSome_iff_ne_none] using explained)]
      exact ⟨fun wellFormed => explained wellFormed.2, _, rfl⟩
  · right
    rw [if_pos (by simpa using status)]
    exact ⟨fun wellFormed => status wellFormed.1, _, rfl⟩

theorem submit_fresh {orchestrator : Orchestrator} (invariant : orchestrator.Invariant)
    {id : String} (undispatched : orchestrator.assignments.lookup id = none) :
    orchestrator.intake.lookup (resultId id) = none := by
  by_contra seen
  rcases invariant.submitted _ (Option.isSome_iff_ne_none.mpr seen) with
    ⟨other, resultEq, recorded⟩
  rw [← resultId_injective resultEq, undispatched] at recorded
  simp at recorded

/-- Concluding a dispatch keeps the invariant when the reply is an error or well formed, and
changes nothing but what the start of the dispatch changed otherwise. -/
theorem Invariant.conclude {before orchestrator : Orchestrator} {prepared : Prepared}
    (invariant : before.Invariant)
    (touches : Touches before orchestrator prepared.workPackageId)
    (known : (before.graph.get prepared.workPackageId).isSome)
    (named : prepared.workPackageId ≠ "")
    (owner : prepared.assignment.workPackageId = prepared.workPackageId)
    (running : prepared.assignment.state = .running)
    (stateEq : orchestrator.graph.stateOf prepared.workPackageId = some .running)
    (fresh : orchestrator.intake.lookup (resultId prepared.workPackageId) = none)
    (reply : Reply) :
    ((∀ result, reply = .ok result → result.WellFormed) ∧
        (orchestrator.conclude prepared reply).2.Invariant) ∨
      ((∃ result, reply = .ok result ∧ ¬ result.WellFormed) ∧
        (orchestrator.conclude prepared reply).2.graph = orchestrator.graph ∧
        (orchestrator.conclude prepared reply).2.assignments = orchestrator.assignments) := by
  cases reply with
  | error message =>
      left
      refine ⟨by simp, ?_⟩
      exact invariant.reject touches known owner
        (by simp [Control.Assignment.canTransition, running, Control.transitions]) {} false
  | ok result =>
      have collecting : prepared.assignment.transition .collecting =
          .ok { prepared.assignment with state := .collecting } :=
        Control.Assignment.transition_eq_ok
          (by simp [Control.Assignment.canTransition, running, Control.transitions])
      simp only [Orchestrator.conclude, collecting, reported]
      rcases submit_spec (fun result => orchestrator.config.hashing.sha256Hex
          (orchestrator.config.hashing.resultJSON result))
          (submission prepared.workPackageId result)
          ⟨resultId_ne_empty _, attemptId_ne_empty _, assignmentId_ne_empty _, named⟩ fresh with
        ⟨wellFormed, hash, submitted⟩ | ⟨malformed, error, submitted⟩
      · left
        refine ⟨fun other otherEq => (Except.ok.inj otherEq) ▸ wellFormed, ?_⟩
        simp only [submitted]
        have recorded : ∀ assignment : Control.Assignment, Touches before
            (({ orchestrator with
              intake := orchestrator.intake.insert (submission prepared.workPackageId result).id hash
              results := orchestrator.results.insert prepared.workPackageId result }.keep
                prepared.workPackageId assignment).recordTelemetry assignment result)
            prepared.workPackageId := by
          intro assignment
          refine (touches.keep assignment).of_eq rfl rfl ?_
          intro other seen
          by_cases same : other = resultId prepared.workPackageId
          · exact Or.inr same
          · left
            simpa [Orchestrator.recordTelemetry, Orchestrator.keep, submission,
              AList.lookup_insert_ne same] using seen
        split
        · dsimp only
          refine invariant.reject (recorded _) known ?_ ?_ _ true
          · exact owner
          · simp [Control.Assignment.canTransition, Control.transitions]
        · have awaiting : Control.Assignment.transition
              { prepared.assignment with state := .collecting } .awaitingGates =
              .ok { prepared.assignment with state := .awaitingGates } :=
            Control.Assignment.transition_eq_ok
              (by simp [Control.Assignment.canTransition, Control.transitions])
          simp only [awaiting]
          refine invariant.settle ((recorded _).keep _) known ?_ ?_ stateEq
            (AList.lookup_insert _) _ _ _
          · exact owner
          · rfl
      · right
        refine ⟨⟨result, rfl, malformed⟩, ?_⟩
        simp only [submitted]
        exact ⟨trivial, trivial⟩

theorem Invariant.undispatched {orchestrator : Orchestrator} (invariant : orchestrator.Invariant)
    {id : String} (dispatchable : orchestrator.graph.stateOf id = some .proposed ∨
      orchestrator.graph.stateOf id = some .ready) :
    orchestrator.assignments.lookup id = none := by
  have absent : orchestrator.assignmentState id = none := by
    rcases dispatchable with stateEq | stateEq
    · exact (invariant.consistent id _ stateEq).undispatched.mp (Or.inl rfl)
    · exact (invariant.consistent id _ stateEq).undispatched.mp (Or.inr rfl)
  simpa [assignmentState] using absent

theorem get_isSome_of_stateOf {graph : Plan.Graph} {id : String} {state : Plan.State}
    (stateEq : graph.stateOf id = some state) : (graph.get id).isSome := by
  cases present : graph.get id with
  | none => simp [Plan.Graph.stateOf, present] at stateEq
  | some wp => rfl

theorem touches_start (orchestrator : Orchestrator) (prepared : Prepared)
    (known : (orchestrator.graph.get prepared.workPackageId).isSome) :
    Touches orchestrator (orchestrator.start prepared) prepared.workPackageId := by
  have read : Touches orchestrator { orchestrator with readings := orchestrator.readings + 1 }
      prepared.workPackageId :=
    (Touches.refl orchestrator _).of_eq rfl rfl (fun _ seen => Or.inl seen)
  exact (read.setState known .running).of_eq rfl rfl (fun _ seen => Or.inl seen)

theorem stateOf_start (orchestrator : Orchestrator) (prepared : Prepared)
    (known : (orchestrator.graph.get prepared.workPackageId).isSome) :
    (orchestrator.start prepared).graph.stateOf prepared.workPackageId = some .running :=
  (Plan.Graph.stateOf_setState known .running _).trans (if_pos rfl)

/-- A dispatch keeps the invariant, or it strands a work package and ends inconsistent. -/
theorem Invariant.dispatch {orchestrator : Orchestrator} (invariant : orchestrator.Invariant)
    (reply : Reply) :
    (¬ Strands orchestrator (.dispatch reply) ∧ (orchestrator.dispatch reply).2.Invariant) ∨
      (Strands orchestrator (.dispatch reply) ∧
        ¬ (orchestrator.dispatch reply).2.Consistent) := by
  cases preparedEq : orchestrator.prepare with
  | error message =>
      left
      refine ⟨?_, by simpa [Orchestrator.dispatch, preparedEq] using invariant⟩
      rintro ⟨_, wp, result, reaches, _, _⟩
      rcases prepare_of_reaches reaches with ⟨prepared, prepareEq⟩
      simp [prepareEq] at preparedEq
  | ok outcome =>
      cases outcome with
      | none =>
          left
          refine ⟨?_, by simpa [Orchestrator.dispatch, preparedEq] using invariant⟩
          rintro ⟨_, wp, result, reaches, _, _⟩
          rcases prepare_of_reaches reaches with ⟨prepared, prepareEq⟩
          simp [prepareEq] at preparedEq
      | some prepared =>
          have spec := prepare_spec preparedEq
          have known : (orchestrator.graph.get prepared.workPackageId).isSome := by
            rcases spec.undispatched with stateEq | stateEq
            · exact get_isSome_of_stateOf stateEq
            · exact get_isSome_of_stateOf stateEq
          have absent := invariant.undispatched spec.undispatched
          have started := stateOf_start orchestrator prepared known
          have nextEq : (orchestrator.dispatch reply).2 =
              ((orchestrator.start prepared).conclude prepared
                (run orchestrator.config reply)).2 := by
            simp [Orchestrator.dispatch, preparedEq]
          rw [nextEq]
          rcases invariant.conclude (touches_start orchestrator prepared known) known spec.named
            spec.owner spec.running started (submit_fresh invariant absent)
            (run orchestrator.config reply) with
            ⟨wellFormed, kept⟩ | ⟨⟨result, replied, malformed⟩, graphEq, assignmentsEq⟩
          · left
            refine ⟨?_, kept⟩
            rintro ⟨_, wp, result, _, replied, malformed⟩
            exact malformed (wellFormed result replied)
          · right
            rcases spec.reaches with ⟨wp, sameId, reaches⟩
            refine ⟨.dispatch reply wp result reaches replied malformed, ?_⟩
            intro consistent
            have agrees := consistent prepared.workPackageId .running
              (by rw [graphEq]; exact started)
            have stranded : (orchestrator.start prepared).assignments.lookup
                prepared.workPackageId = none := absent
            rw [assignmentState, assignmentsEq, stranded] at agrees
            exact absurd (agrees.running.mp rfl) (by simp)

theorem Invariant.approve {orchestrator : Orchestrator} (invariant : orchestrator.Invariant)
    (workPackageId : String) : (orchestrator.approve workPackageId).Invariant :=
  ⟨invariant.consistent, invariant.recorded, invariant.submitted⟩

theorem Invariant.resolve {orchestrator : Orchestrator} (invariant : orchestrator.Invariant)
    (workPackageId : String) : (orchestrator.resolve workPackageId).2.Invariant := by
  unfold Orchestrator.resolve
  split
  · exact invariant
  · rename_i assignment recorded
    split
    · exact invariant
    · rename_i awaits
      have awaiting : assignment.state = .awaitingGates := by simpa using awaits
      rcases invariant.recorded workPackageId assignment recorded with ⟨known, owner⟩
      rcases Option.isSome_iff_exists.mp known with ⟨wp, present⟩
      have stateEq : orchestrator.graph.stateOf workPackageId = some wp.state := by
        simp [Plan.Graph.stateOf, present]
      have running : wp.state = .running := by
        refine (invariant.consistent workPackageId wp.state stateEq).running.mpr ?_
        simp [assignmentState, recorded, awaiting]
      rw [running] at stateEq
      exact invariant.settle (Touches.refl _ _) known owner awaiting stateEq recorded _ _ _

/-- A call keeps the invariant, or it strands a work package and ends inconsistent. -/
theorem Invariant.step {orchestrator : Orchestrator} (invariant : orchestrator.Invariant)
    (call : Call) :
    (¬ Strands orchestrator call ∧ (machine.step orchestrator call).1.Invariant) ∨
      (Strands orchestrator call ∧ ¬ (machine.step orchestrator call).1.Consistent) := by
  cases call with
  | dispatch reply => exact invariant.dispatch reply
  | approve workPackageId =>
      exact Or.inl ⟨(nomatch ·), invariant.approve workPackageId⟩
  | resolve workPackageId =>
      exact Or.inl ⟨(nomatch ·), invariant.resolve workPackageId⟩

theorem Invariant.new {graph : Plan.Graph} {config : Config} {orchestrator : Orchestrator}
    (created : Orchestrator.new graph config = .ok orchestrator)
    (proposed : ∀ id wp, graph.get id = some wp → wp.state = .proposed) :
    orchestrator.Invariant := by
  unfold Orchestrator.new at created
  split at created
  · simp at created
  · cases created
    refine ⟨?_, by simp, by simp⟩
    intro id state stateEq
    rcases Option.map_eq_some_iff.mp stateEq with ⟨wp, present, rfl⟩
    rw [proposed id wp present]
    constructor <;> simp [assignmentState]

theorem Invariant.consistent_steps_iff {orchestrator : Orchestrator}
    (invariant : orchestrator.Invariant) (calls : List Call) :
    (∀ step ∈ machine.steps orchestrator calls, step.after.Consistent) ↔
      ∀ step ∈ machine.steps orchestrator calls, ¬ Strands step.before step.input := by
  induction calls generalizing orchestrator with
  | nil => simp
  | cons call rest ih =>
      simp only [Machine.steps_cons, List.forall_mem_cons]
      rcases invariant.step call with ⟨safe, kept⟩ | ⟨strands, inconsistent⟩
      · rw [ih kept]
        exact ⟨fun holds => ⟨safe, holds.2⟩, fun holds => ⟨kept.consistent, holds.2⟩⟩
      · exact ⟨fun holds => absurd holds.1 inconsistent, fun holds => absurd strands holds.1⟩

end Orchestrator

/-- From a graph that validates and whose work packages are all proposed, the orchestrator is
consistent after every call of a run exactly when no call of it strands a work package. -/
theorem consistent_iff_nothing_stranded {graph : Plan.Graph} {config : Config}
    {orchestrator : Orchestrator} (created : Orchestrator.new graph config = .ok orchestrator)
    (proposed : ∀ id wp, graph.get id = some wp → wp.state = .proposed) (calls : List Call) :
    (∀ step ∈ machine.steps orchestrator calls, step.after.Consistent) ↔
      ∀ step ∈ machine.steps orchestrator calls, ¬ Strands step.before step.input :=
  (Orchestrator.Invariant.new created proposed).consistent_steps_iff calls

/-- A graph with one proposed work package. -/
def singleGraph : Plan.Graph where
  projectId := "prj_1"
  id := "gph_1"
  nodes := (∅ : GoMap String Plan.WorkPackage).insert "wp_1"
    { id := "wp_1", capabilities := ["run_tests"], state := .proposed }
  order := ["wp_1"]
  ordered := by
    intro id
    rw [AList.mem_insert]
    simp
  named := by simp
  identified := by
    intro id wp found
    by_cases same : id = "wp_1"
    · rw [same, AList.lookup_insert] at found
      rw [same, ← Option.some.inj found]
    · rw [AList.lookup_insert_ne same] at found
      simp at found

/-- JSON and SHA-256 on the contract and the context of that work package. -/
def singleHashing : Hashing where
  contractJSON _ :=
    "\x7b\"id\":\"ec_asg_wp_1\",\"projectId\":\"prj_1\",\"workPackageId\":\"wp_1\",\"as" ++
      "signmentId\":\"asg_wp_1\",\"capabilities\":[\"run_tests\"],\"denied\":nul" ++
      "l,\"runtime\":\x7b\"kind\":\"runtime\"\x7d,\"budget\":\x7b\x7d,\"digest\":\"\"\x7d"
  resultJSON _ := ""
  sha256Hex text :=
    if text = "prj_1\x00wp_1\x008000\n" then
      "a3e5263ac4c770c78dca939d7ea3d8c67cab1b90add37ae43879333ebc37e09e"
    else "1b5fb1818386b6a3c6e742f6e679c73cf8e895376086db02d4d1ae529a1eff86"

def singleConfig : Config where
  registry :=
    { workers := (∅ : GoMap String Worker).insert "w_1"
        { id := "w_1", trade := "backend", capabilities := ["run_tests"], available := true } }
  permitted := ["run_tests"]
  enabled := true
  leaseTTL := 60000000000
  now _ := 0
  hashing := singleHashing

def singleOrchestrator : Orchestrator := { graph := singleGraph, config := singleConfig }

theorem singleGraph_proposed (id : String) (wp : Plan.WorkPackage)
    (present : singleGraph.get id = some wp) : wp.state = .proposed := by
  simp only [Plan.Graph.get, singleGraph] at present
  by_cases same : id = "wp_1"
  · rw [same, AList.lookup_insert] at present
    rw [← Option.some.inj present]
  · rw [AList.lookup_insert_ne same] at present
    simp at present

/-- A failed result without a failure leaves its work package running without an assignment. -/
theorem unexplained_failure_strands :
    ¬ ∀ (graph : Plan.Graph) (config : Config) (orchestrator : Orchestrator),
      Orchestrator.new graph config = .ok orchestrator →
      (∀ id wp, graph.get id = some wp → wp.state = .proposed) → ∀ calls : List Call,
      ∀ step ∈ machine.steps orchestrator calls, step.after.Consistent := by
  intro consistent
  have after := consistent singleGraph singleConfig singleOrchestrator rfl singleGraph_proposed
    [.dispatch (.ok { status := "failed" })] _ (List.mem_cons_self ..) "wp_1" .running rfl
  have stranded := after.running.mp rfl
  revert stranded
  decide

theorem single_consistent_iff :
    (∀ step ∈ machine.steps singleOrchestrator [.dispatch (.ok { status := "failed" })],
        step.after.Consistent) ↔
      ∀ step ∈ machine.steps singleOrchestrator [.dispatch (.ok { status := "failed" })],
        ¬ Strands step.before step.input :=
  consistent_iff_nothing_stranded
    (show Orchestrator.new singleGraph singleConfig = .ok singleOrchestrator from rfl)
    singleGraph_proposed _

end Aa.Kernel
