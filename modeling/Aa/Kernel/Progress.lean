import Aa.Kernel.Execution
import Aa.Kernel.GraphOrder

/-!
# What a dispatch makes of the ready work

A dispatch tries the first ready work package only. It starts that package exactly if a worker
is eligible for it and its contract can be built, and is an error that changes nothing
otherwise, whatever other packages are ready.
-/

namespace Aa.Kernel

open Aa.Library

/-- A worker that meets what a work package needs. -/
structure Eligible (wp : Plan.WorkPackage) (worker : Worker) : Prop where
  available : worker.available = true
  trade : wp.trade ≠ "" → worker.trade = wp.trade
  capabilities : ∀ capability ∈ wp.capabilities, capability ∈ worker.capabilities

/-- A work package that a worker is eligible for and whose contract can be built. -/
structure Dispatchable (orchestrator : Orchestrator) (wp : Plan.WorkPackage) : Prop where
  worker : ∃ id worker, orchestrator.config.registry.workers.lookup id = some worker ∧
    Eligible wp worker
  contract : ∃ contract, orchestrator.buildContract wp = .ok contract

/-- The call announces that the execution of a work package has started. -/
def Moment.Starts (moment : Moment) (id : String) : Prop :=
  ∃ event later, moment.after.events = moment.before.events ++ event :: later ∧
    event.eventType = "EXECUTION_STARTED" ∧ ("workPackageId", id) ∈ event.payload

/-! ## Workers -/

theorem sortStrings_eq_nil_iff {values : List String} : Go.sortStrings values = [] ↔ values = [] := by
  rw [← List.length_eq_zero_iff, (Go.sortStrings_perm values).length_eq, List.length_eq_zero_iff]

theorem rejection_isNone_iff {wp : Plan.WorkPackage} {worker : Worker} :
    (Registry.rejection { trade := wp.trade, capabilities := wp.capabilities } worker).isNone ↔
      Eligible wp worker := by
  unfold Registry.rejection
  by_cases available : worker.available = true
  · rw [if_neg (by simp [available])]
    by_cases mismatch : wp.trade ≠ "" ∧ worker.trade ≠ wp.trade
    · rw [if_pos mismatch]
      exact ⟨by simp, fun eligible => absurd (eligible.trade mismatch.1) mismatch.2⟩
    · rw [if_neg mismatch, if_neg (by simp)]
      have trade : wp.trade ≠ "" → worker.trade = wp.trade := fun asked => by
        by_contra differs
        exact mismatch ⟨asked, differs⟩
      have missing : missingCapabilities worker.capabilities wp.capabilities = [] ↔
          ∀ capability ∈ wp.capabilities, capability ∈ worker.capabilities := by
        rw [missingCapabilities, sortStrings_eq_nil_iff, List.filter_eq_nil_iff]
        simp
      by_cases isMissing : missingCapabilities worker.capabilities wp.capabilities = []
      · simp only [isMissing, ne_eq, not_true_eq_false, if_false, Option.isNone_none, true_iff]
        exact ⟨available, trade, missing.mp isMissing⟩
      · simp only [isMissing, ne_eq, not_false_eq_true, if_true, Option.isNone_some, Bool.false_eq_true,
          false_iff]
        exact fun eligible => isMissing (missing.mpr eligible.capabilities)
  · rw [if_pos (by simpa using available)]
    exact ⟨by simp, fun eligible => absurd eligible.available available⟩

theorem mem_registry_list {registry : Registry} {worker : Worker} :
    worker ∈ registry.list ↔ ∃ id, registry.workers.lookup id = some worker := by
  rw [Registry.list, List.mem_insertionSort, List.mem_map]
  constructor
  · rintro ⟨⟨id, held⟩, isEntry, rfl⟩
    exact ⟨id, AList.mem_lookup_iff.mpr isEntry⟩
  · rintro ⟨id, isWorker⟩
    exact ⟨⟨id, worker⟩, AList.mem_lookup_iff.mp isWorker, rfl⟩

theorem selectWorker_isSome_iff {orchestrator : Orchestrator} {wp : Plan.WorkPackage} :
    (orchestrator.selectWorker wp).isSome ↔ ∃ id worker,
      orchestrator.config.registry.workers.lookup id = some worker ∧ Eligible wp worker := by
  rw [Orchestrator.selectWorker, Registry.selectOne, Option.isSome_map, List.isSome_head?,
    Registry.select, ← List.isEmpty_eq_false_iff, List.isEmpty_eq_false_iff_exists_mem]
  constructor
  · rintro ⟨candidate, isCandidate⟩
    rw [List.mem_insertionSort, List.mem_map] at isCandidate
    rcases isCandidate with ⟨worker, isAccepted, -⟩
    rcases List.mem_filter.mp isAccepted with ⟨isListed, accepted⟩
    rcases mem_registry_list.mp isListed with ⟨id, isWorker⟩
    exact ⟨id, worker, isWorker, rejection_isNone_iff.mp accepted⟩
  · rintro ⟨id, worker, isWorker, eligible⟩
    refine ⟨⟨worker, ["eligible"]⟩, ?_⟩
    rw [List.mem_insertionSort, List.mem_map]
    exact ⟨worker, List.mem_filter.mpr ⟨mem_registry_list.mpr ⟨id, isWorker⟩,
      rejection_isNone_iff.mpr eligible⟩, rfl⟩

/-! ## Events -/

namespace Orchestrator

/-- What follows only adds events. -/
def Appends (before after : Orchestrator) : Prop :=
  ∃ later, after.events = before.events ++ later

variable {before after orchestrator : Orchestrator}

theorem Appends.of_same (same : after.events = before.events) : Appends before after :=
  ⟨[], by rw [same, List.append_nil]⟩

theorem Appends.emit (same : after.events = before.events) (eventType : String)
    (payload : List (String × String)) : Appends before (after.emit eventType payload) := by
  refine ⟨[⟨after.sequence + 1, eventType, payload⟩], ?_⟩
  rw [← same]
  rfl

theorem appends_accept (same : after.events = before.events) (id : String)
    (assignment : Control.Assignment) (report : GateReport) (accepted : Bool) :
    Appends before (after.accept id assignment report accepted).2 :=
  .emit (by exact same) _ _

theorem appends_reject (same : after.events = before.events) (id : String)
    (assignment : Control.Assignment) (report : GateReport) (accepted : Bool) :
    Appends before (after.reject id assignment report accepted).2 :=
  .of_same same

theorem appends_settle (same : after.events = before.events) (id : String)
    (assignment : Control.Assignment) (report : GateReport) (onPass otherwise : Bool) :
    Appends before (after.settle id assignment report onPass otherwise).2 := by
  unfold settle
  split
  · exact appends_accept same id assignment report onPass
  · split
    · exact .of_same same
    · exact appends_reject same id assignment report otherwise

/-- After the adapter has replied, events are only added. -/
theorem appends_conclude (orchestrator : Orchestrator) (prepared : Prepared) (reply : Reply) :
    Appends orchestrator (orchestrator.conclude prepared reply).2 := by
  cases reply with
  | error message =>
      exact appends_reject rfl prepared.workPackageId prepared.assignment {} false
  | ok result =>
      cases collecting : prepared.assignment.transition .collecting with
      | error error =>
          simp only [conclude, collecting]
          exact .of_same rfl
      | ok assignment =>
          simp only [conclude, collecting, reported]
          split
          · exact .of_same rfl
          · split
            · exact appends_reject rfl prepared.workPackageId assignment {} false
            · split
              · exact .of_same rfl
              · exact appends_settle rfl _ _ _ _ _

end Orchestrator

/-! ## Progress -/

section Progress

variable {orchestrator : Orchestrator} {wp : Plan.WorkPackage} {id : String} {rest : List String}

/-- The first ready work package reaches the adapter exactly if it can be dispatched. -/
theorem reachesRuntime_iff (isReady : orchestrator.graph.ready = id :: rest)
    (isWp : orchestrator.graph.get id = some wp) :
    ReachesRuntime orchestrator wp ↔ Dispatchable orchestrator wp := by
  have sameId : wp.id = id := orchestrator.graph.identified id wp isWp
  constructor
  · intro reaches
    have named := (Plan.Graph.mem_ready (List.mem_of_mem_head? reaches.first)).1
    refine ⟨selectWorker_isSome_iff.mp reaches.eligible, ?_⟩
    unfold Orchestrator.buildContract
    exact Orchestrator.build_ok named (assignmentId_ne_empty wp.id) reaches.known
  · intro dispatchable
    rcases dispatchable.contract with ⟨contract, built⟩
    unfold Orchestrator.buildContract at built
    refine ⟨by rw [isReady, sameId]; rfl, by rwa [sameId],
      selectWorker_isSome_iff.mpr dispatchable.worker, ?_⟩
    exact Orchestrator.known_of_build built

theorem events_start (orchestrator : Orchestrator) (prepared : Prepared) :
    ∃ event, (orchestrator.start prepared).events = orchestrator.events ++ [event] ∧
      event.eventType = "EXECUTION_STARTED" ∧
      ("workPackageId", prepared.workPackageId) ∈ event.payload :=
  ⟨_, rfl, rfl, List.mem_cons_self⟩

theorem starts_of_prepared {prepared : Prepared} (reply : Reply)
    (preparedEq : orchestrator.prepare = .ok (some prepared)) :
    (callAt orchestrator (.dispatch reply)).Starts prepared.workPackageId := by
  rcases Orchestrator.appends_conclude (orchestrator.start prepared) prepared
    (Orchestrator.run orchestrator.config reply) with ⟨later, isLater⟩
  rcases events_start orchestrator prepared with ⟨event, isEvent, isStart, names⟩
  refine ⟨event, later, ?_, isStart, names⟩
  have after : (callAt orchestrator (.dispatch reply)).after =
      ((orchestrator.start prepared).conclude prepared
        (Orchestrator.run orchestrator.config reply)).2 := by
    simp [callAt, Machine.stepAt, machine, Orchestrator.dispatch, preparedEq]
  rw [after, isLater, isEvent, List.append_assoc]
  rfl

theorem prepare_of_not_dispatchable (isReady : orchestrator.graph.ready = id :: rest)
    (isWp : orchestrator.graph.get id = some wp) (cannot : ¬ Dispatchable orchestrator wp) :
    ∃ message, orchestrator.prepare = .error message := by
  unfold Orchestrator.prepare
  rw [isReady, List.head?_cons, Option.bind_some, isWp]
  simp only
  cases selected : orchestrator.selectWorker wp with
  | none => exact ⟨_, rfl⟩
  | some worker =>
      cases built : orchestrator.buildContract wp with
      | error message => exact ⟨message, rfl⟩
      | ok contract =>
          have isSelected : (orchestrator.selectWorker wp).isSome := by simp [selected]
          exact absurd ⟨selectWorker_isSome_iff.mp isSelected, contract, built⟩ cannot

/-- A call that changes nothing starts nothing. -/
theorem not_starts_of_same {moment : Moment} (same : moment.after = moment.before) :
    ¬ moment.Starts id := by
  rintro ⟨event, later, isLater, -, -⟩
  rw [same] at isLater
  have length := congrArg List.length isLater
  rw [List.length_append, List.length_cons] at length
  omega

/-- A dispatch starts the ready work package of the least id exactly if it can be dispatched, and
is an error that changes nothing otherwise. -/
theorem dispatch_first_ready (orchestrator : Orchestrator) (reply : Reply) {id : String}
    {rest : List String} (isReady : orchestrator.graph.ready = id :: rest) :
    (∀ other ∈ rest, id ≤ other) ∧ ∃ wp, orchestrator.graph.get id = some wp ∧
      ((callAt orchestrator (.dispatch reply)).Starts id ↔ Dispatchable orchestrator wp) ∧
      (¬ Dispatchable orchestrator wp →
        (callAt orchestrator (.dispatch reply)).after = orchestrator ∧
        ∃ message, (callAt orchestrator (.dispatch reply)).output = .error message) := by
  have isFirst : id ∈ orchestrator.graph.ready := isReady ▸ List.mem_cons_self
  have sorted : orchestrator.graph.ready.Pairwise (· ≤ ·) := List.pairwise_insertionSort _ _
  rw [isReady] at sorted
  rcases (Plan.Graph.mem_ready isFirst).2 with ⟨wp, isWp, -⟩
  have idle : ¬ Dispatchable orchestrator wp →
      (callAt orchestrator (.dispatch reply)).after = orchestrator ∧
        ∃ message, (callAt orchestrator (.dispatch reply)).output = .error message := by
    intro cannot
    rcases prepare_of_not_dispatchable isReady isWp cannot with ⟨message, isError⟩
    simp [callAt, Machine.stepAt, machine, Orchestrator.dispatch, isError]
  refine ⟨fun other isOther => List.rel_of_pairwise_cons sorted isOther, wp, isWp,
    ⟨fun starts => ?_, fun dispatchable => ?_⟩, idle⟩
  · by_contra cannot
    exact not_starts_of_same (idle cannot).1 starts
  · have reaches := (reachesRuntime_iff isReady isWp).mpr dispatchable
    rcases Orchestrator.prepare_of_reaches reaches with ⟨prepared, preparedEq⟩
    rcases (Orchestrator.prepare_spec preparedEq).reaches with ⟨other, sameId, otherReaches⟩
    have isFirstId : some id = some other.id := by
      rw [← otherReaches.first, isReady]
      rfl
    rw [Option.some.inj isFirstId, sameId]
    exact starts_of_prepared reply preparedEq

end Progress

theorem single_first_ready :
    (∀ other ∈ ([] : List String), "wp_1" ≤ other) ∧
      ∃ wp, singleOrchestrator.graph.get "wp_1" = some wp ∧
        ((callAt singleOrchestrator (.dispatch (.error "gone"))).Starts "wp_1" ↔
          Dispatchable singleOrchestrator wp) ∧
        (¬ Dispatchable singleOrchestrator wp →
          (callAt singleOrchestrator (.dispatch (.error "gone"))).after = singleOrchestrator ∧
          ∃ message, (callAt singleOrchestrator (.dispatch (.error "gone"))).output =
            .error message) :=
  dispatch_first_ready singleOrchestrator (.error "gone") (by decide +kernel)

/-- Two ready packages, of which the first one has no eligible worker. -/
def tradesGraph : Plan.Graph :=
  ((Plan.Graph.new "prj_1" "gph_1").addAll
    [{ id := "wp_a", trade := "mobile" }, { id := "wp_b", trade := "backend" }]).toOption.getD
      (Plan.Graph.new "prj_1" "gph_1")

def tradesOrchestrator : Orchestrator := { graph := tradesGraph, config := singleConfig }

theorem built_tradesGraph : tradesGraph.Built := by
  cases adds : (Plan.Graph.new "prj_1" "gph_1").addAll
      [{ id := "wp_a", trade := "mobile" }, { id := "wp_b", trade := "backend" }] with
  | error message =>
      rw [tradesGraph, adds]
      exact .new "prj_1" "gph_1"
  | ok graph =>
      rw [tradesGraph, adds]
      exact (Plan.Graph.Built.new "prj_1" "gph_1").addAll adds

theorem created_tradesOrchestrator :
    Orchestrator.new tradesGraph singleConfig = .ok tradesOrchestrator := by
  have valid : tradesGraph.validate = .ok () := by decide +kernel
  rw [Orchestrator.new, valid]
  rfl

/-- A package that could be dispatched waits for another one that cannot. -/
theorem dispatch_stuck :
    ¬ ∀ (graph : Plan.Graph) (config : Config) (start : Orchestrator) (calls : List Call)
      (reply : Reply), graph.Built → Orchestrator.new graph config = .ok start →
      (∃ id ∈ (machine.run start calls).graph.ready, ∃ wp,
        (machine.run start calls).graph.get id = some wp ∧
          Dispatchable (machine.run start calls) wp) →
      ∃ id, (callAt (machine.run start calls) (.dispatch reply)).Starts id := by
  intro progress
  have isReady : "wp_b" ∈ tradesOrchestrator.graph.ready := by decide +kernel
  have isWp : tradesOrchestrator.graph.get "wp_b" =
      some { id := "wp_b", trade := "backend", state := .proposed } := by decide +kernel
  have dispatchable : Dispatchable tradesOrchestrator
      { id := "wp_b", trade := "backend", state := .proposed } := by
    refine ⟨⟨"w_1", _, rfl, rfl, fun _ => rfl, by simp⟩, ?_⟩
    unfold Orchestrator.buildContract
    refine Orchestrator.build_ok ?_ (assignmentId_ne_empty _) ?_
    · decide
    · intro capability isPermitted
      have isTests : capability = "run_tests" := by
        simpa [tradesOrchestrator, singleConfig] using isPermitted
      rw [isTests]
      decide
  rcases progress tradesGraph singleConfig tradesOrchestrator [] (.error "gone") built_tradesGraph
    created_tradesOrchestrator ⟨"wp_b", isReady, _, isWp, dispatchable⟩ with
    ⟨id, event, later, isLater, -, -⟩
  have silent : (callAt tradesOrchestrator (.dispatch (.error "gone"))).after.events.length = 0 := by
    decide +kernel
  have length := congrArg List.length isLater
  rw [List.length_append, List.length_cons] at length
  exact absurd (silent.symm.trans length) (by omega)

end Aa.Kernel
