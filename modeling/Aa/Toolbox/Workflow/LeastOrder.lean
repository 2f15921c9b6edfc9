import Aa.Library.Each
import Aa.Toolbox.Workflow.Order

/-!
# What the compiler accepts, and the order it finds

A workflow compiles exactly if its contract holds, its tool and gate steps are complete and its
dependencies name other steps without a cycle. The order of the plan is then the least
topological one, and like the table of dependencies it does not depend on how steps and
dependencies are listed.
-/

namespace Aa.Toolbox.Workflow

open Aa.Library Aa.Contracts Aa.Toolbox

/-! ## The contract -/

/-- An identifier that the contract accepts. -/
def ValidIdentifier (value : String) : Prop :=
  value ≠ "" ∧ V1.byteLength value ≤ 256 ∧ V1.matchesIdentifier value = true

/-- The contract of one step. -/
structure StepContract (step : WorkflowStep) : Prop where
  id : ValidIdentifier step.id
  kind : step.kind ∈ ["task", "tool", "gate", "human_approval", "parallel", "conditional"]
  onFailure : step.onFailure = "" ∨
    step.onFailure ∈ ["fail", "retry", "skip", "compensate"]

/-- The contract of a workflow. -/
structure Contract (workflow : Toolbox.Workflow) : Prop where
  kind : workflow.kind = "workflow"
  envelope : workflow.toEnvelope.validate = .ok ()
  version : workflow.version ≠ ""
  nonempty : workflow.steps ≠ []
  steps : ∀ step ∈ workflow.steps, StepContract step
  unique : (workflow.steps.map (·.id)).Nodup

theorem requireIdentifier_iff {field value : String} :
    V1.requireIdentifier field value = .ok () ↔ ValidIdentifier value := by
  unfold V1.requireIdentifier ValidIdentifier
  by_cases isEmpty : value = ""
  · simp [isEmpty]
  · rw [if_neg isEmpty]
    split
    · rename_i isInvalid
      rcases isInvalid with long | unmatched
      · simp
        omega
      · simp [unmatched]
    · rename_i isValid
      simp only [not_or, not_lt, Bool.not_eq_false] at isValid
      simp [isEmpty, isValid]

theorem requireEnum_iff {field value : String} {allowed : List String} :
    V1.requireEnum field value allowed = .ok () ↔ value ∈ allowed := by
  unfold V1.requireEnum
  split <;> simp_all

theorem check_bind_iff {first : V1.Check} {rest : Unit → V1.Check} :
    first >>= rest = .ok () ↔ first = .ok () ∧ rest () = .ok () := by
  cases first with
  | error message => simp [bind, Except.bind]
  | ok value => simp [bind, Except.bind]

/-- A check that throws. -/
theorem throw_bind_iff {message : String} {rest : Unit → V1.Check} :
    (throw message : V1.Check) >>= rest = .ok () ↔ False := by
  simp [throw, throwThe, MonadExceptOf.throw, bind, Except.bind]

theorem validateSteps_iff {index : ℕ} {seen : List String} {listed : List WorkflowStep} :
    V1.validateSteps index seen listed = .ok () ↔
      (∀ step ∈ listed, StepContract step) ∧ (listed.map (·.id)).Nodup ∧
        ∀ step ∈ listed, step.id ∉ seen := by
  induction listed generalizing index seen with
  | nil => simp [V1.validateSteps]
  | cons step rest ih =>
      have onFailure : ∀ {remaining : V1.Check},
          (if step.onFailure ≠ "" then do
            V1.requireEnum (V1.stepField index "onFailure") step.onFailure
              ["fail", "retry", "skip", "compensate"]
            remaining
          else remaining) = .ok () ↔
          (step.onFailure = "" ∨ step.onFailure ∈ ["fail", "retry", "skip", "compensate"]) ∧
            remaining = .ok () := by
        intro remaining
        by_cases noFailure : step.onFailure = ""
        · simp [noFailure]
        · rw [if_pos noFailure, check_bind_iff, requireEnum_iff]
          simp [noFailure]
      rw [V1.validateSteps, check_bind_iff, requireIdentifier_iff]
      by_cases isSeen : step.id ∈ seen
      · rw [if_pos isSeen, throw_bind_iff]
        simp [isSeen]
      · rw [if_neg isSeen, check_bind_iff, requireEnum_iff, onFailure, ih]
        rw [List.map_cons, List.nodup_cons]
        constructor
        · rintro ⟨id, kind, isKnown, contracts, nodup, unseen⟩
          refine ⟨List.forall_mem_cons.mpr ⟨⟨id, kind, isKnown⟩, contracts⟩, ⟨?_, nodup⟩,
            List.forall_mem_cons.mpr ⟨isSeen, fun other isRest => ?_⟩⟩
          · intro again
            rcases List.mem_map.mp again with ⟨other, isRest, sameId⟩
            exact unseen other isRest (sameId ▸ List.mem_cons_self)
          · exact fun isOld => unseen other isRest (List.mem_cons_of_mem _ isOld)
        · rintro ⟨contracts, ⟨fresh, nodup⟩, unseen⟩
          rcases List.forall_mem_cons.mp contracts with ⟨⟨id, kind, isKnown⟩, others⟩
          refine ⟨id, kind, isKnown, others, nodup, fun other isRest again => ?_⟩
          rcases List.mem_cons.mp again with sameId | isOld
          · exact fresh (List.mem_map.mpr ⟨other, isRest, sameId⟩)
          · exact unseen other (List.mem_cons_of_mem _ isRest) isOld

theorem validate_iff {workflow : Toolbox.Workflow} :
    workflow.validate = .ok () ↔ Contract workflow := by
  unfold V1.Workflow.validate
  by_cases kind : workflow.kind = "workflow"
  · rw [if_neg (not_not.mpr kind), check_bind_iff]
    by_cases version : workflow.version = ""
    · rw [if_pos version, throw_bind_iff]
      exact ⟨fun absurd => absurd.2.elim, fun contract => absurd version contract.version⟩
    · rw [if_neg version]
      by_cases isEmpty : workflow.steps = []
      · rw [if_pos isEmpty, throw_bind_iff]
        exact ⟨fun absurd => absurd.2.elim, fun contract => absurd isEmpty contract.nonempty⟩
      · rw [if_neg isEmpty, validateSteps_iff]
        constructor
        · rintro ⟨envelope, steps, unique, -⟩
          exact ⟨kind, envelope, version, isEmpty, steps, unique⟩
        · intro contract
          exact ⟨contract.envelope, contract.steps, contract.unique, by simp⟩
  · rw [if_pos kind, throw_bind_iff]
    exact ⟨False.elim, fun contract => absurd contract.kind kind⟩

/-! ## The tables -/

/-- A step whose own data is complete, and whose dependencies name other known steps. -/
structure Complete (known : String → Prop) (step : WorkflowStep) : Prop where
  tool : step.kind = "tool" → step.toolId ≠ ""
  gate : step.kind = "gate" → step.gates ≠ []
  retries : ∀ retries ∈ step.retries, 0 ≤ retries
  dependencies : ∀ dep ∈ step.dependsOn, dep ≠ step.id ∧ known dep

theorem collectDepends_isOk_iff {steps : GoMap String WorkflowStep} {step : WorkflowStep}
    {deps listed : List String} :
    (∃ result, collectDepends steps step deps listed = .ok result) ↔
      ∀ dep ∈ listed, dep ≠ step.id ∧ (steps.lookup dep).isSome = true := by
  induction listed generalizing deps with
  | nil => simp [collectDepends]
  | cons dep rest ih =>
      rw [collectDepends, List.forall_mem_cons]
      by_cases isSelf : dep = step.id
      · simp [isSelf]
      · rw [if_neg isSelf]
        cases isKnown : steps.lookup dep with
        | none => simp
        | some other =>
            rw [if_neg (by simp)]
            split
            · simp [ih, isSelf]
            · simp [ih, isSelf]

theorem stepDepends_isOk_iff {steps : GoMap String WorkflowStep} {step : WorkflowStep} :
    (∃ deps, stepDepends steps step = .ok deps) ↔
      Complete (fun dep => (steps.lookup dep).isSome = true) step := by
  unfold stepDepends
  by_cases noTool : step.kind = "tool" ∧ step.toolId = ""
  · rw [if_pos noTool]
    exact ⟨by simp, fun complete => absurd noTool.2 (complete.tool noTool.1)⟩
  · rw [if_neg noTool]
    by_cases noGates : step.kind = "gate" ∧ step.gates = []
    · rw [if_pos noGates]
      exact ⟨by simp, fun complete => absurd noGates.2 (complete.gate noGates.1)⟩
    · rw [if_neg noGates]
      by_cases negative : step.retries.any (· < 0) = true
      · rw [if_pos negative]
        rcases Option.any_eq_true_iff_get _ _ |>.mp negative with ⟨isSome, isNegative⟩
        refine ⟨by simp, fun complete => ?_⟩
        have bound := complete.retries _ (Option.get_mem isSome)
        exact absurd (of_decide_eq_true isNegative) (not_lt.mpr bound)
      · rw [if_neg negative]
        have mapped : (∃ deps, (collectDepends steps step [] step.dependsOn).map Go.sortStrings =
            .ok deps) ↔ ∃ deps, collectDepends steps step [] step.dependsOn = .ok deps := by
          cases collectDepends steps step [] step.dependsOn with
          | error error => simp [Except.map]
          | ok deps => simp [Except.map]
        rw [mapped, collectDepends_isOk_iff]
        constructor
        · intro dependencies
          refine ⟨fun isTool isEmpty => noTool ⟨isTool, isEmpty⟩,
            fun isGate isEmpty => noGates ⟨isGate, isEmpty⟩, ?_, dependencies⟩
          intro retries isRetries
          rw [Option.mem_def.mp isRetries] at negative
          simpa using negative
        · exact fun complete => complete.dependencies

theorem dependsTable_isOk_iff {steps : GoMap String WorkflowStep}
    {table : GoMap String (List String)} {listed : List WorkflowStep} :
    (∃ result, dependsTable steps table listed = .ok result) ↔
      ∀ step ∈ listed, ∃ deps, stepDepends steps step = .ok deps := by
  induction listed generalizing table with
  | nil => simp [dependsTable]
  | cons step rest ih =>
      rw [dependsTable, List.forall_mem_cons]
      cases isOk : stepDepends steps step with
      | error error => simp
      | ok deps => simp [ih]

/-- The steps by id. -/
def stepTable (workflow : Toolbox.Workflow) : GoMap String WorkflowStep :=
  workflow.steps.foldl (fun table step => table.insert step.id step) ∅

theorem lookup_foldl_insert {listed : List WorkflowStep} {entered : GoMap String WorkflowStep}
    (unique : (listed.map (·.id)).Nodup) (id : String) :
    (listed.foldl (fun table step => table.insert step.id step) entered).lookup id =
      (listed.find? (·.id = id)).or (entered.lookup id) := by
  induction listed generalizing entered with
  | nil => simp
  | cons step rest ih =>
      rw [List.map_cons, List.nodup_cons] at unique
      rw [List.foldl_cons, ih unique.2]
      by_cases isStep : step.id = id
      · have noOther : rest.find? (·.id = id) = none := by
          refine List.find?_eq_none.mpr fun other isRest => ?_
          have differs : other.id ≠ step.id :=
            fun sameId => unique.1 (List.mem_map.mpr ⟨other, isRest, sameId⟩)
          simpa [isStep] using differs
        rw [noOther, List.find?_cons_of_pos (by simpa using isStep), ← isStep,
          AList.lookup_insert]
        rfl
      · rw [List.find?_cons_of_neg (by simpa using isStep),
          AList.lookup_insert_ne (fun sameId => isStep sameId.symm)]

theorem lookup_stepTable {workflow : Toolbox.Workflow}
    (unique : (workflow.steps.map (·.id)).Nodup) (id : String) :
    (stepTable workflow).lookup id = workflow.steps.find? (·.id = id) := by
  rw [stepTable, lookup_foldl_insert unique]
  simp

/-- The dependencies that a step declares. -/
def declared (workflow : Toolbox.Workflow) (id : String) : List String :=
  ((workflow.steps.find? (·.id = id)).map (·.dependsOn)).getD []

theorem find_of_mem {listed : List WorkflowStep} (unique : (listed.map (·.id)).Nodup)
    {step : WorkflowStep} (isStep : step ∈ listed) :
    listed.find? (·.id = step.id) = some step := by
  induction listed with
  | nil => cases isStep
  | cons first rest ih =>
      rw [List.map_cons, List.nodup_cons] at unique
      rcases List.mem_cons.mp isStep with rfl | isRest
      · exact List.find?_cons_of_pos (by simp)
      · have differs : first.id ≠ step.id :=
          fun sameId => unique.1 (List.mem_map.mpr ⟨step, isRest, sameId.symm⟩)
        rw [List.find?_cons_of_neg (by simpa using differs), ih unique.2 isRest]

/-! ## The main loop -/

section Frontier

variable {depends : GoMap String (List String)} {nodes : List String} {indegree : String → ℤ}
  {ready order : List String}

/-- A round of the main loop takes the first ready step. -/
theorem frontier_emit {id : String} (distinct : ∀ id, (dependenciesOf depends id).Nodup)
    (outside : ∀ id, id ∉ nodes → dependenciesOf depends id = [])
    (frontier : Frontier (dependenciesOf depends) nodes (id :: ready) order)
    (counts : ∀ other, indegree other = missing (dependenciesOf depends other) order) :
    Frontier (dependenciesOf depends) nodes
        (Go.sortStrings (release (indegree, ready) (dependents depends id)).2) (order ++ [id]) ∧
      ∀ other, (release (indegree, ready) (dependents depends id)).1 other =
        missing (dependenciesOf depends other) (order ++ [id]) := by
  have fresh : id ∉ order := fun isEmitted =>
    (List.nodup_append.mp frontier.nodup).2.2 id isEmitted id List.mem_cons_self rfl
  have counted : ∀ other, indegree other =
      (missing (dependenciesOf depends other) (order ++ [id]) : ℤ) +
        if other ∈ dependents depends id then 1 else 0 := by
    intro other
    rw [counts, Aa.Library.missing_snoc fresh, (distinct other).count]
    simp only [mem_dependents]
    by_cases isDep : id ∈ dependenciesOf depends other
    · simp [isDep]
    · simp [isDep]
  rw [release_eq _ _ (nodup_dependents depends id)]
  constructor
  · refine frontier.takeCounted outside ((nodup_dependents depends id).filter _) (fun other => ?_)
      (Go.sortStrings_perm _) (List.pairwise_insertionSort _ _)
    rw [List.mem_filter, ← mem_dependents, decide_eq_true_eq]
    refine and_congr_right fun isDependent => ?_
    rw [counted, if_pos isDependent]
    omega
  · intro other
    simp only [counted]
    split <;> omega

theorem frontier_loop (distinct : ∀ id, (dependenciesOf depends id).Nodup)
    (outside : ∀ id, id ∉ nodes → dependenciesOf depends id = []) {fuel : ℕ}
    (frontier : Frontier (dependenciesOf depends) nodes ready order)
    (counts : ∀ other, indegree other = missing (dependenciesOf depends other) order)
    (enough : nodes.length ≤ order.length + fuel) :
    Frontier (dependenciesOf depends) nodes [] (topoLoop depends fuel indegree ready order) := by
  induction fuel generalizing indegree ready order with
  | zero =>
      have isNil := frontier.ready_eq_nil enough
      rwa [topoLoop, ← isNil]
  | succ fuel ih =>
      cases ready with
      | nil => exact frontier
      | cons id ready =>
          rcases frontier_emit distinct outside frontier counts with ⟨next, nextCounts⟩
          refine ih next nextCounts ?_
          rw [List.length_append, List.length_singleton]
          omega

/-- The compiler finds the least topological order, or there is none. -/
theorem topoOrder_least {steps : GoMap String WorkflowStep}
    (distinct : ∀ id, (dependenciesOf depends id).Nodup)
    (outside : ∀ id, id ∉ steps.keys → dependenciesOf depends id = []) :
    (∃ order, topoOrder steps depends = .ok order ∧
        LeastOrder (dependenciesOf depends) steps.keys order) ∨
      (∃ error, topoOrder steps depends = .error error) ∧
        ¬ (Closed (dependenciesOf depends) steps.keys ∧ Acyclic (dependenciesOf depends)) := by
  have counts : ∀ id, (((depends.lookup id).getD []).length : ℤ) =
      missing (dependenciesOf depends id) [] := by
    intro id
    rw [missing_nil, dependenciesOf]
  have start : Frontier (dependenciesOf depends) steps.keys (Go.sortStrings (steps.keys.filter
      fun id => (((depends.lookup id).getD []).length : ℤ) = 0)) [] := by
    refine .start ?_ (List.pairwise_insertionSort _ _) fun id => ?_
    · exact (Go.sortStrings_perm _).nodup_iff.mpr (steps.keys_nodup.filter _)
    · rw [(Go.sortStrings_perm _).mem_iff, List.mem_filter, counts, missing_nil]
      simp
  have frontier := frontier_loop distinct outside start counts (Nat.le_add_left _ _)
  simp only [topoOrder]
  split
  · rename_i all
    exact .inl ⟨_, rfl, frontier.leastOrder steps.keys_nodup (frontier.perm_iff.mpr all)⟩
  · rename_i notAll
    refine .inr ⟨⟨_, rfl⟩, fun acyclic => notAll ?_⟩
    exact ((frontier.perm_iff_acyclic steps.keys_nodup outside).mpr acyclic).length_eq

end Frontier

/-! ## The compiler -/

/-- What the compiler accepts. -/
structure Accepted (workflow : Toolbox.Workflow) : Prop where
  contract : Contract workflow
  complete : ∀ step ∈ workflow.steps,
    Complete (fun dep => ∃ other ∈ workflow.steps, other.id = dep) step
  acyclic : Acyclic (declared workflow)

theorem known_iff {workflow : Toolbox.Workflow} (unique : (workflow.steps.map (·.id)).Nodup)
    (dep : String) : ((stepTable workflow).lookup dep).isSome = true ↔
      ∃ other ∈ workflow.steps, other.id = dep := by
  rw [lookup_stepTable unique, List.find?_isSome]
  simp

theorem keys_perm {workflow : Toolbox.Workflow} (unique : (workflow.steps.map (·.id)).Nodup) :
    (stepTable workflow).keys.Perm (workflow.steps.map (·.id)) := by
  refine (List.perm_ext_iff_of_nodup (stepTable workflow).keys_nodup unique).mpr fun id => ?_
  rw [List.mem_map, ← known_iff unique, AList.lookup_isSome]
  rfl

/-- The row of a table of dependencies: sorted, without duplicates, and what the step declares. -/
structure Row (step : WorkflowStep) (deps : List String) : Prop where
  sorted : deps.Pairwise (· < ·)
  declares : ∀ dep, dep ∈ deps ↔ dep ∈ step.dependsOn

theorem sorted_of_stepDepends {steps : GoMap String WorkflowStep} {step : WorkflowStep}
    {deps : List String} (checked : stepDepends steps step = .ok deps) :
    deps.Pairwise (· ≤ ·) := by
  unfold stepDepends at checked
  split at checked
  · simp at checked
  · split at checked
    · simp at checked
    · split at checked
      · simp at checked
      · cases collected : collectDepends steps step [] step.dependsOn with
        | error error => simp [collected, Except.map] at checked
        | ok listed =>
            simp only [collected, Except.map, Except.ok.injEq] at checked
            rw [← checked]
            exact List.pairwise_insertionSort _ _

theorem row_of_stepDepends {steps : GoMap String WorkflowStep} {step : WorkflowStep}
    {deps : List String} (checked : stepDepends steps step = .ok deps) : Row step deps := by
  rcases stepDepends_ok checked with ⟨nodup, members, -, -⟩
  refine ⟨?_, members⟩
  exact (sorted_of_stepDepends checked).imp₂ (fun _ _ notGreater differs =>
    lt_of_le_of_ne notGreater differs) nodup

/-- The table of a workflow whose steps pass their checks. -/
structure Tabled (workflow : Toolbox.Workflow) (depends : GoMap String (List String)) : Prop where
  rows : ∀ step ∈ workflow.steps, ∃ deps, depends.lookup step.id = some deps ∧ Row step deps
  only : ∀ id, id ∉ workflow.steps.map (·.id) → depends.lookup id = none

theorem tabled_of_dependsTable {workflow : Toolbox.Workflow} {depends : GoMap String (List String)}
    (unique : (workflow.steps.map (·.id)).Nodup)
    (checked : dependsTable (stepTable workflow) ∅ workflow.steps = .ok depends) :
    Tabled workflow depends := by
  have tabulates : Tabulates (stepTable workflow) (stepTable workflow) depends :=
    dependsTable_ok checked fun id => .none
  constructor
  · intro step isStep
    have found : (stepTable workflow).lookup step.id = some step := by
      rw [lookup_stepTable unique, find_of_mem unique isStep]
    rcases tabulates.step step.id with ⟨notFound, -⟩ | ⟨other, deps, isOther, row, isOk⟩
    · simp [found] at notFound
    · rw [found] at isOther
      cases isOther
      exact ⟨deps, row, row_of_stepDepends isOk⟩
  · intro id outside
    rcases tabulates.step id with ⟨-, noRow⟩ | ⟨step, deps, found, -, -⟩
    · exact noRow
    · refine absurd ?_ outside
      have isKnown : ((stepTable workflow).lookup id).isSome = true := by simp [found]
      rcases (known_iff unique id).mp isKnown with ⟨other, isOther, sameId⟩
      exact List.mem_map.mpr ⟨other, isOther, sameId⟩

section Tabled

variable {workflow : Toolbox.Workflow} {depends : GoMap String (List String)}

theorem Tabled.mem_iff (tabled : Tabled workflow depends)
    (unique : (workflow.steps.map (·.id)).Nodup) (id dep : String) :
    dep ∈ dependenciesOf depends id ↔ dep ∈ declared workflow id := by
  by_cases isListed : id ∈ workflow.steps.map (·.id)
  · rcases List.mem_map.mp isListed with ⟨step, isStep, rfl⟩
    rcases tabled.rows step isStep with ⟨deps, found, row⟩
    rw [dependenciesOf, found, declared, find_of_mem unique isStep]
    exact row.declares dep
  · have noStep : workflow.steps.find? (·.id = id) = none := by
      refine List.find?_eq_none.mpr fun step isStep => ?_
      have differs : step.id ≠ id :=
        fun sameId => isListed (List.mem_map.mpr ⟨step, isStep, sameId⟩)
      simpa using differs
    rw [dependenciesOf, tabled.only id isListed, declared, noStep]
    rfl

theorem Tabled.nodup (tabled : Tabled workflow depends) (id : String) :
    (dependenciesOf depends id).Nodup := by
  by_cases isListed : id ∈ workflow.steps.map (·.id)
  · rcases List.mem_map.mp isListed with ⟨step, isStep, rfl⟩
    rcases tabled.rows step isStep with ⟨deps, found, row⟩
    rw [dependenciesOf, found]
    exact row.sorted.imp ne_of_lt
  · rw [dependenciesOf, tabled.only id isListed]
    exact List.nodup_nil

theorem Tabled.outside (tabled : Tabled workflow depends)
    (unique : (workflow.steps.map (·.id)).Nodup) (id : String)
    (notKey : id ∉ (stepTable workflow).keys) : dependenciesOf depends id = [] := by
  have notListed : id ∉ workflow.steps.map (·.id) :=
    fun isListed => notKey ((keys_perm unique).mem_iff.mpr isListed)
  rw [dependenciesOf, tabled.only id notListed]
  rfl

end Tabled

/-- The plan of a workflow with a table and an order. -/
def planOf (workflow : Toolbox.Workflow) (depends : GoMap String (List String))
    (order : List String) : Plan where
  workflowId := workflow.id
  version := workflow.version
  budget := workflow.budget
  order := order
  steps := stepTable workflow
  dependsOn := depends

theorem tables_of_compile {workflow : Toolbox.Workflow} {plan : Plan}
    (compiled : compile workflow = .ok plan) : Contract workflow ∧ ∃ depends order,
      dependsTable (stepTable workflow) ∅ workflow.steps = .ok depends ∧
        topoOrder (stepTable workflow) depends = .ok order ∧
        plan = planOf workflow depends order := by
  simp only [compile] at compiled
  split at compiled
  · cases compiled
  · rename_i isValid
    split at compiled
    · cases compiled
    · rename_i depends isTable
      split at compiled
      · cases compiled
      · rename_i order isOrder
        cases compiled
        exact ⟨validate_iff.mp isValid, depends, order, isTable, isOrder, rfl⟩

theorem compile_of_tables {workflow : Toolbox.Workflow} {depends : GoMap String (List String)}
    {order : List String} (contract : Contract workflow)
    (isTable : dependsTable (stepTable workflow) ∅ workflow.steps = .ok depends)
    (isOrder : topoOrder (stepTable workflow) depends = .ok order) :
    compile workflow = .ok (planOf workflow depends order) := by
  rw [stepTable] at isTable isOrder
  simp only [compile, validate_iff.mpr contract, isTable, isOrder]
  rfl

/-- The dependencies of complete steps are steps. -/
theorem Tabled.closed {workflow : Toolbox.Workflow} {depends : GoMap String (List String)}
    (tabled : Tabled workflow depends) (unique : (workflow.steps.map (·.id)).Nodup)
    (complete : ∀ step ∈ workflow.steps,
      Complete (fun dep => ∃ other ∈ workflow.steps, other.id = dep) step) :
    Closed (dependenciesOf depends) (stepTable workflow).keys := by
  intro id isKey dep isDep
  rcases List.mem_map.mp ((keys_perm unique).mem_iff.mp isKey) with ⟨step, isStep, rfl⟩
  rw [tabled.mem_iff unique, declared, find_of_mem unique isStep] at isDep
  rcases ((complete step isStep).dependencies dep isDep).2 with ⟨other, isOther, rfl⟩
  exact (keys_perm unique).mem_iff.mpr (List.mem_map.mpr ⟨other, isOther, rfl⟩)

theorem checks_iff {workflow : Toolbox.Workflow} (unique : (workflow.steps.map (·.id)).Nodup) :
    (∃ depends, dependsTable (stepTable workflow) ∅ workflow.steps = .ok depends) ↔
      ∀ step ∈ workflow.steps,
        Complete (fun dep => ∃ other ∈ workflow.steps, other.id = dep) step := by
  rw [dependsTable_isOk_iff]
  refine forall₂_congr fun step _ => ?_
  rw [stepDepends_isOk_iff]
  simp only [known_iff unique]

/-- What an accepted workflow compiles to. -/
structure Compiled (workflow : Toolbox.Workflow) (plan : Plan) : Prop where
  order : LeastOrder (declared workflow) (workflow.steps.map (·.id)) plan.order
  dependsOn : Tabled workflow plan.dependsOn

theorem compiled_of_compile {workflow : Toolbox.Workflow} {plan : Plan}
    (compiled : compile workflow = .ok plan) : Accepted workflow ∧ Compiled workflow plan := by
  rcases tables_of_compile compiled with ⟨contract, depends, order, isTable, isOrder, rfl⟩
  have unique := contract.unique
  have tabled := tabled_of_dependsTable unique isTable
  rcases topoOrder_least tabled.nodup (tabled.outside unique) with
    ⟨found, isFound, least⟩ | ⟨⟨error, isError⟩, -⟩
  · rw [isOrder] at isFound
    cases isFound
    have carried : LeastOrder (declared workflow) (workflow.steps.map (·.id)) order :=
      least.carry (keys_perm unique) (tabled.mem_iff unique)
    refine ⟨⟨contract, (checks_iff unique).mp ⟨depends, isTable⟩, ?_⟩, carried, tabled⟩
    have acyclic : Acyclic (dependenciesOf depends) :=
      least.acyclic (stepTable workflow).keys_nodup (tabled.outside unique)
    exact acyclic.congr fun id dep isDep => (tabled.mem_iff unique id dep).mpr isDep
  · rw [isOrder] at isError
    cases isError

theorem exists_compile {workflow : Toolbox.Workflow} (accepted : Accepted workflow) :
    ∃ plan, compile workflow = .ok plan := by
  have unique := accepted.contract.unique
  rcases (checks_iff unique).mpr accepted.complete with ⟨depends, isTable⟩
  have tabled := tabled_of_dependsTable unique isTable
  rcases topoOrder_least tabled.nodup (tabled.outside unique) with
    ⟨order, isOrder, -⟩ | ⟨-, notOrdered⟩
  · exact ⟨_, compile_of_tables accepted.contract isTable isOrder⟩
  · refine absurd ⟨tabled.closed unique accepted.complete, ?_⟩ notOrdered
    exact accepted.acyclic.congr fun id dep isDep => (tabled.mem_iff unique id dep).mp isDep

/-! ## Other listings -/

/-- The same step with its dependencies listed otherwise. -/
structure RelistedStep (first second : WorkflowStep) : Prop where
  same : second = { first with dependsOn := second.dependsOn }
  perm : first.dependsOn.Perm second.dependsOn

/-- The same workflow with its steps and their dependencies listed otherwise. -/
structure Relisted (first second : Toolbox.Workflow) : Prop where
  same : second = { first with steps := second.steps }
  steps : ∃ listed, first.steps.Perm listed ∧ List.Forall₂ RelistedStep listed second.steps

theorem mem_declared {workflow : Toolbox.Workflow} (unique : (workflow.steps.map (·.id)).Nodup)
    {id dep : String} : dep ∈ declared workflow id ↔
      ∃ step ∈ workflow.steps, step.id = id ∧ dep ∈ step.dependsOn := by
  constructor
  · intro isDep
    cases found : workflow.steps.find? (·.id = id) with
    | none => simp [declared, found] at isDep
    | some step =>
        have isStep := List.mem_of_find?_eq_some found
        have sameId : step.id = id := by simpa using List.find?_some found
        rw [declared, found] at isDep
        exact ⟨step, isStep, sameId, isDep⟩
  · rintro ⟨step, isStep, rfl, isDep⟩
    rw [declared, find_of_mem unique isStep]
    exact isDep

theorem RelistedStep.id {first second : WorkflowStep} (relisted : RelistedStep first second) :
    second.id = first.id := by
  rw [relisted.same]

theorem ids_of_relisted {listed others : List WorkflowStep}
    (are : List.Forall₂ RelistedStep listed others) :
    listed.map (·.id) = others.map (·.id) := by
  induction are with
  | nil => rfl
  | cons isRelated _ ih => rw [List.map_cons, List.map_cons, isRelated.id, ih]

namespace Relisted

variable {first second : Toolbox.Workflow}

theorem source (relisted : Relisted first second) {step : WorkflowStep}
    (isStep : step ∈ second.steps) : ∃ origin ∈ first.steps, RelistedStep origin step := by
  rcases relisted.steps with ⟨listed, perm, are⟩
  rcases forall₂_mem_right are isStep with ⟨origin, isOrigin, isRelated⟩
  exact ⟨origin, perm.mem_iff.mpr isOrigin, isRelated⟩

theorem target (relisted : Relisted first second) {step : WorkflowStep}
    (isStep : step ∈ first.steps) : ∃ image ∈ second.steps, RelistedStep step image := by
  rcases relisted.steps with ⟨listed, perm, are⟩
  exact forall₂_mem_right are.flip (perm.mem_iff.mp isStep)

theorem ids (relisted : Relisted first second) :
    (first.steps.map (·.id)).Perm (second.steps.map (·.id)) := by
  rcases relisted.steps with ⟨listed, perm, are⟩
  rw [← ids_of_relisted are]
  exact perm.map _

theorem contract (relisted : Relisted first second) (contract : Contract first) :
    Contract second where
  kind := by
    rw [relisted.same]
    exact contract.kind
  envelope := by
    rw [relisted.same]
    exact contract.envelope
  version := by
    rw [relisted.same]
    exact contract.version
  nonempty := by
    intro isEmpty
    have length := relisted.ids.length_eq
    rw [List.length_map, List.length_map, isEmpty] at length
    exact contract.nonempty (List.length_eq_zero_iff.mp length)
  steps := by
    intro step isStep
    rcases relisted.source isStep with ⟨origin, isOrigin, isRelated⟩
    rcases contract.steps origin isOrigin with ⟨id, kind, onFailure⟩
    rw [isRelated.same]
    exact ⟨id, kind, onFailure⟩
  unique := relisted.ids.nodup_iff.mp contract.unique

theorem declared_iff (relisted : Relisted first second) (contract : Contract first)
    (id dep : String) : dep ∈ declared first id ↔ dep ∈ declared second id := by
  rw [mem_declared contract.unique, mem_declared (relisted.contract contract).unique]
  constructor
  · rintro ⟨step, isStep, rfl, isDep⟩
    rcases relisted.target isStep with ⟨image, isImage, isRelated⟩
    exact ⟨image, isImage, isRelated.id, isRelated.perm.mem_iff.mp isDep⟩
  · rintro ⟨step, isStep, rfl, isDep⟩
    rcases relisted.source isStep with ⟨origin, isOrigin, isRelated⟩
    exact ⟨origin, isOrigin, isRelated.id.symm, isRelated.perm.mem_iff.mpr isDep⟩

theorem accepted (relisted : Relisted first second) (accepted : Accepted first) :
    Accepted second where
  contract := relisted.contract accepted.contract
  complete := by
    intro step isStep
    rcases relisted.source isStep with ⟨origin, isOrigin, isRelated⟩
    have complete := accepted.complete origin isOrigin
    have dependencies : ∀ dep ∈ step.dependsOn, dep ≠ step.id ∧
        ∃ other ∈ second.steps, other.id = dep := by
      intro dep isDep
      rcases complete.dependencies dep (isRelated.perm.mem_iff.mpr isDep) with
        ⟨notSelf, other, isOther, sameId⟩
      rcases relisted.target isOther with ⟨image, isImage, isImageOf⟩
      exact ⟨isRelated.id ▸ notSelf, image, isImage, isImageOf.id.trans sameId⟩
    rw [isRelated.same] at dependencies ⊢
    exact ⟨complete.tool, complete.gate, complete.retries, dependencies⟩
  acyclic := accepted.acyclic.congr fun id dep isDep =>
    (relisted.declared_iff accepted.contract id dep).mpr isDep

/-- Other listings of an accepted workflow compile to the same order and dependencies. -/
theorem compiled (relisted : Relisted first second) {plan : Plan}
    (accepted : Accepted first) (compiled : Compiled first plan) :
    ∃ other, compile second = .ok other ∧ other.order = plan.order ∧
      ∀ id, other.dependsOn.lookup id = plan.dependsOn.lookup id := by
  rcases exists_compile (relisted.accepted accepted) with ⟨other, isOther⟩
  have otherCompiled := (compiled_of_compile isOther).2
  have contract := accepted.contract
  refine ⟨other, isOther, ?_, fun id => ?_⟩
  · have carried : LeastOrder (declared second) (second.steps.map (·.id)) plan.order :=
      compiled.order.carry relisted.ids (relisted.declared_iff contract)
    exact otherCompiled.order.unique carried
  · by_cases isListed : id ∈ first.steps.map (·.id)
    · rcases List.mem_map.mp isListed with ⟨step, isStep, rfl⟩
      rcases relisted.target isStep with ⟨image, isImage, isRelated⟩
      rcases compiled.dependsOn.rows step isStep with ⟨deps, found, row⟩
      rcases otherCompiled.dependsOn.rows image isImage with ⟨otherDeps, otherFound, otherRow⟩
      rw [isRelated.id] at otherFound
      have perm : otherDeps.Perm deps :=
        (List.perm_ext_iff_of_nodup (otherRow.sorted.imp ne_of_lt)
          (row.sorted.imp ne_of_lt)).mpr fun dep => by
          rw [otherRow.declares, row.declares, isRelated.perm.mem_iff]
      rw [found, otherFound, perm.eq_of_pairwise
        (fun _ _ _ _ less more => absurd more (lt_asymm less)) otherRow.sorted row.sorted]
    · rw [compiled.dependsOn.only id isListed,
        otherCompiled.dependsOn.only id (fun isOther => isListed (relisted.ids.mem_iff.mpr isOther))]

end Relisted

/-- A workflow compiles exactly if it is accepted. The plan's order is the least topological one
of the declared dependencies, its table holds them sorted and without duplicates, and other
listings of the workflow compile to the same order and table. -/
theorem compile_iff_accepted (workflow : Toolbox.Workflow) :
    ((∃ plan, compile workflow = .ok plan) ↔ Accepted workflow) ∧
      ∀ plan, compile workflow = .ok plan →
        LeastOrder (declared workflow) (workflow.steps.map (·.id)) plan.order ∧
        Tabled workflow plan.dependsOn ∧
        ∀ other, Relisted workflow other → ∃ otherPlan, compile other = .ok otherPlan ∧
          otherPlan.order = plan.order ∧
          ∀ id, otherPlan.dependsOn.lookup id = plan.dependsOn.lookup id := by
  refine ⟨⟨?_, exists_compile⟩, fun plan isPlan => ?_⟩
  · rintro ⟨plan, isPlan⟩
    exact (compiled_of_compile isPlan).1
  · rcases compiled_of_compile isPlan with ⟨accepted, compiled⟩
    exact ⟨compiled.order, compiled.dependsOn, fun other relisted =>
      relisted.compiled accepted compiled⟩

end Aa.Toolbox.Workflow
