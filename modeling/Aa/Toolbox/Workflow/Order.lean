import Aa.Library.TopologicalOrder
import Aa.Toolbox.Workflow.Compile

/-!
# The order of a compiled plan

The compiler emits a step once all its dependencies are emitted, keeping for every
step the number of dependencies still missing. This file proves that the plan it
returns lists every step exactly once and dependencies first.
-/

namespace Aa.Toolbox.Workflow

open Aa.Library Aa.Contracts Aa.Toolbox

/-- The dependencies of a step in a table. -/
def dependenciesOf (depends : GoMap String (List String)) (id : String) : List String :=
  (depends.lookup id).getD []

/-! ## The main loop -/

theorem mem_sortStrings {ids : List String} {id : String} : id ∈ Go.sortStrings ids ↔ id ∈ ids :=
  (List.perm_insertionSort _ ids).mem_iff

theorem nodup_sortStrings {ids : List String} : (Go.sortStrings ids).Nodup ↔ ids.Nodup :=
  (List.perm_insertionSort _ ids).nodup_iff

theorem mem_dependents {depends : GoMap String (List String)} {dep id : String} :
    id ∈ dependents depends dep ↔ dep ∈ dependenciesOf depends id := by
  simp only [dependents, mem_sortStrings, List.mem_map, List.mem_filter, decide_eq_true_eq,
    dependenciesOf]
  constructor
  · rintro ⟨⟨key, deps⟩, ⟨isEntry, isDep⟩, rfl⟩
    rw [(AList.mem_lookup_iff).mpr isEntry]
    exact isDep
  · intro isDep
    cases found : depends.lookup id with
    | none => simp [found] at isDep
    | some deps =>
        rw [found] at isDep
        exact ⟨⟨id, deps⟩, ⟨AList.mem_lookup_iff.mp found, isDep⟩, rfl⟩

theorem nodup_dependents (depends : GoMap String (List String)) (dep : String) :
    (dependents depends dep).Nodup := by
  rw [dependents, nodup_sortStrings]
  have keysNodup : (depends.entries.map (·.1)).Nodup := depends.keys_nodup
  exact keysNodup.sublist (List.filter_sublist.map _)

/-- Releasing distinct steps takes one dependency off each of them and makes ready those
that have none left. -/
theorem release_eq (indegree : String → ℤ) (ready : List String) {ids : List String}
    (nodup : ids.Nodup) :
    release (indegree, ready) ids =
      (fun id => if id ∈ ids then indegree id - 1 else indegree id,
        ready ++ ids.filter fun id => indegree id - 1 = 0) := by
  induction ids generalizing indegree ready with
  | nil => simp [release]
  | cons first rest ih =>
      rcases List.nodup_cons.mp nodup with ⟨notRest, restNodup⟩
      have others : ∀ id ∈ rest,
          Function.update indegree first (indegree first - 1) id = indegree id := by
        intro id isRest
        have notFirst : id ≠ first := fun isFirst => notRest (isFirst ▸ isRest)
        exact Function.update_of_ne notFirst _ _
      rw [release, ih _ _ restNodup]
      refine Prod.ext ?_ ?_
      · funext id
        by_cases isFirst : id = first
        · subst isFirst
          simp [notRest]
        · simp [isFirst]
      · have sameFilter : rest.filter (fun id =>
            Function.update indegree first (indegree first - 1) id - 1 = 0) =
            rest.filter fun id => indegree id - 1 = 0 := by
          refine List.filter_congr ?_
          intro id isRest
          rw [others id isRest]
        rw [sameFilter, Function.update_self]
        by_cases isReady : indegree first - 1 = 0
        · simp [isReady]
        · simp [isReady]

theorem mem_emitted {order ready released : List String} {id : String} :
    id ∈ order ++ Go.sortStrings (ready ++ released) ↔
      id ∈ order ∨ id ∈ ready ∨ id ∈ released := by
  rw [List.mem_append, mem_sortStrings, List.mem_append]

/-- The state of the main loop: what is emitted lists dependencies first, what is emitted
or ready has all its dependencies emitted, and the indegrees count the rest. -/
structure Emitting (depends : GoMap String (List String)) (steps : List String)
    (indegree : String → ℤ) (ready order : List String) : Prop where
  nodup : (order ++ ready).Nodup
  known : ∀ id ∈ order ++ ready, id ∈ steps
  first : DependenciesFirst (dependenciesOf depends) order
  missing : ∀ id, indegree id = ((dependenciesOf depends id).filter (· ∉ order)).length
  released : ∀ id ∈ order ++ ready, ∀ dep ∈ dependenciesOf depends id, dep ∈ order

section Loop

variable {depends : GoMap String (List String)} {steps : List String}
  {indegree : String → ℤ} {ready order : List String}

/-- Emitting a dependency takes it off the missing dependencies of each step. -/
theorem missing_snoc {deps : List String} (distinct : deps.Nodup) {id : String}
    (fresh : id ∉ order) :
    ((deps.filter (· ∉ order ++ [id])).length : ℤ) =
      if id ∈ deps then ((deps.filter (· ∉ order)).length : ℤ) - 1
      else ((deps.filter (· ∉ order)).length : ℤ) := by
  have eraseEq : deps.filter (· ∉ order ++ [id]) = (deps.filter (· ∉ order)).erase id := by
    rw [(distinct.filter _).erase_eq_filter, List.filter_filter]
    refine List.filter_congr ?_
    intro dep _
    by_cases isEmitted : dep ∈ order <;> by_cases isNow : dep = id <;> simp [isEmitted, isNow]
  rw [eraseEq]
  split
  · rename_i isDep
    have isMissing : id ∈ deps.filter (· ∉ order) := by simp [isDep, fresh]
    rw [List.length_erase_of_mem isMissing]
    have positive := List.length_pos_of_mem isMissing
    omega
  · rename_i notDep
    rw [List.erase_of_not_mem]
    simp [notDep]

/-- One iteration of the main loop. -/
theorem Emitting.emit {id : String} (emitting : Emitting depends steps indegree (id :: ready) order)
    (distinct : ∀ id, (dependenciesOf depends id).Nodup)
    (isStep : ∀ id dep, dep ∈ dependenciesOf depends id → id ∈ steps) :
    Emitting depends steps (release (indegree, ready) (dependents depends id)).1
      (Go.sortStrings (release (indegree, ready) (dependents depends id)).2) (order ++ [id]) := by
  have fresh : id ∉ order := by
    intro isEmitted
    exact (List.nodup_append.mp emitting.nodup).2.2 id isEmitted id (by simp) rfl
  have missing : ∀ other, (if other ∈ dependents depends id then indegree other - 1
      else indegree other) =
      ((dependenciesOf depends other).filter (· ∉ order ++ [id])).length := by
    intro other
    rw [missing_snoc (distinct other) fresh, emitting.missing other]
    simp only [mem_dependents]
  have noneMissing : ∀ other, other ∈ dependents depends id → indegree other - 1 = 0 →
      ∀ dep ∈ dependenciesOf depends other, dep ∈ order ++ [id] := by
    intro other isDependent isZero dep isDep
    have empty := missing other
    rw [if_pos isDependent, isZero] at empty
    have none : (dependenciesOf depends other).filter (· ∉ order ++ [id]) = [] :=
      List.length_eq_zero_iff.mp (by exact_mod_cast empty.symm)
    have notMissing := List.filter_eq_nil_iff.mp none dep isDep
    by_contra notEmitted
    exact notMissing (decide_eq_true notEmitted)
  have newReady : ∀ other, other ∈ dependents depends id → other ∉ order ++ id :: ready := by
    intro other isDependent isOld
    exact fresh (emitting.released other isOld id (mem_dependents.mp isDependent))
  have sameElements : order ++ id :: ready = (order ++ [id]) ++ ready := by simp
  rw [release_eq _ _ (nodup_dependents depends id)]
  refine ⟨?_, ?_, ?_, missing, ?_⟩
  · have perm : List.Perm ((order ++ [id]) ++ Go.sortStrings (ready ++
        (dependents depends id).filter fun other => indegree other - 1 = 0))
        ((order ++ id :: ready) ++
          (dependents depends id).filter fun other => indegree other - 1 = 0) := by
      rw [sameElements, List.append_assoc (order ++ [id])]
      exact (List.perm_insertionSort _ _).append_left _
    rw [perm.nodup_iff]
    refine List.nodup_append.mpr ⟨emitting.nodup, (nodup_dependents depends id).filter _, ?_⟩
    rintro old isOld new isNew rfl
    exact newReady old (List.mem_filter.mp isNew).1 isOld
  · intro other isThere
    rcases mem_emitted.mp isThere with isEmitted | isReady | isNew
    · exact emitting.known other (sameElements ▸ List.mem_append_left _ isEmitted)
    · exact emitting.known other (sameElements ▸ List.mem_append_right _ isReady)
    · exact isStep other id (mem_dependents.mp (List.mem_filter.mp isNew).1)
  · exact emitting.first.snoc (emitting.released id (by simp))
  · intro other isThere dep isDep
    rcases mem_emitted.mp isThere with isEmitted | isReady | isNew
    · exact List.mem_append_left _ (emitting.released other
        (sameElements ▸ List.mem_append_left _ isEmitted) dep isDep)
    · exact List.mem_append_left _ (emitting.released other
        (sameElements ▸ List.mem_append_right _ isReady) dep isDep)
    · rcases List.mem_filter.mp isNew with ⟨isDependent, isZero⟩
      exact noneMissing other isDependent (of_decide_eq_true isZero) dep isDep

theorem Emitting.loop (emitting : Emitting depends steps indegree ready order)
    (distinct : ∀ id, (dependenciesOf depends id).Nodup)
    (isStep : ∀ id dep, dep ∈ dependenciesOf depends id → id ∈ steps) (fuel : ℕ) :
    (topoLoop depends fuel indegree ready order).Nodup ∧
      (∀ id ∈ topoLoop depends fuel indegree ready order, id ∈ steps) ∧
      DependenciesFirst (dependenciesOf depends) (topoLoop depends fuel indegree ready order) := by
  have now : order.Nodup ∧ (∀ id ∈ order, id ∈ steps) ∧
      DependenciesFirst (dependenciesOf depends) order :=
    ⟨(List.nodup_append.mp emitting.nodup).1,
      fun id isEmitted => emitting.known id (List.mem_append_left _ isEmitted), emitting.first⟩
  induction fuel generalizing indegree ready order with
  | zero => exact now
  | succ fuel ih =>
      cases ready with
      | nil => exact now
      | cons id ready =>
          have next := emitting.emit distinct isStep
          refine ih next ⟨?_, ?_, next.first⟩
          · exact (List.nodup_append.mp next.nodup).1
          · exact fun id isEmitted => next.known id (List.mem_append_left _ isEmitted)

end Loop

/-- An order the compiler accepts lists every step once, dependencies first. -/
theorem topoOrder_spec {steps : GoMap String WorkflowStep} {depends : GoMap String (List String)}
    {order : List String} (distinct : ∀ id, (dependenciesOf depends id).Nodup)
    (isStep : ∀ id dep, dep ∈ dependenciesOf depends id → id ∈ steps.keys)
    (ordered : topoOrder steps depends = .ok order) :
    order.Nodup ∧ (∀ id, id ∈ order ↔ id ∈ steps.keys) ∧
      DependenciesFirst (dependenciesOf depends) order := by
  simp only [topoOrder] at ordered
  split at ordered
  · rename_i allEmitted
    cases ordered
    have emitting : Emitting depends steps.keys
        (fun id => (((depends.lookup id).getD []).length : ℤ))
        (Go.sortStrings (steps.keys.filter fun id => (((depends.lookup id).getD []).length : ℤ) = 0))
        [] := by
      refine ⟨?_, ?_, .nil, ?_, ?_⟩
      · rw [List.nil_append, nodup_sortStrings]
        exact steps.keys_nodup.filter _
      · intro id isReady
        rw [List.nil_append, mem_sortStrings] at isReady
        exact (List.mem_filter.mp isReady).1
      · intro id
        simp [dependenciesOf]
      · intro id isReady dep isDep
        rw [List.nil_append, mem_sortStrings] at isReady
        have noDeps := of_decide_eq_true (List.mem_filter.mp isReady).2
        have empty : dependenciesOf depends id = [] :=
          List.length_eq_zero_iff.mp (by exact_mod_cast noDeps)
        rw [empty] at isDep
        cases isDep
    rcases emitting.loop distinct isStep steps.keys.length with ⟨nodup, known, first⟩
    refine ⟨nodup, fun id => ⟨known id, ?_⟩, first⟩
    intro isKey
    have all := (List.subperm_of_subset nodup known).perm_of_length_le allEmitted.ge
    exact all.mem_iff.mpr isKey
  · cases ordered

/-! ## Compiled plans -/

theorem collectDepends_ok {steps : GoMap String WorkflowStep} {step : WorkflowStep}
    {deps listed result : List String}
    (collected : collectDepends steps step deps listed = .ok result) (distinct : deps.Nodup) :
    result.Nodup ∧ (∀ dep, dep ∈ result ↔ dep ∈ deps ∨ dep ∈ listed) ∧
      ∀ dep ∈ listed, (steps.lookup dep).isSome = true := by
  induction listed generalizing deps with
  | nil =>
      cases collected
      simp [distinct]
  | cons dep rest ih =>
      rw [collectDepends] at collected
      split at collected
      · cases collected
      · split at collected
        · cases collected
        · rename_i isKnown
          have depKnown : (steps.lookup dep).isSome = true := by
            simpa [Option.isSome_iff_ne_none] using isKnown
          split at collected
          · rename_i seen
            rcases ih collected distinct with ⟨nodup, members, known⟩
            refine ⟨nodup, ?_, by simpa [depKnown] using known⟩
            intro other
            rw [members other, List.mem_cons]
            constructor
            · rintro (isOld | isRest)
              · exact .inl isOld
              · exact .inr (.inr isRest)
            · rintro (isOld | rfl | isRest)
              · exact .inl isOld
              · exact .inl seen
              · exact .inr isRest
          · rename_i unseen
            have snocDistinct : (deps ++ [dep]).Nodup := by
              refine List.nodup_append.mpr ⟨distinct, List.nodup_singleton dep, ?_⟩
              rintro old isOld new isNew rfl
              exact unseen (List.mem_singleton.mp isNew ▸ isOld)
            rcases ih collected snocDistinct with ⟨nodup, members, known⟩
            refine ⟨nodup, ?_, by simpa [depKnown] using known⟩
            intro other
            rw [members other, List.mem_append, List.mem_singleton, List.mem_cons, or_assoc]

/-- What the checks of a step and the table of its dependencies establish. -/
theorem stepDepends_ok {steps : GoMap String WorkflowStep} {step : WorkflowStep}
    {deps : List String} (checked : stepDepends steps step = .ok deps) :
    deps.Nodup ∧ (∀ dep, dep ∈ deps ↔ dep ∈ step.dependsOn) ∧
      (∀ dep ∈ deps, (steps.lookup dep).isSome = true) ∧ ∀ retries ∈ step.retries, 0 ≤ retries := by
  rw [stepDepends] at checked
  split at checked
  · cases checked
  · split at checked
    · cases checked
    · split at checked
      · cases checked
      · rename_i notNegative
        cases collected : collectDepends steps step [] step.dependsOn with
        | error error =>
            rw [collected] at checked
            cases checked
        | ok listed =>
            rw [collected] at checked
            cases checked
            rcases collectDepends_ok collected List.nodup_nil with ⟨nodup, members, known⟩
            refine ⟨nodup_sortStrings.mpr nodup, ?_, ?_, ?_⟩
            · intro dep
              rw [mem_sortStrings, members dep]
              simp
            · intro dep isDep
              rw [mem_sortStrings, members dep] at isDep
              exact known dep (by simpa using isDep)
            · intro retries isRetries
              rw [Option.mem_def.mp isRetries] at notNegative
              simpa using notNegative

/-- Each step of a map has its checked dependencies in the table, and nothing else has. -/
def Tabulates (steps : GoMap String WorkflowStep) (entered : GoMap String WorkflowStep)
    (table : GoMap String (List String)) : Prop :=
  ∀ id, Option.Rel (fun step deps => stepDepends steps step = .ok deps)
    (entered.lookup id) (table.lookup id)

theorem dependsTable_ok {steps entered : GoMap String WorkflowStep} {listed : List WorkflowStep}
    {table result : GoMap String (List String)}
    (checked : dependsTable steps table listed = .ok result)
    (tabulates : Tabulates steps entered table) :
    Tabulates steps (listed.foldl (fun table step => table.insert step.id step) entered)
      result := by
  induction listed generalizing entered table with
  | nil =>
      cases checked
      exact tabulates
  | cons step rest ih =>
      rw [dependsTable] at checked
      split at checked
      · cases checked
      · rename_i deps stepChecked
        refine ih checked ?_
        intro id
        by_cases isStep : id = step.id
        · subst isStep
          rw [AList.lookup_insert, AList.lookup_insert]
          exact .some stepChecked
        · rw [AList.lookup_insert_ne isStep, AList.lookup_insert_ne isStep]
          exact tabulates id

theorem steps_keyed (listed : List WorkflowStep) {entered : GoMap String WorkflowStep}
    (keyed : ∀ id step, entered.lookup id = some step → step.id = id) :
    ∀ id step, (listed.foldl (fun table step => table.insert step.id step) entered).lookup id =
      some step → step.id = id := by
  induction listed generalizing entered with
  | nil => exact keyed
  | cons first rest ih =>
      refine ih ?_
      intro id step found
      by_cases isFirst : id = first.id
      · subst isFirst
        rw [AList.lookup_insert] at found
        cases found
        rfl
      · rw [AList.lookup_insert_ne isFirst] at found
        exact keyed id step found

namespace Plan

def dependencies (plan : Plan) : String → List String := dependenciesOf plan.dependsOn

/-- What every compiled plan satisfies: its order lists each step once, dependencies
first, and its steps are kept under their own ids with the dependencies they declare. -/
structure WellFormed (plan : Plan) : Prop where
  keyed : ∀ id step, plan.steps.lookup id = some step → step.id = id
  nodup : plan.order.Nodup
  listed : ∀ id, id ∈ plan.order ↔ (plan.steps.lookup id).isSome = true
  first : DependenciesFirst plan.dependencies plan.order
  declared : ∀ id step, plan.steps.lookup id = some step →
    ∀ dep, dep ∈ plan.dependencies id ↔ dep ∈ step.dependsOn
  retries : ∀ id step, plan.steps.lookup id = some step →
    ∀ retries ∈ step.retries, 0 ≤ retries

end Plan

theorem Tabulates.step {steps entered : GoMap String WorkflowStep}
    {table : GoMap String (List String)} (tabulates : Tabulates steps entered table) (id : String) :
    entered.lookup id = none ∧ table.lookup id = none ∨
      ∃ step deps, entered.lookup id = some step ∧ table.lookup id = some deps ∧
        stepDepends steps step = .ok deps := by
  have related := tabulates id
  cases stepEq : entered.lookup id with
  | none =>
      rw [stepEq] at related
      generalize table.lookup id = row at related
      cases related
      exact .inl ⟨rfl, rfl⟩
  | some step =>
      rw [stepEq] at related
      generalize table.lookup id = row at related
      cases related with
      | some checked => exact .inr ⟨step, _, rfl, rfl, checked⟩

theorem wellFormed_of_tables {plan : Plan}
    (keyed : ∀ id step, plan.steps.lookup id = some step → step.id = id)
    (tabulates : Tabulates plan.steps plan.steps plan.dependsOn)
    (ordered : topoOrder plan.steps plan.dependsOn = .ok plan.order) : plan.WellFormed := by
  have distinct : ∀ id, (dependenciesOf plan.dependsOn id).Nodup := by
    intro id
    rcases tabulates.step id with ⟨_, noRow⟩ | ⟨step, deps, _, row, checked⟩
    · simp [dependenciesOf, noRow]
    · rw [dependenciesOf, row]
      exact (stepDepends_ok checked).1
  have isKey : ∀ id, id ∈ plan.steps.keys ↔ (plan.steps.lookup id).isSome = true := by
    intro id
    rw [AList.lookup_isSome]
    rfl
  have isStep : ∀ id dep, dep ∈ dependenciesOf plan.dependsOn id → id ∈ plan.steps.keys := by
    intro id dep isDep
    rcases tabulates.step id with ⟨_, noRow⟩ | ⟨step, deps, found, _, _⟩
    · simp [dependenciesOf, noRow] at isDep
    · rw [isKey, found]
      rfl
  rcases topoOrder_spec distinct isStep ordered with ⟨nodup, listed, first⟩
  have ofStep : ∀ id step, plan.steps.lookup id = some step →
      ∃ deps, plan.dependsOn.lookup id = some deps ∧ stepDepends plan.steps step = .ok deps := by
    intro id step found
    rcases tabulates.step id with ⟨noStep, _⟩ | ⟨same, deps, sameFound, row, checked⟩
    · rw [found] at noStep
      cases noStep
    · rw [found] at sameFound
      cases sameFound
      exact ⟨deps, row, checked⟩
  refine ⟨keyed, nodup, fun id => (listed id).trans (isKey id), first, ?_, ?_⟩
  · intro id step found dep
    rcases ofStep id step found with ⟨deps, row, checked⟩
    rw [Plan.dependencies, dependenciesOf, row]
    exact (stepDepends_ok checked).2.1 dep
  · intro id step found
    rcases ofStep id step found with ⟨deps, _, checked⟩
    exact (stepDepends_ok checked).2.2.2

theorem compile_wellFormed {workflow : Toolbox.Workflow} {plan : Plan}
    (compiled : compile workflow = .ok plan) : plan.WellFormed := by
  have keyed := @steps_keyed workflow.steps ∅ (by simp)
  simp only [compile] at compiled
  split at compiled
  · cases compiled
  · split at compiled
    · cases compiled
    · rename_i depends tableOk
      split at compiled
      · cases compiled
      · rename_i order orderOk
        cases compiled
        exact wellFormed_of_tables keyed (dependsTable_ok tableOk fun id => .none) orderOk

end Aa.Toolbox.Workflow
