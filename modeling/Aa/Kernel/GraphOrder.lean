import Aa.Kernel.Plan
import Aa.Library.TopologicalOrder

/-!
# The order of a dependency graph

A graph validates exactly if every dependency names a work package of the graph and no package
is upstream of itself. Then its order is the least topological order, whatever the order in
which the packages were added, and some package is ready as long as none is running or
deficient and not all are completed.

The algorithm counts a dependency as often as it is mentioned, in the indegrees and in the lists
of children alike.
-/

namespace Aa.Kernel.Plan

open Aa.Library

namespace Graph

/-- The graphs that adding work packages and setting their states lead to. -/
inductive Built : Graph → Prop
  | new (projectId id : String) : Built (new projectId id)
  | add {graph added : Graph} {wp : WorkPackage} (built : Built graph)
      (adds : graph.add wp = .ok added) : Built added
  | setState {graph set : Graph} {id : String} {state : State} (built : Built graph)
      (sets : graph.setState id state = .ok set) : Built set

/-- Adds work packages one after the other. -/
def addAll (graph : Graph) : List WorkPackage → Except String Graph
  | [] => .ok graph
  | wp :: rest =>
      match graph.add wp with
      | .error message => .error message
      | .ok added => added.addAll rest

variable {graph : Graph}

theorem Built.addAll {wps : List WorkPackage} {added : Graph} (built : Built graph)
    (adds : graph.addAll wps = .ok added) : Built added := by
  induction wps generalizing graph with
  | nil =>
      cases adds
      exact built
  | cons wp rest ih =>
      rw [Graph.addAll] at adds
      cases addsFirst : graph.add wp with
      | error message => simp [addsFirst] at adds
      | ok next =>
          rw [addsFirst] at adds
          exact ih (built.add addsFirst) adds

theorem order_of_add {added : Graph} {wp : WorkPackage} (adds : graph.add wp = .ok added) :
    added.order = graph.order ++ [wp.id] ∧ graph.nodes.lookup wp.id = none := by
  unfold add at adds
  split at adds
  · simp at adds
  · split at adds
    · simp at adds
    · rename_i isNew
      cases adds
      exact ⟨rfl, by simpa [Option.isSome_iff_ne_none] using isNew⟩

theorem order_of_setState {set : Graph} {id : String} {state : State}
    (sets : graph.setState id state = .ok set) : set.order = graph.order := by
  unfold setState at sets
  split at sets
  · simp at sets
  · cases sets
    rfl

/-- Every work package is listed once. -/
theorem Built.nodup (built : Built graph) : graph.order.Nodup := by
  induction built with
  | new projectId id => exact List.nodup_nil
  | @add graph added wp built adds ih =>
      rcases order_of_add adds with ⟨isSnoc, isNew⟩
      rw [isSnoc]
      refine List.nodup_append.mpr ⟨ih, List.nodup_singleton _, ?_⟩
      rintro old isOld _ isNewId rfl
      have isNode := (graph.ordered old).mp isOld
      rw [List.mem_singleton.mp isNewId, ← AList.lookup_isSome, isNew] at isNode
      simp at isNode
  | setState built sets ih => rwa [order_of_setState sets]

theorem Built.length_entries (built : Built graph) :
    graph.nodes.entries.length = graph.order.length := by
  have perm : graph.order.Perm graph.nodes.keys :=
    (List.perm_ext_iff_of_nodup built.nodup graph.nodes.keys_nodup).mpr graph.ordered
  rw [perm.length_eq, AList.keys, List.keys, List.length_map]

theorem mem_order {id : String} : id ∈ graph.order ↔ (graph.get id).isSome := by
  rw [graph.ordered, get, AList.lookup_isSome]

theorem dependencies_outside (id : String) (outside : id ∉ graph.order) :
    graph.dependencies id = [] := by
  rw [mem_order, Option.not_isSome_iff_eq_none] at outside
  rw [dependencies, outside]
  rfl

theorem dependencies_of_get {id : String} {wp : WorkPackage} (isWp : graph.get id = some wp) :
    graph.dependencies id = wp.dependsOn := by
  rw [dependencies, isWp]
  rfl

/-! ## Counting mentions -/

theorem count_mentions (id other : String) {ids : List String} (nodup : ids.Nodup) :
    ((ids.filterMap graph.get).flatMap fun wp =>
      (wp.dependsOn.filter (· = id)).map fun _ => wp.id).count other =
      if other ∈ ids then (graph.dependencies other).count id else 0 := by
  induction ids with
  | nil => simp
  | cons first rest ih =>
      rcases List.nodup_cons.mp nodup with ⟨notRest, restNodup⟩
      cases isWp : graph.get first with
      | none =>
          rw [List.filterMap_cons_none isWp, ih restNodup]
          by_cases isFirst : other = first
          · subst isFirst
            simp [notRest, dependencies, isWp]
          · simp [isFirst]
      | some wp =>
          have sameId : wp.id = first := graph.identified first wp isWp
          rw [List.filterMap_cons_some isWp, List.flatMap_cons, List.count_append, ih restNodup,
            sameId, List.map_const', List.count_replicate]
          by_cases isFirst : other = first
          · subst isFirst
            simp only [if_true, List.mem_cons_self, notRest, if_false, add_zero, BEq.rfl,
              dependencies_of_get isWp]
            exact List.count_eq_length_filter.symm
          · have notFirst : first ≠ other := fun same => isFirst same.symm
            simp [isFirst, notFirst]

theorem count_children (built : Built graph) (id other : String) :
    (graph.children id).count other = (graph.dependencies other).count id := by
  rw [children, (Go.sortStrings_perm _).count_eq, list, count_mentions id other built.nodup]
  split
  · rfl
  · rename_i outside
    rw [dependencies_outside other outside, List.count_nil]

/-- A round lowers the indegree of a child by each of its mentions. -/
theorem release_indegree (indegree : String → ℤ) (listed : List String) (id : String) :
    (release indegree listed).1 id = indegree id - listed.count id := by
  induction listed generalizing indegree with
  | nil => simp [release]
  | cons child rest ih =>
      simp only [release, ih, List.count_cons]
      by_cases isChild : id = child
      · simp only [isChild, if_true, BEq.rfl]
        push_cast
        omega
      · have notChild : ¬ child = id := fun same => isChild same.symm
        simp [isChild, notChild]

/-- The children freed are those that the round leaves no dependencies to. -/
theorem release_freed {indegree : String → ℤ} {listed : List String}
    (enough : ∀ id ∈ listed, (listed.count id : ℤ) ≤ indegree id) :
    (release indegree listed).2.Nodup ∧
      ∀ id, id ∈ (release indegree listed).2 ↔
        id ∈ listed ∧ indegree id = listed.count id := by
  induction listed generalizing indegree with
  | nil => simp [release]
  | cons child rest ih =>
      have bound : ∀ id ∈ rest, (rest.count id : ℤ) ≤
          if id = child then indegree id - 1 else indegree id := by
        intro id isRest
        have bound := enough id (List.mem_cons_of_mem _ isRest)
        by_cases isChild : id = child
        · rw [isChild, List.count_cons_self] at bound
          push_cast at bound
          rw [if_pos isChild, isChild]
          omega
        · rw [List.count_cons_of_ne (fun same => isChild same.symm)] at bound
          rwa [if_neg isChild]
      rcases ih bound with ⟨nodup, members⟩
      have ofChild := enough child List.mem_cons_self
      rw [List.count_cons_self] at ofChild
      push_cast at ofChild
      have freedRest : ∀ id, id ≠ child → (id ∈ (release
          (fun id => if id = child then indegree id - 1 else indegree id) rest).2 ↔
          id ∈ child :: rest ∧ indegree id = (child :: rest).count id) := by
        intro id notChild
        rw [members, if_neg notChild, List.count_cons_of_ne (fun same => notChild same.symm)]
        simp [notChild]
      simp only [release, if_true]
      by_cases isFreed : indegree child - 1 = 0
      · -- no mention of the child is left, so that it is freed only now
        have noMore : child ∉ rest := by
          rw [← List.count_eq_zero]
          omega
        rw [if_pos isFreed]
        refine ⟨List.nodup_cons.mpr ⟨fun again => noMore ((members child).mp again).1, nodup⟩, ?_⟩
        intro id
        by_cases isChild : id = child
        · subst isChild
          rw [List.count_cons_self, List.count_eq_zero.mpr noMore]
          simp
          omega
        · rw [List.mem_cons, freedRest id isChild]
          simp [isChild]
      · rw [if_neg isFreed]
        refine ⟨nodup, fun id => ?_⟩
        by_cases isChild : id = child
        · subst isChild
          rw [members, if_pos rfl, List.count_cons_self]
          simp only [List.mem_cons, true_or, true_and]
          push_cast
          constructor
          · rintro ⟨-, same⟩
            omega
          · intro same
            refine ⟨?_, by omega⟩
            rw [← List.count_pos_iff]
            omega
        · exact freedRest id isChild

/-! ## Kahn's algorithm -/

/-- A round takes the first package of the queue. -/
theorem frontier_round (built : Built graph) {indegree : String → ℤ} {id : String}
    {queue order : List String}
    (frontier : Frontier graph.dependencies graph.order (id :: queue) order)
    (counts : ∀ other, indegree other = missing (graph.dependencies other) order) :
    Frontier graph.dependencies graph.order
        (Go.sortStrings (queue ++ (release indegree (graph.children id)).2)) (order ++ [id]) ∧
      ∀ other, (release indegree (graph.children id)).1 other =
        missing (graph.dependencies other) (order ++ [id]) := by
  have fresh : id ∉ order := fun isTaken =>
    (List.nodup_append.mp frontier.nodup).2.2 id isTaken id List.mem_cons_self rfl
  have taken : ∀ other, indegree other = (missing (graph.dependencies other) (order ++ [id]) : ℤ) +
      (graph.children id).count other := by
    intro other
    rw [counts, missing_snoc fresh, count_children built]
    push_cast
    rfl
  have enough : ∀ other, ((graph.children id).count other : ℤ) ≤ indegree other := by
    intro other
    rw [taken]
    omega
  rcases release_freed (fun other (_ : other ∈ graph.children id) => enough other) with ⟨freedNodup, members⟩
  constructor
  · refine frontier.takeCounted dependencies_outside freedNodup (fun other => ?_)
      (Go.sortStrings_perm _) (List.pairwise_insertionSort _ _)
    rw [members, taken, ← List.count_pos_iff, count_children built, List.count_pos_iff]
    constructor
    · rintro ⟨isDep, same⟩
      exact ⟨isDep, by omega⟩
    · rintro ⟨isDep, same⟩
      exact ⟨isDep, by omega⟩
  · intro other
    rw [release_indegree, taken]
    omega

/-- The rounds that are left take what can be taken. -/
theorem frontier_drain (built : Built graph) {rounds : ℕ} {indegree : String → ℤ}
    {queue order : List String} (frontier : Frontier graph.dependencies graph.order queue order)
    (counts : ∀ other, indegree other = missing (graph.dependencies other) order)
    (enough : graph.order.length ≤ order.length + rounds) :
    Frontier graph.dependencies graph.order [] (order ++ graph.drain rounds indegree queue) := by
  induction rounds generalizing indegree queue order with
  | zero =>
      have isNil := frontier.ready_eq_nil enough
      rw [drain, List.append_nil, ← isNil]
      exact frontier
  | succ rounds ih =>
      cases queue with
      | nil =>
          rw [drain, List.append_nil]
          exact frontier
      | cons id queue =>
          rcases frontier_round built frontier counts with ⟨next, nextCounts⟩
          rw [drain, List.append_cons]
          refine ih next nextCounts ?_
          rw [List.length_append, List.length_singleton]
          omega

/-- The algorithm's order, or what it takes of a graph that has none. -/
theorem frontier_topological (built : Built graph) :
    ∃ order, Frontier graph.dependencies graph.order [] order ∧
      graph.topological =
        if order.length = graph.order.length then .ok order
        else .error "plan: dependency cycle detected" := by
  have indegree : ∀ id, ((graph.get id).map fun wp => (wp.dependsOn.length : ℤ)).getD 0 =
      missing (graph.dependencies id) [] := by
    intro id
    rw [missing_nil, dependencies]
    cases graph.get id with
    | none => rfl
    | some wp => rfl
  have start : Frontier graph.dependencies graph.order (Go.sortStrings (graph.order.filter
      fun id => ((graph.get id).map fun wp => (wp.dependsOn.length : ℤ)).getD 0 = 0)) [] := by
    refine .start ?_ (List.pairwise_insertionSort _ _) fun id => ?_
    · exact (Go.sortStrings_perm _).nodup_iff.mpr (built.nodup.filter _)
    · rw [(Go.sortStrings_perm _).mem_iff, List.mem_filter, indegree, missing_nil]
      simp
  refine ⟨_, frontier_drain built start indegree (Nat.le_add_left _ _), ?_⟩
  rw [List.nil_append]
  simp only [topological, built.length_entries, ne_eq, ite_not]

/-- The order is the least topological one, or there is none. -/
theorem topological_spec (built : Built graph) :
    (∃ order, graph.topological = .ok order ∧
        LeastOrder graph.dependencies graph.order order) ∨
      (∃ message, graph.topological = .error message) ∧
        ¬ (Closed graph.dependencies graph.order ∧ Acyclic graph.dependencies) := by
  rcases frontier_topological built with ⟨order, frontier, isOrder⟩
  rw [isOrder]
  by_cases all : order.length = graph.order.length
  · rw [if_pos all]
    exact .inl ⟨order, rfl, frontier.leastOrder built.nodup (frontier.perm_iff.mpr all)⟩
  · rw [if_neg all]
    refine .inr ⟨⟨_, rfl⟩, fun acyclic => all ?_⟩
    exact ((frontier.perm_iff_acyclic built.nodup dependencies_outside).mpr acyclic).length_eq

/-! ## Validation -/

theorem validateDependencies_iff {id : String} {deps : List String} :
    graph.validateDependencies id deps = .ok () ↔
      ∀ dep ∈ deps, dep ≠ id ∧ (graph.get dep).isSome := by
  induction deps with
  | nil => simp [validateDependencies]
  | cons dep rest ih =>
      rw [validateDependencies]
      by_cases isSelf : dep = id
      · simp [isSelf]
      · rw [if_neg isSelf]
        cases isWp : graph.get dep with
        | none => simp [isWp]
        | some wp => simp [isWp, isSelf, ih]

theorem forM_ok_iff {α : Type} {check : α → Except String Unit} {listed : List α} :
    listed.forM check = .ok () ↔ ∀ item ∈ listed, check item = .ok () := by
  induction listed with
  | nil => simp [pure, Except.pure]
  | cons item rest ih =>
      rw [List.forM]
      cases isOk : check item with
      | error message => simp [isOk, bind, Except.bind]
      | ok _ => simpa [isOk, bind, Except.bind] using ih

theorem mem_list {wp : WorkPackage} : wp ∈ graph.list ↔ graph.get wp.id = some wp := by
  rw [list, List.mem_filterMap]
  constructor
  · rintro ⟨id, -, isWp⟩
    rwa [graph.identified id wp isWp]
  · intro isWp
    exact ⟨wp.id, mem_order.mpr (by simp [isWp]), isWp⟩

/-- Every dependency names a work package. -/
def NamesPackages (graph : Graph) : Prop :=
  ∀ id wp, graph.get id = some wp → ∀ dep ∈ wp.dependsOn, (graph.get dep).isSome

theorem closed_iff : Closed graph.dependencies graph.order ↔ graph.NamesPackages := by
  constructor
  · intro closed id wp isWp dep isDep
    rw [← dependencies_of_get isWp] at isDep
    exact mem_order.mp (closed id (mem_order.mpr (by simp [isWp])) dep isDep)
  · intro names id isId dep isDep
    rcases Option.isSome_iff_exists.mp (mem_order.mp isId) with ⟨wp, isWp⟩
    rw [dependencies_of_get isWp] at isDep
    exact mem_order.mpr (names id wp isWp dep isDep)

theorem dependencies_checked_iff (graph : Graph) :
    (graph.list.forM fun wp => graph.validateDependencies wp.id wp.dependsOn) = .ok () ↔
      graph.NamesPackages ∧ ∀ id, id ∉ graph.dependencies id := by
  simp only [forM_ok_iff, validateDependencies_iff, mem_list]
  constructor
  · intro checks
    refine ⟨fun id wp isWp dep isDep => ?_, fun id isSelf => ?_⟩
    · have sameId := graph.identified id wp isWp
      exact (checks wp (by rwa [sameId]) dep isDep).2
    · cases isWp : graph.get id with
      | none => simp [dependencies, isWp] at isSelf
      | some wp =>
          rw [dependencies_of_get isWp] at isSelf
          have sameId := graph.identified id wp isWp
          exact (checks wp (by rwa [sameId]) id isSelf).1 sameId.symm
  · rintro ⟨names, notSelf⟩ wp isWp dep isDep
    refine ⟨?_, names wp.id wp isWp dep isDep⟩
    rintro rfl
    exact notSelf wp.id (by rwa [dependencies_of_get isWp])

theorem validate_iff (built : Built graph) :
    graph.validate = .ok () ↔ graph.NamesPackages ∧ Acyclic graph.dependencies := by
  rw [validate]
  cases checks : graph.list.forM fun wp => graph.validateDependencies wp.id wp.dependsOn with
  | error message =>
      have unchecked := dependencies_checked_iff graph
      rw [checks] at unchecked
      constructor
      · intro isOk
        cases isOk
      · rintro ⟨names, acyclic⟩
        have notSelf : ∀ id, id ∉ graph.dependencies id :=
          fun id isSelf => acyclic id (Relation.TransGen.single isSelf)
        exact absurd (unchecked.mpr ⟨names, notSelf⟩) (by simp)
  | ok _ =>
      have names := ((dependencies_checked_iff graph).mp checks).1
      rcases topological_spec built with ⟨order, isOrder, least⟩ | ⟨⟨message, isError⟩, notOrdered⟩
      · rw [isOrder]
        exact ⟨fun _ => ⟨names, least.acyclic built.nodup dependencies_outside⟩, fun _ => rfl⟩
      · rw [isError]
        constructor
        · intro isOk
          cases isOk
        · rintro ⟨-, acyclic⟩
          exact absurd ⟨closed_iff.mpr names, acyclic⟩ notOrdered

theorem topological_of_valid (built : Built graph) (valid : graph.validate = .ok ()) :
    ∃ order, graph.topological = .ok order ∧
      LeastOrder graph.dependencies graph.order order := by
  rcases (validate_iff built).mp valid with ⟨names, acyclic⟩
  rcases topological_spec built with isOrder | ⟨-, notOrdered⟩
  · exact isOrder
  · exact absurd ⟨closed_iff.mpr names, acyclic⟩ notOrdered

/-- The order depends on the dependencies alone. -/
theorem topological_congr {other : Graph} {order : List String} (built : Built graph)
    (otherBuilt : Built other) (least : LeastOrder graph.dependencies graph.order order)
    (same : ∀ id, other.get id = graph.get id) : other.topological = .ok order := by
  have dependencies : other.dependencies = graph.dependencies := by
    funext id
    rw [Graph.dependencies, same, Graph.dependencies]
  have perm : other.order.Perm graph.order :=
    (List.perm_ext_iff_of_nodup otherBuilt.nodup built.nodup).mpr fun id => by
      rw [mem_order, mem_order, same]
  rcases topological_spec otherBuilt with ⟨otherOrder, isOther, otherLeast⟩ | ⟨-, notOrdered⟩
  · have carried : LeastOrder graph.dependencies graph.order otherOrder :=
      otherLeast.carry perm (by simp [dependencies])
    rw [isOther, carried.unique least]
  · refine absurd ⟨?_, ?_⟩ notOrdered
    · intro id isId dep isDep
      rw [dependencies] at isDep
      exact perm.mem_iff.mpr (least.closed id (perm.mem_iff.mp isId) dep isDep)
    · rw [dependencies]
      exact least.acyclic built.nodup dependencies_outside

/-! ## Readiness -/

/-- No package is running or deficient, and not all are completed. -/
structure Waiting (graph : Graph) : Prop where
  states : ∀ id wp, graph.get id = some wp →
    wp.state = .proposed ∨ wp.state = .ready ∨ wp.state = .completed
  unfinished : ∃ id wp, graph.get id = some wp ∧ wp.state ≠ .completed

/-- A package that is not completed, all whose dependencies are, is ready. -/
theorem ready_of_waiting (names : graph.NamesPackages) (acyclic : Acyclic graph.dependencies)
    (waiting : graph.Waiting) : graph.ready ≠ [] := by
  rcases waiting.unfinished with ⟨id, wp, isWp, notCompleted⟩
  have isOpen : id ∈ graph.order.filter fun id =>
      (graph.get id).any fun wp => wp.state ≠ .completed :=
    List.mem_filter.mpr ⟨mem_order.mpr (by simp [isWp]), by simp [isWp, notCompleted]⟩
  rcases acyclic.exists_free (List.ne_nil_of_mem isOpen) with ⟨next, isNext, free⟩
  rcases List.mem_filter.mp isNext with ⟨isListed, isWaiting⟩
  rcases Option.isSome_iff_exists.mp (mem_order.mp isListed) with ⟨nextWp, isNextWp⟩
  have nextOpen : nextWp.state ≠ .completed := by simpa [isNextWp] using isWaiting
  have isReady : graph.isReady nextWp := by
    have dispatchable : nextWp.state = .proposed ∨ nextWp.state = .ready := by
      rcases waiting.states next nextWp isNextWp with proposed | ready | completed
      · exact .inl proposed
      · exact .inr ready
      · exact absurd completed nextOpen
    rw [Graph.isReady, Bool.and_eq_true, List.all_eq_true]
    refine ⟨by simpa using dispatchable, fun dep isDep => ?_⟩
    rcases Option.isSome_iff_exists.mp (names next nextWp isNextWp dep isDep) with ⟨depWp, isDepWp⟩
    have notOpen := free dep (by rwa [dependencies_of_get isNextWp])
    by_contra notCompleted
    refine notOpen (List.mem_filter.mpr ⟨mem_order.mpr (by simp [isDepWp]), ?_⟩)
    simpa [isDepWp] using notCompleted
  have isReadyId : next ∈ graph.ready := by
    rw [ready, (Go.sortStrings_perm _).mem_iff]
    exact List.mem_filter.mpr ⟨isListed, by simp [isNextWp, isReady]⟩
  exact List.ne_nil_of_mem isReadyId

/-- What validation says of a graph, the order of a graph that validates, and that some package
of it is ready. -/
theorem validate_topological_ready (built : Built graph) :
    (graph.validate = .ok () ↔ graph.NamesPackages ∧ Acyclic graph.dependencies) ∧
      (graph.validate = .ok () → ∃ order, graph.topological = .ok order ∧
        LeastOrder graph.dependencies graph.order order ∧
        ∀ other, Built other → (∀ id, other.get id = graph.get id) →
          other.topological = .ok order) ∧
      (graph.validate = .ok () → graph.Waiting → graph.ready ≠ []) := by
  refine ⟨validate_iff built, fun valid => ?_, fun valid waiting => ?_⟩
  · rcases topological_of_valid built valid with ⟨order, isOrder, least⟩
    exact ⟨order, isOrder, least, fun other otherBuilt same =>
      topological_congr built otherBuilt least same⟩
  · rcases (validate_iff built).mp valid with ⟨names, acyclic⟩
    exact ready_of_waiting names acyclic waiting

/-- Packages that mention a dependency twice. -/
def mentions : List WorkPackage :=
  [{ id := "c", dependsOn := ["b", "a", "b"] }, { id := "b", state := .completed }, { id := "a" }]

theorem mentions_ordering : ∃ graph, (new "p" "g").addAll mentions = .ok graph ∧
    (graph.validate = .ok () ↔ graph.NamesPackages ∧ Acyclic graph.dependencies) ∧
      (graph.validate = .ok () → ∃ order, graph.topological = .ok order ∧
        LeastOrder graph.dependencies graph.order order ∧
        ∀ other, Built other → (∀ id, other.get id = graph.get id) →
          other.topological = .ok order) ∧
      (graph.validate = .ok () → graph.Waiting → graph.ready ≠ []) := by
  have isOk : ((new "p" "g").addAll mentions).isOk = true := by decide +kernel
  cases adds : (new "p" "g").addAll mentions with
  | error message => simp [adds, Except.isOk, Except.toBool] at isOk
  | ok graph => exact ⟨graph, rfl, validate_topological_ready ((Built.new "p" "g").addAll adds)⟩

end Graph

end Aa.Kernel.Plan
