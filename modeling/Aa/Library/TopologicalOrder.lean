import Mathlib.Data.Fintype.EquivFin
import Mathlib.Data.List.Lex
import Mathlib.Data.Set.Finite.List
import Mathlib.Logic.Relation

/-!
# Dependency orders

A list lists dependencies first when each element comes after everything it depends
on. Then it also comes after everything upstream of it, along any chain of
dependencies, whatever the graph looks like outside the list.

A topological order of some nodes lists each of them once, dependencies first. There is one
exactly if the nodes are closed under dependencies and no node is upstream of itself. The
worklist algorithm that always takes the least node whose dependencies are all taken finds the
lexicographically least one, or takes fewer nodes than there are if there is none.
-/

namespace Aa.Library

universe u

variable {Node : Type u}

/-- `Upstream dependencies dep node`: a chain of dependencies leads from `node` to `dep`. -/
def Upstream (dependencies : Node → List Node) : Node → Node → Prop :=
  Relation.TransGen fun dep node => dep ∈ dependencies node

/-- Every element of the list comes after all its dependencies. -/
def DependenciesFirst (dependencies : Node → List Node) (order : List Node) : Prop :=
  ∀ before node after, order = before ++ node :: after →
    ∀ dep ∈ dependencies node, dep ∈ before

/-- The ways to split a list with one more element at its end. -/
theorem snoc_eq_append_cons {order before after : List Node} {node next : Node}
    (orderEq : order ++ [node] = before ++ next :: after) :
    (after = [] ∧ before = order ∧ next = node) ∨
      ∃ rest, after = rest ++ [node] ∧ order = before ++ next :: rest := by
  rcases List.eq_nil_or_concat after with rfl | ⟨rest, last, rfl⟩
  · rcases List.append_inj' orderEq rfl with ⟨rfl, sameNode⟩
    exact .inl ⟨rfl, rfl, (List.cons.inj sameNode).1.symm⟩
  · rw [List.concat_eq_append, ← List.cons_append, ← List.append_assoc] at orderEq
    rcases List.append_inj' orderEq rfl with ⟨rfl, sameLast⟩
    exact .inr ⟨rest, by rw [List.concat_eq_append, sameLast], rfl⟩

namespace DependenciesFirst

variable {dependencies : Node → List Node} {order before after : List Node} {node dep : Node}

theorem nil : DependenciesFirst dependencies [] := by
  intro before node after orderEq
  simp at orderEq

theorem snoc (first : DependenciesFirst dependencies order)
    (released : ∀ dep ∈ dependencies node, dep ∈ order) :
    DependenciesFirst dependencies (order ++ [node]) := by
  intro before next after orderEq
  rcases snoc_eq_append_cons orderEq with ⟨rfl, rfl, rfl⟩ | ⟨rest, rfl, isSplit⟩
  · exact released
  · exact first before next rest isSplit

/-- Everything upstream of an element comes before it. -/
theorem upstream_mem (first : DependenciesFirst dependencies order)
    (orderEq : order = before ++ node :: after) (upstream : Upstream dependencies dep node) :
    dep ∈ before := by
  induction upstream generalizing before after with
  | single isDep => exact first before _ after orderEq _ isDep
  | tail _ isDep ih =>
      rcases List.append_of_mem (first before _ after orderEq _ isDep) with ⟨early, late, rfl⟩
      rw [List.append_assoc] at orderEq
      exact List.mem_append_left _ (ih orderEq)

end DependenciesFirst

/-! ## Topological orders -/

/-- Lists each of the nodes once, dependencies first. -/
structure TopologicalOrder (dependencies : Node → List Node) (nodes order : List Node) : Prop where
  perm : order.Perm nodes
  first : DependenciesFirst dependencies order

/-- No node is upstream of itself. -/
def Acyclic (dependencies : Node → List Node) : Prop :=
  ∀ node, ¬ Upstream dependencies node node

/-- The dependencies of nodes are nodes. -/
def Closed (dependencies : Node → List Node) (nodes : List Node) : Prop :=
  ∀ node ∈ nodes, ∀ dep ∈ dependencies node, dep ∈ nodes

section Existence

variable {dependencies : Node → List Node} {nodes order : List Node}

theorem Acyclic.congr {others : Node → List Node} (acyclic : Acyclic dependencies)
    (same : ∀ node, ∀ dep ∈ others node, dep ∈ dependencies node) : Acyclic others :=
  fun node cycle =>
    acyclic node (Relation.TransGen.mono (fun dep next isDep => same next dep isDep) _ _ cycle)

theorem TopologicalOrder.carry {others : Node → List Node} {listed : List Node}
    (topological : TopologicalOrder dependencies nodes order) (perm : nodes.Perm listed)
    (same : ∀ node dep, dep ∈ dependencies node ↔ dep ∈ others node) :
    TopologicalOrder others listed order where
  perm := topological.perm.trans perm
  first := fun before node after isSplit dep isDep =>
    topological.first before node after isSplit dep ((same node dep).mpr isDep)

theorem TopologicalOrder.closed (topological : TopologicalOrder dependencies nodes order) :
    Closed dependencies nodes := by
  intro node isNode dep isDep
  rcases List.append_of_mem (topological.perm.mem_iff.mpr isNode) with ⟨before, after, isSplit⟩
  have isBefore := topological.first before node after isSplit dep isDep
  exact topological.perm.mem_iff.mp (by simp [isSplit, isBefore])

/-- No node of an order is upstream of itself. -/
theorem TopologicalOrder.not_upstream_self (topological : TopologicalOrder dependencies nodes order)
    (nodup : nodes.Nodup) {node : Node} (isNode : node ∈ nodes) :
    ¬ Upstream dependencies node node := by
  intro cycle
  rcases List.append_of_mem (topological.perm.mem_iff.mpr isNode) with ⟨before, after, isSplit⟩
  have isBefore := topological.first.upstream_mem isSplit cycle
  have orderNodup := topological.perm.nodup_iff.mpr nodup
  rw [isSplit] at orderNodup
  exact (List.nodup_append.mp orderNodup).2.2 node isBefore node List.mem_cons_self rfl

theorem TopologicalOrder.acyclic (topological : TopologicalOrder dependencies nodes order)
    (nodup : nodes.Nodup) (outside : ∀ node, node ∉ nodes → dependencies node = []) :
    Acyclic dependencies := by
  intro node cycle
  by_cases isNode : node ∈ nodes
  · exact topological.not_upstream_self nodup isNode cycle
  · cases cycle with
    | single isDep => simp [outside node isNode] at isDep
    | tail _ isDep => simp [outside node isNode] at isDep

/-- Of finitely many nodes of an acyclic graph, some depend on no other of them. -/
theorem Acyclic.exists_free (acyclic : Acyclic dependencies) {remaining : List Node}
    (nonempty : remaining ≠ []) :
    ∃ node ∈ remaining, ∀ dep ∈ dependencies node, dep ∉ remaining := by
  let upstream := fun left right : {node // node ∈ remaining} =>
    Upstream dependencies left.1 right.1
  have finite : Finite {node // node ∈ remaining} := (List.finite_toSet remaining).to_subtype
  have trans : IsTrans _ upstream := ⟨fun _ _ _ left right => left.trans right⟩
  have irrefl : Std.Irrefl upstream := ⟨fun node => acyclic node.1⟩
  have wellFounded : WellFounded upstream := Finite.wellFounded_of_trans_of_irrefl upstream
  rcases List.exists_mem_of_ne_nil remaining nonempty with ⟨some, isSome⟩
  rcases wellFounded.has_min Set.univ ⟨⟨some, isSome⟩, trivial⟩ with ⟨⟨node, isNode⟩, -, minimal⟩
  refine ⟨node, isNode, fun dep isDep isRemaining => ?_⟩
  exact minimal ⟨dep, isRemaining⟩ trivial (Relation.TransGen.single isDep)

end Existence

/-! ## The least order -/

section Least

variable [LinearOrder Node] {dependencies : Node → List Node} {nodes order : List Node}

/-- The lexicographically least topological order. -/
structure LeastOrder (dependencies : Node → List Node) (nodes order : List Node) : Prop extends
    TopologicalOrder dependencies nodes order where
  least : ∀ other, TopologicalOrder dependencies nodes other → order ≤ other

/-- How the nodes and the dependencies are listed does not matter. -/
theorem LeastOrder.carry {others : Node → List Node} {listed : List Node}
    (isLeast : LeastOrder dependencies nodes order) (perm : nodes.Perm listed)
    (same : ∀ node dep, dep ∈ dependencies node ↔ dep ∈ others node) :
    LeastOrder others listed order :=
  { isLeast.toTopologicalOrder.carry perm same with
    least := fun other isOther =>
      isLeast.least other (isOther.carry perm.symm fun node dep => (same node dep).symm) }

theorem LeastOrder.unique {order' : List Node} (isLeast : LeastOrder dependencies nodes order)
    (isLeast' : LeastOrder dependencies nodes order') : order = order' :=
  le_antisymm (isLeast.least order' isLeast'.toTopologicalOrder)
    (isLeast'.least order isLeast.toTopologicalOrder)

/-- Each element is the least of the nodes whose dependencies all come before it and that do
not come before it themselves. -/
def LeastFirst (dependencies : Node → List Node) (nodes order : List Node) : Prop :=
  ∀ before node after, order = before ++ node :: after → ∀ other ∈ nodes, other ∉ before →
    (∀ dep ∈ dependencies other, dep ∈ before) → node ≤ other

namespace LeastFirst

theorem nil : LeastFirst dependencies nodes [] := by
  intro before node after orderEq
  simp at orderEq

theorem snoc {node : Node} (least : LeastFirst dependencies nodes order)
    (isLeast : ∀ other ∈ nodes, other ∉ order → (∀ dep ∈ dependencies other, dep ∈ order) →
      node ≤ other) : LeastFirst dependencies nodes (order ++ [node]) := by
  intro before next after orderEq
  rcases snoc_eq_append_cons orderEq with ⟨rfl, rfl, rfl⟩ | ⟨rest, rfl, isSplit⟩
  · exact isLeast
  · exact least before next rest isSplit

/-- From any common start, the rest of another topological order is not less. -/
theorem rest_le (least : LeastFirst dependencies nodes order) {before rest others : List Node}
    (isSplit : order = before ++ rest)
    (topological : TopologicalOrder dependencies nodes (before ++ others))
    (nodup : nodes.Nodup) (length : rest.length = others.length) : rest ≤ others := by
  induction rest generalizing before others with
  | nil => rw [List.length_eq_zero_iff.mp length.symm]
  | cons node rest ih =>
      cases others with
      | nil => simp at length
      | cons other others =>
          have otherNodup := topological.perm.nodup_iff.mpr nodup
          have isNode : other ∈ nodes := topological.perm.mem_iff.mp (by simp)
          have fresh : other ∉ before := fun isBefore =>
            (List.nodup_append.mp otherNodup).2.2 other isBefore other List.mem_cons_self rfl
          have released := topological.first before other others rfl
          have notGreater := least before node rest isSplit other isNode fresh released
          rcases lt_or_eq_of_le notGreater with less | rfl
          · exact le_of_lt (List.Lex.rel less)
          · refine List.cons_le_cons node ?_
            rw [List.append_cons] at isSplit topological
            exact ih isSplit topological (by simpa using length)

theorem leastOrder (least : LeastFirst dependencies nodes order) (nodup : nodes.Nodup)
    (topological : TopologicalOrder dependencies nodes order) :
    LeastOrder dependencies nodes order :=
  { topological with
    least := fun _ isOther => @rest_le _ _ _ _ _ least [] _ _ rfl isOther nodup
      (topological.perm.length_eq.trans isOther.perm.length_eq.symm) }

end LeastFirst

/-! ## The worklist algorithm -/

/-- The number of mentions of dependencies that are not taken yet. -/
def missing (dependencies taken : List Node) : ℕ := (dependencies.filter (· ∉ taken)).length

@[simp] theorem missing_nil (listed : List Node) : missing listed [] = listed.length := by
  simp [missing]

theorem missing_eq_zero_iff {listed taken : List Node} :
    missing listed taken = 0 ↔ ∀ dep ∈ listed, dep ∈ taken := by
  simp [missing, List.length_eq_zero_iff]

/-- Taking a node takes off all its mentions. -/
theorem missing_snoc {taken : List Node} {node : Node} (fresh : node ∉ taken)
    (listed : List Node) :
    missing listed taken = missing listed (taken ++ [node]) + listed.count node := by
  induction listed with
  | nil => rfl
  | cons dep listed ih =>
      unfold missing at ih ⊢
      by_cases isTaken : dep ∈ taken
      · have other : dep ≠ node := fun isNode => fresh (isNode ▸ isTaken)
        simpa [isTaken, List.count_cons, other] using ih
      · by_cases isNode : dep = node
        · subst isNode
          simp [isTaken] at ih ⊢
          omega
        · simp [isTaken, isNode] at ih ⊢
          omega

/-- The state of the algorithm: what is taken and, sorted, the nodes that can be taken. -/
structure Frontier (dependencies : Node → List Node) (nodes ready order : List Node) : Prop where
  nodup : (order ++ ready).Nodup
  reached : ∀ node, node ∈ order ++ ready ↔
    node ∈ nodes ∧ ∀ dep ∈ dependencies node, dep ∈ order
  sorted : ready.Pairwise (· ≤ ·)
  first : DependenciesFirst dependencies order
  least : LeastFirst dependencies nodes order

namespace Frontier

variable {ready next : List Node} {node : Node}

/-- At the start, the nodes without dependencies can be taken. -/
theorem start (nodup : ready.Nodup) (sorted : ready.Pairwise (· ≤ ·))
    (free : ∀ node, node ∈ ready ↔ node ∈ nodes ∧ dependencies node = []) :
    Frontier dependencies nodes ready [] where
  nodup := nodup
  reached := fun node => by rw [List.nil_append, free, List.eq_nil_iff_forall_not_mem]; simp
  sorted := sorted
  first := .nil
  least := .nil

/-- Taking the least node that can be taken, where the nodes whose last dependency it was can be
taken then. -/
theorem take (frontier : Frontier dependencies nodes (node :: ready) order) (nodup : next.Nodup)
    (sorted : next.Pairwise (· ≤ ·))
    (isNext : ∀ other, other ∈ next ↔ other ∈ ready ∨ other ∈ nodes ∧
      node ∈ dependencies other ∧ ∀ dep ∈ dependencies other, dep ∈ order ++ [node]) :
    Frontier dependencies nodes next (order ++ [node]) := by
  have isReached : node ∈ order ++ node :: ready := by simp
  have released := ((frontier.reached node).mp isReached).2
  have fresh : node ∉ order := fun isTaken =>
    (List.nodup_append.mp frontier.nodup).2.2 node isTaken node List.mem_cons_self rfl
  have notReady : node ∉ ready :=
    (List.nodup_cons.mp (List.nodup_append.mp frontier.nodup).2.1).1
  -- what depends on the node was not reached before
  have new : ∀ other, node ∈ dependencies other → other ∉ order ++ node :: ready :=
    fun other isDep isOld => fresh (((frontier.reached other).mp isOld).2 node isDep)
  refine ⟨?_, ?_, sorted, frontier.first.snoc released, frontier.least.snoc ?_⟩
  · refine List.nodup_append.mpr ⟨?_, nodup, ?_⟩
    · refine List.nodup_append.mpr ⟨(List.nodup_append.mp frontier.nodup).1,
        List.nodup_singleton node, ?_⟩
      rintro old isOld _ isNode rfl
      exact fresh (List.mem_singleton.mp isNode ▸ isOld)
    · rintro old isOld _ isNew rfl
      rcases (isNext old).mp isNew with isReady | ⟨-, isDep, -⟩
      · rcases List.mem_append.mp isOld with isTaken | isNode
        · exact (List.nodup_append.mp frontier.nodup).2.2 old isTaken old
            (List.mem_cons_of_mem _ isReady) rfl
        · exact notReady (List.mem_singleton.mp isNode ▸ isReady)
      · refine new old isDep ?_
        rcases List.mem_append.mp isOld with isTaken | isNode
        · exact List.mem_append_left _ isTaken
        · simp [List.mem_singleton.mp isNode]
  · intro other
    have before := frontier.reached other
    simp only [List.mem_append, List.mem_cons, List.not_mem_nil, or_false, isNext] at before ⊢
    constructor
    · rintro ((isTaken | isNode) | isReady | ⟨isNode, -, free⟩)
      · exact ⟨(before.mp (.inl isTaken)).1, fun dep isDep =>
          .inl ((before.mp (.inl isTaken)).2 dep isDep)⟩
      · exact ⟨(before.mp (.inr (.inl isNode))).1, fun dep isDep =>
          .inl ((before.mp (.inr (.inl isNode))).2 dep isDep)⟩
      · exact ⟨(before.mp (.inr (.inr isReady))).1, fun dep isDep =>
          .inl ((before.mp (.inr (.inr isReady))).2 dep isDep)⟩
      · exact ⟨isNode, free⟩
    · rintro ⟨isNode, free⟩
      by_cases isDep : node ∈ dependencies other
      · exact .inr (.inr ⟨isNode, isDep, free⟩)
      · have freeBefore : ∀ dep ∈ dependencies other, dep ∈ order := by
          intro dep isOther
          rcases free dep isOther with isTaken | rfl
          · exact isTaken
          · exact absurd isOther isDep
        rcases before.mpr ⟨isNode, freeBefore⟩ with isTaken | isHead | isReady
        · exact .inl (.inl isTaken)
        · exact .inl (.inr isHead)
        · exact .inr (.inl isReady)
  · intro other isNode notTaken free
    have isReady := (frontier.reached other).mpr ⟨isNode, free⟩
    rcases List.mem_append.mp isReady with isTaken | isReady
    · exact absurd isTaken notTaken
    · rcases List.mem_cons.mp isReady with rfl | isLater
      · exact le_rfl
      · exact List.rel_of_pairwise_cons frontier.sorted isLater

/-- Taking the least node, by counting the dependencies that are missing. -/
theorem takeCounted {freed : List Node} (frontier : Frontier dependencies nodes (node :: ready) order)
    (outside : ∀ node, node ∉ nodes → dependencies node = []) (freedNodup : freed.Nodup)
    (isFreed : ∀ other, other ∈ freed ↔
      node ∈ dependencies other ∧ missing (dependencies other) (order ++ [node]) = 0)
    (perm : next.Perm (ready ++ freed)) (sorted : next.Pairwise (· ≤ ·)) :
    Frontier dependencies nodes next (order ++ [node]) := by
  have fresh : node ∉ order := fun isTaken =>
    (List.nodup_append.mp frontier.nodup).2.2 node isTaken node List.mem_cons_self rfl
  have readyNodup : ready.Nodup :=
    (List.nodup_cons.mp (List.nodup_append.mp frontier.nodup).2.1).2
  have distinct : ∀ left ∈ ready, ∀ right ∈ freed, left ≠ right := by
    rintro left isReady _ isNew rfl
    have isReached : left ∈ order ++ node :: ready := by simp [isReady]
    exact fresh (((frontier.reached left).mp isReached).2 node ((isFreed left).mp isNew).1)
  refine frontier.take (perm.nodup_iff.mpr (List.nodup_append.mpr
    ⟨readyNodup, freedNodup, distinct⟩)) sorted fun other => ?_
  rw [perm.mem_iff, List.mem_append, isFreed, missing_eq_zero_iff]
  constructor
  · rintro (isReady | ⟨isDep, free⟩)
    · exact .inl isReady
    · refine .inr ⟨?_, isDep, free⟩
      by_contra notNode
      simp [outside other notNode] at isDep
  · rintro (isReady | ⟨-, isDep, free⟩)
    · exact .inl isReady
    · exact .inr ⟨isDep, free⟩

theorem reached_subset (frontier : Frontier dependencies nodes ready order) :
    order ++ ready ⊆ nodes :=
  fun node isReached => ((frontier.reached node).mp isReached).1

/-- When as many nodes are taken as there are, no other one can be taken. -/
theorem ready_eq_nil (frontier : Frontier dependencies nodes ready order)
    (all : nodes.length ≤ order.length) : ready = [] := by
  have length := (List.subperm_of_subset frontier.nodup frontier.reached_subset).length_le
  rw [List.length_append] at length
  exact List.length_eq_zero_iff.mp (by omega)

theorem perm_iff (frontier : Frontier dependencies nodes [] order) :
    order.Perm nodes ↔ order.length = nodes.length := by
  refine ⟨List.Perm.length_eq, fun length => ?_⟩
  have reached := List.subperm_of_subset frontier.nodup frontier.reached_subset
  rw [List.append_nil] at reached
  exact reached.perm_of_length_le length.ge

/-- The algorithm takes all nodes exactly if they are closed and acyclic. -/
theorem perm_iff_acyclic (frontier : Frontier dependencies nodes [] order) (nodup : nodes.Nodup)
    (outside : ∀ node, node ∉ nodes → dependencies node = []) :
    order.Perm nodes ↔ Closed dependencies nodes ∧ Acyclic dependencies := by
  constructor
  · intro perm
    have topological : TopologicalOrder dependencies nodes order := ⟨perm, frontier.first⟩
    exact ⟨topological.closed, topological.acyclic nodup outside⟩
  · rintro ⟨closed, acyclic⟩
    have reached := frontier.reached
    simp only [List.append_nil] at reached
    have all : nodes.filter (· ∉ order) = [] := by
      by_contra remains
      rcases acyclic.exists_free remains with ⟨node, isRemaining, free⟩
      rw [List.mem_filter] at isRemaining
      have notTaken : node ∉ order := by simpa using isRemaining.2
      refine notTaken ((reached node).mpr ⟨isRemaining.1, fun dep isDep => ?_⟩)
      by_contra depNotTaken
      refine free dep isDep (List.mem_filter.mpr ⟨closed node isRemaining.1 dep isDep, ?_⟩)
      simpa using depNotTaken
    have covers : nodes ⊆ order := by
      intro node isNode
      by_contra notTaken
      exact List.filter_eq_nil_iff.mp all node isNode (by simpa using notTaken)
    have orderNodup : order.Nodup := by simpa using frontier.nodup
    exact (List.perm_ext_iff_of_nodup orderNodup nodup).mpr fun node =>
      ⟨fun isTaken => ((reached node).mp isTaken).1, fun isNode => covers isNode⟩

theorem leastOrder (frontier : Frontier dependencies nodes [] order) (nodup : nodes.Nodup)
    (perm : order.Perm nodes) : LeastOrder dependencies nodes order :=
  frontier.least.leastOrder nodup ⟨perm, frontier.first⟩

end Frontier

end Least

end Aa.Library
