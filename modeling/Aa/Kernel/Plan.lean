import Aa.Library.GoText

/-!
# Work packages and their dependency graph

A graph is built by adding work packages and changes only in the states of its
packages, so that its order lists each package exactly once under its own id; these
facts are fields of the structure.
-/

namespace Aa.Kernel.Plan

open Aa.Library

/-- The lifecycle state of a work package; `unset` is the empty string. -/
inductive State where
  | unset
  | proposed
  | ready
  | running
  | completed
  | deficient
deriving DecidableEq

/-- A bounded, verifiable unit of work. -/
structure WorkPackage where
  id : String
  title : String := ""
  role : String := ""
  trade : String := ""
  capabilities : List String := []
  dependsOn : List String := []
  acceptance : List String := []
  state : State := .unset
deriving DecidableEq

/-- A dependency graph over work packages. -/
structure Graph where
  projectId : String
  id : String
  revision : ℤ := 1
  nodes : GoMap String WorkPackage := ∅
  order : List String := []
  ordered : ∀ id, id ∈ order ↔ id ∈ nodes
  named : ∀ id ∈ order, id ≠ ""
  identified : ∀ id wp, nodes.lookup id = some wp → wp.id = id

namespace Graph

/-- An empty graph. -/
def new (projectId id : String) : Graph where
  projectId := projectId
  id := id
  ordered := by simp
  named := by simp
  identified := by simp

theorem identified_insert {nodes : GoMap String WorkPackage} {wp : WorkPackage}
    (identified : ∀ id wp, nodes.lookup id = some wp → wp.id = id) (id : String)
    (other : WorkPackage) (found : (nodes.insert wp.id wp).lookup id = some other) :
    other.id = id := by
  by_cases same : id = wp.id
  · rw [same, AList.lookup_insert] at found
    rw [same, ← Option.some.inj found]
  · rw [AList.lookup_insert_ne same] at found
    exact identified id other found

/-- Inserts a work package; the state defaults to proposed. -/
def add (graph : Graph) (wp : WorkPackage) : Except String Graph :=
  if named : wp.id = "" then .error "plan: work package id is required"
  else if (graph.nodes.lookup wp.id).isSome then
    .error ("plan: duplicate work package " ++ wp.id)
  else
    let stored := if wp.state = .unset then { wp with state := .proposed } else wp
    have sameId : stored.id = wp.id := by
      simp only [stored]
      split <;> rfl
    .ok
      { graph with
        nodes := graph.nodes.insert stored.id stored
        order := graph.order ++ [wp.id]
        ordered := by
          intro id
          rw [AList.mem_insert, ← graph.ordered, sameId]
          simp [or_comm]
        named := by
          intro id idMem
          rcases List.mem_append.mp idMem with earlier | last
          · exact graph.named id earlier
          · rwa [List.mem_singleton.mp last]
        identified := identified_insert graph.identified }

def get (graph : Graph) (id : String) : Option WorkPackage := graph.nodes.lookup id

/-- The dependencies of a work package. -/
def dependencies (graph : Graph) (id : String) : List String :=
  ((graph.get id).map (·.dependsOn)).getD []

/-- The work packages in insertion order. -/
def list (graph : Graph) : List WorkPackage := graph.order.filterMap graph.get

/-- The dependency check of one work package. -/
def validateDependencies (graph : Graph) (id : String) : List String → Except String Unit
  | [] => .ok ()
  | dep :: rest =>
      if dep = id then .error ("plan: " ++ id ++ " depends on itself")
      else if (graph.get dep).isNone then
        .error ("plan: " ++ id ++ " depends on missing " ++ dep)
      else graph.validateDependencies id rest

/-- The entries of a work package in the lists of children: one for each mention of the
package among the dependencies. -/
def children (graph : Graph) (id : String) : List String :=
  Go.sortStrings (graph.list.flatMap fun wp =>
    (wp.dependsOn.filter (· = id)).map fun _ => wp.id)

/-- One round of Kahn's algorithm over the children of the package taken: the indegrees
left, and the packages whose last dependency this was. -/
def release (indegree : String → ℤ) : List String → (String → ℤ) × List String
  | [] => (indegree, [])
  | child :: rest =>
      let lowered := fun id => if id = child then indegree id - 1 else indegree id
      let (final, freed) := release lowered rest
      (final, if lowered child = 0 then child :: freed else freed)

/-- Kahn's algorithm from a sorted queue. Every round takes one package, and none is taken
twice, so that the number of packages bounds the rounds. -/
def drain (graph : Graph) : ℕ → (String → ℤ) → List String → List String
  | 0, _, _ => []
  | _ + 1, _, [] => []
  | rounds + 1, indegree, id :: queue =>
      let (indegree, freed) := release indegree (graph.children id)
      id :: graph.drain rounds indegree (Go.sortStrings (queue ++ freed))

/-- The ids in deterministic dependency order. -/
def topological (graph : Graph) : Except String (List String) :=
  let indegree := fun id => ((graph.get id).map fun wp => (wp.dependsOn.length : ℤ)).getD 0
  let queue := Go.sortStrings (graph.order.filter fun id => indegree id = 0)
  let order := graph.drain graph.order.length indegree queue
  if order.length ≠ graph.nodes.entries.length then .error "plan: dependency cycle detected"
  else .ok order

/-- Checks for missing dependencies, self-dependencies, and cycles. -/
def validate (graph : Graph) : Except String Unit := do
  graph.list.forM fun wp => graph.validateDependencies wp.id wp.dependsOn
  let _ ← graph.topological
  return ()

/-- Updates the state of a work package; an unknown one is an error. -/
def setState (graph : Graph) (id : String) (state : State) : Except String Graph :=
  match found : graph.nodes.lookup id with
  | none => .error ("plan: unknown work package: " ++ id)
  | some wp =>
      have sameId : wp.id = id := graph.identified id wp found
      .ok
        { graph with
          nodes := graph.nodes.insert ({ wp with state := state } : WorkPackage).id
            { wp with state := state }
          ordered := by
            intro other
            rw [AList.mem_insert, graph.ordered, sameId]
            constructor
            · exact Or.inr
            · rintro (rfl | present)
              · exact AList.lookup_isSome.mp (by simp [found])
              · exact present
          named := graph.named
          identified := identified_insert graph.identified }

/-- A state update whose error is ignored. -/
def setStateIgnoring (graph : Graph) (id : String) (state : State) : Graph :=
  match graph.setState id state with
  | .ok graph => graph
  | .error _ => graph

/-- Whether a work package is not yet dispatched and its dependencies are all completed. -/
def isReady (graph : Graph) (wp : WorkPackage) : Bool :=
  (wp.state = .proposed || wp.state = .ready) &&
    wp.dependsOn.all fun dep =>
      (graph.get dep).any fun depWp => depWp.state = .completed

/-- The ids of the ready work packages, sorted. -/
def ready (graph : Graph) : List String :=
  Go.sortStrings (graph.order.filter fun id => (graph.get id).any graph.isReady)

/-- The state of a work package. -/
def stateOf (graph : Graph) (id : String) : Option State := (graph.get id).map (·.state)

theorem stateOf_setState {graph : Graph} {id : String} (present : (graph.get id).isSome)
    (state : State) (other : String) :
    (graph.setStateIgnoring id state).stateOf other =
      if other = id then some state else graph.stateOf other := by
  unfold setStateIgnoring setState
  split
  · rename_i updated updateEq
    split at updateEq
    · simp at updateEq
    · rename_i wp found
      have sameId : wp.id = id := graph.identified id wp found
      cases updateEq
      simp only [stateOf, get, sameId]
      by_cases same : other = id
      · rw [same, AList.lookup_insert, if_pos rfl]
        rfl
      · rw [AList.lookup_insert_ne same, if_neg same]
  · rename_i message failed
    split at failed
    · rename_i missing
      simp [get, missing] at present
    · simp at failed

theorem get_isSome_setState (graph : Graph) (id other : String) (state : State) :
    ((graph.setStateIgnoring id state).get other).isSome = (graph.get other).isSome := by
  unfold setStateIgnoring setState
  split
  · rename_i updated updateEq
    split at updateEq
    · simp at updateEq
    · rename_i wp found
      have sameId : wp.id = id := graph.identified id wp found
      cases updateEq
      simp only [get, sameId]
      by_cases same : other = id
      · rw [same, AList.lookup_insert, found]
        rfl
      · rw [AList.lookup_insert_ne same]
  · rfl

theorem mem_ready {graph : Graph} {id : String} (isReady : id ∈ graph.ready) :
    id ≠ "" ∧ ∃ wp, graph.get id = some wp ∧ (wp.state = .proposed ∨ wp.state = .ready) := by
  simp only [ready, Go.sortStrings, List.mem_insertionSort, List.mem_filter] at isReady
  rcases isReady with ⟨ordered, dispatchable⟩
  rcases Option.any_eq_true_iff_get _ _ |>.mp dispatchable with ⟨present, readyNow⟩
  refine ⟨graph.named id ordered, (graph.get id).get present, by simp, ?_⟩
  simp only [Graph.isReady, Bool.and_eq_true, Bool.or_eq_true, decide_eq_true_eq] at readyNow
  exact readyNow.1

end Graph

end Aa.Kernel.Plan
