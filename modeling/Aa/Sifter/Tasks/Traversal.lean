import Mathlib.Data.Finset.Card
import Aa.Library.TopologicalOrder
import Aa.Sifter.Tasks.Graph

/-!
# Traversals of a task graph

The topological order is a depth-first search that marks the tasks on its way and the tasks it
has finished; it meets a task that is on its way exactly if the graph has a cycle. The descendants
of a task are what a search along the edges to it finds.
-/

namespace Aa.Sifter.Tasks

open Aa.Library

/-- What the traversals raise. -/
inductive GraphError where
  | valueError (message : String)
  | keyError (id : String)
  | recursionError
deriving DecidableEq

def GraphError.cycle : GraphError := .valueError "task graph contains a cycle"

/-- What the depth-first search keeps: the tasks it has put in order, those it is done with and
those on its way. -/
structure Marks where
  ordered : List String := []
  visited : Finset String := ∅
  temp : Finset String := ∅

namespace TaskGraph

variable (graph : TaskGraph)

/-- The visit of a task with room for `depth` nested calls. -/
def visit : ℕ → Marks → String → Except GraphError Marks
  | 0, _, _ => .error .recursionError
  | depth + 1, marks, id =>
      if id ∈ marks.visited then .ok marks
      else if id ∈ marks.temp then .error .cycle
      else if id ∉ graph.ids then .error (.keyError id)
      else do
        let entered := { marks with temp := insert id marks.temp }
        let left ← (graph.dependencies id).foldlM (visit depth) entered
        pure
          { temp := left.temp.erase id
            visited := insert id left.visited
            ordered := left.ordered ++ [id] }

/-- The tasks so that each comes after its dependencies. -/
def topologicalOrder (depth : ℕ) : Except GraphError (List String) :=
  (graph.ids.foldlM (graph.visit depth) {}).map Marks.ordered

/-- A task depends on itself through some chain of dependencies. -/
def Cyclic : Prop := ∃ id ∈ graph.ids, Upstream graph.dependencies id id

end TaskGraph

/-! ## The depth-first search -/

namespace TaskGraph

variable {graph : TaskGraph}

/-- What holds of the marks between visits. -/
structure Sorted (graph : TaskGraph) (marks : Marks) : Prop where
  visited : ∀ id, id ∈ marks.visited ↔ id ∈ marks.ordered
  nodup : marks.ordered.Nodup
  known : ∀ id ∈ marks.ordered, id ∈ graph.ids
  first : DependenciesFirst graph.dependencies marks.ordered
  unfinished : ∀ id ∈ marks.temp, id ∉ marks.ordered

/-- What visits of some tasks come to: the tasks are put in order after those before them, or
there is a cycle. -/
inductive Outcome (graph : TaskGraph) (marks : Marks) (ids : List String) :
    Except GraphError Marks → Prop
  | done {after : Marks} (sorted : graph.Sorted after) (temp : after.temp = marks.temp)
      (keeps : ∀ id ∈ marks.ordered, id ∈ after.ordered)
      (listed : ∀ id ∈ ids, id ∈ after.ordered) : Outcome graph marks ids (.ok after)
  | cycle (cyclic : graph.Cyclic) : Outcome graph marks ids (.error .cycle)

/-- Visits that each come to an outcome come to one together. -/
theorem foldlM_outcome {visitOne : Marks → String → Except GraphError Marks} {ids : List String}
    (temp : Finset String)
    (each : ∀ id ∈ ids, ∀ marks, graph.Sorted marks → marks.temp = temp →
      graph.Outcome marks [id] (visitOne marks id))
    {marks : Marks} (sorted : graph.Sorted marks) (isTemp : marks.temp = temp) :
    graph.Outcome marks ids (ids.foldlM visitOne marks) := by
  induction ids generalizing marks with
  | nil => exact .done sorted rfl (fun _ isThere => isThere) (by simp)
  | cons id ids ih =>
      rw [List.foldlM_cons]
      have first := each id List.mem_cons_self marks sorted isTemp
      cases visited : visitOne marks id with
      | error error =>
          rw [visited] at first
          cases first with
          | cycle cyclic => exact .cycle cyclic
      | ok middle =>
          rw [visited] at first
          cases first with
          | done middleSorted middleTemp middleKeeps middleListed =>
              have rest := ih (fun other isOther => each other (List.mem_cons_of_mem _ isOther))
                middleSorted (middleTemp.trans isTemp)
              simp only [bind, Except.bind]
              generalize ids.foldlM visitOne middle = outcome at rest
              cases rest with
              | cycle cyclic => exact .cycle cyclic
              | done restSorted restTemp restKeeps restListed =>
                  refine .done restSorted (restTemp.trans middleTemp)
                    (fun other isOther => restKeeps other (middleKeeps other isOther)) ?_
                  intro other isOther
                  rcases List.mem_cons.mp isOther with rfl | isLater
                  · exact restKeeps other (middleListed other List.mem_cons_self)
                  · exact restListed other isLater

/-- A task is entered: it is on the way now, and fewer tasks are not. -/
theorem entered_sorted {marks : Marks} {id : String} (sorted : graph.Sorted marks)
    (notVisited : id ∉ marks.visited) :
    graph.Sorted { marks with temp := insert id marks.temp } where
  visited := sorted.visited
  nodup := sorted.nodup
  known := sorted.known
  first := sorted.first
  unfinished := by
    intro held isHeld
    rcases Finset.mem_insert.mp isHeld with rfl | isOther
    · exact fun isOrdered => notVisited ((sorted.visited held).mpr isOrdered)
    · exact sorted.unfinished held isOther

theorem card_entered {marks : Marks} {id : String} (isTask : id ∈ graph.ids)
    (notHeld : id ∉ marks.temp) :
    (graph.ids.toFinset \ insert id marks.temp).card < (graph.ids.toFinset \ marks.temp).card := by
  apply Finset.card_lt_card
  refine ⟨Finset.sdiff_subset_sdiff (Finset.Subset.refl _) (Finset.subset_insert _ _), ?_⟩
  intro isSubset
  have isLeft := isSubset (Finset.mem_sdiff.mpr ⟨List.mem_toFinset.mpr isTask, notHeld⟩)
  exact (Finset.mem_sdiff.mp isLeft).2 (Finset.mem_insert_self _ _)

/-- A task is left once its dependencies are in order: it comes after them. -/
theorem left_sorted {marks left : Marks} {id : String} (isTask : id ∈ graph.ids)
    (notHeld : id ∉ marks.temp) (sorted : graph.Sorted left)
    (isTemp : left.temp = insert id marks.temp)
    (listed : ∀ dep ∈ graph.dependencies id, dep ∈ left.ordered) :
    graph.Sorted
      { temp := left.temp.erase id
        visited := insert id left.visited
        ordered := left.ordered ++ [id] } := by
  have isNew : id ∉ left.ordered := sorted.unfinished id (by simp [isTemp])
  refine ⟨?_, ?_, ?_, sorted.first.snoc listed, ?_⟩
  · intro other
    simp only [Finset.mem_insert, sorted.visited, List.mem_append, List.mem_singleton]
    tauto
  · simp only [List.nodup_append, List.nodup_singleton, List.mem_singleton]
    refine ⟨sorted.nodup, trivial, ?_⟩
    rintro other isOther _ rfl rfl
    exact isNew isOther
  · intro other isOther
    rcases List.mem_append.mp isOther with isThere | isLast
    · exact sorted.known other isThere
    · cases List.mem_singleton.mp isLast
      exact isTask
  · intro held isHeld
    rcases Finset.mem_erase.mp isHeld with ⟨isOther, isOpen⟩
    simp only [List.mem_append, List.mem_singleton, not_or]
    exact ⟨sorted.unfinished held isOpen, isOther⟩

/-- A visit from which every task on the way can be reached comes to an outcome. -/
theorem visit_outcome {depth : ℕ} {marks : Marks} {id : String} (sorted : graph.Sorted marks)
    (isTask : id ∈ graph.ids) (room : (graph.ids.toFinset \ marks.temp).card < depth)
    (way : ∀ held ∈ marks.temp, Upstream graph.dependencies id held) :
    graph.Outcome marks [id] (graph.visit depth marks id) := by
  induction depth generalizing marks id with
  | zero => omega
  | succ depth ih =>
      rw [visit]
      split
      · rename_i isVisited
        refine .done sorted rfl (fun _ isThere => isThere) ?_
        intro other isOther
        cases List.mem_singleton.mp isOther
        exact (sorted.visited id).mp isVisited
      · rename_i notVisited
        split
        · rename_i isHeld
          exact .cycle ⟨id, isTask, way id isHeld⟩
        · rename_i notHeld
          have fewer := card_entered isTask notHeld
          have inner : graph.Outcome { marks with temp := insert id marks.temp }
              (graph.dependencies id) ((graph.dependencies id).foldlM (graph.visit depth)
                { marks with temp := insert id marks.temp }) := by
            refine foldlM_outcome (insert id marks.temp) ?_
              (entered_sorted sorted notVisited) rfl
            intro dep isDep middle middleSorted middleTemp
            have edge : Upstream graph.dependencies dep id := .single isDep
            refine ih middleSorted (graph.closed id isTask dep isDep) ?_ ?_
            · rw [middleTemp]
              omega
            · intro held isHeld
              rw [middleTemp] at isHeld
              rcases Finset.mem_insert.mp isHeld with rfl | isOther
              · exact edge
              · exact edge.trans (way held isOther)
          simp only [bind, Except.bind]
          generalize (graph.dependencies id).foldlM (graph.visit depth)
            { marks with temp := insert id marks.temp } = outcome at inner
          cases inner with
          | cycle cyclic => exact .cycle cyclic
          | done leftSorted leftTemp leftKeeps leftListed =>
              refine .done (left_sorted isTask notHeld leftSorted leftTemp leftListed) ?_ ?_ ?_
              · simp only [leftTemp]
                exact Finset.erase_insert notHeld
              · intro other isOther
                exact List.mem_append_left _ (leftKeeps other isOther)
              · intro other isOther
                exact List.mem_append_right _ isOther

/-- With room for the tasks of the graph the order is found or there is a cycle. -/
theorem topologicalOrder_outcome {depth : ℕ} (deep : graph.ids.length < depth) :
    (∃ order, graph.topologicalOrder depth = .ok order ∧
        TopologicalOrder graph.dependencies graph.ids order) ∨
      graph.topologicalOrder depth = .error .cycle ∧ graph.Cyclic := by
  have start : graph.Sorted {} :=
    ⟨by simp, List.nodup_nil, by simp, .nil, by simp⟩
  have few : (graph.ids.toFinset \ ∅).card < depth := by
    have bound := graph.ids.toFinset_card_le
    simp only [Finset.sdiff_empty]
    omega
  have outcome : graph.Outcome {} graph.ids (graph.ids.foldlM (graph.visit depth) {}) := by
    refine foldlM_outcome ∅ ?_ start rfl
    intro id isTask marks sorted isTemp
    refine visit_outcome sorted isTask (by rw [isTemp]; exact few) ?_
    simp [isTemp]
  rw [topologicalOrder]
  generalize graph.ids.foldlM (graph.visit depth) {} = result at outcome
  cases outcome with
  | cycle cyclic => exact .inr ⟨rfl, cyclic⟩
  | done sorted temp keeps listed =>
      rename_i after
      refine .inl ⟨after.ordered, rfl, ?_, sorted.first⟩
      refine (List.perm_ext_iff_of_nodup sorted.nodup graph.nodup).mpr fun id => ?_
      exact ⟨sorted.known id, listed id⟩

theorem not_cyclic_of_order {order : List String}
    (topological : TopologicalOrder graph.dependencies graph.ids order) : ¬ graph.Cyclic := by
  rintro ⟨id, isTask, cycle⟩
  exact topological.not_upstream_self graph.nodup isTask cycle

end TaskGraph

/-! ## Descendants -/

/-- What the search for descendants keeps: the tasks seen, in the order they were, and those
still to be looked at, the top of the stack first. -/
structure Search where
  seen : List String
  stack : List String

namespace TaskGraph

variable (graph : TaskGraph)

/-- One turn of the inner loop: a task that depends on the current one is seen and pushed. -/
def look (current : String) (search : Search) (id : String) : Search :=
  if current ∈ graph.dependencies id ∧ id ∉ search.seen then
    { seen := search.seen ++ [id], stack := id :: search.stack }
  else search

/-- The inner loop, over all tasks. -/
def lookAll (current : String) (search : Search) : Search :=
  graph.ids.foldl (graph.look current) search

/-- Twice the tasks that are not seen and the tasks on the stack. -/
def effort (search : Search) : ℕ :=
  2 * (graph.ids.filter fun id => id ∉ search.seen).length + search.stack.length

theorem unseen_lt {ids seen : List String} {id : String} (isTask : id ∈ ids) (isNew : id ∉ seen) :
    (ids.filter fun other => other ∉ seen ++ [id]).length <
      (ids.filter fun other => other ∉ seen).length := by
  have isPart : (ids.filter fun other => other ∉ seen ++ [id]) =
      (ids.filter fun other => other ∉ seen).filter fun other => other ≠ id := by
    rw [List.filter_filter]
    refine List.filter_congr fun other _ => ?_
    simp [and_comm, not_or]
  rw [isPart]
  refine List.length_filter_lt_length_iff_exists.mpr ⟨id, ?_, by simp⟩
  simp [isTask, isNew]

theorem effort_look_le (search : Search) (current : String) {id : String} (isTask : id ∈ graph.ids) :
    graph.effort (graph.look current search id) ≤ graph.effort search := by
  rw [look]
  split
  · rename_i isNew
    have fewer := unseen_lt isTask isNew.2
    simp only [effort, List.length_cons]
    omega
  · exact le_refl _

theorem effort_foldl_le {ids : List String} {search : Search} {current : String}
    (areTasks : ∀ id ∈ ids, id ∈ graph.ids) :
    graph.effort (ids.foldl (graph.look current) search) ≤ graph.effort search := by
  induction ids generalizing search with
  | nil => exact le_refl _
  | cons id ids ih =>
      have first := graph.effort_look_le search current (areTasks id List.mem_cons_self)
      have rest := @ih (graph.look current search id)
        fun other isOther => areTasks other (List.mem_cons_of_mem _ isOther)
      exact rest.trans first

theorem effort_lookAll_lt (seen : List String) (current : String) (stack : List String) :
    graph.effort (graph.lookAll current ⟨seen, stack⟩) < graph.effort ⟨seen, current :: stack⟩ := by
  have less : graph.effort (graph.lookAll current ⟨seen, stack⟩) ≤ graph.effort ⟨seen, stack⟩ :=
    graph.effort_foldl_le fun id isTask => isTask
  have popped : graph.effort ⟨seen, stack⟩ < graph.effort ⟨seen, current :: stack⟩ := by
    simp [effort]
  exact less.trans_lt popped

/-- Pops a task and looks for the tasks that depend on it, until the stack is empty. -/
def searchAll : Search → List String
  | ⟨seen, []⟩ => seen
  | ⟨seen, current :: stack⟩ => searchAll (graph.lookAll current ⟨seen, stack⟩)
termination_by search => graph.effort search
decreasing_by exact graph.effort_lookAll_lt seen current stack

/-- The tasks that depend on a task, directly or not; a set has no order of its own, and the ones
seen are listed here as they were found. -/
def descendants (id : String) : List String :=
  graph.searchAll { seen := [], stack := [id] }

variable {graph}

/-- The inner loop sees the tasks that depend on the current one, and pushes those that are new. -/
structure Looked (graph : TaskGraph) (current : String) (ids : List String)
    (before after : Search) : Prop where
  seen : ∀ id, id ∈ after.seen ↔
    id ∈ before.seen ∨ id ∈ ids ∧ current ∈ graph.dependencies id
  stack : ∀ id, id ∈ after.stack ↔
    id ∈ before.stack ∨ id ∉ before.seen ∧ id ∈ ids ∧ current ∈ graph.dependencies id
  nodup : before.seen.Nodup → after.seen.Nodup

theorem look_looked (graph : TaskGraph) (current id : String) (search : Search) :
    graph.Looked current [id] search (graph.look current search id) := by
  rw [look]
  split
  · rename_i isNew
    refine ⟨?_, ?_, ?_⟩
    · intro other
      simp only [List.mem_append, List.mem_singleton]
      refine or_congr_right ⟨?_, fun isOther => isOther.1⟩
      rintro rfl
      exact ⟨rfl, isNew.1⟩
    · intro other
      simp only [List.mem_cons, List.not_mem_nil, or_false]
      constructor
      · rintro (rfl | isThere)
        · exact .inr ⟨isNew.2, rfl, isNew.1⟩
        · exact .inl isThere
      · rintro (isThere | ⟨_, rfl, _⟩)
        · exact .inr isThere
        · exact .inl rfl
    · intro nodup
      simp only [List.nodup_append, List.nodup_singleton, List.mem_singleton]
      refine ⟨nodup, trivial, ?_⟩
      rintro other isOther _ rfl rfl
      exact isNew.2 isOther
  · rename_i notNew
    refine ⟨?_, ?_, fun nodup => nodup⟩
    · intro other
      refine ⟨.inl, ?_⟩
      rintro (isThere | ⟨isOther, isDep⟩)
      · exact isThere
      · cases List.mem_singleton.mp isOther
        by_contra notSeen
        exact notNew ⟨isDep, notSeen⟩
    · intro other
      refine ⟨.inl, ?_⟩
      rintro (isThere | ⟨notSeen, isOther, isDep⟩)
      · exact isThere
      · cases List.mem_singleton.mp isOther
        exact absurd ⟨isDep, notSeen⟩ notNew

theorem foldl_looked (graph : TaskGraph) (current : String) (ids : List String)
    (search : Search) :
    graph.Looked current ids search (ids.foldl (graph.look current) search) := by
  induction ids generalizing search with
  | nil => exact ⟨by simp, by simp, fun nodup => nodup⟩
  | cons id ids ih =>
      have first := look_looked graph current id search
      have rest := ih (graph.look current search id)
      rw [List.foldl_cons]
      refine ⟨?_, ?_, fun nodup => rest.nodup (first.nodup nodup)⟩
      · intro other
        rw [rest.seen, first.seen]
        simp only [List.mem_cons, List.not_mem_nil, or_false]
        tauto
      · intro other
        rw [rest.stack, first.stack, first.seen]
        simp only [List.mem_cons, List.not_mem_nil, or_false]
        tauto

/-- What holds of the search from a task between its rounds. -/
structure Searching (graph : TaskGraph) (start : String) (search : Search) : Prop where
  nodup : search.seen.Nodup
  sound : ∀ id ∈ search.seen, id ∈ graph.ids ∧ Upstream graph.dependencies start id
  stacked : ∀ id ∈ search.stack, id = start ∨ id ∈ search.seen
  complete : ∀ id, id = start ∨ id ∈ search.seen → id ∈ search.stack ∨
    ∀ other ∈ graph.ids, id ∈ graph.dependencies other → other ∈ search.seen

theorem Searching.next {start current : String} {seen stack : List String}
    (searching : graph.Searching start ⟨seen, current :: stack⟩) :
    graph.Searching start (graph.lookAll current ⟨seen, stack⟩) := by
  have looked := foldl_looked graph current graph.ids ⟨seen, stack⟩
  have isCurrent := searching.stacked current List.mem_cons_self
  rw [lookAll]
  generalize graph.ids.foldl (graph.look current) ⟨seen, stack⟩ = after at looked
  refine ⟨looked.nodup searching.nodup, ?_, ?_, ?_⟩
  · intro id isSeen
    rcases (looked.seen id).mp isSeen with isOld | ⟨isTask, isDep⟩
    · exact searching.sound id isOld
    · have edge : Upstream graph.dependencies current id := .single isDep
      refine ⟨isTask, ?_⟩
      rcases isCurrent with rfl | isOld
      · exact edge
      · exact (searching.sound current isOld).2.trans edge
  · intro id isStacked
    rcases (looked.stack id).mp isStacked with isOld | ⟨_, isNew⟩
    · rcases searching.stacked id (List.mem_cons_of_mem _ isOld) with isStart | isSeen
      · exact .inl isStart
      · exact .inr ((looked.seen id).mpr (.inl isSeen))
    · exact .inr ((looked.seen id).mpr (.inr isNew))
  · intro id isSeen
    by_cases isOld : id = start ∨ id ∈ seen
    · rcases searching.complete id isOld with isStacked | isDone
      · rcases List.mem_cons.mp isStacked with rfl | isLater
        · exact .inr fun other isTask isDep => (looked.seen other).mpr (.inr ⟨isTask, isDep⟩)
        · exact .inl ((looked.stack id).mpr (.inl isLater))
      · exact .inr fun other isTask isDep =>
          (looked.seen other).mpr (.inl (isDone other isTask isDep))
    · rcases not_or.mp isOld with ⟨notStart, notSeen⟩
      rcases isSeen with isStart | isSeen
      · exact absurd isStart notStart
      · rcases (looked.seen id).mp isSeen with wasSeen | isNew
        · exact absurd wasSeen notSeen
        · exact .inl ((looked.stack id).mpr (.inr ⟨notSeen, isNew⟩))

/-- Once nothing is on the stack, everything downstream of the task was seen. -/
theorem Searching.downstream {start id : String} {seen : List String}
    (searching : graph.Searching start ⟨seen, []⟩) (isTask : id ∈ graph.ids)
    (downstream : Upstream graph.dependencies start id) : id ∈ seen := by
  have done {before : String} (isSeen : before = start ∨ before ∈ seen) {other : String}
      (isOther : other ∈ graph.ids) (isDep : before ∈ graph.dependencies other) :
      other ∈ seen := by
    rcases searching.complete before isSeen with isStacked | isDone
    · cases isStacked
    · exact isDone other isOther isDep
  induction downstream with
  | single isDep => exact done (.inl rfl) isTask isDep
  | tail _ isDep ih => exact done (.inr (ih (graph.closed _ isTask _ isDep))) isTask isDep

theorem searchAll_spec {start : String} {search : Search}
    (searching : graph.Searching start search) :
    (graph.searchAll search).Nodup ∧ ∀ id, id ∈ graph.searchAll search ↔
      id ∈ graph.ids ∧ Upstream graph.dependencies start id := by
  fun_induction graph.searchAll search with
  | case1 seen =>
      refine ⟨searching.nodup, fun id => ⟨searching.sound id, ?_⟩⟩
      rintro ⟨isTask, downstream⟩
      exact searching.downstream isTask downstream
  | case2 seen current stack ih => exact ih searching.next

theorem searching_start (graph : TaskGraph) (id : String) :
    graph.Searching id { seen := [], stack := [id] } where
  nodup := List.nodup_nil
  sound := by simp
  stacked := by simp
  complete := by simp

/-- The order is found exactly if there is no cycle, and then is a topological order; the
descendants of a task, in whatever order a set lists them, are the tasks it is upstream of, each
once. -/
theorem traversals_correct (graph : TaskGraph) (depth : ℕ) (deep : graph.ids.length < depth) :
    ((∃ raised, graph.topologicalOrder depth = .error raised) ↔ graph.Cyclic) ∧
    (¬ graph.Cyclic → ∃ order, graph.topologicalOrder depth = .ok order ∧
      TopologicalOrder graph.dependencies graph.ids order) ∧
    ∀ (id : String) (listed : List String), listed.Perm (graph.descendants id) → listed.Nodup ∧
      ∀ other, other ∈ listed ↔ other ∈ graph.ids ∧ Upstream graph.dependencies id other := by
  refine ⟨?_, ?_, ?_⟩
  · rcases topologicalOrder_outcome deep with ⟨order, isOrder, topological⟩ | ⟨isCycle, cyclic⟩
    · constructor
      · rintro ⟨raised, isRaised⟩
        rw [isOrder] at isRaised
        cases isRaised
      · intro cyclic
        exact absurd cyclic (not_cyclic_of_order topological)
    · exact ⟨fun _ => cyclic, fun _ => ⟨_, isCycle⟩⟩
  · intro acyclic
    rcases topologicalOrder_outcome deep with isOrdered | ⟨_, cyclic⟩
    · exact isOrdered
    · exact absurd cyclic acyclic
  · intro id listed perm
    have spec := searchAll_spec (searching_start graph id)
    refine ⟨perm.nodup_iff.mpr spec.1, fun other => ?_⟩
    rw [perm.mem_iff]
    exact spec.2 other

/-- Two tasks, the second of which depends on the first twice. -/
def pair : TaskGraph where
  ids := ["write", "test"]
  dependencies := fun id => if id = "test" then ["write", "write"] else []
  nodup := by decide
  closed := by decide

theorem pair_ordered : pair.ids.length < 3 ∧ ∃ order, pair.topologicalOrder 3 = .ok order ∧
    TopologicalOrder pair.dependencies pair.ids order := by
  have acyclic : ¬ pair.Cyclic := by
    intro cyclic
    rcases (traversals_correct pair 3 (by decide)).1.mpr cyclic with ⟨raised, isRaised⟩
    cases isRaised
  exact ⟨by decide, (traversals_correct pair 3 (by decide)).2.1 acyclic⟩

end TaskGraph

end Aa.Sifter.Tasks
