import Aa.Library.Ranks
import Aa.Visualizer.Replay

/-!
# Where the layout places a node

The layout visits the kinds and the nodes of a kind in their order, and gives each node a position
computed from the place of its kind, the number of nodes of the kind and the place of the node
among them. A node's position is therefore a matter of counting: it does not depend on the order
in which the nodes are supplied.
-/

namespace Aa.Visualizer

open Aa.Library

variable {Point : Type} (position : ℕ → ℕ → ℕ → NodeId → Point)

/-! ## Insertions one after the other -/

section Insert

variable {Key Value : Type} [DecidableEq Key]

/-- Inserts the entries one after the other. -/
def insertAll (placed : Finmap fun _ : Key => Value) (entries : List (Key × Value)) :
    Finmap fun _ : Key => Value :=
  entries.foldl (fun placed entry => placed.insert entry.1 entry.2) placed

variable {placed : Finmap fun _ : Key => Value} {entries : List (Key × Value)} {id : Key}

theorem lookup_insertAll_of_not_mem (notThere : id ∉ entries.map Prod.fst) :
    (insertAll placed entries).lookup id = placed.lookup id := by
  induction entries generalizing placed with
  | nil => rfl
  | cons entry rest ih =>
      rw [List.map_cons, List.mem_cons, not_or] at notThere
      rw [insertAll, List.foldl_cons]
      exact (ih notThere.2).trans (Finmap.lookup_insert_of_ne _ notThere.1)

theorem lookup_insertAll_of_mem {value : Value} (distinct : (entries.map Prod.fst).Nodup)
    (isThere : (id, value) ∈ entries) : (insertAll placed entries).lookup id = some value := by
  induction entries generalizing placed with
  | nil => cases isThere
  | cons entry rest ih =>
      rw [List.map_cons, List.nodup_cons] at distinct
      rw [insertAll, List.foldl_cons]
      rcases List.mem_cons.mp isThere with rfl | isLater
      · exact (lookup_insertAll_of_not_mem distinct.1).trans (Finmap.lookup_insert _)
      · exact ih distinct.2 isLater

end Insert

namespace Layout

/-- The kinds of some nodes, each once, in their order. -/
def kindsOf (nodes : List Node) : List String := Go.sortStrings (nodes.map (·.kind)).dedup

/-- The nodes of a layer with the positions they get. -/
def layerEntries (nodes : List Node) (layer : String × ℕ) : List (NodeId × Point) :=
  (sortBy (·.id) (nodes.filter (·.kind = layer.1))).zipIdx.map fun place =>
    (place.1.id,
      position layer.2 (nodes.filter (·.kind = layer.1)).length place.2 place.1.id)

/-- All nodes with the positions they get, layer by layer. -/
def allEntries (nodes : List Node) : List (NodeId × Point) :=
  (kindsOf nodes).zipIdx.flatMap (layerEntries position nodes)

/-- The position of a node: how many kinds are before its own, how many nodes have its kind, and how
many of these have a smaller id. -/
def pointOf (nodes : List Node) (node : Node) : Point :=
  position (rankBelow id (nodes.map (·.kind)).dedup node.kind)
    (nodes.filter (·.kind = node.kind)).length
    (rankBelow (·.id) (nodes.filter (·.kind = node.kind)) node.id) node.id

variable {position} {nodes : List Node}

theorem layoutBudgeted_eq {g : Graph} {b : Budget} {placement : Placement Point}
    (isPlaced : layoutBudgeted position g b = .ok placement) :
    placement = insertAll ∅ (allEntries position g.nodes) := by
  rw [layoutBudgeted] at isPlaced
  split_ifs at isPlaced
  cases isPlaced
  simp only [insertAll, allEntries, List.foldl_flatMap, layerEntries, List.foldl_map]
  rfl

theorem kindsOf_nodup (nodes : List Node) : (kindsOf nodes).Nodup :=
  (Go.sortStrings_perm _).nodup_iff.mpr (List.nodup_dedup _)

theorem mem_kindsOf {kind : String} : kind ∈ kindsOf nodes ↔ ∃ node ∈ nodes, node.kind = kind := by
  rw [kindsOf, (Go.sortStrings_perm _).mem_iff, List.mem_dedup, List.mem_map]

theorem kindsOf_eq_sortBy (nodes : List Node) :
    kindsOf nodes = sortBy id (nodes.map (·.kind)).dedup := rfl

theorem map_fst_layerEntries (nodes : List Node) (layer : String × ℕ) :
    (layerEntries position nodes layer).map Prod.fst =
      (sortBy (·.id) (nodes.filter (·.kind = layer.1))).map (·.id) := by
  rw [layerEntries, List.map_map]
  have sameIds : ((sortBy (·.id) (nodes.filter (·.kind = layer.1))).zipIdx.map
      fun place => place.1.id) =
        ((sortBy (·.id) (nodes.filter (·.kind = layer.1))).zipIdx.map Prod.fst).map (·.id) := by
    rw [List.map_map]
    rfl
  rw [List.zipIdx_map_fst] at sameIds
  exact sameIds

theorem nodup_filter_ids (distinct : (nodes.map (·.id)).Nodup) (kind : String) :
    ((nodes.filter (·.kind = kind)).map (·.id)).Nodup :=
  distinct.sublist (List.filter_sublist.map _)

/-- Each layer places its own nodes, so that no id is placed twice. -/
theorem nodup_allEntries (distinct : (nodes.map (·.id)).Nodup) :
    ((allEntries position nodes).map Prod.fst).Nodup := by
  rw [allEntries, List.map_flatMap, List.nodup_flatMap]
  constructor
  · intro layer _
    rw [map_fst_layerEntries]
    exact ((sortBy_perm _).map _).nodup_iff.mpr (nodup_filter_ids distinct layer.1)
  · have kindsDiffer : (kindsOf nodes).zipIdx.Pairwise fun first second => first.1 ≠ second.1 := by
      apply List.pairwise_map.mp
      rw [List.zipIdx_map_fst]
      exact kindsOf_nodup nodes
    apply kindsDiffer.imp
    intro first second different shared inFirst inSecond
    change shared ∈ (layerEntries position nodes first).map Prod.fst at inFirst
    change shared ∈ (layerEntries position nodes second).map Prod.fst at inSecond
    rw [map_fst_layerEntries] at inFirst inSecond
    rcases List.mem_map.mp inFirst with ⟨node, isNode, rfl⟩
    rcases List.mem_map.mp inSecond with ⟨other, isOther, sameId⟩
    have ofFirst := List.mem_filter.mp (mem_sortBy.mp isNode)
    have ofSecond := List.mem_filter.mp (mem_sortBy.mp isOther)
    have sameNode := List.inj_on_of_nodup_map distinct ofSecond.1 ofFirst.1 sameId
    apply different
    have firstKind := ofFirst.2
    have secondKind := ofSecond.2
    rw [sameNode] at secondKind
    simp only [decide_eq_true_eq] at firstKind secondKind
    exact firstKind.symm.trans secondKind

/-- The layer of a node's kind gives it the position that counting gives. -/
theorem mem_allEntries (distinct : (nodes.map (·.id)).Nodup) {node : Node} (isNode : node ∈ nodes) :
    (node.id, pointOf position nodes node) ∈ allEntries position nodes := by
  rcases List.mem_iff_getElem?.mp (mem_kindsOf.mpr ⟨node, isNode, rfl⟩) with ⟨layer, isLayer⟩
  have inKind : node ∈ sortBy (·.id) (nodes.filter (·.kind = node.kind)) :=
    mem_sortBy.mpr (List.mem_filter.mpr ⟨isNode, by simp⟩)
  rcases List.mem_iff_getElem?.mp inKind with ⟨place, isPlace⟩
  have layerIs : layer = rankBelow id (nodes.map (·.kind)).dedup node.kind := by
    have distinctKinds : ((nodes.map (·.kind)).dedup.map id).Nodup := by
      simpa using List.nodup_dedup _
    apply place_eq_rankBelow distinctKinds
    rw [← kindsOf_eq_sortBy]
    exact isLayer
  have placeIs := place_eq_rankBelow (nodup_filter_ids distinct node.kind) isPlace
  apply List.mem_flatMap.mpr
  refine ⟨(node.kind, layer), List.mk_mem_zipIdx_iff_getElem?.mpr isLayer, ?_⟩
  apply List.mem_map.mpr
  refine ⟨(node, place), List.mk_mem_zipIdx_iff_getElem?.mpr isPlace, ?_⟩
  rw [pointOf, ← layerIs, ← placeIs]

theorem mem_ids_of_mem_allEntries {id : NodeId}
    (isPlaced : id ∈ (allEntries position nodes).map Prod.fst) : ∃ node ∈ nodes, node.id = id := by
  rw [allEntries, List.map_flatMap] at isPlaced
  rcases List.mem_flatMap.mp isPlaced with ⟨layer, _, inLayer⟩
  rw [map_fst_layerEntries] at inLayer
  rcases List.mem_map.mp inLayer with ⟨node, isNode, isId⟩
  exact ⟨node, (List.mem_filter.mp (mem_sortBy.mp isNode)).1, isId⟩

/-- Where the layout places each node of a graph whose nodes have different ids, and that it places
nothing else. -/
theorem layoutBudgeted_points {g : Graph} {b : Budget} {placement : Placement Point}
    (distinct : (g.nodes.map (·.id)).Nodup)
    (isPlaced : layoutBudgeted position g b = .ok placement) :
    (∀ node ∈ g.nodes, placement.lookup node.id = some (pointOf position g.nodes node)) ∧
      ∀ id, (∀ node ∈ g.nodes, node.id ≠ id) → placement.lookup id = none := by
  rw [layoutBudgeted_eq isPlaced]
  constructor
  · intro node isNode
    exact lookup_insertAll_of_mem (nodup_allEntries distinct) (mem_allEntries distinct isNode)
  · intro id isOther
    rw [lookup_insertAll_of_not_mem]
    · exact Finmap.lookup_empty id
    · intro isThere
      rcases mem_ids_of_mem_allEntries isThere with ⟨node, isNode, isId⟩
      exact isOther node isNode isId

end Layout

end Aa.Visualizer
