import Aa.Library.RoundRobin
import Aa.Sync.Types

/-!
# Placement across machines

A coordinator places work packages on nodes, in turn. Both are sorted first, so that neither the
order of the nodes nor that of the packages matters. Repeated nodes are dropped and repeated
packages are not, so that a package that is listed twice is placed twice.
-/

namespace Aa.Sync

open Aa.Library

/-- The work packages placed on one node. -/
structure Assignment where
  node : NodeId
  packages : List String := []
deriving DecidableEq

/-- The nodes of a list, each once, or an error if one has no id. -/
def cleanNodes (seen : List NodeId) : List NodeId → Except Error (List NodeId)
  | [] => .ok []
  | n :: rest =>
      if n = "" then .error (.wrap .invalid "node id is required")
      else if n ∈ seen then cleanNodes seen rest
      else (cleanNodes (n :: seen) rest).map (n :: ·)

/-- Places work packages across a fixed set of nodes. -/
structure Coordinator where
  nodes : List NodeId

namespace Coordinator

/-- A coordinator over nodes, each once and sorted. -/
def new (nodes : List NodeId) : Except Error Coordinator :=
  match cleanNodes [] nodes with
  | .error error => .error error
  | .ok clean =>
      if clean = [] then .error (.wrap .invalid "at least one node is required")
      else .ok { nodes := Go.sortStrings clean }

/-- Gives a package to the node whose turn it is. -/
def placeNext (count : ℕ) (assignments : List Assignment) (next : String × ℕ) : List Assignment :=
  assignments.modify (next.2 % count) fun assignment =>
    { assignment with packages := assignment.packages ++ [next.1] }

/-- Places packages across the nodes in turn. -/
def assign (c : Coordinator) (packageIds : List String) : Except Error (List Assignment) :=
  let ids := Go.sortStrings packageIds
  if "" ∈ ids then .error (.wrap .invalid "work package id is required")
  else
    .ok (ids.zipIdx.foldl (placeNext c.nodes.length) (c.nodes.map fun n => { node := n }))

/-- Places packages across nodes. -/
def place (nodes : List NodeId) (packageIds : List String) : Except Error (List Assignment) :=
  match new nodes with
  | .error error => .error error
  | .ok c => c.assign packageIds

/-! ## Nodes and assignments -/

theorem cleanNodes_spec {nodes : List NodeId} (named : "" ∉ nodes) (seen : List NodeId) :
    ∃ clean, cleanNodes seen nodes = .ok clean ∧ clean.Nodup ∧
      ∀ node, node ∈ clean ↔ node ∈ nodes ∧ node ∉ seen := by
  induction nodes generalizing seen with
  | nil => exact ⟨[], rfl, List.nodup_nil, by simp⟩
  | cons n rest ih =>
      have isNamed : n ≠ "" := fun isEmpty => named (by simp [isEmpty])
      have restNamed : "" ∉ rest := fun isThere => named (List.mem_cons_of_mem _ isThere)
      rw [cleanNodes, if_neg isNamed]
      by_cases isSeen : n ∈ seen
      · rcases ih restNamed seen with ⟨clean, isClean, distinct, same⟩
        refine ⟨clean, by rw [if_pos isSeen, isClean], distinct, ?_⟩
        intro node
        rw [same, List.mem_cons]
        constructor
        · rintro ⟨isThere, notSeen⟩
          exact ⟨.inr isThere, notSeen⟩
        · rintro ⟨rfl | isThere, notSeen⟩
          · exact absurd isSeen notSeen
          · exact ⟨isThere, notSeen⟩
      · rcases ih restNamed (n :: seen) with ⟨clean, isClean, distinct, same⟩
        refine ⟨n :: clean, by rw [if_neg isSeen, isClean]; rfl, ?_, ?_⟩
        · refine List.nodup_cons.mpr ⟨?_, distinct⟩
          intro isThere
          exact ((same n).mp isThere).2 List.mem_cons_self
        · intro node
          rw [List.mem_cons, List.mem_cons, same, List.mem_cons]
          by_cases isFirst : node = n
          · simp [isFirst, isSeen]
          · simp [isFirst]

/-- The coordinator has each node once. -/
theorem new_spec {nodes : List NodeId} (nonempty : nodes ≠ []) (named : "" ∉ nodes) :
    ∃ c, new nodes = .ok c ∧ c.nodes.Nodup ∧ ∀ node, node ∈ c.nodes ↔ node ∈ nodes := by
  rcases cleanNodes_spec named [] with ⟨clean, isClean, distinct, same⟩
  have perm := Go.sortStrings_perm clean
  have notNil : clean ≠ [] := by
    rintro rfl
    rcases List.exists_mem_of_ne_nil nodes nonempty with ⟨node, isThere⟩
    simpa using (same node).mpr ⟨isThere, by simp⟩
  refine ⟨{ nodes := Go.sortStrings clean }, ?_, perm.nodup_iff.mpr distinct, ?_⟩
  · simp only [new, isClean, if_neg notNil]
  · intro node
    rw [perm.mem_iff, same]
    simp

/-- The coordinator depends on the set of nodes only. -/
theorem new_congr {nodes others : List NodeId} (nonempty : nodes ≠ []) (named : "" ∉ nodes)
    (same : ∀ node, node ∈ nodes ↔ node ∈ others) : new nodes = new others := by
  have otherNamed : "" ∉ others := fun isThere => named ((same "").mpr isThere)
  rcases cleanNodes_spec named [] with ⟨clean, isClean, distinct, isNode⟩
  rcases cleanNodes_spec otherNamed [] with ⟨otherClean, isOther, otherDistinct, isOtherNode⟩
  have perm : clean.Perm otherClean :=
    (List.perm_ext_iff_of_nodup distinct otherDistinct).mpr fun node => by
      rw [isNode, isOtherNode, same]
  have notNil : clean ≠ [] := by
    rintro rfl
    rcases List.exists_mem_of_ne_nil nodes nonempty with ⟨node, isThere⟩
    simpa using (isNode node).mpr ⟨isThere, by simp⟩
  have otherNotNil : otherClean ≠ [] := by
    rintro rfl
    exact notNil (List.perm_nil.mp perm)
  simp only [new, isClean, isOther, if_neg notNil, if_neg otherNotNil, Go.sortStrings_congr perm]

/-- Every node is dealt its packages. -/
def dealt (nodes : List NodeId) (ids : List String) : List Assignment :=
  nodes.zipIdx.map fun entry => { node := entry.1, packages := deal nodes.length ids entry.2 }

theorem foldl_placeNext (nodes : List NodeId) (ids : List String) :
    ids.zipIdx.foldl (placeNext nodes.length) (nodes.map fun n => { node := n }) =
      dealt nodes ids := by
  induction ids using List.reverseRecOn with
  | nil =>
      refine List.ext_getElem? fun index => ?_
      simp [dealt, List.getElem?_zipIdx, Function.comp_def]
  | append_singleton ids id ih =>
      rw [List.zipIdx_append, List.foldl_append, ih]
      refine List.ext_getElem? fun index => ?_
      simp only [List.zipIdx_cons, List.zipIdx_nil, List.foldl_cons, List.foldl_nil, placeNext,
        dealt, List.getElem?_modify, List.getElem?_map, List.getElem?_zipIdx, deal_concat]
      cases nodes[index]? with
      | none => simp
      | some node =>
          by_cases isTurn : ids.length % nodes.length = index
          · simp [isTurn]
          · simp [isTurn]

theorem place_eq {nodes : List NodeId} {c : Coordinator} (isNew : new nodes = .ok c)
    {packageIds : List String} (identified : "" ∉ packageIds) :
    place nodes packageIds = .ok (dealt c.nodes (Go.sortStrings packageIds)) := by
  have sortedIdentified : "" ∉ Go.sortStrings packageIds := by
    rwa [(Go.sortStrings_perm packageIds).mem_iff]
  simp only [place, isNew, assign, if_neg sortedIdentified, foldl_placeNext]

theorem mem_dealt {nodes : List NodeId} {ids : List String} {assignment : Assignment} :
    assignment ∈ dealt nodes ids ↔ ∃ turn, nodes[turn]? = some assignment.node ∧
      assignment.packages = deal nodes.length ids turn := by
  simp only [dealt, List.mem_map]
  constructor
  · rintro ⟨⟨node, turn⟩, isThere, rfl⟩
    exact ⟨turn, List.mem_zipIdx_iff_getElem?.mp isThere, rfl⟩
  · rintro ⟨turn, isNode, isDealt⟩
    refine ⟨(assignment.node, turn), List.mem_zipIdx_iff_getElem?.mpr isNode, ?_⟩
    rw [← isDealt]

@[simp] theorem map_node_dealt (nodes : List NodeId) (ids : List String) :
    (dealt nodes ids).map (·.node) = nodes := by
  simp only [dealt, List.map_map]
  exact List.zipIdx_map_fst 0 nodes

/-- Together the nodes are dealt every package, as often as it is listed. -/
theorem flatMap_dealt_perm {nodes : List NodeId} (nonempty : nodes ≠ []) (ids : List String) :
    ((dealt nodes ids).flatMap (·.packages)).Perm ids := by
  have isRange : nodes.zipIdx.map Prod.snd = List.range nodes.length := by
    rw [List.zipIdx_map_snd, List.range_eq_range']
  have inTurn : (dealt nodes ids).flatMap (·.packages) =
      (List.range nodes.length).flatMap (deal nodes.length ids) := by
    rw [← isRange, dealt, List.flatMap_map, List.flatMap_map]
  rw [inTurn]
  exact flatMap_deal_perm (List.length_pos_iff.mpr nonempty)

/-! ## Placement as a partition -/

/-- Every node has one assignment, every package is in one of them, and no node has two packages
more than another. -/
structure Placed (nodes : List NodeId) (packageIds : List String)
    (assignments : List Assignment) : Prop where
  distinct : (assignments.map (·.node)).Nodup
  nodes : ∀ node, node ∈ assignments.map (·.node) ↔ node ∈ nodes
  packages : ∀ assignment ∈ assignments, ∀ id ∈ assignment.packages, id ∈ packageIds
  once : ∀ id ∈ packageIds, ∃! assignment, assignment ∈ assignments ∧ id ∈ assignment.packages
  balanced : ∀ first ∈ assignments, ∀ second ∈ assignments,
    first.packages.dedup.length ≤ second.packages.dedup.length + 1

/-- Two lists of nodes and two of packages are placed alike, as a partition. -/
def PlacedAlike (nodes : List NodeId) (packageIds : List String) (otherNodes : List NodeId)
    (otherIds : List String) : Prop :=
  ∃ assignments, place nodes packageIds = .ok assignments ∧
    place otherNodes otherIds = .ok assignments ∧ Placed nodes packageIds assignments

section Dealt

variable {nodes : List NodeId} {ids : List String}

theorem balanced_dealt (each : ids.Nodup ∨ nodes.length = 1) :
    ∀ first ∈ dealt nodes ids, ∀ second ∈ dealt nodes ids,
      first.packages.dedup.length ≤ second.packages.dedup.length + 1 := by
  intro first isFirst second isSecond
  rcases mem_dealt.mp isFirst with ⟨turn, isNode, isDealt⟩
  rcases mem_dealt.mp isSecond with ⟨other, isOther, isOtherDealt⟩
  have inside : turn < nodes.length := (List.getElem?_eq_some_iff.mp isNode).1
  have otherInside : other < nodes.length := (List.getElem?_eq_some_iff.mp isOther).1
  rw [isDealt, isOtherDealt]
  rcases each with eachOnce | single
  · rw [(eachOnce.sublist deal_sublist).dedup, (eachOnce.sublist deal_sublist).dedup]
    exact length_deal_le inside otherInside
  · have same : turn = other := by omega
    rw [same]
    omega

theorem once_dealt (nonempty : nodes ≠ []) (each : ids.Nodup ∨ nodes.length = 1) :
    ∀ id ∈ ids, ∃! assignment, assignment ∈ dealt nodes ids ∧ id ∈ assignment.packages := by
  intro id isThere
  have positive : 0 < nodes.length := List.length_pos_iff.mpr nonempty
  rcases List.getElem?_of_mem isThere with ⟨turn, isTurn⟩
  have inside : turn % nodes.length < nodes.length := Nat.mod_lt _ positive
  have exists_node : ∃ node, nodes[turn % nodes.length]? = some node :=
    ⟨_, List.getElem?_eq_getElem inside⟩
  rcases exists_node with ⟨owner, isOwner⟩
  refine ⟨⟨owner, deal nodes.length ids (turn % nodes.length)⟩,
    ⟨mem_dealt.mpr ⟨_, isOwner, rfl⟩, mem_deal.mpr ⟨turn, isTurn, rfl⟩⟩, ?_⟩
  rintro ⟨node, packages⟩ ⟨isDealt, holds⟩
  rcases mem_dealt.mp isDealt with ⟨place, isNode, rfl⟩
  rcases mem_deal.mp holds with ⟨other, isOther, rfl⟩
  have samePlace : other % nodes.length = turn % nodes.length := by
    rcases each with eachOnce | single
    · have inIds : other < ids.length := (List.getElem?_eq_some_iff.mp isOther).1
      have same : other = turn :=
        (List.getElem?_inj inIds eachOnce).mp (isOther.trans isTurn.symm)
      rw [same]
    · simp [single, Nat.mod_one]
  rw [samePlace] at isNode ⊢
  cases isNode.symm.trans isOwner
  rfl

/-- A repeated package is placed on two nodes, if there are two. -/
theorem repeated_dealt (distinct : nodes.Nodup) (several : 2 ≤ nodes.length)
    (sorted : ids.Pairwise (· ≤ ·)) (repeated : ¬ ids.Nodup) :
    ∃ id ∈ ids, ∃ first ∈ dealt nodes ids, ∃ second ∈ dealt nodes ids,
      id ∈ first.packages ∧ id ∈ second.packages ∧ first.node ≠ second.node := by
  rcases exists_repeated sorted repeated with ⟨turn, id, isTurn, isNext⟩
  have inside : ∀ turn, turn % nodes.length < nodes.length := fun turn => Nat.mod_lt _ (by omega)
  have isThere : ∀ turn, ids[turn]? = some id →
      ∃ assignment ∈ dealt nodes ids, id ∈ assignment.packages ∧
        nodes[turn % nodes.length]? = some assignment.node := by
    intro turn isTurn
    have exists_node : ∃ node, nodes[turn % nodes.length]? = some node :=
      ⟨_, List.getElem?_eq_getElem (inside turn)⟩
    rcases exists_node with ⟨owner, isOwner⟩
    exact ⟨⟨owner, deal nodes.length ids (turn % nodes.length)⟩, mem_dealt.mpr ⟨_, isOwner, rfl⟩,
      mem_deal.mpr ⟨turn, isTurn, rfl⟩, isOwner⟩
  rcases isThere turn isTurn with ⟨first, isFirst, holds, isNode⟩
  rcases isThere (turn + 1) isNext with ⟨second, isSecond, otherHolds, isOther⟩
  refine ⟨id, List.mem_of_getElem? isTurn, first, isFirst, second, isSecond, holds, otherHolds, ?_⟩
  intro same
  rw [← same] at isOther
  have samePlace : turn % nodes.length = (turn + 1) % nodes.length :=
    (List.getElem?_inj (inside turn) distinct).mp (isNode.trans isOther.symm)
  have stays : turn + 0 ≡ turn + 1 [MOD nodes.length] := samePlace
  have isZero : 0 % nodes.length = 1 % nodes.length := Nat.ModEq.add_left_cancel' turn stays
  rw [Nat.zero_mod, Nat.mod_eq_of_lt (by omega)] at isZero
  cases isZero

end Dealt

/-- Nodes that are all the same are one. -/
theorem length_eq_one_iff {nodes distinctNodes : List NodeId} (nonempty : nodes ≠ [])
    (distinct : distinctNodes.Nodup) (same : ∀ node, node ∈ distinctNodes ↔ node ∈ nodes) :
    distinctNodes.length = 1 ↔ ∃ node, ∀ other ∈ nodes, other = node := by
  constructor
  · intro single
    rcases List.length_eq_one_iff.mp single with ⟨node, rfl⟩
    exact ⟨node, fun other isThere => List.mem_singleton.mp ((same other).mpr isThere)⟩
  · rintro ⟨node, all⟩
    have allSame : ∀ other ∈ distinctNodes, other = node :=
      fun other isThere => all other ((same other).mp isThere)
    rcases List.exists_mem_of_ne_nil nodes nonempty with ⟨first, isFirst⟩
    cases distinctNodes with
    | nil => simpa using (same first).mpr isFirst
    | cons head rest =>
        cases rest with
        | nil => rfl
        | cons second later =>
            have isHead := allSame head List.mem_cons_self
            have isSecond := allSame second (List.mem_cons_of_mem _ List.mem_cons_self)
            refine absurd (List.nodup_cons.mp distinct).1 (not_not.mpr ?_)
            rw [isHead, isSecond]
            exact List.mem_cons_self

/-- Lists of the same nodes and of the same packages are placed alike, as a partition, exactly if
they list each package equally often, and once unless there is a single node. -/
theorem placedAlike_iff {nodes otherNodes : List NodeId} {packageIds otherIds : List String}
    (nonempty : nodes ≠ []) (named : "" ∉ nodes) (identified : "" ∉ packageIds)
    (sameNodes : ∀ node, node ∈ nodes ↔ node ∈ otherNodes)
    (sameIds : ∀ id, id ∈ packageIds ↔ id ∈ otherIds) :
    PlacedAlike nodes packageIds otherNodes otherIds ↔
      packageIds.Perm otherIds ∧
        (packageIds.Nodup ∨ ∃ node, ∀ other ∈ nodes, other = node) := by
  rcases new_spec nonempty named with ⟨c, isNew, distinct, isNode⟩
  have isOtherNew : new otherNodes = .ok c := by rw [← new_congr nonempty named sameNodes, isNew]
  have otherIdentified : "" ∉ otherIds := fun isThere => identified ((sameIds "").mpr isThere)
  have notNil : c.nodes ≠ [] := by
    intro isNil
    rcases List.exists_mem_of_ne_nil nodes nonempty with ⟨node, isThere⟩
    simpa [isNil] using (isNode node).mpr isThere
  have single_iff := length_eq_one_iff nonempty distinct isNode
  have sorted := Go.sortStrings_perm packageIds
  have otherSorted := Go.sortStrings_perm otherIds
  constructor
  · rintro ⟨assignments, isPlaced, isOther, placed⟩
    rw [place_eq isNew identified] at isPlaced
    rw [place_eq isOtherNew otherIdentified] at isOther
    cases isPlaced
    have sameDealt := Except.ok.inj isOther
    constructor
    · have total := flatMap_dealt_perm notNil (Go.sortStrings packageIds)
      rw [← sameDealt] at total
      have others := flatMap_dealt_perm notNil (Go.sortStrings otherIds)
      exact sorted.symm.trans (total.symm.trans (others.trans otherSorted))
    · by_contra neither
      rw [not_or, ← single_iff] at neither
      have positive := List.length_pos_iff.mpr notNil
      have ascending : (Go.sortStrings packageIds).Pairwise (· ≤ ·) :=
        List.pairwise_insertionSort _ packageIds
      rcases repeated_dealt distinct (by omega) ascending
        (fun each => neither.1 (sorted.nodup_iff.mp each)) with
        ⟨id, isThere, first, isFirst, second, isSecond, holds, otherHolds, apart⟩
      have same := (placed.once id (sorted.mem_iff.mp isThere)).unique ⟨isFirst, holds⟩
        ⟨isSecond, otherHolds⟩
      exact apart (congrArg Assignment.node same)
  · rintro ⟨perm, each⟩
    rw [← single_iff, ← sorted.nodup_iff] at each
    refine ⟨_, place_eq isNew identified, ?_, ?_⟩
    · rw [place_eq isOtherNew otherIdentified, Go.sortStrings_congr perm]
    · refine ⟨?_, ?_, ?_, ?_, balanced_dealt each⟩
      · rwa [map_node_dealt]
      · intro node
        rw [map_node_dealt, isNode]
      · intro assignment isDealt id holds
        rcases mem_dealt.mp isDealt with ⟨turn, -, dealtIds⟩
        rw [dealtIds] at holds
        exact sorted.mem_iff.mp (deal_sublist.subset holds)
      · intro id isThere
        exact once_dealt notNil each id (sorted.mem_iff.mpr isThere)

theorem placedAlike_reordered :
    PlacedAlike ["b", "a", "b"] ["p2", "p1"] ["a", "b"] ["p1", "p2"] ↔
      (["p2", "p1"] : List String).Perm ["p1", "p2"] ∧
        ((["p2", "p1"] : List String).Nodup ∨ ∃ node, ∀ other ∈ ["b", "a", "b"], other = node) :=
  placedAlike_iff (by simp) (by simp) (by simp) (by intro node; simp; tauto)
    (by intro id; simp; tauto)

/-- A package that is listed twice is placed on two nodes. -/
theorem repeated_package_twice :
    place ["a", "b"] ["p", "p"] = .ok [⟨"a", ["p"]⟩, ⟨"b", ["p"]⟩] ∧
      place ["a", "b"] ["p"] = .ok [⟨"a", ["p"]⟩, ⟨"b", []⟩] ∧
      ¬ Placed ["a", "b"] ["p", "p"] [⟨"a", ["p"]⟩, ⟨"b", ["p"]⟩] := by
  refine ⟨by decide +kernel, by decide +kernel, ?_⟩
  intro placed
  have same : (⟨"a", ["p"]⟩ : Assignment) = ⟨"b", ["p"]⟩ :=
    (placed.once "p" (by simp)).unique (by simp) (by simp)
  simp at same

end Coordinator

end Aa.Sync
