import Aa.Visualizer.Delivery
import Aa.Visualizer.WellFormed

/-!
# The frames of a replay grow

Each frame is a projection of its own, of more of the events than the one before it. What is in a
frame is in all later ones, with its sequence.
-/

namespace Aa.Visualizer

open Aa.Library Aa.Contracts Session Replay

namespace Session

/-- A graph has the nodes and edges of another, but for the metadata of nodes. -/
structure Grows (earlier later : Graph) : Prop where
  nodes : ∀ node ∈ earlier.nodes, ∃ metadata, { node with metadata := metadata } ∈ later.nodes
  edges : ∀ edge ∈ earlier.edges, edge ∈ later.edges

/-- More of the events in order give a graph that has grown. -/
theorem grows_of_take {sessionId : SessionId} {ordered : List Event} {earlier later : Graph}
    (sorted : ordered.Pairwise InOrder) (apart : ActorsApart ordered) {few more : ℕ}
    (le : few ≤ more) (isEarlier : project sessionId (ordered.take few) = .ok earlier)
    (isLater : project sessionId (ordered.take more) = .ok later) : Grows earlier later := by
  have sortedTake (count : ℕ) : orderedCopy (ordered.take count) = ordered.take count :=
    sortBy_of_sorted (sorted.sublist (List.take_sublist count ordered))
  rcases projects_of_project isEarlier with ⟨p, isBefore, rfl⟩
  rcases projects_of_project isLater with ⟨q, isAfter, rfl⟩
  rw [sortedTake] at isBefore isAfter
  have sortedMore : (ordered.take more).Pairwise InOrder :=
    sorted.sublist (List.take_sublist more ordered)
  have apartMore : ActorsApart (ordered.take more) := fun e isEvent =>
    apart e (List.mem_of_mem_take isEvent)
  rcases sound_of_all isAfter sortedMore apartMore with ⟨_, soundAfter⟩
  have isPrefix : ordered.take few <+: ordered.take more := List.take_prefix_take_left le
  rcases isPrefix with ⟨added, isSplit⟩
  rw [← isSplit] at isAfter sortedMore apartMore
  rcases sound_of_projects isBefore sortedMore apartMore with ⟨_, soundBefore, -⟩
  have persists := persists_of_projects isBefore isAfter sortedMore apartMore
  constructor
  · intro node isNode
    rcases persists.nodes _ node ((mem_sortedNodes soundBefore.keyed).mp isNode) with
      ⟨metadata, isKept⟩
    exact ⟨metadata, (mem_sortedNodes soundAfter.keyed).mpr isKept⟩
  · intro edge isEdge
    have isHeld := (mem_sortedEdges soundBefore.edgeKeyed).mp isEdge
    exact (mem_sortedEdges soundAfter.edgeKeyed).mpr (persists.edges _ edge isHeld)

end Session

namespace Replay

variable {Point : Type} {position : ℕ → ℕ → ℕ → NodeId → Point} {sessionId : SessionId}

/-- The frames from an index on are numbered, and are the projections of as many events. -/
theorem framesFrom_numbered {ordered rest : List Event} {index : ℕ} {frames : List (Frame Point)}
    (isFrames : framesFrom position sessionId ordered index rest = .ok frames) :
    (∀ frame ∈ frames, index ≤ frame.index ∧
      project sessionId (ordered.take (frame.index + 1)) = .ok frame.graph) ∧
    frames.Pairwise fun earlier later => earlier.index < later.index := by
  induction rest generalizing index frames with
  | nil =>
      cases isFrames
      simp
  | cons e rest ih =>
      rw [framesFrom] at isFrames
      cases isGraph : project sessionId (ordered.take (index + 1)) with
      | error error => simp [isGraph] at isFrames
      | ok graph =>
          cases isPlaced : Layout.layout position graph with
          | error error => simp [isGraph, isPlaced] at isFrames
          | ok placement =>
              cases isRest : framesFrom position sessionId ordered (index + 1) rest with
              | error error => simp [isGraph, isPlaced, isRest, Except.map] at isFrames
              | ok later =>
                  rcases ih isRest with ⟨projected, numbered⟩
                  simp only [isGraph, isPlaced, isRest, Except.map, Except.ok.injEq] at isFrames
                  rw [← isFrames]
                  constructor
                  · intro frame isFrame
                    rcases List.mem_cons.mp isFrame with rfl | isLater
                    · exact ⟨le_rfl, isGraph⟩
                    · rcases projected frame isLater with ⟨isAhead, isProjected⟩
                      exact ⟨by omega, isProjected⟩
                  · refine List.pairwise_cons.mpr ⟨fun frame isLater => ?_, numbered⟩
                    exact (projected frame isLater).1

theorem frames_grow {events : List Event} {list : FrameList Point} (apart : ActorsApart events)
    (isBuilt : build position sessionId events = .ok list) :
    list.frames.Pairwise fun earlier later => Grows earlier.graph later.graph := by
  rw [build] at isBuilt
  split at isBuilt
  · cases isBuilt
  · split at isBuilt
    · cases isBuilt
    · cases isFrames : framesFrom position sessionId (orderedCopy events) 0 (orderedCopy events) with
      | error error => simp [isFrames, Except.map] at isBuilt
      | ok frames =>
          simp only [isFrames, Except.map, Except.ok.injEq] at isBuilt
          rw [← isBuilt]
          rcases framesFrom_numbered isFrames with ⟨projected, numbered⟩
          have apartOrdered : ActorsApart (orderedCopy events) := fun e isEvent =>
            apart e (mem_sortBy.mp isEvent)
          refine numbered.imp_of_mem ?_
          intro earlier later isEarlier isLater before
          exact grows_of_take (sortBy_sorted events) apartOrdered (by omega)
            (projected earlier isEarlier).2 (projected later isLater).2

end Replay

/-- Validated events whose metadata normalizes are projected, and every projection of theirs is
well-formed; in a replay what is in a frame is in each later one. -/
theorem wellFormed_and_grows {Point : Type} (position : ℕ → ℕ → ℕ → NodeId → Point)
    (sessionId : SessionId) {events : List Event} (valid : ∀ e ∈ events, e.validate = .ok ())
    (normal : ∀ e ∈ events, ∃ metadata, Compat.normalize e = .ok metadata) :
    (sessionId ≠ "" → events ≠ [] → ∃ graph, project sessionId events = .ok graph) ∧
    (∀ graph, project sessionId events = .ok graph → WellFormed sessionId events graph) ∧
    ∀ list, build position sessionId events = .ok list →
      list.frames.Pairwise fun earlier later => Grows earlier.graph later.graph := by
  have apart := actorsApart_of_valid valid
  refine ⟨fun named nonempty => ?_, fun graph => wellFormed_of_project apart,
    fun list => frames_grow apart⟩
  refine project_of_fine named nonempty ?_
  refine List.findSome?_eq_none_iff.mpr fun e isEvent => ?_
  rcases normal e (mem_sortBy.mp isEvent) with ⟨metadata, isNormal⟩
  rw [failureOf, isNormal]

theorem twoEvents_wellFormed :
    ∃ graph, project "s1" [workEvent "e1" 1 "wp1" "", workEvent "e2" 2 "wp2" "e1"] = .ok graph ∧
      WellFormed "s1" [workEvent "e1" 1 "wp1" "", workEvent "e2" 2 "wp2" "e1"] graph := by
  have valid : ∀ e ∈ [workEvent "e1" 1 "wp1" "", workEvent "e2" 2 "wp2" "e1"],
      e.validate = .ok () := by decide +kernel
  have normal : ∀ e ∈ [workEvent "e1" 1 "wp1" "", workEvent "e2" 2 "wp2" "e1"],
      ∃ metadata, Compat.normalize e = .ok metadata := by
    intro e isEvent
    rcases List.mem_pair.mp isEvent with rfl | rfl <;> exact ⟨{}, rfl⟩
  have spec := wellFormed_and_grows plainPosition "s1" valid normal
  rcases spec.1 (by decide) (by simp) with ⟨graph, isGraph⟩
  exact ⟨graph, isGraph, spec.2.1 graph isGraph⟩

end Aa.Visualizer
