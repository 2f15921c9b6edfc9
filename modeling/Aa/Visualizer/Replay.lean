import Aa.Visualizer.Session

/-!
# Layout and replay

A frame is a projected graph and its layout at one point of the timeline: one frame for
each event, in the order of the sequences. The positions are floating-point numbers, and
what they are computed from is the layer of a node's kind, how many nodes it has, the
place of the node among them and the node's id; the computation itself is a parameter.

Projection and replay are independent of the order of delivery exactly when the events
have different sequences, or both fail on the same metadata in every order.
-/

namespace Aa.Visualizer

open Aa.Library Aa.Contracts

variable {Point : Type} (position : ℕ → ℕ → ℕ → NodeId → Point)

namespace Layout

/-- Bounds a single layout pass. -/
structure Budget where
  maxNodes : ℕ
  maxEdges : ℕ

def defaultBudget : Budget := { maxNodes := 250000, maxEdges := 1000000 }

/-- The position of each node. -/
abbrev Placement (Point : Type) := Finmap fun _ : NodeId => Point

/-- Places the nodes of one layer. -/
def placeLayer (placement : Placement Point) (layer : ℕ) (nodes : List Node) : Placement Point :=
  (sortBy (·.id) nodes).zipIdx.foldl
    (fun placement place =>
      placement.insert place.1.id (position layer nodes.length place.2 place.1.id))
    placement

/-- Places every node, layer by layer, or fails if the graph is too large. -/
def layoutBudgeted (g : Graph) (b : Budget) : Except Error (Placement Point) :=
  if g.nodes.length > b.maxNodes then
    .error (.wrap .budget
      (toString g.nodes.length ++ " nodes exceeds " ++ toString b.maxNodes))
  else if g.edges.length > b.maxEdges then
    .error (.wrap .budget
      (toString g.edges.length ++ " edges exceeds " ++ toString b.maxEdges))
  else
    .ok ((Go.sortStrings (g.nodes.map (·.kind)).dedup).zipIdx.foldl
      (fun placement layer =>
        placeLayer position placement layer.2 (g.nodes.filter (·.kind = layer.1)))
      ∅)

def layout (g : Graph) : Except Error (Placement Point) := layoutBudgeted position g defaultBudget

/-- Whether a graph is within the default budget. -/
def Fits (g : Graph) : Prop :=
  g.nodes.length ≤ defaultBudget.maxNodes ∧ g.edges.length ≤ defaultBudget.maxEdges

theorem layout_of_fits {g : Graph} (fits : Fits g) : ∃ placement, layout position g = .ok placement := by
  have fewNodes : ¬ g.nodes.length > defaultBudget.maxNodes := not_lt.mpr fits.1
  have fewEdges : ¬ g.edges.length > defaultBudget.maxEdges := not_lt.mpr fits.2
  simp only [layout, layoutBudgeted, if_neg fewNodes, if_neg fewEdges]
  exact ⟨_, rfl⟩

end Layout

namespace Replay

/-- One snapshot of a session's timeline. -/
structure Frame (Point : Type) where
  index : ℕ
  sequence : ℤ
  eventId : String
  type : String
  graph : Graph
  placement : Layout.Placement Point

/-- The ordered frames of one session. -/
structure FrameList (Point : Type) where
  sessionId : SessionId := ""
  frames : List (Frame Point) := []

/-- The frames from an index on: the loop of `build`. -/
def framesFrom (sessionId : SessionId) (ordered : List Event) (index : ℕ) :
    List Event → Except Error (List (Frame Point))
  | [] => .ok []
  | e :: rest =>
      match Session.project sessionId (ordered.take (index + 1)) with
      | .error error => .error error
      | .ok graph =>
          match Layout.layout position graph with
          | .error error => .error error
          | .ok placement =>
              (framesFrom sessionId ordered (index + 1) rest).map fun frames =>
                { index := index, sequence := e.sequence, eventId := e.id, type := e.type
                  graph := graph, placement := placement } :: frames

/-- Folds a session's events into one frame per event, in the order of their sequences. -/
def build (sessionId : SessionId) (events : List Event) : Except Error (FrameList Point) :=
  if sessionId = "" then .error (.wrap .invalid "sessionId is required")
  else if events = [] then .error (.wrap .empty ("session " ++ Go.quote sessionId))
  else
    (framesFrom position sessionId (Session.orderedCopy events) 0
      (Session.orderedCopy events)).map fun frames => { sessionId := sessionId, frames := frames }

end Replay

/-! ## What fails -/

namespace Session

/-- The error an event's metadata fails with. -/
def failureOf (e : Event) : Option Error :=
  match Compat.normalize e with
  | .error error => some error
  | .ok _ => none

/-- The error the first of some events to fail fails with. -/
def firstFailure (events : List Event) : Option Error := events.findSome? failureOf

theorem failureOf_eq_some {e : Event} {error : Error} :
    failureOf e = some error ↔ Compat.normalize e = .error error := by
  rw [failureOf]
  cases Compat.normalize e <;> simp

theorem foldEvent_of_failure {sessionId : SessionId} {p : Projection} {e : Event} {error : Error}
    (fails : failureOf e = some error) : foldEvent sessionId p e = .error error := by
  simp only [foldEvent, failureOf_eq_some.mp fails]

theorem foldEvent_of_fine {sessionId : SessionId} {e : Event} (fine : failureOf e = none)
    (p : Projection) : ∃ after, foldEvent sessionId p e = .ok after := by
  cases isNormal : Compat.normalize e with
  | error error => simp [failureOf, isNormal] at fine
  | ok metadata =>
      simp only [foldEvent, isNormal]
      exact ⟨_, rfl⟩

theorem foldEvents_of_failure (sessionId : SessionId) {events : List Event} {error : Error}
    (fails : firstFailure events = some error) (p : Projection) :
    events.foldlM (foldEvent sessionId) p = .error error := by
  induction events generalizing p with
  | nil => cases fails
  | cons e rest ih =>
      rw [firstFailure, List.findSome?_cons] at fails
      rw [List.foldlM_cons]
      cases here : failureOf e with
      | some other =>
          rw [here] at fails
          cases fails
          rw [foldEvent_of_failure here]
          rfl
      | none =>
          rw [here] at fails
          rcases foldEvent_of_fine here p with ⟨after, isAfter⟩
          rw [isAfter]
          exact ih fails after

theorem foldEvents_of_fine (sessionId : SessionId) {events : List Event}
    (fine : firstFailure events = none) (p : Projection) :
    ∃ after, events.foldlM (foldEvent sessionId) p = .ok after := by
  induction events generalizing p with
  | nil => exact ⟨p, rfl⟩
  | cons e rest ih =>
      rw [firstFailure, List.findSome?_eq_none_iff] at fine
      rcases foldEvent_of_fine (fine e List.mem_cons_self) p with ⟨after, isAfter⟩
      rw [List.foldlM_cons, isAfter]
      exact ih (List.findSome?_eq_none_iff.mpr fun later isThere =>
        fine later (List.mem_cons_of_mem e isThere)) after

section Project

variable {sessionId : SessionId} {events : List Event}

/-- Projecting fails with the first failure in the order of the sequences. -/
theorem project_of_failure (named : sessionId ≠ "") {error : Error}
    (fails : firstFailure (orderedCopy events) = some error) :
    project sessionId events = .error error := by
  rw [project, if_neg named]
  cases isOrdered : orderedCopy events with
  | nil =>
      rw [isOrdered] at fails
      cases fails
  | cons first rest =>
      rw [isOrdered] at fails
      simp only [foldEvents_of_failure sessionId fails]

/-- Projecting events of which none fails does not fail. -/
theorem project_of_fine (named : sessionId ≠ "") (nonempty : events ≠ []) (fine : firstFailure (orderedCopy events) = none) :
    ∃ graph, project sessionId events = .ok graph := by
  rw [project, if_neg named]
  cases isOrdered : orderedCopy events with
  | nil => exact absurd (sortBy_eq_nil.mp isOrdered) nonempty
  | cons first rest =>
      rw [isOrdered] at fine
      rcases foldEvents_of_fine sessionId fine (({} : Projection).ensure (sessionNodeId sessionId)
        "session" sessionId first.sequence) with ⟨after, isAfter⟩
      simp only [isAfter]
      exact ⟨_, rfl⟩

end Project

theorem firstFailure_append (first second : List Event) :
    firstFailure (first ++ second) = (firstFailure first).or (firstFailure second) := by
  rw [firstFailure, List.findSome?_append]
  rfl

theorem firstFailure_singleton (e : Event) : firstFailure [e] = failureOf e := by
  simp only [firstFailure, List.findSome?_cons, List.findSome?_nil]
  cases failureOf e <;> rfl

end Session

/-- Whether no beginning of the events, in any order, gives a graph that is too large. -/
def WithinBudget (sessionId : SessionId) (events : List Event) : Prop :=
  ∀ order : List Event, order.Perm events → ∀ count graph,
    Session.project sessionId (order.take count) = .ok graph → Layout.Fits graph

namespace Session

/-! ## The size of a graph -/

/-- Whether a projection has at most so many nodes and edges more than another. -/
structure Grown (p after : Projection) (nodes edges : ℕ) : Prop where
  nodes : after.nodes.entries.length ≤ p.nodes.entries.length + nodes
  edges : after.edges.entries.length ≤ p.edges.entries.length + edges

namespace Grown

variable {p q r : Projection} {nodes edges moreNodes moreEdges : ℕ}

theorem refl (p : Projection) (nodes edges : ℕ) : Grown p p nodes edges :=
  ⟨Nat.le_add_right _ _, Nat.le_add_right _ _⟩

theorem trans (first : Grown p q nodes edges) (second : Grown q r moreNodes moreEdges) :
    Grown p r (nodes + moreNodes) (edges + moreEdges) := by
  have nodesFirst := first.nodes
  have nodesSecond := second.nodes
  have edgesFirst := first.edges
  have edgesSecond := second.edges
  exact ⟨by omega, by omega⟩

end Grown

theorem length_insert_le {Key Value : Type} [DecidableEq Key] (map : GoMap Key Value) (key : Key)
    (value : Value) : (map.insert key value).entries.length ≤ map.entries.length + 1 := by
  rw [AList.entries_insert, List.length_cons]
  exact Nat.succ_le_succ (List.kerase_sublist key map.entries).length_le

section Steps

variable (p : Projection)

theorem grown_ensure (id : NodeId) (kind ref : String) (sequence : ℤ) :
    Grown p (p.ensure id kind ref sequence) 1 0 := by
  rw [Projection.ensure]
  split
  · exact .refl p 1 0
  · exact ⟨length_insert_le _ _ _, Nat.le_refl _⟩

theorem grown_annotate (id : NodeId) (m : Compat.Metadata) : Grown p (p.annotate id m) 1 0 := by
  rw [Projection.annotate]
  split
  · exact .refl p 1 0
  · exact ⟨length_insert_le _ _ _, Nat.le_refl _⟩

theorem grown_connect (source target : NodeId) (kind : String) (sequence : ℤ) :
    Grown p (p.connect source target kind sequence) 0 1 := by
  simp only [Projection.connect]
  split
  · split
    · exact ⟨Nat.le_refl _, length_insert_le _ _ _⟩
    · exact .refl p 0 1
  · exact ⟨Nat.le_refl _, length_insert_le _ _ _⟩

theorem grown_connectApart (source target : NodeId) (kind : String) (sequence : ℤ) :
    Grown p (p.connectApart source target kind sequence) 0 1 := by
  rw [Projection.connectApart]
  split
  · exact .refl p 0 1
  · exact grown_connect p source target kind sequence

theorem grown_contain (sessionId : SessionId) (e : Event) : Grown p (contain sessionId p e) 1 1 := by
  have grown := (grown_ensure p (aggregateId e) e.aggregate.kind e.aggregate.id e.sequence).trans
    (grown_connectApart _ (sessionNodeId sessionId) (aggregateId e) "contains" e.sequence)
  exact ⟨grown.nodes, grown.edges⟩

theorem grown_access (e : Event) : Grown p (access p e) 1 1 := by
  rw [access]
  split
  · exact .refl p 1 1
  · exact (grown_ensure p _ _ _ _).trans (grown_connect _ _ _ _ _)

theorem grown_cause (e : Event) : Grown p (cause p e) 0 1 := by
  rw [cause]
  split
  · exact .refl p 0 1
  · split
    · exact grown_connectApart p _ _ _ _
    · exact .refl p 0 1

theorem grown_correlate (e : Event) : Grown p (correlate p e) 0 1 := by
  rw [correlate]
  split
  · exact .refl p 0 1
  · split
    · exact grown_connectApart p _ _ _ _
    · exact ⟨Nat.le_refl _, Nat.le_add_right _ _⟩

theorem grown_mention (e : Event) (key kind edge : String) :
    Grown p (mention p e key kind edge) 1 1 := by
  rw [mention]
  split
  · exact .refl p 1 1
  · exact (grown_ensure p _ _ _ _).trans (grown_connectApart _ _ _ _ _)

end Steps

/-- One event adds at most five nodes and six edges. -/
theorem grown_foldEvent {sessionId : SessionId} {p after : Projection} {e : Event}
    (isAfter : foldEvent sessionId p e = .ok after) : Grown p after 5 6 := by
  have correlated := (((grown_contain p sessionId e).trans (grown_access _ e)).trans
    (grown_cause _ e)).trans (grown_correlate _ e)
  simp only [foldEvent] at isAfter
  cases isNormal : Compat.normalize e with
  | error error =>
      rw [isNormal] at isAfter
      cases isAfter
  | ok metadata =>
      rw [isNormal] at isAfter
      cases isAfter
      refine Grown.trans (Grown.trans ?_ (grown_mention _ e _ _ _)) (grown_mention _ e _ _ _)
      split
      · exact ⟨by have := correlated.nodes; omega, correlated.edges⟩
      · exact correlated.trans (grown_annotate _ _ metadata)

theorem grown_foldEvents {sessionId : SessionId} {p after : Projection} {events : List Event}
    (isAfter : events.foldlM (foldEvent sessionId) p = .ok after) :
    Grown p after (5 * events.length) (6 * events.length) := by
  induction events generalizing p with
  | nil =>
      cases isAfter
      exact .refl _ _ _
  | cons e rest ih =>
      rw [List.foldlM_cons] at isAfter
      cases isStep : foldEvent sessionId p e with
      | error error =>
          rw [isStep] at isAfter
          cases isAfter
      | ok next =>
          rw [isStep] at isAfter
          have grown := (grown_foldEvent isStep).trans (ih isAfter)
          have nodes := grown.nodes
          have edges := grown.edges
          rw [List.length_cons]
          exact ⟨by omega, by omega⟩

/-- A graph has one node more than five for each event, and six edges for each. -/
theorem project_size {sessionId : SessionId} {events : List Event} {graph : Graph}
    (isGraph : project sessionId events = .ok graph) :
    graph.nodes.length ≤ 5 * events.length + 1 ∧ graph.edges.length ≤ 6 * events.length := by
  rw [project] at isGraph
  split at isGraph
  · cases isGraph
  · have sameLength : (orderedCopy events).length = events.length := length_sortBy events
    cases isOrdered : orderedCopy events with
    | nil =>
        rw [isOrdered] at isGraph
        cases isGraph
    | cons first rest =>
        rw [isOrdered] at isGraph sameLength
        simp only at isGraph
        split at isGraph
        · cases isGraph
        · rename_i after isAfter
          cases isGraph
          have start := grown_ensure {} (sessionNodeId sessionId) "session" sessionId first.sequence
          have grown := start.trans (grown_foldEvents isAfter)
          have nodes := grown.nodes
          have edges := grown.edges
          have noNodes : ({} : Projection).nodes.entries.length = 0 := rfl
          have noEdges : ({} : Projection).edges.entries.length = 0 := rfl
          simp only [Projection.sortedNodes, Projection.sortedEdges, length_sortBy, List.length_map]
          constructor <;> omega

end Session

/-- Up to 49999 events are within the budget. -/
theorem withinBudget_of_length (sessionId : SessionId) {events : List Event}
    (few : events.length ≤ 49999) : WithinBudget sessionId events := by
  intro order perm count graph isGraph
  have size := Session.project_size isGraph
  have sameLength := perm.length_eq
  have shorter := (List.take_sublist count order).length_le
  exact ⟨by simp only [Layout.defaultBudget]; omega, by simp only [Layout.defaultBudget]; omega⟩

namespace Replay

open Session

section Frames

variable {sessionId : SessionId} {ordered : List Event}

/-- The step of the loop on an event of which the projection does not fail. -/
theorem framesFrom_cons {index : ℕ} {e : Event} {rest : List Event} {graph : Graph}
    (isGraph : project sessionId (ordered.take (index + 1)) = .ok graph)
    (fits : Layout.Fits graph) :
    ∃ frame : Frame Point, frame.eventId = e.id ∧
      framesFrom position sessionId ordered index (e :: rest) =
        (framesFrom position sessionId ordered (index + 1) rest).map (frame :: ·) := by
  rcases Layout.layout_of_fits position fits with ⟨placement, isPlacement⟩
  simp only [framesFrom, isGraph, isPlacement]
  exact ⟨_, rfl, rfl⟩

theorem framesFrom_spec (named : sessionId ≠ "")
    (sorted : ordered.Pairwise fun first second => first.sequence ≤ second.sequence)
    (fits : ∀ count graph, project sessionId (ordered.take count) = .ok graph → Layout.Fits graph)
    {before rest : List Event} (isSplit : ordered = before ++ rest)
    (fine : firstFailure before = none) :
    (∀ error, firstFailure ordered = some error →
      framesFrom position sessionId ordered before.length rest = .error error) ∧
    (firstFailure ordered = none → ∃ frames,
      framesFrom position sessionId ordered before.length rest = .ok frames ∧
        frames.map Frame.eventId = rest.map fun e => e.id) := by
  induction rest generalizing before with
  | nil =>
      rw [List.append_nil] at isSplit
      rw [isSplit, fine]
      exact ⟨fun _ fails => (by cases fails), fun _ => ⟨[], rfl, rfl⟩⟩
  | cons e rest ih =>
      have isPrefix : ordered.take (before.length + 1) = before ++ [e] := by
        simp [isSplit, List.take_append]
      have isOrdered : orderedCopy (before ++ [e]) = before ++ [e] := by
        rw [← isPrefix]
        exact sortBy_of_sorted (sorted.sublist (List.take_sublist _ _))
      have again : ordered = (before ++ [e]) ++ rest := by simp [isSplit]
      have isFailure : firstFailure (before ++ [e]) = failureOf e := by
        rw [firstFailure_append, fine, firstFailure_singleton]
        rfl
      cases here : failureOf e with
      | some error =>
          have failsHere : firstFailure (orderedCopy (before ++ [e])) = some error := by
            rw [isOrdered, isFailure, here]
          have failsWhole : firstFailure ordered = some error := by
            rw [again, firstFailure_append, isFailure, here]
            rfl
          rw [failsWhole]
          refine ⟨fun other isOther => ?_, fun no => by cases no⟩
          cases isOther
          simp only [framesFrom, isPrefix, project_of_failure named failsHere]
      | none =>
          have fineHere : firstFailure (orderedCopy (before ++ [e])) = none := by
            rw [isOrdered, isFailure, here]
          rcases project_of_fine named (by simp) fineHere with ⟨graph, isGraph⟩
          rw [← isPrefix] at isGraph
          rcases framesFrom_cons position isGraph (fits _ _ isGraph) with ⟨frame, isId, isStep⟩
          have later := ih again (isFailure.trans here)
          rw [List.length_append, List.length_singleton] at later
          rw [isStep]
          refine ⟨fun error fails => ?_, fun fine => ?_⟩
          · rw [later.1 error fails]
            rfl
          · rcases later.2 fine with ⟨frames, isFrames, ids⟩
            refine ⟨frame :: frames, by rw [isFrames]; rfl, ?_⟩
            rw [List.map_cons, List.map_cons, isId, ids]

end Frames

section Build

variable {sessionId : SessionId} {events : List Event}

theorem build_spec (named : sessionId ≠ "") (nonempty : events ≠ [])
    (fits : WithinBudget sessionId events) :
    (∀ error, firstFailure (orderedCopy events) = some error →
      build position sessionId events = .error error) ∧
    (firstFailure (orderedCopy events) = none → ∃ list, build position sessionId events = .ok list ∧
      list.frames.map Frame.eventId = (orderedCopy events).map fun e => e.id) := by
  have spec := framesFrom_spec position named (sortBy_sorted events)
    (fun count graph => fits (orderedCopy events) (sortBy_perm events) count graph)
    (List.nil_append _).symm rfl
  simp only [build, if_neg named, if_neg nonempty]
  refine ⟨fun error fails => ?_, fun fine => ?_⟩
  · rw [show framesFrom position sessionId (orderedCopy events) 0 (orderedCopy events) =
      .error error from spec.1 error fails]
    rfl
  · rcases spec.2 fine with ⟨frames, isFrames, ids⟩
    refine ⟨{ sessionId := sessionId, frames := frames }, ?_, ids⟩
    rw [show framesFrom position sessionId (orderedCopy events) 0 (orderedCopy events) =
      .ok frames from isFrames]
    rfl

end Build

end Replay

end Aa.Visualizer
