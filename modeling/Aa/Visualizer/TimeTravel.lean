import Aa.Visualizer.Bridge
import Aa.Visualizer.Browse
import Aa.Visualizer.Delivery
import Aa.Visualizer.Layout
import Aa.Visualizer.Relations

/-!
# Time travel

A cursor moves over the frames of a session's timeline, or of a live bridge. Whatever moves were
made before, the frame at a sequence shows the session as it was then: the projection of the events
up to this sequence, each node at the position that counting the nodes of this projection gives it.
-/

namespace Aa.Visualizer

open Aa.Library Aa.Contracts

variable {Point : Type} (position : ℕ → ℕ → ℕ → NodeId → Point)

namespace Replay

/-- A time-travel position over a frame list. -/
structure Cursor (Point : Type) where
  frames : List (Frame Point)
  index : ℕ
  within : frames ≠ [] → index < frames.length

def noFrames : Error := .wrap .empty "no frames"

def newCursor (frames : List (Frame Point)) : Except Error (Cursor Point) :=
  if none : frames = [] then .error noFrames
  else .ok { frames := frames, index := 0, within := fun _ => List.length_pos_iff.mpr none }

def FrameList.cursor (list : FrameList Point) : Except Error (Cursor Point) :=
  newCursor list.frames

namespace Cursor

variable (c : Cursor Point)

/-- The current frame. -/
def snapshot : Except Error (Frame Point) :=
  if available : c.frames = [] then .error noFrames
  else .ok (c.frames.get ⟨c.index, c.within available⟩)

/-- Moves to an index, or stays where it is if the index is out of range. -/
def seek (index : ℤ) : Except Error (Frame Point) × Cursor Point :=
  if c.frames = [] then (.error noFrames, c)
  else if inside : 0 ≤ index ∧ index.toNat < c.frames.length then
    (.ok (c.frames.get ⟨index.toNat, inside.2⟩),
      { c with index := index.toNat, within := fun _ => inside.2 })
  else
    (.error (.wrap .invalid ("frame index " ++ Go.itoa index ++ " out of range [0," ++
      toString c.frames.length ++ ")")), c)

/-- Moves by some frames; the sum of two `int` values wraps around. -/
def step (delta : ℤ) : Except Error (Frame Point) × Cursor Point :=
  if c.frames = [] then (.error noFrames, c) else c.seek ((c.index + delta).bmod (2 ^ 64))

/-- Moves to the first frame of a sequence. -/
def seekSequence (sequence : ℤ) : Except Error (Frame Point) × Cursor Point :=
  if c.frames = [] then (.error noFrames, c)
  else
    match isFound : c.frames.findIdx? (·.sequence = sequence) with
    | none => (.error (.wrap .notFound ("sequence " ++ Go.itoa sequence)), c)
    | some index =>
        have inside : index < c.frames.length :=
          (List.findIdx?_eq_some_iff_getElem.mp isFound).1
        (.ok (c.frames.get ⟨index, inside⟩), { c with index := index, within := fun _ => inside })

def reset : Except Error (Frame Point) × Cursor Point := c.seek 0

/-- The operations of a cursor. -/
inductive Move
  | snapshot
  | step (delta : ℤ)
  | seek (index : ℤ)
  | seekSequence (sequence : ℤ)
  | reset

def move : Move → Except Error (Frame Point) × Cursor Point
  | .snapshot => (c.snapshot, c)
  | .step delta => c.step delta
  | .seek index => c.seek index
  | .seekSequence sequence => c.seekSequence sequence
  | .reset => c.reset

/-- The cursor after some operations. -/
def after (moves : List Move) : Cursor Point := moves.foldl (fun c move => (c.move move).2) c

variable {c}

/-- What an operation may do: it answers with the frame it moves to, or fails and stays. -/
structure Obeys (c : Cursor Point) (result : Except Error (Frame Point) × Cursor Point) : Prop where
  frames : result.2.frames = c.frames
  answer : ∀ frame, result.1 = .ok frame → c.frames[result.2.index]? = some frame
  stays : ∀ error, result.1 = .error error → result.2 = c

theorem obeys_error (error : Error) : c.Obeys (.error error, c) :=
  ⟨rfl, fun _ isOk => (nomatch isOk), fun _ _ => rfl⟩

theorem obeys_seek (index : ℤ) : c.Obeys (c.seek index) := by
  rw [seek]
  split_ifs with isEmpty inside
  · exact obeys_error _
  · refine ⟨rfl, ?_, fun _ isError => nomatch isError⟩
    intro frame isFrame
    cases isFrame
    exact List.getElem?_eq_getElem inside.2
  · exact obeys_error _

theorem obeys_seekSequence (sequence : ℤ) : c.Obeys (c.seekSequence sequence) := by
  rw [seekSequence]
  split_ifs
  · exact obeys_error _
  · split
    · exact obeys_error _
    · rename_i index isFound
      refine ⟨rfl, ?_, fun _ isError => nomatch isError⟩
      intro frame isFrame
      cases isFrame
      exact List.getElem?_eq_getElem (List.findIdx?_eq_some_iff_getElem.mp isFound).1

theorem obeys_move (m : Move) : c.Obeys (c.move m) := by
  cases m with
  | snapshot =>
      refine ⟨rfl, ?_, fun _ _ => rfl⟩
      intro frame isFrame
      simp only [move, snapshot] at isFrame ⊢
      split_ifs at isFrame with isEmpty
      cases isFrame
      exact List.getElem?_eq_getElem (c.within isEmpty)
  | step delta =>
      rw [move, step]
      split_ifs
      · exact obeys_error _
      · exact obeys_seek _
  | seek index => exact obeys_seek index
  | seekSequence sequence => exact obeys_seekSequence sequence
  | reset => exact obeys_seek 0

theorem frames_after (moves : List Move) : (c.after moves).frames = c.frames := by
  induction moves generalizing c with
  | nil => rfl
  | cons m rest ih => exact (ih (c := (c.move m).2)).trans (obeys_move m).frames

/-- Seeking a sequence finds its first frame. -/
theorem seekSequence_ok {sequence : ℤ} {frame : Frame Point}
    (isFrame : (c.seekSequence sequence).1 = .ok frame) :
    frame.sequence = sequence ∧ ∃ index : ℕ, c.frames[index]? = some frame ∧
      ∀ earlier ∈ c.frames.take index, earlier.sequence ≠ sequence := by
  rw [seekSequence] at isFrame
  split_ifs at isFrame
  split at isFrame
  · cases isFrame
  · rename_i index isFound
    rcases List.findIdx?_eq_some_iff_getElem.mp isFound with ⟨inside, isSequence, notBefore⟩
    cases isFrame
    refine ⟨by simpa using isSequence, index, List.getElem?_eq_getElem inside, ?_⟩
    intro earlier isEarlier
    rcases List.mem_take_iff_getElem.mp isEarlier with ⟨place, isPlace, rfl⟩
    have isBefore : place < index := by omega
    simpa using notBefore place isBefore

/-- Seeking fails for the sequences that no frame has. -/
theorem seekSequence_error {sequence : ℤ} {error : Error}
    (isError : (c.seekSequence sequence).1 = .error error) :
    ∀ frame ∈ c.frames, frame.sequence ≠ sequence := by
  rw [seekSequence] at isError
  split_ifs at isError with isEmpty
  · simp [isEmpty]
  · split at isError
    · rename_i notFound
      simpa using List.findIdx?_eq_none_iff.mp notFound
    · cases isError

end Cursor

/-! ## The frames of a replay -/

variable {position} {sessionId : SessionId}

/-- The frame of an event shows the projection of the events up to it and its layout. -/
structure Shows (position : ℕ → ℕ → ℕ → NodeId → Point) (sessionId : SessionId)
    (ordered : List Event) (place : ℕ) (frame : Frame Point) : Prop where
  index : frame.index = place
  event : ∃ e, ordered[place]? = some e ∧ frame.sequence = e.sequence ∧ frame.eventId = e.id ∧
    frame.type = e.type
  graph : Session.project sessionId (ordered.take (place + 1)) = .ok frame.graph
  placement : Layout.layout position frame.graph = .ok frame.placement

theorem framesFrom_cons_ok {ordered rest : List Event} {e : Event} {index : ℕ}
    {frames : List (Frame Point)}
    (isFrames : framesFrom position sessionId ordered index (e :: rest) = .ok frames) :
    ∃ graph placement later,
      Session.project sessionId (ordered.take (index + 1)) = .ok graph ∧
      Layout.layout position graph = .ok placement ∧
      framesFrom position sessionId ordered (index + 1) rest = .ok later ∧
      frames =
        { index := index, sequence := e.sequence, eventId := e.id, type := e.type
          graph := graph, placement := placement } :: later := by
  simp only [framesFrom] at isFrames
  cases isGraph : Session.project sessionId (ordered.take (index + 1)) with
  | error error => simp [isGraph] at isFrames
  | ok graph =>
      cases isPlacement : Layout.layout position graph with
      | error error => simp [isGraph, isPlacement] at isFrames
      | ok placement =>
          simp only [isGraph, isPlacement] at isFrames
          cases isLater : framesFrom position sessionId ordered (index + 1) rest with
          | error error => simp [isLater, Except.map] at isFrames
          | ok later =>
              simp only [isLater, Except.map, Except.ok.injEq] at isFrames
              exact ⟨graph, placement, later, rfl, isPlacement, rfl, isFrames.symm⟩

theorem framesFrom_shows {ordered rest : List Event} {index : ℕ} {frames : List (Frame Point)}
    (isRest : ordered.drop index = rest)
    (isFrames : framesFrom position sessionId ordered index rest = .ok frames) :
    frames.map (·.sequence) = rest.map (·.sequence) ∧
      ∀ place frame, frames[place]? = some frame →
        Shows position sessionId ordered (index + place) frame := by
  induction rest generalizing index frames with
  | nil =>
      cases isFrames
      exact ⟨rfl, fun place frame isFrame => by simp at isFrame⟩
  | cons e rest ih =>
      have isEvent : ordered[index]? = some e := by
        rw [← List.head?_drop, isRest]
        rfl
      have isLater : ordered.drop (index + 1) = rest := by
        rw [← List.tail_drop, isRest]
        rfl
      rcases framesFrom_cons_ok isFrames with
        ⟨graph, placement, later, isGraph, isPlacement, isLaterFrames, rfl⟩
      rcases ih isLater isLaterFrames with ⟨sameSequences, shows⟩
      refine ⟨by simp [sameSequences], ?_⟩
      intro place frame isFrame
      cases place with
      | zero =>
          cases isFrame
          exact ⟨rfl, ⟨e, isEvent, rfl, rfl, rfl⟩, isGraph, isPlacement⟩
      | succ place =>
          have shown := shows place frame isFrame
          rwa [Nat.add_right_comm, Nat.add_assoc] at shown

end Replay

/-! ## The nodes of a projection -/

namespace Session

/-- A node is held under its id. -/
def Keyed (p : Projection) : Prop := ∀ id node, p.nodes.lookup id = some node → node.id = id

theorem keyed_ensure {p : Projection} (keyed : Keyed p) (id : NodeId) (kind ref : String)
    (sequence : ℤ) : Keyed (p.ensure id kind ref sequence) := by
  rw [Projection.ensure]
  split
  · exact keyed
  · intro other node isNode
    by_cases isNew : other = id
    · subst isNew
      rw [AList.lookup_insert] at isNode
      cases isNode
      rfl
    · rw [AList.lookup_insert_ne isNew] at isNode
      exact keyed other node isNode

theorem keyed_annotate {p : Projection} (keyed : Keyed p) (id : NodeId) (m : Compat.Metadata) :
    Keyed (p.annotate id m) := by
  rw [Projection.annotate]
  split
  · exact keyed
  · rename_i held isHeld
    intro other node isNode
    by_cases isNew : other = id
    · subst isNew
      rw [AList.lookup_insert] at isNode
      cases isNode
      exact keyed other held isHeld
    · rw [AList.lookup_insert_ne isNew] at isNode
      exact keyed other node isNode

/-- Edges and lookups do not matter for the nodes. -/
theorem Keyed.of_nodes {p q : Projection} (keyed : Keyed p) (same : q.nodes = p.nodes) : Keyed q := by
  intro id node isNode
  rw [same] at isNode
  exact keyed id node isNode

theorem connectApart_nodes (p : Projection) (source target : NodeId) (kind : String)
    (sequence : ℤ) : (p.connectApart source target kind sequence).nodes = p.nodes := by
  rw [Projection.connectApart]
  split_ifs
  · rfl
  · exact connect_nodes p source target kind sequence

theorem keyed_mention {p : Projection} (keyed : Keyed p) (e : Event) (key kind edge : String) :
    Keyed (mention p e key kind edge) := by
  rw [mention]
  split
  · exact keyed
  · exact (keyed_ensure keyed _ _ _ _).of_nodes (connectApart_nodes _ _ _ _ _)

theorem cause_nodes (p : Projection) (e : Event) : (cause p e).nodes = p.nodes := by
  rw [cause]
  split_ifs
  · rfl
  · split
    · exact connectApart_nodes _ _ _ _ _
    · rfl

theorem correlate_nodes (p : Projection) (e : Event) : (correlate p e).nodes = p.nodes := by
  rw [correlate]
  split_ifs
  · rfl
  · split
    · exact connectApart_nodes _ _ _ _ _
    · rfl

theorem keyed_foldEvent {p after : Projection} {e : Event} (keyed : Keyed p)
    (isAfter : foldEvent sessionId p e = .ok after) : Keyed after := by
  have contained : Keyed (contain sessionId p e) :=
    (keyed_ensure keyed _ _ _ _).of_nodes (connectApart_nodes _ _ _ _ _)
  have accessed : Keyed (access (contain sessionId p e) e) := by
    rw [access]
    split_ifs
    · exact contained
    · exact (keyed_ensure contained _ _ _ _).of_nodes (connect_nodes _ _ _ _ _)
  have correlated : Keyed (correlate (cause (access (contain sessionId p e) e) e) e) :=
    accessed.of_nodes ((correlate_nodes _ e).trans (cause_nodes _ e))
  simp only [foldEvent] at isAfter
  cases isNormal : Compat.normalize e with
  | error error => simp [isNormal] at isAfter
  | ok metadata =>
      rw [isNormal] at isAfter
      cases isAfter
      apply keyed_mention
      apply keyed_mention
      split_ifs
      · exact correlated
      · exact keyed_annotate correlated _ metadata

theorem keyed_foldEvents {p after : Projection} {events : List Event} (keyed : Keyed p)
    (isAfter : events.foldlM (foldEvent sessionId) p = .ok after) : Keyed after := by
  induction events generalizing p with
  | nil =>
      cases isAfter
      exact keyed
  | cons e rest ih =>
      rw [List.foldlM_cons] at isAfter
      cases isStep : foldEvent sessionId p e with
      | error error => simp [isStep, bind, Except.bind] at isAfter
      | ok next =>
          rw [isStep] at isAfter
          exact ih (keyed_foldEvent keyed isStep) isAfter

/-- The nodes of a projection have different ids. -/
theorem nodup_ids_of_project {events : List Event} {graph : Graph}
    (isGraph : project sessionId events = .ok graph) : (graph.nodes.map (·.id)).Nodup := by
  rw [project] at isGraph
  split_ifs at isGraph
  split at isGraph
  · cases isGraph
  · simp only at isGraph
    split at isGraph
    · cases isGraph
    · rename_i first rest _ _ after isAfter
      cases isGraph
      apply sortedNodes_nodup
      apply keyed_foldEvents _ isAfter
      apply keyed_ensure
      intro id node isNode
      cases isNode

/-- A projection depends on its events in the order of their sequences alone. -/
theorem project_orderedCopy (sessionId : SessionId) (events : List Event) :
    project sessionId (orderedCopy events) = project sessionId events := by
  have again : orderedCopy (orderedCopy events) = orderedCopy events :=
    sortBy_of_sorted (sortBy_sorted events)
  rw [project, project, again]

end Session

/-! ## The past of a session -/

namespace Replay

/-- A frame shows the past of a session at its sequence: one of the events of this sequence, the
projection of the events with smaller sequences and of those of the same sequence up to this one,
and where the nodes are placed. -/
structure ShowsPast (position : ℕ → ℕ → ℕ → NodeId → Point) (sessionId : SessionId)
    (events : List Event) (frame : Frame Point) (count : ℕ) : Prop where
  some : 0 < count
  event : ∃ e, (events.filter (·.sequence = frame.sequence))[count - 1]? = .some e ∧
    frame.eventId = e.id ∧ frame.type = e.type
  graph : Session.project sessionId (upTo (·.sequence) events frame.sequence count) =
    .ok frame.graph
  placed : ∀ node ∈ frame.graph.nodes,
    frame.placement.lookup node.id = .some (Layout.pointOf position frame.graph.nodes node)
  nothingElse : ∀ id, (∀ node ∈ frame.graph.nodes, node.id ≠ id) →
    frame.placement.lookup id = none

variable {position} {events : List Event} {frame : Frame Point} {place : ℕ}

theorem Shows.past (shows : Shows position sessionId (Session.orderedCopy events) place frame) :
    ∃ count, ShowsPast position sessionId events frame count ∧
      ((∀ earlier ∈ (Session.orderedCopy events).take place,
        earlier.sequence ≠ frame.sequence) → count = 1) := by
  have points := Layout.layoutBudgeted_points (Session.nodup_ids_of_project shows.graph)
    shows.placement
  rcases shows.event with ⟨e, isEvent, isSequence, isId, isType⟩
  rcases take_sortBy isEvent with ⟨count, isSome, isLast, isTaken, isFirst⟩
  rw [isSequence]
  refine ⟨count, ⟨isSome, ⟨e, ?_, isId, isType⟩, ?_, ?_, ?_⟩, isFirst⟩
  · rw [isSequence]
    exact isLast
  · rw [isSequence, ← Session.project_orderedCopy]
    change Session.project sessionId (sortBy _ _) = _
    rw [← isTaken]
    exact shows.graph
  · exact points.1
  · exact points.2

theorem build_shows {list : FrameList Point}
    (isBuilt : build position sessionId events = .ok list) :
    list.frames ≠ [] ∧
      list.frames.map (·.sequence) = (Session.orderedCopy events).map (·.sequence) ∧
      ∀ place frame, list.frames[place]? = some frame →
        Shows position sessionId (Session.orderedCopy events) place frame := by
  rw [build] at isBuilt
  split_ifs at isBuilt with notNamed isEmpty
  cases isFrames : framesFrom position sessionId (Session.orderedCopy events) 0
      (Session.orderedCopy events) with
  | error error => simp [isFrames, Except.map] at isBuilt
  | ok frames =>
      simp only [isFrames, Except.map, Except.ok.injEq] at isBuilt
      subst isBuilt
      have spec := framesFrom_shows List.drop_zero isFrames
      simp only [Nat.zero_add] at spec
      refine ⟨?_, spec⟩
      rintro rfl
      have noEvents : Session.orderedCopy events = [] := by simpa using spec.1.symm
      exact isEmpty (List.Perm.eq_nil (noEvents ▸ (sortBy_perm events).symm))

/-- Wherever a cursor stands, each operation obeys, seeking a sequence shows the past at this
sequence unless no event has it, and the current frame shows some past. -/
structure Travels (position : ℕ → ℕ → ℕ → NodeId → Point) (sessionId : SessionId)
    (events : List Event) (c : Cursor Point) : Prop where
  obeys : ∀ move, c.Obeys (c.move move)
  found : ∀ sequence frame, (c.seekSequence sequence).1 = .ok frame →
    frame.sequence = sequence ∧ ShowsPast position sessionId events frame 1
  missing : ∀ sequence error, (c.seekSequence sequence).1 = .error error →
    ∀ e ∈ events, e.sequence ≠ sequence
  current : ∃ frame count, c.snapshot = .ok frame ∧
    ShowsPast position sessionId events frame count

theorem travels_of_build {list : FrameList Point} {c : Cursor Point}
    (isBuilt : build position sessionId events = .ok list) (sameFrames : c.frames = list.frames) :
    Travels position sessionId events c := by
  rcases build_shows isBuilt with ⟨someFrames, sameSequences, shows⟩
  rw [← sameFrames] at someFrames sameSequences shows
  refine ⟨Cursor.obeys_move, ?_, ?_, ?_⟩
  · intro sequence frame isFrame
    rcases Cursor.seekSequence_ok isFrame with ⟨isSequence, place, isPlace, isFirst⟩
    rcases (shows place frame isPlace).past with ⟨count, past, isOne⟩
    have onlyOne : count = 1 := by
      apply isOne
      intro earlier isEarlier sameSequence
      have there : earlier.sequence ∈ (c.frames.take place).map (·.sequence) := by
        rw [List.map_take, sameSequences, ← List.map_take]
        exact List.mem_map_of_mem isEarlier
      rcases List.mem_map.mp there with ⟨other, isOther, sameAsOther⟩
      exact isFirst other isOther (sameAsOther.trans (sameSequence.trans isSequence))
    exact ⟨isSequence, onlyOne ▸ past⟩
  · intro sequence error isError e isEvent isSequence
    have there : sequence ∈ c.frames.map (·.sequence) := by
      rw [sameSequences]
      exact List.mem_map.mpr ⟨e, mem_sortBy.mpr isEvent, isSequence⟩
    rcases List.mem_map.mp there with ⟨frame, isFrame, hasSequence⟩
    exact Cursor.seekSequence_error isError frame isFrame hasSequence
  · have isPlace := List.getElem?_eq_getElem (c.within someFrames)
    rcases (shows _ _ isPlace).past with ⟨count, past, _⟩
    refine ⟨_, count, ?_, past⟩
    rw [Cursor.snapshot, dif_neg someFrames]
    rfl

end Replay

namespace Browser

variable (b : Browser)

/-- Loads a session and projects it into a frame list. -/
def timeline (sessionId : SessionId) : Except Error (Replay.FrameList Point) := do
  let events ← b.load sessionId
  Replay.build position sessionId events

/-- However the cursor of a timeline was moved, it shows the past of the session. -/
theorem timeline_past {b : Browser} {sessionId : SessionId} {list : Replay.FrameList Point}
    (isTimeline : b.timeline position sessionId = .ok list) (moves : List Replay.Cursor.Move) :
    ∃ events c, b.load sessionId = .ok events ∧ list.cursor = .ok c ∧
      Replay.Travels position sessionId events (c.after moves) := by
  cases isLoaded : b.load sessionId with
  | error error => simp [timeline, isLoaded, bind, Except.bind] at isTimeline
  | ok events =>
      simp only [timeline, isLoaded, bind, Except.bind] at isTimeline
      have someFrames := (Replay.build_shows isTimeline).1
      refine ⟨events, { frames := list.frames, index := 0, within := List.length_pos_iff.mpr }, rfl,
        ?_, ?_⟩
      · rw [Replay.FrameList.cursor, Replay.newCursor, dif_neg someFrames]
      · exact Replay.travels_of_build isTimeline (Replay.Cursor.frames_after moves)

theorem timeline_past_mixed :
    ∃ list events c, mixedBrowser.timeline plainPosition "p1" = .ok list ∧
      mixedBrowser.load "p1" = .ok events ∧ list.cursor = .ok c ∧
      Replay.Travels plainPosition "p1" events (c.after [.step 1, .seekSequence 2]) := by
  have isOk : (mixedBrowser.timeline plainPosition "p1").isOk = true := by decide +kernel
  cases isTimeline : mixedBrowser.timeline plainPosition "p1" with
  | error error =>
      rw [isTimeline] at isOk
      cases isOk
  | ok list =>
      rcases timeline_past plainPosition isTimeline [.step 1, .seekSequence 2] with ⟨events, c, past⟩
      exact ⟨list, events, c, rfl, past⟩

end Browser

namespace Bridge

/-- A cursor over the live frames, at the first of them. -/
def cursor (b : Bridge Point) : Except Error (Replay.Cursor Point) × Bridge Point :=
  match b.frameList position with
  | (.error error, after) => (.error error, after)
  | (.ok list, after) => (list.cursor, after)

/-- The cursor of a bridge shows the past of the events that were applied before it was made. -/
theorem live_past {sessionId : SessionId} {start : Bridge Point} {c : Replay.Cursor Point}
    (isNew : new sessionId = .ok start) (calls : List Call)
    (isCursor : (((machine position).run start calls).cursor position).1 = .ok c)
    (moves : List Replay.Cursor.Move) :
    Replay.Travels position sessionId (applied calls) (c.after moves) := by
  have isStart : start = { sessionId := sessionId } := by
    rw [new] at isNew
    split_ifs at isNew
    exact (Except.ok.inj isNew).symm
  subst isStart
  have fresh : Fresh position { sessionId := sessionId } := by
    intro isBuilt
    cases isBuilt
  rcases run_spec fresh calls with ⟨freshAfter, sameSession, isEvents⟩
  have frames := frameList_of_fresh freshAfter
  rw [sameSession, isEvents, List.nil_append] at frames
  rw [cursor] at isCursor
  split at isCursor
  · cases isCursor
  · rename_i list after isList
    rw [isList] at frames
    have sameFrames : c.frames = list.frames := by
      rw [Replay.FrameList.cursor, Replay.newCursor] at isCursor
      split_ifs at isCursor
      cases isCursor
      rfl
    apply Replay.travels_of_build frames.symm
    rw [Replay.Cursor.frames_after, sameFrames]

theorem live_past_twoBatches :
    ∃ c, (((machine plainPosition).run { sessionId := "s1" } twoBatches).cursor plainPosition).1 =
        .ok c ∧
      Replay.Travels plainPosition "s1" (applied twoBatches) (c.after [.seek 1, .seekSequence 1]) := by
  have isOk : (((machine plainPosition).run { sessionId := "s1" } twoBatches).cursor
      plainPosition).1.isOk = true := by decide +kernel
  cases isCursor : (((machine plainPosition).run { sessionId := "s1" } twoBatches).cursor
      plainPosition).1 with
  | error error =>
      rw [isCursor] at isOk
      cases isOk
  | ok c =>
      exact ⟨c, rfl, live_past plainPosition rfl twoBatches isCursor [.seek 1, .seekSequence 1]⟩

end Bridge

end Aa.Visualizer
