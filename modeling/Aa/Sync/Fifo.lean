import Aa.Sync.Executions

/-!
# The order of messages on the wire

The messages a node has taken, followed by the ones in its inbox, are the messages that were
sent to it, in their order.
-/

namespace Aa.Sync

open Aa.Library Transport

namespace Net

abbrev Moment := ℕ × Event

/-- The frame an event puts into the inbox of a node. -/
def sends (node : NodeId) : Moment → Option Frame
  | (thread, ⟨.send own remote message, .ok _⟩) =>
      if remote = node then some ⟨thread, Wire.stamp own remote message⟩ else none
  | _ => none

/-- The frame an event takes from the inbox of a node, with the thread that takes it. -/
def takesFrom (node : NodeId) : Moment → Option (ℕ × Frame)
  | (thread, ⟨.receive own, .ok frame⟩) => if own = node then some (thread, frame) else none
  | _ => none

/-- The frames sent to a node, in order. -/
def sentTo (node : NodeId) (moments : List Moment) : List Frame := moments.filterMap (sends node)

/-- The frames taken from the inbox of a node, in order. -/
def takes (node : NodeId) (moments : List Moment) : List (ℕ × Frame) :=
  moments.filterMap (takesFrom node)

theorem sentTo_append (node : NodeId) (first second : List Moment) :
    sentTo node (first ++ second) = sentTo node first ++ sentTo node second :=
  List.filterMap_append

theorem takes_append (node : NodeId) (first second : List Moment) :
    takes node (first ++ second) = takes node first ++ takes node second :=
  List.filterMap_append

theorem sentTo_self (node : NodeId) (moment : Moment) :
    sentTo node [moment] = (sends node moment).toList := by
  rw [sentTo, List.filterMap_cons]
  cases sends node moment <;> rfl

theorem takes_self (node : NodeId) (moment : Moment) :
    takes node [moment] = (takesFrom node moment).toList := by
  rw [takes, List.filterMap_cons]
  cases takesFrom node moment <;> rfl

theorem mem_takes {node : NodeId} {moments : List Moment} {thread : ℕ} {frame : Frame} :
    (thread, frame) ∈ takes node moments ↔
      (thread, (⟨.receive node, .ok frame⟩ : Event)) ∈ moments := by
  constructor
  · intro isTaken
    rcases List.mem_filterMap.mp isTaken with ⟨⟨mover, ⟨op, answer⟩⟩, isMoment, takesIt⟩
    cases op with
    | receive own =>
        cases answer with
        | error error => cases takesIt
        | ok found =>
            simp only [takesFrom, Option.ite_none_right_eq_some, Option.some.injEq,
              Prod.mk.injEq] at takesIt
            rcases takesIt with ⟨rfl, rfl, rfl⟩
            exact isMoment
    | _ => cases takesIt
  · intro isMoment
    exact List.mem_filterMap.mpr ⟨_, isMoment, by simp [takesFrom]⟩

theorem mem_sentTo {node : NodeId} {moments : List Moment} {frame : Frame} :
    frame ∈ sentTo node moments ↔
      ∃ own message, (frame.origin, (⟨.send own node message, .ok ()⟩ : Event)) ∈ moments ∧
        frame.message = Wire.stamp own node message := by
  constructor
  · intro isSent
    rcases List.mem_filterMap.mp isSent with ⟨⟨sender, ⟨op, answer⟩⟩, isMoment, sendsIt⟩
    cases op with
    | send own remote message =>
        cases answer with
        | error error => cases sendsIt
        | ok _ =>
            simp only [sends, Option.ite_none_right_eq_some, Option.some.injEq] at sendsIt
            rcases sendsIt with ⟨rfl, rfl⟩
            exact ⟨own, message, isMoment, rfl⟩
    | _ => cases sendsIt
  · rintro ⟨own, message, isMoment, isMessage⟩
    refine List.mem_filterMap.mpr ⟨_, isMoment, ?_⟩
    simp [sends, ← isMessage]

/-- The message an event puts into the inbox of a node. -/
def sent (node : NodeId) : Event → Option Message
  | ⟨.send own remote message, .ok _⟩ =>
      if remote = node then some (Wire.stamp own remote message) else none
  | _ => none

/-- The frame an event takes from the inbox of a node. -/
def taken (node : NodeId) : Event → Option Frame
  | ⟨.receive own, .ok frame⟩ => if own = node then some frame else none
  | _ => none

@[simp]
theorem taken_receive (node own : NodeId) (frame : Frame) :
    taken node ⟨.receive own, .ok frame⟩ = if own = node then some frame else none := rfl

/-- Nothing is taken where a receive has to end with an error. -/
theorem taken_of_anyAnswer {node : NodeId} {event : Event}
    (isAny : event.answer = anyAnswer event.op) : taken node event = none := by
  rcases event with ⟨op, answer⟩
  cases op with
  | receive own =>
      cases isAny
      rfl
  | _ => rfl

theorem sends_eq (node : NodeId) (thread : ℕ) (event : Event) :
    sends node (thread, event) = (sent node event).map (Frame.mk thread) := by
  rcases event with ⟨op, answer⟩
  cases op with
  | send own remote message =>
      cases answer with
      | error error => rfl
      | ok _ => by_cases isNode : remote = node <;> simp [sends, sent, isNode]
  | _ => rfl

theorem takesFrom_eq (node : NodeId) (thread : ℕ) (event : Event) :
    takesFrom node (thread, event) = (taken node event).map (thread, ·) := by
  rcases event with ⟨op, answer⟩
  cases op with
  | receive own =>
      cases answer with
      | error error => rfl
      | ok frame => by_cases isNode : own = node <;> simp [takesFrom, taken, isNode]
  | _ => rfl

/-- The frames that carry a thread as their origin are the ones it sent. -/
theorem sentTo_own (node : NodeId) (thread : ℕ) (moments : List Moment) :
    (sentTo node moments).filter (·.origin = thread) =
      ((Pool.own thread moments).filterMap (sent node)).map (Frame.mk thread) := by
  induction moments with
  | nil => rfl
  | cons moment rest ih =>
      rcases moment with ⟨mover, event⟩
      have splits : (mover, event) :: rest = [(mover, event)] ++ rest := rfl
      rw [splits, sentTo_append, Pool.own_append, List.filter_append, ih, List.filterMap_append,
        List.map_append, sentTo_self, sends_eq]
      congr 1
      by_cases isMover : mover = thread
      · subst isMover
        cases isSent : sent node event <;> simp [isSent]
      · cases isSent : sent node event <;> simp [Pool.own_of_ne isMover, isMover]

/-- The frames a thread took. -/
theorem takes_own (node : NodeId) (thread : ℕ) (moments : List Moment) :
    ((takes node moments).filter (·.1 = thread)).map Prod.snd =
      (Pool.own thread moments).filterMap (taken node) := by
  induction moments with
  | nil => rfl
  | cons moment rest ih =>
      rcases moment with ⟨mover, event⟩
      have splits : (mover, event) :: rest = [(mover, event)] ++ rest := rfl
      rw [splits, takes_append, Pool.own_append, List.filter_append, List.map_append, ih,
        List.filterMap_append, takes_self, takesFrom_eq]
      congr 1
      by_cases isMover : mover = thread
      · subst isMover
        cases isTaken : taken node event <;> simp [isTaken]
      · cases isTaken : taken node event <;> simp [Pool.own_of_ne isMover, isMover]

/-- The wire conserves messages and their order. -/
def Conserved (moments : List Moment) (net : Net) : Prop :=
  ∀ node, (takes node moments).map Prod.snd ++ net.wire.pending node = sentTo node moments

/-- An operation that neither sends nor receives leaves the inboxes as they are. -/
theorem conserved_of_kept {moments : List Moment} {moment : Moment} {net after : Net}
    (conserved : Conserved moments net) (noTake : ∀ node, takesFrom node moment = none)
    (noSend : ∀ node, sends node moment = none)
    (kept : ∀ node, after.wire.pending node = net.wire.pending node) :
    Conserved (moments ++ [moment]) after := by
  intro node
  rw [takes_append, sentTo_append, takes_self, sentTo_self, noTake, noSend, kept,
    ← conserved node]
  simp

theorem send_of_respond {thread : ℕ} {choice : Choice} {net after : Net} {own remote : NodeId}
    {message : Message} {answer : Except Error Unit}
    (answers : respond thread choice net (.send own remote message) = some (answer, after)) :
    net.wire.send thread own remote message = (answer, after.wire) := by
  cases answers
  rfl

theorem conserved_of_respond {moments : List Moment} {thread : ℕ} {choice : Choice}
    {net after : Net} {op : Op} {answer : Answer op} (conserved : Conserved moments net)
    (answers : respond thread choice net op = some (answer, after)) :
    Conserved (moments ++ [(thread, ⟨op, answer⟩)]) after := by
  cases op with
  | send own remote message =>
      have isPair := send_of_respond answers
      rcases net.wire.send_cases thread own remote message with
        ⟨error, wire, isSend, isKept⟩ | ⟨wire, isSend, _, isAppended⟩
      · rw [isSend] at isPair
        cases isPair
        exact conserved_of_kept conserved (fun _ => rfl) (fun _ => rfl) isKept
      · rw [isSend] at isPair
        cases isPair
        intro node
        rw [takes_append, sentTo_append, takes_self, sentTo_self, isAppended, ← conserved node]
        by_cases isNode : node = remote
        · subst isNode
          simp [takesFrom, sends]
        · simp [takesFrom, sends, isNode, Ne.symm isNode]
  | receive own =>
      simp only [respond] at answers
      split at answers
      · cases answers
        exact conserved_of_kept conserved (fun _ => rfl) (fun _ => rfl) fun _ => rfl
      · rcases Option.map_eq_some_iff.mp answers with ⟨⟨frame, wire⟩, receives, isAfter⟩
        cases isAfter
        intro node
        rw [takes_append, sentTo_append, takes_self, sentTo_self, ← conserved node,
          Wire.receive_eq_some receives node]
        by_cases isNode : node = own
        · subst isNode
          simp [takesFrom, sends]
        · simp [takesFrom, sends, isNode, Ne.symm isNode]
  | dial own remote =>
      have isAfter : after.wire = (net.wire.dial own remote).2 := by
        cases answers
        rfl
      refine conserved_of_kept conserved (fun _ => rfl) (fun _ => rfl) fun node => ?_
      rw [isAfter, Wire.pending_dial]
  | failNext own count =>
      cases answers
      exact conserved_of_kept conserved (fun _ => rfl) (fun _ => rfl) fun node => by simp
  | stall => cases answers
  | _ =>
      cases answers
      exact conserved_of_kept conserved (fun _ => rfl) (fun _ => rfl) fun _ => rfl

/-- A send that succeeds carries the node of its connection as the sender. -/
def Authentic (_ : List Moment) (moment : Moment) : Prop :=
  ∀ node remote message, moment.2 = ⟨.send node remote message, .ok ()⟩ →
    (Wire.stamp node remote message).sender = node

theorem authentic_of_respond {moments : List Moment} {thread : ℕ} {choice : Choice}
    {net after : Net} {op : Op} {answer : Answer op}
    (answers : respond thread choice net op = some (answer, after)) :
    Authentic moments (thread, ⟨op, answer⟩) := by
  rintro node remote message isSend
  cases isSend
  have isPair := send_of_respond answers
  rcases net.wire.send_cases thread node remote message with
    ⟨error, wire, isSend, _⟩ | ⟨wire, _, isSender, _⟩
  · rw [isSend] at isPair
    cases isPair
  · exact isSender

variable [ContentHash]

theorem conserved_run (calls : ℕ → Call) (schedule : List (ℕ × Choice)) :
    Conserved (Pool.trace respond (start {} calls) schedule)
      (Pool.run respond (start {} calls) schedule).shared := by
  refine Pool.run_induction (fun moments pool => Conserved moments pool.shared) ?_ ?_
  · intro node
    simp [takes, sentTo, start, Wire.pending]
  · intro moments pool thread choice op next answer shared conserved _ answers
    exact conserved_of_respond conserved answers

/-- A frame that was taken was sent to the node before. -/
theorem mem_sentTo_of_takes {calls : ℕ → Call} {schedule : List (ℕ × Choice)} {node : NodeId}
    {thread : ℕ} {frame : Frame}
    (isTaken : (thread, frame) ∈ takes node (Pool.trace respond (start {} calls) schedule)) :
    frame ∈ sentTo node (Pool.trace respond (start {} calls) schedule) := by
  rw [← conserved_run calls schedule node]
  exact List.mem_append_left _ (List.mem_map.mpr ⟨_, isTaken, rfl⟩)

/-- The node `remote` sent the frame to the node. -/
def SentBy (remote node : NodeId) (moments : List Moment) (frame : Frame) : Prop :=
  ∃ message, (frame.origin, (⟨.send remote node message, .ok ()⟩ : Event)) ∈ moments ∧
    frame.message = Wire.stamp remote node message

/-- The sender of a frame that was taken is the node that sent it. -/
theorem sentBy_of_takes {calls : ℕ → Call} {schedule : List (ℕ × Choice)} {node : NodeId}
    {thread : ℕ} {frame : Frame}
    (isTaken : (thread, frame) ∈ takes node (Pool.trace respond (start {} calls) schedule)) :
    SentBy frame.message.sender node (Pool.trace respond (start {} calls) schedule) frame := by
  rcases mem_sentTo.mp (mem_sentTo_of_takes isTaken) with ⟨own, message, isMoment, isMessage⟩
  have guarded : Guarded Authentic [] (Pool.trace respond (start {} calls) schedule) :=
    (Pool.guarded_trace (fun _ _ => True) trivial
      fun _ _ _ _ _ _ _ _ answers => ⟨authentic_of_respond answers, trivial⟩).1
  rcases List.mem_iff_append.mp isMoment with ⟨before, after, isTrace⟩
  have isSender := guarded_iff_split.mp guarded before _ after isTrace own node message rfl
  rw [← isMessage] at isSender
  rw [isSender]
  exact ⟨message, isMoment, isMessage⟩

end Net

end Aa.Sync
