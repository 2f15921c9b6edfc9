import Aa.Library.Broadcast
import Aa.Visualizer.Bridge

/-!
# Live sessions from the event source

The source keeps the events of each session and hands what is appended to the channels of
its subscribers. A bridge that consumes a subscription from the beginning of a session has,
whenever it has caught up, the frames of what the source would replay, however the calls of
the source, the channels and the bridges are interleaved.
-/

namespace Aa.Visualizer

open Aa.Library Aa.Contracts Session Replay

/-- A source of events. A session is known once something was appended to it, be it nothing. -/
structure Fake where
  topics : SessionId → Topic Event ℕ := fun _ => {}
  known : SessionId → Bool := fun _ => false
  nextId : ℕ := 0

namespace Fake

/-- Validates and stores events for a session; what is to be delivered comes later. -/
def append (source : Fake) (sessionId : SessionId) (events : List Event) : Except Error Fake :=
  if sessionId = "" then .error (.wrap .invalid "sessionId is required")
  else
    match Bridge.checkFrom 0 events with
    | .error error => .error error
    | .ok () =>
        .ok
          { source with
            topics := Function.update source.topics sessionId
              ((source.topics sessionId).publish events)
            known := Function.update source.known sessionId true }

/-- The events of a session in the order of their sequences. -/
def replay (source : Fake) (sessionId : SessionId) : Except Error (List Event) :=
  if source.known sessionId then
    if (source.topics sessionId).log = [] then
      .error (.wrap .empty ("session " ++ Go.quote sessionId))
    else .ok (orderedCopy (source.topics sessionId).log)
  else .error (.wrap .notFound ("session " ++ Go.quote sessionId))

/-- A subscription to the events that are appended from now on. -/
def subscribe (source : Fake) (sessionId : SessionId) : Except Error (ℕ × Fake) :=
  if sessionId = "" then .error (.wrap .invalid "sessionId is required")
  else
    .ok (source.nextId,
      { source with
        topics := Function.update source.topics sessionId
          ((source.topics sessionId).subscribe source.nextId)
        nextId := source.nextId + 1 })

def remove (source : Fake) (sessionId : SessionId) (id : ℕ) : Fake :=
  { source with
    topics := Function.update source.topics sessionId
      ((source.topics sessionId).unsubscribe id) }

end Fake

/-- What ends `Consume`: the subscription is closed, the context is done, or an event is
refused. -/
inductive Ending
  | closed
  | cancelled
  | refused (error : Error)

/-- A subscription and the bridge that consumes it. The subscription is closed in two steps:
it is removed from the source, then its channel is closed. `since` is there to be spoken of:
how many events the session had when it began. -/
structure Consumer (Point : Type) where
  bridge : Bridge Point
  since : ℕ
  received : ℕ := 0
  removed : Bool := false
  closed : Bool := false
  ending : Option Ending := none

/-- The source, and the subscriptions by their ids. -/
structure Live (Point : Type) where
  source : Fake := {}
  consumers : List (Consumer Point) := []

/-- A step that concerns one consumer only. -/
inductive ConsumerStep
  | remove
  | close
  | receive
  | cancel
  | frameList

/-- A step of one of the goroutines. -/
inductive LiveAction
  | append (sessionId : SessionId) (events : List Event)
  | deliver (sessionId : SessionId) (index : ℕ)
  | subscribe (sessionId : SessionId)
  | consumer (id : ℕ) (step : ConsumerStep)

/-- The events that a channel has room for. -/
def channelSize : ℕ := 256

namespace Live

variable {Point : Type} (position : ℕ → ℕ → ℕ → NodeId → Point)

/-- The topic of the session that a consumer observes. -/
def topicOf (live : Live Point) (consumer : Consumer Point) : Topic Event ℕ :=
  live.source.topics consumer.bridge.sessionId

/-- What is in the channel of a subscription. -/
def channel (live : Live Point) (id : ℕ) (consumer : Consumer Point) : List Event :=
  ((live.topicOf consumer).inbox id).drop consumer.received

/-- The next delivery to a session: a channel that is closed loses the event, and one that is
full holds the delivery up. -/
def deliver (live : Live Point) (sessionId : SessionId) (index : ℕ) : Option (Live Point) :=
  let topic := live.source.topics sessionId
  (topic.target index).bind fun id =>
    live.consumers[id]?.bind fun consumer =>
      let delivered :=
        if consumer.closed then topic.discard index
        else if (live.channel id consumer).length < channelSize then topic.deliver index
        else none
      delivered.map fun topic =>
        { live with
          source :=
            { live.source with topics := Function.update live.source.topics sessionId topic } }

/-- One turn of the loop of `Consume`, which takes an event or sees that the channel is closed. -/
def receive (live : Live Point) (id : ℕ) (consumer : Consumer Point) : Option (Consumer Point) :=
  match consumer.ending, live.channel id consumer with
  | none, e :: _ =>
      let applied := consumer.bridge.apply [e]
      some
        { consumer with
          bridge := applied.2
          received := consumer.received + 1
          ending :=
            match applied.1 with
            | .error error => some (.refused error)
            | .ok () => none }
  | none, [] => if consumer.closed then some { consumer with ending := some .closed } else none
  | some _, _ => none

def advance (live : Live Point) (id : ℕ) (consumer : Consumer Point) :
    ConsumerStep → Option (Consumer Point)
  | .remove => if consumer.removed then none else some { consumer with removed := true }
  | .close =>
      if consumer.removed && !consumer.closed then some { consumer with closed := true } else none
  | .receive => live.receive id consumer
  | .cancel =>
      match consumer.ending with
      | none => some { consumer with ending := some .cancelled }
      | some _ => none
  | .frameList => some { consumer with bridge := (consumer.bridge.frameList position).2 }

def step (live : Live Point) : LiveAction → Option (Live Point)
  | .append sessionId events =>
      match live.source.append sessionId events with
      | .error _ => some live
      | .ok source => some { live with source := source }
  | .deliver sessionId index => live.deliver sessionId index
  | .subscribe sessionId =>
      match live.source.subscribe sessionId with
      | .error _ => some live
      | .ok (_, source) =>
          some
            { live with
              source := source
              consumers := live.consumers ++
                [{ bridge := { sessionId := sessionId }
                   since := (live.source.topics sessionId).log.length }] }
  | .consumer id step =>
      live.consumers[id]?.bind fun consumer =>
        (live.advance position id consumer step).map fun next =>
          { live with
            source :=
              match step with
              | .remove => live.source.remove consumer.bridge.sessionId id
              | _ => live.source
            consumers := live.consumers.set id next }

/-- The system after some steps, all of which must be possible. -/
def run (live : Live Point) : List LiveAction → Option (Live Point)
  | [] => some live
  | action :: rest => (live.step position action).bind fun next => next.run rest

/-- Nothing is appended to a session that has deliveries to make. -/
def Separate (live : Live Point) : List LiveAction → Prop
  | [] => True
  | action :: rest =>
      (∀ sessionId events, action = .append sessionId events →
        (live.source.topics sessionId).Quiet) ∧
        ∀ next, live.step position action = some next → next.Separate rest

end Live

/-! ## What the bridges have -/

namespace Consumer

variable {Point : Type} {position : ℕ → ℕ → ℕ → NodeId → Point} {ordered : Prop}
  {topic later : Topic Event ℕ} {id : ℕ} {consumer : Consumer Point}

/-- The subscription has its share of the events, its bridge those that were received. -/
structure Exact (position : ℕ → ℕ → ℕ → NodeId → Point) (ordered : Prop) (topic : Topic Event ℕ)
    (id : ℕ) (consumer : Consumer Point) : Prop where
  share : ∃ til, topic.Share ordered id consumer.since til
  subscribed : consumer.removed = false → id ∈ topic.subscribers
  closed : consumer.closed = true → consumer.removed = true
  noLoss : consumer.closed = false → topic.lost id = []
  received : consumer.received ≤ (topic.inbox id).length
  events : consumer.bridge.events = (topic.inbox id).take consumer.received
  fresh : consumer.bridge.Fresh position
  accepted : ∀ error, consumer.ending ≠ some (.refused error)

namespace Exact

theorem mono (exact : consumer.Exact position ordered topic id)
    (inboxGrows : topic.inbox id <+: later.inbox id)
    (share : ∃ til, later.Share ordered id consumer.since til)
    (stays : id ∈ topic.subscribers → id ∈ later.subscribers)
    (noLoss : consumer.closed = false → topic.lost id = [] → later.lost id = []) :
    consumer.Exact position ordered later id where
  share := share
  subscribed here := stays (exact.subscribed here)
  closed := exact.closed
  noLoss isOpen := noLoss isOpen (exact.noLoss isOpen)
  received := exact.received.trans inboxGrows.length_le
  events := by
    rcases inboxGrows with ⟨items, isInbox⟩
    rw [← isInbox, List.take_append_of_le_length exact.received]
    exact exact.events
  fresh := exact.fresh
  accepted := exact.accepted

/-- What was brought to a subscriber was published. -/
theorem mem_log {e : Event} (exact : consumer.Exact position ordered topic id)
    (isBrought : e ∈ topic.inbox id) : e ∈ topic.log := by
  rcases exact.share with ⟨til, share⟩
  have isDue : e ∈ topic.due id := by
    rw [Topic.due, List.append_assoc]
    exact List.mem_append_left _ isBrought
  exact List.mem_of_mem_take (List.mem_of_mem_drop (share.due.1.mem_iff.mp isDue))

theorem remove (exact : consumer.Exact position ordered topic id) :
    Exact position ordered (topic.unsubscribe id) id { consumer with removed := true } where
  share := by
    rcases exact.share with ⟨til, share⟩
    exact ⟨til, share.unsubscribe id⟩
  subscribed no := by cases no
  closed _ := rfl
  noLoss := exact.noLoss
  received := exact.received
  events := exact.events
  fresh := exact.fresh
  accepted := exact.accepted

theorem close (exact : consumer.Exact position ordered topic id)
    (isRemoved : consumer.removed = true) :
    Exact position ordered topic id { consumer with closed := true } where
  share := exact.share
  subscribed := exact.subscribed
  closed _ := isRemoved
  noLoss no := by cases no
  received := exact.received
  events := exact.events
  fresh := exact.fresh
  accepted := exact.accepted

theorem ends {ending : Ending} (exact : consumer.Exact position ordered topic id)
    (isAccepted : ∀ error, ending ≠ .refused error) :
    Exact position ordered topic id { consumer with ending := some ending } where
  share := exact.share
  subscribed := exact.subscribed
  closed := exact.closed
  noLoss := exact.noLoss
  received := exact.received
  events := exact.events
  fresh := exact.fresh
  accepted error isRefused := isAccepted error (Option.some.inj isRefused)

theorem frameList (exact : consumer.Exact position ordered topic id) :
    Exact position ordered topic id
      { consumer with bridge := (consumer.bridge.frameList position).2 } where
  share := exact.share
  subscribed := exact.subscribed
  closed := exact.closed
  noLoss := exact.noLoss
  received := exact.received
  events := (Bridge.frameList_keeps position consumer.bridge).2.trans exact.events
  fresh := Bridge.fresh_frameList exact.fresh
  accepted := exact.accepted

/-- The bridge applies the event that it takes from the channel. -/
theorem take {e : Event} {rest : List Event} (exact : consumer.Exact position ordered topic id)
    (isChannel : (topic.inbox id).drop consumer.received = e :: rest) :
    Exact position ordered topic id
      { consumer with
        bridge :=
          { consumer.bridge with
            events := consumer.bridge.events ++ [e]
            built := false }
        received := consumer.received + 1
        ending := none } where
  share := exact.share
  subscribed := exact.subscribed
  closed := exact.closed
  noLoss := exact.noLoss
  received := by
    have isLength := congrArg List.length isChannel
    rw [List.length_drop, List.length_cons] at isLength
    change consumer.received + 1 ≤ _
    omega
  events := by
    change consumer.bridge.events ++ [e] = (topic.inbox id).take (consumer.received + 1)
    rw [List.take_add, isChannel, exact.events]
    rfl
  fresh no := by cases no
  accepted error no := by cases no

end Exact

end Consumer

namespace Live

variable {Point : Type} {position : ℕ → ℕ → ℕ → NodeId → Point} {ordered : Prop}
  {live next : Live Point} {id : ℕ} {consumer after : Consumer Point}

/-- What holds of the system after every run. -/
structure Sound (position : ℕ → ℕ → ℕ → NodeId → Point) (ordered : Prop) (live : Live Point) :
    Prop where
  nodup : ∀ sessionId, (live.source.topics sessionId).subscribers.Nodup
  known : ∀ sessionId, ∀ id ∈ (live.source.topics sessionId).subscribers, id < live.consumers.length
  nextId : live.source.nextId = live.consumers.length
  nothing : ∀ sessionId id, live.consumers.length ≤ id →
    (live.source.topics sessionId).due id = []
  serial : ordered → ∀ sessionId, (live.source.topics sessionId).Serial
  valid : ∀ sessionId, Bridge.Valid (live.source.topics sessionId).log
  exact : ∀ id (consumer : Consumer Point), live.consumers[id]? = some consumer →
    consumer.Exact position ordered (live.topicOf consumer) id

theorem sound_empty : Sound position ordered {} where
  nodup _ := .nil
  known := by simp
  nextId := rfl
  nothing _ _ _ := rfl
  serial _ _ := by simp [Topic.Serial]
  valid _ := by simp [Bridge.Valid]
  exact := by simp

namespace Sound

/-- One topic changes, its readers do not. -/
theorem withTopic {sessionId : SessionId} {topic : Topic Event ℕ} {known : SessionId → Bool}
    (sound : Sound position ordered live)
    (sameReaders : topic.subscribers = (live.source.topics sessionId).subscribers)
    (inboxGrows : ∀ id, (live.source.topics sessionId).inbox id <+: topic.inbox id)
    (nothing : ∀ id, live.consumers.length ≤ id → topic.due id = [])
    (serial : ordered → topic.Serial) (valid : Bridge.Valid topic.log)
    (shares : ∀ id since til, (live.source.topics sessionId).Share ordered id since til →
      (∀ consumer, live.consumers[id]? = some consumer → consumer.closed = false →
        (live.source.topics sessionId).lost id = []) →
      ∃ later, topic.Share ordered id since later)
    (noLoss : ∀ id (consumer : Consumer Point), live.consumers[id]? = some consumer →
      consumer.closed = false → (live.source.topics sessionId).lost id = [] → topic.lost id = []) :
    Sound position ordered
      { live with
        source :=
          { live.source with
            topics := Function.update live.source.topics sessionId topic
            known := known } } where
  nodup := by
    refine (Function.forall_update_iff _ fun _ (topic : Topic Event ℕ) =>
      topic.subscribers.Nodup).mpr
      ⟨?_, fun other _ => sound.nodup other⟩
    rw [sameReaders]
    exact sound.nodup sessionId
  known := by
    refine (Function.forall_update_iff _ fun _ (topic : Topic Event ℕ) =>
      ∀ id ∈ topic.subscribers, id < live.consumers.length).mpr ⟨?_, fun other _ => sound.known other⟩
    rw [sameReaders]
    exact sound.known sessionId
  nextId := sound.nextId
  nothing :=
    (Function.forall_update_iff _ fun _ (topic : Topic Event ℕ) =>
      ∀ id, live.consumers.length ≤ id → topic.due id = []).mpr ⟨nothing, fun other _ => sound.nothing other⟩
  serial isOrdered :=
    (Function.forall_update_iff _ fun _ (topic : Topic Event ℕ) => topic.Serial).mpr
      ⟨serial isOrdered, fun other _ => sound.serial isOrdered other⟩
  valid :=
    (Function.forall_update_iff _ fun _ (topic : Topic Event ℕ) =>
      Bridge.Valid topic.log).mpr
      ⟨valid, fun other _ => sound.valid other⟩
  exact id consumer isConsumer := by
    have exact := sound.exact id consumer isConsumer
    change consumer.Exact position ordered
      (Function.update live.source.topics sessionId topic consumer.bridge.sessionId) id
    rw [topicOf] at exact
    by_cases isSession : consumer.bridge.sessionId = sessionId
    · subst isSession
      rw [Function.update_self]
      rcases exact.share with ⟨til, share⟩
      refine exact.mono (inboxGrows id) (shares id _ til share fun other isOther isOpen => ?_)
        (fun here => sameReaders ▸ here) (noLoss id consumer isConsumer)
      cases isConsumer.symm.trans isOther
      exact exact.noLoss isOpen
    · rw [Function.update_of_ne isSession]
      exact exact

theorem append {sessionId : SessionId} {events : List Event} {source : Fake}
    (sound : Sound position ordered live)
    (quiet : ordered → (live.source.topics sessionId).Quiet)
    (appends : live.source.append sessionId events = .ok source) :
    Sound position ordered { live with source := source } := by
  simp only [Fake.append] at appends
  split at appends
  · cases appends
  · cases isChecked : Bridge.checkFrom 0 events with
    | error error =>
        rw [isChecked] at appends
        cases appends
    | ok =>
        rw [isChecked] at appends
        cases appends
        have areValid := Bridge.checkFrom_eq_ok.mp isChecked
        refine sound.withTopic rfl (fun _ => List.prefix_rfl) (fun id isNew => ?_)
          (fun isOrdered => Topic.serial_publish (quiet isOrdered) events) ?_ ?_
          fun _ _ _ _ noneLost => noneLost
        · have notThere : id ∉ (live.source.topics sessionId).subscribers := fun isThere =>
            absurd (sound.known sessionId id isThere) (by omega)
          rw [Topic.due_publish (sound.nodup sessionId), sound.nothing sessionId id isNew,
            if_neg notThere]
          rfl
        · intro e isThere
          rcases List.mem_append.mp isThere with isOld | isNew
          · exact sound.valid sessionId e isOld
          · exact areValid e isNew
        · intro id since til share _
          rcases share.publish (sound.nodup sessionId) events with ⟨later, _, isShare⟩
          exact ⟨later, isShare⟩

theorem deliver {sessionId : SessionId} {index : ℕ} (sound : Sound position ordered live)
    (delivers : live.deliver sessionId index = some next) : Sound position ordered next := by
  simp only [Live.deliver] at delivers
  rcases Option.bind_eq_some_iff.mp delivers with ⟨target, isTarget, delivers⟩
  rcases Option.bind_eq_some_iff.mp delivers with ⟨consumer, isConsumer, delivers⟩
  rcases Option.map_eq_some_iff.mp delivers with ⟨topic, isDelivered, rfl⟩
  have serial (isOrdered : ordered) := sound.serial isOrdered sessionId
  cases isClosed : consumer.closed with
  | true =>
      rw [isClosed, if_pos rfl] at isDelivered
      have isDue (id : ℕ) := Topic.due_discard id serial isDelivered
      have share (id since til : ℕ)
          (share : (live.source.topics sessionId).Share ordered id since til) :=
        share.discard serial isDelivered
      have serialNext (isOrdered : ordered) := Topic.serial_discard (serial isOrdered) isDelivered
      rcases Option.map_eq_some_iff.mp isDelivered with ⟨⟨delivery, rest⟩, isNext, rfl⟩
      have isReader : delivery.1 = target := by
        rw [Topic.target, isNext] at isTarget
        exact Option.some.inj isTarget
      refine sound.withTopic rfl (fun _ => List.prefix_rfl) (fun id isNew => ?_) serialNext
        (sound.valid sessionId) (fun id since til isShare _ => ⟨til, share id since til isShare⟩)
        fun id other isOther isOpen noneLost => ?_
      · exact List.perm_nil.mp (sound.nothing sessionId id isNew ▸ (isDue id).1)
      · -- The channel that loses the event is closed.
        have isOtherId : id ≠ delivery.1 := by
          rw [isReader]
          rintro rfl
          cases isConsumer.symm.trans isOther
          rw [isOpen] at isClosed
          cases isClosed
        simp only [Function.update_of_ne isOtherId]
        exact noneLost
  | false =>
      rw [isClosed] at isDelivered
      simp only [Bool.false_eq_true, if_false] at isDelivered
      split at isDelivered
      · have noneLost (id : ℕ) (isOpen : ∀ consumer, live.consumers[id]? = some consumer →
            consumer.closed = false → (live.source.topics sessionId).lost id = [])
            (isTargeted : (live.source.topics sessionId).target index = some id) :
            (live.source.topics sessionId).lost id = [] := by
          cases isTarget.symm.trans isTargeted
          exact isOpen consumer isConsumer isClosed
        have inboxGrows (id : ℕ) : (live.source.topics sessionId).inbox id <+: topic.inbox id := by
          rcases Option.map_eq_some_iff.mp isDelivered with ⟨⟨delivery, rest⟩, isNext, rfl⟩
          by_cases isReader : id = delivery.1
          · subst isReader
            simp only [Function.update_self]
            exact List.prefix_append _ _
          · simp only [Function.update_of_ne isReader]
            exact List.prefix_rfl
        refine sound.withTopic ?_ inboxGrows (fun id isNew => ?_)
          (fun isOrdered => Topic.serial_deliver (serial isOrdered) isDelivered) ?_
          (fun id since til isShare isOpen => ⟨til, isShare.deliver serial
            (fun _ => noneLost id isOpen) isDelivered⟩) ?_
        · rcases Option.map_eq_some_iff.mp isDelivered with ⟨_, _, rfl⟩
          rfl
        · have isDue := Topic.due_deliver id (fun (no : False) => no.elim)
            (fun no => no.elim) isDelivered
          exact List.perm_nil.mp (sound.nothing sessionId id isNew ▸ isDue.1)
        · rcases Option.map_eq_some_iff.mp isDelivered with ⟨_, _, rfl⟩
          exact sound.valid sessionId
        · rcases Option.map_eq_some_iff.mp isDelivered with ⟨_, _, rfl⟩
          exact fun _ _ _ _ noneLost => noneLost
      · cases isDelivered

theorem subscribe {sessionId : SessionId} (sound : Sound position ordered live) :
    Sound position ordered
      { live with
        source :=
          { live.source with
            topics := Function.update live.source.topics sessionId
              ((live.source.topics sessionId).subscribe live.source.nextId)
            nextId := live.source.nextId + 1 }
        consumers := live.consumers ++
          [{ bridge := { sessionId := sessionId }
             since := (live.source.topics sessionId).log.length }] } where
  nodup := by
    refine (Function.forall_update_iff _ fun _ (topic : Topic Event ℕ) =>
      topic.subscribers.Nodup).mpr ⟨?_, fun other _ => sound.nodup other⟩
    refine List.nodup_append.mpr ⟨sound.nodup sessionId, List.nodup_singleton _, ?_⟩
    rintro id isReader _ isNew rfl
    have isKnown := sound.known sessionId id isReader
    have isNext := sound.nextId
    rw [List.mem_singleton.mp isNew] at isKnown
    omega
  known := by
    have isNext := sound.nextId
    simp only [List.length_append, List.length_singleton]
    refine (Function.forall_update_iff _ fun _ (topic : Topic Event ℕ) =>
      ∀ id ∈ topic.subscribers, id < live.consumers.length + 1).mpr ⟨fun id isReader => ?_, ?_⟩
    · rcases List.mem_append.mp isReader with isOld | isNew
      · exact Nat.lt_succ_of_lt (sound.known sessionId id isOld)
      · rw [List.mem_singleton.mp isNew]
        omega
    · intro other _ id isReader
      exact Nat.lt_succ_of_lt (sound.known other id isReader)
  nextId := by
    simp only [List.length_append, List.length_singleton]
    exact congrArg (· + 1) sound.nextId
  nothing := by
    simp only [List.length_append, List.length_singleton]
    refine (Function.forall_update_iff _ fun _ (topic : Topic Event ℕ) =>
      ∀ id, live.consumers.length + 1 ≤ id → topic.due id = []).mpr ⟨?_, ?_⟩
    · exact fun id isNew => sound.nothing sessionId id (by omega)
    · exact fun other _ id isNew => sound.nothing other id (by omega)
  serial isOrdered :=
    (Function.forall_update_iff _ fun _ (topic : Topic Event ℕ) => topic.Serial).mpr
      ⟨sound.serial isOrdered sessionId, fun other _ => sound.serial isOrdered other⟩
  valid :=
    (Function.forall_update_iff _ fun _ (topic : Topic Event ℕ) => Bridge.Valid topic.log).mpr
      ⟨sound.valid sessionId, fun other _ => sound.valid other⟩
  exact := by
    intro id consumer isConsumer
    have isNext := sound.nextId
    change consumer.Exact position ordered
      (Function.update live.source.topics sessionId _ consumer.bridge.sessionId) id
    rw [List.getElem?_append] at isConsumer
    split at isConsumer
    · rename_i isOld
      have exact := sound.exact id consumer isConsumer
      rw [topicOf] at exact
      by_cases isSession : consumer.bridge.sessionId = sessionId
      · subst isSession
        rw [Function.update_self]
        rcases exact.share with ⟨til, share⟩
        exact exact.mono List.prefix_rfl ⟨til, share.subscribe (by omega)⟩
          (List.mem_append_left _) fun _ noneLost => noneLost
      · rw [Function.update_of_ne isSession]
        exact exact
    · rcases List.getElem?_eq_some_iff.mp isConsumer with ⟨inRange, rfl⟩
      have isLast : id = live.source.nextId := by
        rw [List.length_singleton] at inRange
        omega
      have nothing := sound.nothing sessionId id (by omega)
      simp only [List.getElem_singleton, Function.update_self, isLast]
      rw [isLast] at nothing
      refine ⟨⟨_, .of_due_eq_nil nothing⟩, fun _ => ?_, (fun no => nomatch no), fun _ => ?_,
        Nat.zero_le _, List.take_zero.symm, (fun no => nomatch no), (fun _ no => nomatch no)⟩
      · exact List.mem_append_right _ (List.mem_singleton_self _)
      · rw [Topic.due, List.append_assoc] at nothing
        exact (List.append_eq_nil_iff.mp (List.append_eq_nil_iff.mp nothing).2).1

/-- The consumer whose step it is. -/
theorem advance {step : ConsumerStep} (sound : Sound position ordered live)
    (isConsumer : live.consumers[id]? = some consumer)
    (advances : live.advance position id consumer step = some after) :
    after.bridge.sessionId = consumer.bridge.sessionId ∧
      after.Exact position ordered
        (match step with
          | .remove => (live.topicOf consumer).unsubscribe id
          | _ => live.topicOf consumer) id := by
  have exact := sound.exact id consumer isConsumer
  cases step with
  | remove =>
      simp only [Live.advance] at advances
      split at advances
      · cases advances
      · cases advances
        exact ⟨rfl, exact.remove⟩
  | close =>
      simp only [Live.advance] at advances
      split at advances
      · rename_i mayClose
        cases advances
        exact ⟨rfl, exact.close (Bool.and_eq_true_iff.mp mayClose).1⟩
      · cases advances
  | receive =>
      simp only [Live.advance, receive] at advances
      split at advances
      · rename_i e rest notEnded isChannel
        have isBrought : e ∈ (live.topicOf consumer).inbox id :=
          List.mem_of_mem_drop (isChannel ▸ List.mem_cons_self)
        have isValid : Bridge.Valid [e] := by
          intro other isThere
          rw [List.mem_singleton.mp isThere]
          exact sound.valid _ e (exact.mem_log isBrought)
        rw [Bridge.apply_of_valid isValid] at advances
        cases advances
        exact ⟨rfl, exact.take isChannel⟩
      · split at advances
        · cases advances
          exact ⟨rfl, exact.ends fun _ no => by cases no⟩
        · cases advances
      · cases advances
  | cancel =>
      simp only [Live.advance] at advances
      split at advances
      · cases advances
        exact ⟨rfl, exact.ends fun _ no => by cases no⟩
      · cases advances
  | frameList =>
      simp only [Live.advance] at advances
      cases advances
      exact ⟨(Bridge.frameList_keeps position consumer.bridge).1, exact.frameList⟩

/-- One consumer is another one, its topic being as before for the others. -/
theorem setConsumer {source : Fake} (sound : Sound position ordered live)
    (isConsumer : live.consumers[id]? = some consumer)
    (isSource : source = live.source ∨ source = live.source.remove consumer.bridge.sessionId id)
    (sameSession : after.bridge.sessionId = consumer.bridge.sessionId)
    (exact : after.Exact position ordered (source.topics consumer.bridge.sessionId) id) :
    Sound position ordered
      { live with source := source, consumers := live.consumers.set id after } := by
  have fewer (sessionId : SessionId) :
      (source.topics sessionId).subscribers.Sublist (live.source.topics sessionId).subscribers := by
    rcases isSource with rfl | rfl
    · exact .refl _
    · by_cases isSession : sessionId = consumer.bridge.sessionId
      · subst isSession
        simp only [Fake.remove, Function.update_self]
        exact List.erase_sublist
      · simp only [Fake.remove, Function.update_of_ne isSession]
        exact .refl _
  have others (sessionId : SessionId) (other : ℕ) (isOther : other ≠ id)
      (here : other ∈ (live.source.topics sessionId).subscribers) :
      other ∈ (source.topics sessionId).subscribers := by
    rcases isSource with rfl | rfl
    · exact here
    · by_cases isSession : sessionId = consumer.bridge.sessionId
      · subst isSession
        simp only [Fake.remove, Function.update_self]
        exact (List.mem_erase_of_ne isOther).mpr here
      · simp only [Fake.remove, Function.update_of_ne isSession]
        exact here
  have same (sessionId : SessionId) :
      source.topics sessionId =
        { live.source.topics sessionId with
          subscribers := (source.topics sessionId).subscribers } := by
    rcases isSource with rfl | rfl
    · rfl
    · by_cases isSession : sessionId = consumer.bridge.sessionId
      · subst isSession
        simp only [Fake.remove, Function.update_self]
        rfl
      · simp only [Fake.remove, Function.update_of_ne isSession]
  refine ⟨fun sessionId => (sound.nodup sessionId).sublist (fewer sessionId),
    fun sessionId other isReader => ?_, ?_, fun sessionId other isNew => ?_,
    fun isOrdered sessionId => ?_, fun sessionId => ?_, ?_⟩
  · rw [List.length_set]
    exact sound.known sessionId other ((fewer sessionId).subset isReader)
  · rw [List.length_set]
    rcases isSource with rfl | rfl
    · exact sound.nextId
    · exact sound.nextId
  · rw [List.length_set] at isNew
    change (source.topics sessionId).due other = []
    rw [same]
    exact sound.nothing sessionId other isNew
  · change (source.topics sessionId).Serial
    rw [same]
    exact sound.serial isOrdered sessionId
  · change Bridge.Valid (source.topics sessionId).log
    rw [same]
    exact sound.valid sessionId
  · intro other changed isChanged
    have inRange := (List.getElem?_eq_some_iff.mp isConsumer).1
    rw [List.getElem?_set] at isChanged
    split at isChanged
    · rename_i isSame
      subst isSame
      cases isChanged
      change after.Exact position ordered (source.topics after.bridge.sessionId) id
      rw [sameSession]
      exact exact
    · rename_i isOther
      have otherExact := sound.exact other changed isChanged
      change changed.Exact position ordered (source.topics changed.bridge.sessionId) other
      rw [topicOf] at otherExact
      have stays := others changed.bridge.sessionId other (Ne.symm isOther)
      have fewerHere := fewer changed.bridge.sessionId
      rw [same] at stays fewerHere ⊢
      refine otherExact.mono List.prefix_rfl ?_ stays fun _ noneLost => noneLost
      rcases otherExact.share with ⟨til, share⟩
      exact ⟨til, share.start, share.stop, fun here => share.last (fewerHere.subset here), share.due⟩

theorem step {action : LiveAction} (sound : Sound position ordered live)
    (separate : ordered → ∀ sessionId events, action = .append sessionId events →
      (live.source.topics sessionId).Quiet)
    (steps : live.step position action = some next) : Sound position ordered next := by
  cases action with
  | append sessionId events =>
      simp only [Live.step] at steps
      cases appends : live.source.append sessionId events with
      | error error =>
          rw [appends] at steps
          cases steps
          exact sound
      | ok source =>
          rw [appends] at steps
          cases steps
          exact sound.append (fun isOrdered => separate isOrdered sessionId events rfl) appends
  | deliver sessionId index => exact sound.deliver steps
  | subscribe sessionId =>
      simp only [Live.step, Fake.subscribe] at steps
      split at steps
      · cases steps
        exact sound
      · rename_i isSubscribed
        split at isSubscribed
        · cases isSubscribed
        · cases isSubscribed
          cases steps
          exact sound.subscribe
  | consumer id step =>
      simp only [Live.step] at steps
      rcases Option.bind_eq_some_iff.mp steps with ⟨consumer, isConsumer, steps⟩
      rcases Option.map_eq_some_iff.mp steps with ⟨after, advances, rfl⟩
      rcases sound.advance isConsumer advances with ⟨sameSession, exact⟩
      cases step with
      | remove =>
          refine sound.setConsumer isConsumer (.inr rfl) sameSession ?_
          simp only [Fake.remove, Function.update_self]
          exact exact
      | _ => exact sound.setConsumer isConsumer (.inl rfl) sameSession exact

theorem run {actions : List LiveAction} (sound : Sound position ordered live)
    (separate : ordered → live.Separate position actions)
    (runs : live.run position actions = some next) : Sound position ordered next := by
  induction actions generalizing live with
  | nil =>
      cases runs
      exact sound
  | cons action rest ih =>
      rcases Option.bind_eq_some_iff.mp runs with ⟨middle, steps, runsOn⟩
      have sound := sound.step (fun isOrdered => (separate isOrdered).1) steps
      exact ih sound (fun isOrdered => (separate isOrdered).2 middle steps) runsOn

end Sound

/-- A consumer that has seen its session from the beginning and is neither closed nor behind. -/
structure CaughtUp (live : Live Point) (id : ℕ) (consumer : Consumer Point) : Prop where
  since : consumer.since = 0
  subscribed : consumer.removed = false
  channel : live.channel id consumer = []
  underway : (live.topicOf consumer).underway id = []

variable (position) in
/-- After every run of the source, the channels and the bridges, a bridge has applied, or has
yet to receive, each event appended since its subscription once, except what came after its
channel was closed; in order, if no append overlaps another one. No event makes `Consume` fail.
A bridge that is caught up has the frames of what the source replays, if no append overlaps
another one or the sequences differ. -/
theorem live_follows_source {actions : List LiveAction}
    (runs : ({} : Live Point).run position actions = some live)
    (isConsumer : live.consumers[id]? = some consumer) :
    (∃ til, (consumer.removed = false → til = (live.topicOf consumer).log.length) ∧
      Agree (({} : Live Point).Separate position actions)
        (consumer.bridge.events ++ live.channel id consumer ++ (live.topicOf consumer).lost id ++
          (live.topicOf consumer).underway id)
        (((live.topicOf consumer).log.take til).drop consumer.since)) ∧
    (consumer.closed = false → (live.topicOf consumer).lost id = []) ∧
    (∀ error, consumer.ending ≠ some (.refused error)) ∧
    (live.CaughtUp id consumer →
      ({} : Live Point).Separate position actions ∨
        ((live.topicOf consumer).log.map fun e => e.sequence).Nodup →
      ∀ replayed, live.source.replay consumer.bridge.sessionId = .ok replayed →
        (consumer.bridge.frameList position).1 =
          build position consumer.bridge.sessionId replayed) := by
  have sound : Sound position (({} : Live Point).Separate position actions) live :=
    sound_empty.run (fun isSeparate => isSeparate) runs
  have exact := sound.exact id consumer isConsumer
  rcases exact.share with ⟨til, share⟩
  have isDue : consumer.bridge.events ++ live.channel id consumer ++
      (live.topicOf consumer).lost id ++ (live.topicOf consumer).underway id =
        (live.topicOf consumer).due id := by
    rw [exact.events, channel, List.take_append_drop, Topic.due]
  have atEnd (isThere : consumer.removed = false) :
      til = (live.topicOf consumer).log.length := share.last (exact.subscribed isThere)
  refine ⟨⟨til, atEnd, isDue ▸ share.due⟩, exact.noLoss, exact.accepted, ?_⟩
  intro caughtUp inOrder replayed isReplayed
  have isOpen : consumer.closed = false := by
    by_contra isClosed
    have isRemoved := exact.closed (by simpa using isClosed)
    rw [caughtUp.subscribed] at isRemoved
    cases isRemoved
  have agree := share.due
  rw [← isDue, caughtUp.channel, caughtUp.underway, exact.noLoss isOpen, atEnd caughtUp.subscribed,
    caughtUp.since, List.take_length, List.drop_zero, List.append_nil, List.append_nil,
    List.append_nil] at agree
  have isSorted : replayed = orderedCopy (live.topicOf consumer).log := by
    simp only [Fake.replay] at isReplayed
    split at isReplayed
    · split at isReplayed
      · cases isReplayed
      · exact (Except.ok.inj isReplayed).symm
    · cases isReplayed
  have sameCopy : orderedCopy consumer.bridge.events = orderedCopy replayed := by
    rw [isSorted, orderedCopy, orderedCopy, orderedCopy, sortBy_of_sorted (sortBy_sorted _)]
    rcases inOrder with isSeparate | distinct
    · rw [agree.2 isSeparate]
    · exact sortBy_of_perm agree.1 distinct
  rw [Bridge.frameList_of_fresh exact.fresh]
  exact build_congr sameCopy

/-- A bridge consumes a session from the beginning, its later event first. -/
def liveSession : List LiveAction :=
  [.subscribe "s1", .append "s1" [workEvent "e2" 2 "wp2" "e1"], .deliver "s1" 0, .consumer 0 .receive,
    .consumer 0 .frameList, .append "s1" [workEvent "e1" 1 "wp1" ""], .deliver "s1" 1,
    .consumer 0 .receive]

theorem liveSession_replayed :
    ∃ live consumer replayed,
      ({} : Live (ℕ × ℕ × ℕ × NodeId)).run plainPosition liveSession = some live ∧
      live.consumers[0]? = some consumer ∧
      live.source.replay consumer.bridge.sessionId = .ok replayed ∧
      replayed.map (fun e => e.id) = ["e1", "e2"] ∧
      (consumer.bridge.frameList plainPosition).1 =
        build plainPosition consumer.bridge.sessionId replayed := by
  have isRun : (({} : Live (ℕ × ℕ × ℕ × NodeId)).run plainPosition liveSession).bind (fun live =>
      live.consumers[0]?.bind fun consumer =>
        (live.source.replay consumer.bridge.sessionId).toOption.map fun replayed =>
          ((consumer.removed, consumer.since ::
              [(live.channel 0 consumer).length, ((live.topicOf consumer).underway 0).length]),
            (live.topicOf consumer).log.map (fun e => e.sequence),
            replayed.map fun e => e.id)) = some ((false, [0, 0, 0]), [2, 1], ["e1", "e2"]) := by
    decide +kernel
  rcases Option.bind_eq_some_iff.mp isRun with ⟨live, runs, isShown⟩
  rcases Option.bind_eq_some_iff.mp isShown with ⟨consumer, isConsumer, isShown⟩
  rcases Option.map_eq_some_iff.mp isShown with ⟨replayed, isReplay, isTuple⟩
  simp only [Prod.mk.injEq, List.cons.injEq, and_true] at isTuple
  rcases isTuple with ⟨⟨subscribed, since, channel, underway⟩, sequences, ids⟩
  have isReplayed : live.source.replay consumer.bridge.sessionId = .ok replayed := by
    cases isResult : live.source.replay consumer.bridge.sessionId with
    | error error =>
        rw [isResult] at isReplay
        cases isReplay
    | ok events =>
        rw [isResult] at isReplay
        cases isReplay
        rfl
  have caughtUp : live.CaughtUp 0 consumer :=
    ⟨since, subscribed, List.length_eq_zero_iff.mp channel, List.length_eq_zero_iff.mp underway⟩
  refine ⟨live, consumer, replayed, runs, isConsumer, isReplayed, ids, ?_⟩
  refine (live_follows_source plainPosition runs isConsumer).2.2.2 caughtUp (.inr ?_) _ isReplayed
  rw [sequences]
  decide

end Live

end Aa.Visualizer
