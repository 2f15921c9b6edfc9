import Aa.Library.Broadcast
import Aa.Library.PyValue
import Aa.Sifter.Desktop.Service

/-!
# The events of a task

A task's events are kept on its record and put into the queues of the streams that are
open. They are emitted by the task and by the threads that cancel it, and a stream is
opened, written and closed by a thread of its own. A stream is written what the record had
when it was copied and then what was emitted since it subscribed, so that the events in
between are written twice and no other is, and no event is left out.
-/

namespace Aa.Sifter.Desktop

open Aa.Library

/-- An entry of `events`. -/
structure Payload where
  event : String
  taskId : String
  ts : PyFloat
  data : PyValue

/-- What ends a stream: a terminal status, the event `done`, or a write that fails. -/
inductive Cause
  | terminal
  | done
  | broken
  deriving DecidableEq

/-- Where `_stream_events` is: its queue is subscribed, it writes the copy, it waits for the
queue, it has written a ping, it has left the loop, or it has unsubscribed too. -/
inductive Phase
  | opened
  | replaying
  | waiting
  | timedOut
  | ended (cause : Cause)
  | left (cause : Cause)
  deriving DecidableEq

inductive Chunk
  | data (payload : Payload)
  | ping

/-- A stream. `since` and `copied` are there to be spoken of: how many events there were
when it subscribed and when it copied them. -/
structure Stream where
  phase : Phase := .opened
  rest : List Payload := []
  taken : ℕ := 0
  written : List Chunk := []
  since : ℕ
  copied : ℕ := 0

/-- The part of a record that its events go through. The streams are its subscribers. -/
structure Feed where
  status : String := "queued"
  topic : Topic Payload ℕ := {}
  streams : List Stream := []

/-- What a stream does next. -/
inductive StreamStep
  | copy
  | write
  | check
  | take
  | timeout
  | fail
  | leave

/-- A step of one of the threads. -/
inductive FeedAction
  | setStatus (status : String)
  | emit (payload : Payload)
  | put (index : ℕ)
  | connect
  | stream (index : ℕ) (step : StreamStep)

namespace Stream

def write (stream : Stream) (chunk : Chunk) : Stream :=
  { stream with written := stream.written ++ [chunk] }

/-- The events that were written. -/
def payloads (stream : Stream) : List Payload :=
  stream.written.filterMap fun
    | .data payload => some payload
    | .ping => none

end Stream

namespace Feed

def terminal (feed : Feed) : Bool := feed.status ∈ terminalStatuses

/-- What is in the queue of a stream. -/
def unread (feed : Feed) (index : ℕ) (stream : Stream) : List Payload :=
  (feed.topic.inbox index).drop stream.taken

/-- The stream after its next step. A failed write is the last one that it tries. -/
def advance (feed : Feed) (index : ℕ) (stream : Stream) : StreamStep → Option Stream
  | .copy =>
      match stream.phase with
      | .opened =>
          some
            { stream with
              phase := .replaying
              rest := feed.topic.log
              copied := feed.topic.log.length }
      | _ => none
  | .write =>
      match stream.phase, stream.rest with
      | .replaying, payload :: rest => some { stream.write (.data payload) with rest := rest }
      | _, _ => none
  | .check =>
      match stream.phase, stream.rest with
      | .replaying, [] | .timedOut, _ =>
          some { stream with phase := if feed.terminal then .ended .terminal else .waiting }
      | _, _ => none
  | .take =>
      match stream.phase, feed.unread index stream with
      | .waiting, payload :: _ =>
          some
            { stream.write (.data payload) with
              taken := stream.taken + 1
              phase := if payload.event = "done" then .ended .done else .waiting }
      | _, _ => none
  | .timeout =>
      match stream.phase, feed.unread index stream with
      | .waiting, [] => some { stream.write .ping with phase := .timedOut }
      | _, _ => none
  | .fail =>
      match stream.phase with
      | .replaying | .waiting => some { stream with phase := .ended .broken }
      | _ => none
  | .leave =>
      match stream.phase with
      | .ended cause => some { stream with phase := .left cause }
      | _ => none

def step (feed : Feed) : FeedAction → Option Feed
  | .setStatus status => some { feed with status := status }
  | .emit payload => some { feed with topic := feed.topic.publish [payload] }
  | .put index => (feed.topic.deliver index).map fun topic => { feed with topic := topic }
  | .connect =>
      some
        { feed with
          topic := feed.topic.subscribe feed.streams.length
          streams := feed.streams ++ [{ since := feed.topic.log.length }] }
  | .stream index step =>
      match feed.streams[index]? with
      | none => none
      | some stream =>
          (feed.advance index stream step).map fun next =>
            { feed with
              topic :=
                match step with
                | .leave => feed.topic.unsubscribe index
                | _ => feed.topic
              streams := feed.streams.set index next }

/-- The feed after some steps, all of which must be possible. -/
def run (feed : Feed) : List FeedAction → Option Feed
  | [] => some feed
  | action :: rest => (feed.step action).bind fun next => next.run rest

/-- No event is emitted while another one is still being put into the queues. -/
def Separate (feed : Feed) : List FeedAction → Prop
  | [] => True
  | action :: rest =>
      (∀ payload, action = .emit payload → feed.topic.Quiet) ∧
        ∀ next, feed.step action = some next → next.Separate rest

end Feed

/-! ## What the streams have -/

namespace Stream

variable {ordered : Prop} {topic later : Topic Payload ℕ} {index : ℕ} {stream : Stream}

@[simp]
theorem payloads_write_data (stream : Stream) (payload : Payload) :
    (stream.write (.data payload)).payloads = stream.payloads ++ [payload] := by
  simp [payloads, write]

@[simp]
theorem payloads_write_ping (stream : Stream) : (stream.write .ping).payloads = stream.payloads := by
  simp [payloads, write]

/-- The stream has its share of the events, and was written the ones it copied and took. -/
structure Exact (ordered : Prop) (topic : Topic Payload ℕ) (index : ℕ) (stream : Stream) : Prop where
  share : ∃ til, topic.Share ordered index stream.since til
  subscribed : (∀ cause, stream.phase ≠ .left cause) → index ∈ topic.subscribers
  opened : stream.phase = .opened → stream.payloads = [] ∧ stream.rest = [] ∧ stream.taken = 0
  between : stream.phase ≠ .opened → stream.since ≤ stream.copied
  within : stream.copied ≤ topic.log.length
  replaying : stream.rest ≠ [] → stream.taken = 0
  replayed : stream.phase = .waiting ∨ stream.phase = .timedOut → stream.rest = []
  taken : stream.taken ≤ (topic.inbox index).length
  written : stream.phase ≠ .opened → stream.payloads ++ stream.rest =
    topic.log.take stream.copied ++ (topic.inbox index).take stream.taken

namespace Exact

/-- What the topic gains is none of the stream's concern. -/
theorem mono (exact : stream.Exact ordered topic index) (logGrows : topic.log <+: later.log)
    (inboxGrows : topic.inbox index <+: later.inbox index)
    (share : ∃ til, later.Share ordered index stream.since til)
    (stays : index ∈ topic.subscribers → index ∈ later.subscribers) :
    stream.Exact ordered later index where
  share := share
  subscribed here := stays (exact.subscribed here)
  opened := exact.opened
  between := exact.between
  within := exact.within.trans logGrows.length_le
  replaying := exact.replaying
  replayed := exact.replayed
  taken := exact.taken.trans inboxGrows.length_le
  written isCopied := by
    rcases logGrows with ⟨events, isLog⟩
    rcases inboxGrows with ⟨items, isInbox⟩
    rw [← isLog, ← isInbox, List.take_append_of_le_length exact.within,
      List.take_append_of_le_length exact.taken]
    exact exact.written isCopied

/-- Only the phase changes, and the stream has its copy. -/
theorem inPhase {phase : Phase} (exact : stream.Exact ordered topic index)
    (isCopied : stream.phase ≠ .opened) (notOpened : phase ≠ .opened)
    (notLeft : ∀ cause, stream.phase ≠ .left cause)
    (replayed : phase = .waiting ∨ phase = .timedOut → stream.rest = []) :
    Exact ordered topic index { stream with phase := phase } where
  share := exact.share
  subscribed _ := exact.subscribed notLeft
  opened isOpened := absurd isOpened notOpened
  between _ := exact.between isCopied
  within := exact.within
  replaying := exact.replaying
  replayed := replayed
  taken := exact.taken
  written _ := exact.written isCopied

theorem copy (exact : stream.Exact ordered topic index) (isOpened : stream.phase = .opened) :
    Exact ordered topic index
      { stream with
        phase := .replaying
        rest := topic.log
        copied := topic.log.length } where
  share := exact.share
  subscribed _ := exact.subscribed fun cause => by simp [isOpened]
  opened no := by cases no
  between _ := by
    rcases exact.share with ⟨til, share⟩
    exact share.start.trans share.stop
  within := Nat.le_refl _
  replaying _ := (exact.opened isOpened).2.2
  replayed waits := by rcases waits with no | no <;> cases no
  taken := exact.taken
  written _ := by
    rcases exact.opened isOpened with ⟨nothing, _, noneTaken⟩
    change stream.payloads ++ topic.log =
      topic.log.take topic.log.length ++ (topic.inbox index).take stream.taken
    rw [nothing, noneTaken, List.take_length, List.take_zero, List.append_nil, List.nil_append]

theorem write {payload : Payload} {rest : List Payload} (exact : stream.Exact ordered topic index)
    (isReplaying : stream.phase = .replaying) (isRest : stream.rest = payload :: rest) :
    Exact ordered topic index { stream.write (.data payload) with rest := rest } where
  share := exact.share
  subscribed _ := exact.subscribed fun cause => by simp [isReplaying]
  opened isOpened := by cases isReplaying.symm.trans isOpened
  between _ := exact.between (by simp [isReplaying])
  within := exact.within
  replaying _ := exact.replaying (by simp [isRest])
  replayed waits := by
    rcases waits with no | no
    · cases isReplaying.symm.trans no
    · cases isReplaying.symm.trans no
  taken := exact.taken
  written _ := by
    have isWritten := exact.written (by simp [isReplaying])
    rw [isRest] at isWritten
    change (stream.write (.data payload)).payloads ++ rest = _
    rw [payloads_write_data, List.append_assoc, List.singleton_append]
    exact isWritten

theorem take {payload : Payload} {unread : List Payload} {phase : Phase}
    (exact : stream.Exact ordered topic index) (isWaiting : stream.phase = .waiting)
    (isUnread : (topic.inbox index).drop stream.taken = payload :: unread)
    (notOpened : phase ≠ .opened) :
    Exact ordered topic index
      { stream.write (.data payload) with
        taken := stream.taken + 1
        phase := phase } where
  share := exact.share
  subscribed _ := exact.subscribed fun cause => by simp [isWaiting]
  opened isOpened := absurd isOpened notOpened
  between _ := exact.between (by simp [isWaiting])
  within := exact.within
  replaying notNil := absurd (exact.replayed (.inl isWaiting)) notNil
  replayed _ := exact.replayed (.inl isWaiting)
  taken := by
    have isLength := congrArg List.length isUnread
    rw [List.length_drop, List.length_cons] at isLength
    change stream.taken + 1 ≤ _
    omega
  written _ := by
    have isWritten := exact.written (by simp [isWaiting])
    rw [exact.replayed (.inl isWaiting), List.append_nil] at isWritten
    have isNext : (topic.inbox index).take (stream.taken + 1) =
        (topic.inbox index).take stream.taken ++ [payload] := by
      rw [List.take_add, isUnread]
      rfl
    change (stream.write (.data payload)).payloads ++ stream.rest = _
    rw [payloads_write_data, exact.replayed (.inl isWaiting), isWritten, List.append_nil, isNext,
      List.append_assoc]
    rfl

theorem timeout (exact : stream.Exact ordered topic index) (isWaiting : stream.phase = .waiting) :
    Exact ordered topic index { stream.write .ping with phase := .timedOut } where
  share := exact.share
  subscribed _ := exact.subscribed fun cause => by simp [isWaiting]
  opened no := by cases no
  between _ := exact.between (by simp [isWaiting])
  within := exact.within
  replaying := exact.replaying
  replayed _ := exact.replayed (.inl isWaiting)
  taken := exact.taken
  written _ := by
    change (stream.write .ping).payloads ++ stream.rest = _
    rw [payloads_write_ping]
    exact exact.written (by simp [isWaiting])

theorem leave {cause : Cause} (exact : stream.Exact ordered topic index)
    (isEnded : stream.phase = .ended cause) :
    Exact ordered (topic.unsubscribe index) index { stream with phase := .left cause } where
  share := by
    rcases exact.share with ⟨til, share⟩
    exact ⟨til, share.unsubscribe index⟩
  subscribed here := (here cause rfl).elim
  opened no := by cases no
  between _ := exact.between (by simp [isEnded])
  within := exact.within
  replaying := exact.replaying
  replayed waits := by rcases waits with no | no <;> cases no
  taken := exact.taken
  written _ := exact.written (by simp [isEnded])

end Exact

end Stream

namespace Feed

variable {ordered : Prop} {feed next : Feed} {index : ℕ} {stream after : Stream}

/-- What holds of a feed after every run. -/
structure Sound (ordered : Prop) (feed : Feed) : Prop where
  nodup : feed.topic.subscribers.Nodup
  known : ∀ reader ∈ feed.topic.subscribers, reader < feed.streams.length
  noLoss : ∀ reader, feed.topic.lost reader = []
  nothing : ∀ reader, feed.streams.length ≤ reader → feed.topic.due reader = []
  serial : ordered → feed.topic.Serial
  exact : ∀ index (stream : Stream), feed.streams[index]? = some stream →
    stream.Exact ordered feed.topic index

theorem sound_empty : Sound ordered {} where
  nodup := .nil
  known := by simp
  noLoss _ := rfl
  nothing _ _ := rfl
  serial _ := by simp [Topic.Serial]
  exact := by simp

namespace Sound

/-- The topic changes and the streams do not. -/
theorem withTopic {topic : Topic Payload ℕ} (sound : Sound ordered feed)
    (sameReaders : topic.subscribers = feed.topic.subscribers)
    (sameLoss : topic.lost = feed.topic.lost) (logGrows : feed.topic.log <+: topic.log)
    (inboxGrows : ∀ reader, feed.topic.inbox reader <+: topic.inbox reader)
    (serial : ordered → topic.Serial)
    (nothing : ∀ reader, feed.streams.length ≤ reader → topic.due reader = [])
    (shares : ∀ reader since til, feed.topic.Share ordered reader since til →
      ∃ later, topic.Share ordered reader since later) :
    Sound ordered { feed with topic := topic } where
  nodup := sameReaders ▸ sound.nodup
  known := by
    intro reader isReader
    exact sound.known reader (sameReaders ▸ isReader)
  noLoss reader := by
    change topic.lost reader = []
    rw [sameLoss]
    exact sound.noLoss reader
  nothing := nothing
  serial := serial
  exact := by
    intro index stream isStream
    have exact := sound.exact index stream isStream
    rcases exact.share with ⟨til, share⟩
    exact exact.mono logGrows (inboxGrows index) (shares _ _ _ share) fun here => sameReaders ▸ here

theorem emit (sound : Sound ordered feed) (payload : Payload) (quiet : ordered → feed.topic.Quiet) :
    Sound ordered { feed with topic := feed.topic.publish [payload] } := by
  refine sound.withTopic rfl rfl (List.prefix_append _ _) (fun _ => List.prefix_rfl)
    (fun isOrdered => Topic.serial_publish (quiet isOrdered) _) ?_ ?_
  · intro reader isNew
    have notThere : reader ∉ feed.topic.subscribers := fun isThere =>
      absurd (sound.known reader isThere) (by omega)
    rw [Topic.due_publish sound.nodup, sound.nothing reader isNew, if_neg notThere]
    rfl
  · intro reader since til share
    rcases share.publish sound.nodup [payload] with ⟨later, _, isShare⟩
    exact ⟨later, isShare⟩

theorem put {topic : Topic Payload ℕ} (sound : Sound ordered feed)
    (delivers : feed.topic.deliver index = some topic) :
    Sound ordered { feed with topic := topic } := by
  have isDue (reader : ℕ) := Topic.due_deliver reader sound.serial
    (fun _ _ => sound.noLoss reader) delivers
  have share (reader since til : ℕ) (share : feed.topic.Share ordered reader since til) :=
    share.deliver sound.serial (fun _ _ => sound.noLoss reader) delivers
  have serial (isOrdered : ordered) := Topic.serial_deliver (sound.serial isOrdered) delivers
  rcases Option.map_eq_some_iff.mp delivers with ⟨⟨delivery, rest⟩, isNext, rfl⟩
  refine sound.withTopic rfl rfl List.prefix_rfl (fun reader => ?_) serial ?_ ?_
  · by_cases isReader : reader = delivery.1
    · subst isReader
      simp only [Function.update_self]
      exact List.prefix_append _ _
    · simp only [Function.update_of_ne isReader]
      exact List.prefix_rfl
  · intro reader isNew
    exact List.perm_nil.mp (sound.nothing reader isNew ▸ (isDue reader).1)
  · intro reader since til isShare
    exact ⟨til, share reader since til isShare⟩

theorem connect (sound : Sound ordered feed) :
    Sound ordered
      { feed with
        topic := feed.topic.subscribe feed.streams.length
        streams := feed.streams ++ [{ since := feed.topic.log.length }] } where
  nodup := by
    refine List.nodup_append.mpr ⟨sound.nodup, List.nodup_singleton _, ?_⟩
    rintro reader isReader _ isNew rfl
    exact absurd (sound.known reader isReader) (by simp_all)
  known := by
    intro reader isReader
    rw [List.length_append, List.length_singleton]
    rcases List.mem_append.mp isReader with already | isNew
    · exact Nat.lt_succ_of_lt (sound.known reader already)
    · rw [List.mem_singleton.mp isNew]
      exact Nat.lt_succ_self _
  noLoss := sound.noLoss
  nothing reader isNew := by
    rw [List.length_append] at isNew
    exact sound.nothing reader (by omega)
  serial := sound.serial
  exact := by
    intro index stream isStream
    rw [List.getElem?_append] at isStream
    split at isStream
    · rename_i isOld
      have exact := sound.exact index stream isStream
      rcases exact.share with ⟨til, share⟩
      exact exact.mono List.prefix_rfl List.prefix_rfl
        ⟨til, share.subscribe (Nat.ne_of_gt isOld)⟩ (List.mem_append_left _)
    · rcases List.getElem?_eq_some_iff.mp isStream with ⟨inRange, rfl⟩
      have isLast : index = feed.streams.length := by
        rw [List.length_singleton] at inRange
        omega
      subst isLast
      simp only [Nat.sub_self, List.getElem_cons_zero]
      refine ⟨⟨_, .of_due_eq_nil (sound.nothing _ (Nat.le_refl _))⟩, fun _ => ?_,
        fun _ => ⟨rfl, rfl, rfl⟩, fun isCopied => (isCopied rfl).elim, Nat.zero_le _,
        fun notNil => (notNil rfl).elim, fun waits => ?_, Nat.zero_le _,
        fun isCopied => (isCopied rfl).elim⟩
      · exact List.mem_append_right _ (List.mem_singleton_self _)
      · rcases waits with no | no <;> cases no

/-- A stream that does not leave changes nothing but itself. -/
theorem advance {step : StreamStep} (exact : stream.Exact ordered feed.topic index)
    (stays : step ≠ .leave) (advances : feed.advance index stream step = some after) :
    after.Exact ordered feed.topic index := by
  cases step with
  | copy =>
      simp only [Feed.advance] at advances
      split at advances
      · cases advances
        exact exact.copy ‹_›
      · cases advances
  | write =>
      simp only [Feed.advance] at advances
      split at advances
      · cases advances
        exact exact.write ‹_› ‹_›
      · cases advances
  | check =>
      simp only [Feed.advance] at advances
      have isChecked (isCopied : stream.phase ≠ .opened) (isReplayed : stream.rest = [])
          (notLeft : ∀ cause, stream.phase ≠ .left cause) :
          Stream.Exact ordered feed.topic index
            { stream with phase := if feed.terminal then .ended .terminal else .waiting } := by
        refine exact.inPhase isCopied ?_ notLeft fun _ => isReplayed
        split <;> simp
      split at advances
      · rename_i isReplaying isRest
        cases advances
        exact isChecked (by simp [isReplaying]) isRest (by simp [isReplaying])
      · rename_i isTimedOut
        cases advances
        exact isChecked (by simp [isTimedOut]) (exact.replayed (.inr isTimedOut))
          (by simp [isTimedOut])
      · cases advances
  | take =>
      simp only [Feed.advance] at advances
      split at advances
      · cases advances
        refine exact.take ‹_› ‹_› ?_
        split <;> simp
      · cases advances
  | timeout =>
      simp only [Feed.advance] at advances
      split at advances
      · cases advances
        exact exact.timeout ‹_›
      · cases advances
  | fail =>
      simp only [Feed.advance] at advances
      split at advances
      · rename_i isReplaying
        cases advances
        exact exact.inPhase (by simp [isReplaying]) (by simp) (by simp [isReplaying]) (by simp)
      · rename_i isWaiting
        cases advances
        exact exact.inPhase (by simp [isWaiting]) (by simp) (by simp [isWaiting]) (by simp)
      · cases advances
  | leave => exact absurd rfl stays

/-- One stream is another one, the topic being as before for the others. -/
theorem setStream {topic : Topic Payload ℕ} (sound : Sound ordered feed)
    (isStream : feed.streams[index]? = some stream) (sameLog : topic.log = feed.topic.log)
    (sameInbox : topic.inbox = feed.topic.inbox) (sameLoss : topic.lost = feed.topic.lost)
    (sameFlights : topic.flights = feed.topic.flights)
    (fewer : topic.subscribers.Sublist feed.topic.subscribers)
    (others : ∀ reader ∈ feed.topic.subscribers, reader ≠ index → reader ∈ topic.subscribers)
    (exact : after.Exact ordered topic index) :
    Sound ordered { feed with topic := topic, streams := feed.streams.set index after } where
  nodup := sound.nodup.sublist fewer
  known reader isReader := by
    rw [List.length_set]
    exact sound.known reader (fewer.subset isReader)
  noLoss reader := by
    change topic.lost reader = []
    rw [sameLoss]
    exact sound.noLoss reader
  nothing reader isNew := by
    rw [List.length_set] at isNew
    have nothing := sound.nothing reader isNew
    simp only [Topic.due, Topic.underway, sameInbox, sameLoss, sameFlights] at nothing ⊢
    exact nothing
  serial isOrdered := by
    simp only [Topic.Serial, sameFlights]
    exact sound.serial isOrdered
  exact := by
    intro other changed isChanged
    have inRange := (List.getElem?_eq_some_iff.mp isStream).1
    rw [List.getElem?_set] at isChanged
    split at isChanged
    · rename_i isSame
      subst isSame
      cases isChanged
      exact exact
    · rename_i isOther
      have otherExact := sound.exact other changed isChanged
      refine otherExact.mono (sameLog ▸ List.prefix_rfl) (sameInbox ▸ List.prefix_rfl) ?_
        fun here => others other here (Ne.symm isOther)
      rcases otherExact.share with ⟨til, share⟩
      refine ⟨til, share.start, sameLog ▸ share.stop, fun here => ?_, ?_⟩
      · rw [sameLog]
        exact share.last (fewer.subset here)
      · have isDue := share.due
        simp only [Topic.due, Topic.underway, sameInbox, sameLoss, sameFlights, sameLog] at isDue ⊢
        exact isDue

theorem step {action : FeedAction} (sound : Sound ordered feed)
    (separate : ordered → ∀ payload, action = .emit payload → feed.topic.Quiet)
    (steps : feed.step action = some next) : Sound ordered next := by
  cases action with
  | setStatus status =>
      cases steps
      exact ⟨sound.nodup, sound.known, sound.noLoss, sound.nothing, sound.serial, sound.exact⟩
  | emit payload =>
      cases steps
      exact sound.emit payload fun isOrdered => separate isOrdered payload rfl
  | put index =>
      rcases Option.map_eq_some_iff.mp steps with ⟨topic, delivers, rfl⟩
      exact sound.put delivers
  | connect =>
      cases steps
      exact sound.connect
  | stream index step =>
      simp only [Feed.step] at steps
      split at steps
      · cases steps
      · rename_i stream isStream
        rcases Option.map_eq_some_iff.mp steps with ⟨after, advances, rfl⟩
        have exact := sound.exact index stream isStream
        have others : ∀ reader ∈ feed.topic.subscribers, reader ≠ index →
            reader ∈ feed.topic.subscribers := fun _ here _ => here
        cases step with
        | leave =>
            simp only [Feed.advance] at advances
            split at advances
            · cases advances
              refine sound.setStream isStream rfl rfl rfl rfl (List.erase_sublist) ?_
                (exact.leave ‹_›)
              exact fun reader here isOther => (List.mem_erase_of_ne isOther).mpr here
            · cases advances
        | _ =>
            exact sound.setStream isStream rfl rfl rfl rfl (.refl _) others
              (advance exact (by simp) advances)

theorem run {actions : List FeedAction} (sound : Sound ordered feed)
    (separate : ordered → feed.Separate actions) (runs : feed.run actions = some next) :
    Sound ordered next := by
  induction actions generalizing feed with
  | nil =>
      cases runs
      exact sound
  | cons action rest ih =>
      rcases Option.bind_eq_some_iff.mp runs with ⟨middle, steps, runsOn⟩
      have sound := sound.step (fun isOrdered => (separate isOrdered).1) steps
      exact ih sound (fun isOrdered => (separate isOrdered).2 middle steps) runsOn

end Sound

/-- After every run of a record's threads a stream that has copied the events and is still
subscribed was written, or has yet to write, read or be given, each event of the record once,
and once more each that was emitted between its subscription and its copy; all of them come in
the order of the record if no event is emitted while another one is put into the queues. A
stream that has ended was written a part of that, and in order a beginning. -/
theorem stream_exact {actions : List FeedAction} (runs : ({} : Feed).run actions = some feed)
    (isStream : feed.streams[index]? = some stream) (isCopied : stream.phase ≠ .opened) :
    ((∀ cause, stream.phase ≠ .left cause) →
      Agree (({} : Feed).Separate actions)
        (stream.payloads ++ stream.rest ++ feed.unread index stream ++ feed.topic.underway index)
        (feed.topic.log.take stream.copied ++ feed.topic.log.drop stream.since)) ∧
    ∃ missed, Agree (({} : Feed).Separate actions) (stream.payloads ++ missed)
      (feed.topic.log.take stream.copied ++ feed.topic.log.drop stream.since) := by
  have sound : Sound (({} : Feed).Separate actions) feed :=
    sound_empty.run (fun isSeparate => isSeparate) runs
  have exact := sound.exact index stream isStream
  rcases exact.share with ⟨til, share⟩
  have isDue : stream.payloads ++ stream.rest ++ feed.unread index stream ++
      feed.topic.underway index = feed.topic.log.take stream.copied ++ feed.topic.due index := by
    rw [exact.written isCopied, Topic.due, sound.noLoss index, List.append_nil, unread,
      List.append_assoc (feed.topic.log.take _), List.take_append_drop, List.append_assoc]
  have agree := share.due.append_left (feed.topic.log.take stream.copied)
  rw [← isDue] at agree
  refine ⟨fun notLeft => ?_, ?_⟩
  · rw [share.last (exact.subscribed notLeft), List.take_length] at agree
    exact agree
  · refine ⟨stream.rest ++ feed.unread index stream ++ feed.topic.underway index ++
      (feed.topic.log.drop til), ?_⟩
    have isSplit : feed.topic.log.drop stream.since =
        (feed.topic.log.take til).drop stream.since ++ feed.topic.log.drop til := by
      conv_lhs => rw [← List.take_append_drop til feed.topic.log]
      refine List.drop_append_of_le_length ?_
      rw [List.length_take, Nat.min_eq_left share.stop]
      exact share.start
    rw [isSplit, ← List.append_assoc (feed.topic.log.take _)]
    have extended := agree.append_right (feed.topic.log.drop til)
    simp only [List.append_assoc] at extended ⊢
    exact extended

/-- An event of a task without data. -/
def plainEvent (event : String) : Payload where
  event := event
  taskId := "t1"
  ts := .nan
  data := .obj []

/-- An event is emitted after a stream has subscribed and before it copies the events. -/
def betweenActions : List FeedAction :=
  [.emit (plainEvent "status"), .connect, .emit (plainEvent "route"), .stream 0 .copy,
    .stream 0 .write, .stream 0 .write, .stream 0 .check, .put 1, .stream 0 .take]

theorem betweenActions_exact :
    ∃ feed stream, ({} : Feed).run betweenActions = some feed ∧ feed.streams[0]? = some stream ∧
      stream.payloads.map Payload.event = ["status", "route", "route"] ∧
      Agree (({} : Feed).Separate betweenActions)
        (stream.payloads ++ stream.rest ++ feed.unread 0 stream ++ feed.topic.underway 0)
        (feed.topic.log.take stream.copied ++ feed.topic.log.drop stream.since) := by
  have isRun : (({} : Feed).run betweenActions).bind (fun feed => feed.streams[0]?.map fun stream =>
      (stream.phase, stream.payloads.map Payload.event)) =
      some (.waiting, ["status", "route", "route"]) := by
    decide +kernel
  rcases Option.bind_eq_some_iff.mp isRun with ⟨feed, runs, isShown⟩
  rcases Option.map_eq_some_iff.mp isShown with ⟨stream, isStream, isPair⟩
  rcases Prod.mk.inj isPair with ⟨isWaiting, isWritten⟩
  refine ⟨feed, stream, runs, isStream, isWritten, (stream_exact runs isStream ?_).1 ?_⟩
  · simp [isWaiting]
  · simp [isWaiting]

/-! ## Streams of a task that is over -/

/-- The step neither sets the status nor emits an event. -/
def Idle : FeedAction → Prop
  | .setStatus _ | .emit _ => False
  | .put _ | .connect | .stream _ _ => True

/-- A stream of a task that is over writes all its events. It then ends if the status is
terminal, and waits otherwise; what it waits for does not come. -/
def Settled (feed : Feed) (stream : Stream) : Prop :=
  match stream.phase with
  | .opened => True
  | .replaying | .ended .broken | .left .broken => stream.payloads ++ stream.rest = feed.topic.log
  | .waiting | .timedOut => feed.terminal = false ∧ stream.payloads = feed.topic.log
  | .ended .terminal | .left .terminal => feed.terminal = true ∧ stream.payloads = feed.topic.log
  | .ended .done | .left .done => False

/-- To a stream that subscribed after the last event nothing is due. -/
theorem Sound.unread_eq_nil (sound : Sound ordered feed)
    (isStream : feed.streams[index]? = some stream) (late : stream.since = feed.topic.log.length) :
    feed.unread index stream = [] := by
  rcases (sound.exact index stream isStream).share with ⟨til, share⟩
  have isDue := share.due.1
  rw [List.drop_eq_nil_of_le (by rw [List.length_take, late]; exact Nat.min_le_right _ _)] at isDue
  have noInbox : feed.topic.inbox index = [] := by
    have nothing := List.perm_nil.mp isDue
    rw [Topic.due, List.append_assoc] at nothing
    exact (List.append_eq_nil_iff.mp nothing).1
  rw [unread, noInbox, List.drop_nil]

theorem settled_advance {step : StreamStep} (exact : stream.Exact ordered feed.topic index)
    (nothing : feed.unread index stream = []) (settled : feed.Settled stream)
    (advances : feed.advance index stream step = some after) :
    feed.Settled after ∧ after.since = stream.since := by
  cases step with
  | copy =>
      simp only [advance] at advances
      split at advances
      · rename_i isOpened
        cases advances
        refine ⟨?_, rfl⟩
        change stream.payloads ++ feed.topic.log = feed.topic.log
        rw [(exact.opened isOpened).1, List.nil_append]
      · cases advances
  | write =>
      simp only [advance] at advances
      split at advances
      · rename_i payload rest isReplaying isRest
        cases advances
        refine ⟨?_, rfl⟩
        simp only [Settled, isReplaying, isRest] at settled
        simp only [Settled, Stream.write, isReplaying]
        change (stream.write (.data payload)).payloads ++ rest = feed.topic.log
        rw [Stream.payloads_write_data, List.append_assoc, List.singleton_append]
        exact settled
      · cases advances
  | check =>
      simp only [advance] at advances
      have isChecked (isWritten : stream.payloads = feed.topic.log) :
          feed.Settled
            { stream with phase := if feed.terminal then .ended .terminal else .waiting } := by
        cases isTerminal : feed.terminal with
        | true => exact ⟨isTerminal, isWritten⟩
        | false => exact ⟨isTerminal, isWritten⟩
      split at advances
      · rename_i isReplaying isRest
        cases advances
        simp only [Settled, isReplaying, isRest, List.append_nil] at settled
        exact ⟨isChecked settled, rfl⟩
      · rename_i isTimedOut
        cases advances
        simp only [Settled, isTimedOut] at settled
        exact ⟨isChecked settled.2, rfl⟩
      · cases advances
  | take =>
      simp only [advance, nothing] at advances
      split at advances
      · rename_i isUnread
        cases isUnread
      · cases advances
  | timeout =>
      simp only [advance, nothing] at advances
      split at advances
      · rename_i isWaiting _
        cases advances
        simp only [Settled, isWaiting] at settled
        refine ⟨⟨settled.1, ?_⟩, rfl⟩
        exact (Stream.payloads_write_ping stream).trans settled.2
      · cases advances
  | fail =>
      simp only [advance] at advances
      split at advances
      · rename_i isReplaying
        cases advances
        simp only [Settled, isReplaying] at settled
        exact ⟨settled, rfl⟩
      · rename_i isWaiting
        cases advances
        simp only [Settled, isWaiting] at settled
        refine ⟨?_, rfl⟩
        change stream.payloads ++ stream.rest = feed.topic.log
        rw [exact.replayed (.inl isWaiting), List.append_nil]
        exact settled.2
      · cases advances
  | leave =>
      simp only [advance] at advances
      split at advances
      · rename_i cause isEnded
        cases advances
        simp only [Settled, isEnded] at settled
        refine ⟨?_, rfl⟩
        cases cause with
        | terminal => exact settled
        | done => exact settled
        | broken => exact settled
      · cases advances

/-- An idle step keeps the events and the status, and the stream settled. -/
theorem settled_step {action : FeedAction} (sound : Sound ordered feed) (idle : Idle action)
    (steps : feed.step action = some next) (isStream : feed.streams[index]? = some stream)
    (late : stream.since = feed.topic.log.length) (settled : feed.Settled stream) :
    next.topic.log = feed.topic.log ∧ next.status = feed.status ∧
      ∃ after : Stream, next.streams[index]? = some after ∧
        after.since = next.topic.log.length ∧ next.Settled after := by
  cases action with
  | setStatus status => cases idle
  | emit payload => cases idle
  | put position =>
      rcases Option.map_eq_some_iff.mp steps with ⟨topic, delivers, rfl⟩
      rcases Option.map_eq_some_iff.mp delivers with ⟨_, _, rfl⟩
      exact ⟨rfl, rfl, stream, isStream, late, settled⟩
  | connect =>
      cases steps
      refine ⟨rfl, rfl, stream, ?_, late, settled⟩
      exact List.getElem?_append_left (List.getElem?_eq_some_iff.mp isStream).1 ▸ isStream
  | stream other step =>
      simp only [Feed.step] at steps
      split at steps
      · cases steps
      · rename_i changed isChanged
        rcases Option.map_eq_some_iff.mp steps with ⟨after, advances, rfl⟩
        have sameLog : (match step with
            | .leave => feed.topic.unsubscribe other
            | _ => feed.topic).log = feed.topic.log := by
          cases step <;> rfl
        refine ⟨sameLog, rfl, ?_⟩
        by_cases isOther : other = index
        · subst isOther
          cases isStream.symm.trans isChanged
          rcases settled_advance (sound.exact other stream isStream)
            (sound.unread_eq_nil isStream late) settled advances with ⟨isSettled, sameSince⟩
          have inRange := (List.getElem?_eq_some_iff.mp isStream).1
          refine ⟨after, List.getElem?_set_self inRange, ?_, ?_⟩
          · rw [sameSince, late, sameLog]
          · simp only [Settled, sameLog] at isSettled ⊢
            exact isSettled
        · refine ⟨stream, ?_, ?_, ?_⟩
          · exact (List.getElem?_set_ne isOther).trans isStream
          · rw [sameLog, late]
          · simp only [Settled, sameLog] at settled ⊢
            exact settled

theorem settled_run {actions : List FeedAction} (sound : Sound ordered feed)
    (idle : ∀ action ∈ actions, Idle action) (runs : feed.run actions = some next)
    (isStream : feed.streams[index]? = some stream)
    (late : stream.since = feed.topic.log.length) (settled : feed.Settled stream) :
    ∃ after : Stream, next.streams[index]? = some after ∧ next.topic.log = feed.topic.log ∧
      next.status = feed.status ∧ next.Settled after := by
  induction actions generalizing feed stream with
  | nil =>
      cases runs
      exact ⟨stream, isStream, rfl, rfl, settled⟩
  | cons action rest ih =>
      rcases Option.bind_eq_some_iff.mp runs with ⟨middle, steps, runsOn⟩
      have isIdle := idle action List.mem_cons_self
      rcases settled_step sound isIdle steps isStream late settled with
        ⟨sameLog, sameStatus, after, isAfter, isLate, isSettled⟩
      have separate : ordered → ∀ payload, action = .emit payload → feed.topic.Quiet := by
        rintro _ payload rfl
        cases isIdle
      rcases ih (sound.step separate steps) (fun action isThere =>
        idle action (List.mem_cons_of_mem _ isThere)) runsOn isAfter isLate isSettled with
        ⟨last, isLast, lastLog, lastStatus, lastSettled⟩
      exact ⟨last, isLast, lastLog.trans sameLog, lastStatus.trans sameStatus, lastSettled⟩

/-- A stream that connects to a task that is over, with whatever was emitted before, writes all
events. It then ends by itself if the status is terminal; if it is not, as after a run that
was blocked by its budget, the stream never ends by itself, although it has written `done`. -/
theorem stream_after_end {before later : List FeedAction} {last : Feed}
    (runs : ({} : Feed).run before = some feed) (idle : ∀ action ∈ later, Idle action)
    (runsOn : feed.run (.connect :: later) = some last) :
    ∃ stream : Stream, last.streams[feed.streams.length]? = some stream ∧
      last.topic.log = feed.topic.log ∧ last.status = feed.status ∧ last.Settled stream := by
  have sound : Sound False feed := sound_empty.run (fun no => no.elim) runs
  rcases Option.bind_eq_some_iff.mp runsOn with ⟨connected, connects, runsLater⟩
  cases connects
  have isNew : (feed.streams ++ [{ since := feed.topic.log.length }])[feed.streams.length]? =
      some ({ since := feed.topic.log.length } : Stream) := by
    rw [List.getElem?_append_right (Nat.le_refl _), Nat.sub_self]
    rfl
  rcases settled_run sound.connect idle runsLater isNew rfl trivial with
    ⟨stream, isStream, sameLog, sameStatus, settled⟩
  exact ⟨stream, isStream, sameLog, sameStatus, settled⟩

/-- The end of a task that its budget has blocked, and a stream that comes after it. -/
def blockedEvents : List FeedAction :=
  [.setStatus "running", .emit (plainEvent "status"), .setStatus "blocked",
    .emit (plainEvent "result"), .emit (plainEvent "done")]

def lateStream : List FeedAction :=
  [.stream 0 .copy, .stream 0 .write, .stream 0 .write, .stream 0 .write, .stream 0 .check,
    .stream 0 .timeout, .stream 0 .check]

theorem lateStream_waits :
    ∃ feed last, ({} : Feed).run blockedEvents = some feed ∧
      feed.run (.connect :: lateStream) = some last ∧ feed.terminal = false ∧
      ∃ stream : Stream, last.streams[feed.streams.length]? = some stream ∧
        last.topic.log = feed.topic.log ∧ last.status = feed.status ∧ last.Settled stream := by
  have isRun : (({} : Feed).run blockedEvents).bind (fun feed =>
      (feed.run (.connect :: lateStream)).map fun _ => feed.terminal) = some false := by
    decide +kernel
  have idle : ∀ action ∈ lateStream, Idle action := by simp [lateStream, Idle]
  rcases Option.bind_eq_some_iff.mp isRun with ⟨feed, runs, isShown⟩
  rcases Option.map_eq_some_iff.mp isShown with ⟨last, runsOn, notTerminal⟩
  exact ⟨feed, last, runs, runsOn, notTerminal, stream_after_end runs idle runsOn⟩

end Feed

end Aa.Sifter.Desktop
