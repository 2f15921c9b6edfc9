import Aa.Sync.Distribute

/-!
# The executions of the calls

What the executions of a task look like: which operations it performs, with which answers,
and what they were for.
-/

namespace Aa.Sync

open Aa.Library Transport

namespace Net

abbrev Event := Library.Event Op Answer

end Net

namespace Task

open Coroutine (Does)

variable {α β : Type} {before after : Unit} {events : List Net.Event} {outcome : Except Raised α}

@[simp]
theorem does_fail {error : Error} :
    (fail error : Task α).Does before events outcome after ↔
      events = [] ∧ outcome = .error (.error error) := by
  simp [fail]

@[simp]
theorem does_check {tried : Except Raised α} :
    (check tried).Does before events outcome after ↔ events = [] ∧ outcome = tried := by
  cases tried <;> simp [check]

@[simp]
theorem does_tryIt {tried : Except Error α} :
    (tryIt tried).Does before events outcome after ↔
      events = [] ∧ outcome = tried.mapError .error := by
  cases tried <;> simp [tryIt, Except.mapError]

theorem does_tryIt_ok {tried : Except Error α} {value : α} :
    (tryIt tried).Does before events (.ok value) after ↔ events = [] ∧ tried = .ok value := by
  rw [does_tryIt]
  cases tried <;> simp [Except.mapError, eq_comm]

theorem does_call {op : Net.Op} {outcome : Except Raised (Net.Answer op)} :
    (call op).Does before events outcome after ↔
      ∃ answer, events = [⟨op, answer⟩] ∧ outcome = .ok answer := by
  simp [call, Coroutine.does_perform]

theorem does_dial_ok {node remote : NodeId} :
    (dial node remote).Does before events (.ok ()) after ↔
      events = [⟨.dial node remote, .ok ()⟩] := by
  rw [dial, Coroutine.does_perform]
  constructor
  · rintro ⟨answer, rfl, isOk, -⟩
    cases answer with
    | ok _ => rfl
    | error error => cases isOk
  · rintro rfl
    exact ⟨.ok (), rfl, rfl, rfl⟩

theorem does_send_ok {node remote : NodeId} {message : Message} :
    (send node remote message).Does before events (.ok ()) after ↔
      events = [⟨.send node remote message, .ok ()⟩] := by
  rw [send, Coroutine.does_perform]
  constructor
  · rintro ⟨answer, rfl, isOk, -⟩
    cases answer with
    | ok _ => rfl
    | error error => cases isOk
  · rintro rfl
    exact ⟨.ok (), rfl, rfl, rfl⟩

theorem does_receive_ok {node : NodeId} {message : Message} :
    (receive node).Does before events (.ok message) after ↔
      ∃ frame, events = [⟨.receive node, .ok frame⟩] ∧ message = frame.message := by
  rw [receive, Coroutine.does_perform]
  constructor
  · rintro ⟨answer, rfl, isOk, -⟩
    cases answer with
    | ok frame => exact ⟨frame, rfl, by cases isOk; rfl⟩
    | error error => cases isOk
  · rintro ⟨frame, rfl, rfl⟩
    exact ⟨.ok frame, rfl, rfl, rfl⟩

/-- A sequence that returns a value. -/
theorem does_bind_value {first : Task β} {rest : β → Task α} {value : α} :
    (first >>= rest).Does before events (.ok value) after ↔
      ∃ middle firstEvents restEvents, first.Does () firstEvents (.ok middle) () ∧
        (rest middle).Does () restEvents (.ok value) () ∧ events = firstEvents ++ restEvents := by
  rw [Coroutine.does_bind]
  constructor
  · rintro (⟨middle, _, firstEvents, restEvents, firstDoes, restDoes, isEvents⟩ | ⟨_, _, isOk⟩)
    · exact ⟨middle, firstEvents, restEvents, firstDoes, restDoes, isEvents⟩
    · cases isOk
  · rintro ⟨middle, firstEvents, restEvents, firstDoes, restDoes, isEvents⟩
    exact .inl ⟨middle, (), firstEvents, restEvents, firstDoes, restDoes, isEvents⟩

/-- A task whose value is changed by a function. -/
theorem does_map {first : Task β} {change : β → α} :
    (first >>= fun value => pure (change value)).Does before events outcome after ↔
      ∃ ended, first.Does before events ended after ∧ outcome = ended.map change := by
  rw [Coroutine.does_bind]
  constructor
  · rintro (⟨value, _, _, _, does, returns, rfl⟩ | ⟨raised, does, rfl⟩)
    · rcases Coroutine.does_pure.mp returns with ⟨rfl, rfl, rfl⟩
      exact ⟨.ok value, by simpa using does, rfl⟩
    · exact ⟨.error raised, does, rfl⟩
  · rintro ⟨ended, does, rfl⟩
    cases ended with
    | ok value =>
        exact .inl ⟨value, after, events, [], does, Coroutine.does_pure.mpr ⟨rfl, rfl, rfl⟩,
          by simp⟩
    | error raised => exact .inr ⟨raised, does, rfl⟩

end Task

/-! ## Requests that share the receipts of a node -/

section Once

variable {α : Type}

/-- A request that is answered from the receipts of its node, or moves a payload, keeps it and
stores its receipt. -/
def Task.once (node : NodeId) (key : String) (move : Task α) (keep : α → Net.Op)
    (receipt : α → Time → Receipt) : Task Receipt := do
  match ← Task.call (.cached node key) with
  | some receipt => return receipt
  | none =>
      let moved ← move
      let _ ← Task.call (keep moved)
      let now ← Task.call .now
      Task.call (.store node key (receipt moved now))
      return receipt moved now

/-- How such a request can go. -/
inductive Task.Once (node : NodeId) (key : String) (move : Task α) (keep : α → Net.Op)
    (receipt : α → Time → Receipt) : List Net.Event → Except Raised Receipt → Prop
  | hit (found : Receipt) :
      Once node key move keep receipt [⟨.cached node key, some found⟩] (.ok found)
  | failed {events : List Net.Event} {raised : Raised}
      (fails : move.Does () events (.error raised) ()) :
      Once node key move keep receipt (⟨.cached node key, none⟩ :: events) (.error raised)
  | moved {events : List Net.Event} {value : α} (kept : Net.Answer (keep value)) (now : Time)
      (moves : move.Does () events (.ok value) ()) :
      Once node key move keep receipt
        (⟨.cached node key, none⟩ :: events ++
          [⟨keep value, kept⟩, ⟨.now, now⟩, ⟨.store node key (receipt value now), ()⟩])
        (.ok (receipt value now))

theorem Task.once_cases {node : NodeId} {key : String} {move : Task α} {keep : α → Net.Op}
    {receipt : α → Time → Receipt} {before after : Unit} {events : List Net.Event}
    {outcome : Except Raised Receipt}
    (does : (Task.once node key move keep receipt).Does before events outcome after) :
    Task.Once node key move keep receipt events outcome := by
  rcases Coroutine.does_bind.mp does with
    ⟨found, _, looked, later, looks, goes, rfl⟩ | ⟨raised, looks, _⟩
  · rcases Task.does_call.mp looks with ⟨answer, rfl, isAnswer⟩
    cases isAnswer
    cases found with
    | some found =>
        rcases Coroutine.does_pure.mp goes with ⟨rfl, rfl, _⟩
        exact .hit found
    | none =>
        rcases Coroutine.does_bind.mp goes with
          ⟨value, _, moving, recording, moves, records, rfl⟩ | ⟨raised, fails, rfl⟩
        · rcases Coroutine.does_bind.mp records with
            ⟨_, _, _, _, keeps, reads, rfl⟩ | ⟨_, keeps, _⟩
          · rcases Task.does_call.mp keeps with ⟨kept, rfl, _⟩
            rcases Coroutine.does_bind.mp reads with
              ⟨now, _, _, _, readsClock, stores, rfl⟩ | ⟨_, readsClock, _⟩
            · rcases Task.does_call.mp readsClock with ⟨_, rfl, isNow⟩
              cases isNow
              rcases Coroutine.does_bind.mp stores with
                ⟨_, _, _, _, stored, returns, rfl⟩ | ⟨_, stored, _⟩
              · rcases Task.does_call.mp stored with ⟨_, rfl, _⟩
                rcases Coroutine.does_pure.mp returns with ⟨rfl, rfl, _⟩
                exact .moved kept now moves
              · rcases Task.does_call.mp stored with ⟨_, _, isError⟩
                cases isError
            · rcases Task.does_call.mp readsClock with ⟨_, _, isError⟩
              cases isError
          · rcases Task.does_call.mp keeps with ⟨_, _, isError⟩
            cases isError
        · exact .failed fails
  · rcases Task.does_call.mp looks with ⟨_, _, isError⟩
    cases isError

variable [ContentHash]

theorem distribute_eq (node : NodeId) (package : WorkPackage) (remote : NodeId) :
    Distributor.distribute node package remote =
      if package.id = "" ∨ remote = "" then
        Task.fail (.wrap .invalid "work package id and node are required")
      else
        let hashed := { package with hash := hash package.payload }
        Task.once node (Distributor.distributeKey package.id remote)
          (Distributor.sendPackage node hashed remote) (fun _ => .putPackage node hashed)
          (fun manifest now => Distributor.distributed hashed remote manifest now) := rfl

theorem fetchArtifact_eq (fuel : ℕ) (node : NodeId) (id : String) (remote : NodeId) :
    Distributor.fetchArtifact fuel node id remote =
      if id = "" ∨ remote = "" then
        Task.fail (.wrap .invalid "artifact id and node are required")
      else
        Task.once node (Distributor.artifactKey id remote)
          (Distributor.pullArtifact fuel node id remote) (fun pulled => .putArtifact node id pulled.2)
          (fun pulled now => Distributor.fetched id remote pulled.1 now) := rfl

end Once

/-! ## Collecting chunks -/

namespace Transfer

variable [ContentHash]

theorem Receiver.accept_ok {receiver after : Receiver} {chunk : Chunk} {data : Bytes}
    (accepts : receiver.accept chunk data = .ok after) :
    ∃ want, 0 ≤ chunk.index ∧ receiver.manifest.chunks[chunk.index.toNat]? = some want ∧
      (data.length : ℤ) = want.length ∧ hash data = want.hash ∧
      after = { receiver with
        parts := receiver.parts.insert chunk.index data
        held := receiver.held.insert chunk.index true } := by
  unfold Receiver.accept at accepts
  split at accepts
  · cases accepts
  · rename_i want isWant
    split at isWant
    · cases isWant
    · rename_i isIndex
      split at accepts
      · cases accepts
      · rename_i isLength
        split at accepts
        · cases accepts
        · rename_i isHash
          cases accepts
          exact ⟨want, by omega, isWant, not_not.mp isLength, not_not.mp isHash, rfl⟩

theorem Receiver.complete_ok {receiver : Receiver} {data : Bytes}
    (completes : receiver.complete = .ok data) :
    receiver.missing = [] ∧ hash data = receiver.manifest.hash ∧
      data = receiver.indexes.flatMap fun index => (receiver.parts.lookup index).getD [] := by
  unfold Receiver.complete at completes
  split at completes
  · cases completes
  · rename_i isMissing
    split at completes
    · cases completes
    · dsimp only at completes
      split at completes
      · cases completes
      · rename_i isHash
        cases completes
        exact ⟨not_not.mp isMissing, not_not.mp isHash, rfl⟩

/-- `receiver.Collects chunks after`: the frames carry chunks that the receiver accepts, one
after the other. -/
inductive Receiver.Collects : Receiver → List (Frame × ChunkBody) → Receiver → Prop
  | refl (receiver : Receiver) : Collects receiver [] receiver
  | chunk {receiver middle after : Receiver} {frame : Frame} {body : ChunkBody}
      {rest : List (Frame × ChunkBody)} (isChunk : frame.message.kind = .chunk)
      (decodes : decodeBody frame.message (·.chunk) = .ok body)
      (accepts : receiver.accept body.chunk body.data = .ok middle)
      (collects : Collects middle rest after) : Collects receiver ((frame, body) :: rest) after

/-- A loop that returns has collected chunk frames up to a close frame. -/
theorem collect_ok {node : NodeId} {fuel : ℕ} {receiver : Receiver} {events : List Net.Event}
    {data : Bytes} (does : (collect node fuel receiver).Does () events (.ok data) ()) :
    ∃ chunks close after, receiver.Collects chunks after ∧ close.message.kind = .close ∧
      after.complete = .ok data ∧
      events = chunks.map (fun chunk => ⟨.receive node, .ok chunk.1⟩) ++
        [⟨.receive node, .ok close⟩] := by
  induction fuel generalizing receiver events with
  | zero =>
      rcases Coroutine.does_perform.mp does with ⟨_, _, isError, _⟩
      cases isError
  | succ fuel ih =>
      rcases Task.does_bind_value.mp does with ⟨message, taken, later, takes, goes, rfl⟩
      rcases Task.does_receive_ok.mp takes with ⟨frame, rfl, rfl⟩
      split at goes
      · rename_i isChunk
        rcases Task.does_bind_value.mp goes with ⟨body, _, _, decoding, accepting, rfl⟩
        rcases Task.does_tryIt_ok.mp decoding with ⟨rfl, decodes⟩
        rcases Task.does_bind_value.mp accepting with ⟨middle, _, _, checking, collecting, rfl⟩
        rcases Task.does_tryIt_ok.mp checking with ⟨rfl, accepts⟩
        rcases ih collecting with ⟨chunks, close, after, collects, isClose, completes, rfl⟩
        exact ⟨(frame, body) :: chunks, close, after, .chunk isChunk decodes accepts collects,
          isClose, completes, rfl⟩
      · rename_i isClose
        rcases Task.does_check.mp goes with ⟨rfl, completes⟩
        exact ⟨[], frame, receiver, .refl receiver, isClose, completes.symm, rfl⟩
      · rcases Task.does_fail.mp goes with ⟨_, isError⟩
        cases isError

theorem Receiver.run_ok {receiver : Receiver} {fuel : ℕ} {node remote : NodeId}
    {events : List Net.Event} {data : Bytes}
    (does : (receiver.run fuel node remote).Does () events (.ok data) ()) :
    ∃ chunks close after, receiver.Collects chunks after ∧ close.message.kind = .close ∧
      after.complete = .ok data ∧
      events = ⟨.send node remote (offerMessage receiver.offer), .ok ()⟩ ::
        chunks.map (fun chunk => ⟨.receive node, .ok chunk.1⟩) ++
        [⟨.receive node, .ok close⟩] := by
  rcases Task.does_bind_value.mp does with ⟨_, _, _, sends, collects, rfl⟩
  rcases Task.does_send_ok.mp sends with rfl
  rcases collect_ok collects with ⟨chunks, close, after, areChunks, isClose, completes, rfl⟩
  exact ⟨chunks, close, after, areChunks, isClose, completes, rfl⟩

omit [ContentHash] in
@[simp]
theorem Receiver.offer_new (manifest : Manifest) :
    Receiver.offer { manifest := manifest } = [] := by
  simp [Receiver.offer, Receiver.isHeld]

theorem Receiver.Collects.manifest {receiver after : Receiver} {chunks : List (Frame × ChunkBody)}
    (collects : receiver.Collects chunks after) : after.manifest = receiver.manifest := by
  induction collects with
  | refl receiver => rfl
  | chunk _ _ accepts _ ih =>
      rcases Receiver.accept_ok accepts with ⟨_, _, _, _, _, rfl⟩
      exact ih

end Transfer

/-- A pull that returns has read a hello frame, and then chunk frames up to a close frame. -/
theorem pullArtifact_ok [ContentHash] {fuel : ℕ} {node : NodeId} {id : String} {remote : NodeId}
    {events : List Net.Event} {manifest : Manifest} {data : Bytes}
    (does : (Distributor.pullArtifact fuel node id remote).Does () events
      (.ok (manifest, data)) ()) :
    ∃ (greeting : Frame) (hello : HelloBody) (chunks : List (Frame × ChunkBody)) (close : Frame)
        (after : Transfer.Receiver),
      greeting.message.kind = .hello ∧ decodeBody greeting.message (·.hello) = .ok hello ∧
      hello.manifest = manifest ∧
      Transfer.Receiver.Collects { manifest := manifest } chunks after ∧
      close.message.kind = .close ∧ after.complete = .ok data ∧
      events = ⟨.dial node remote, .ok ()⟩ ::
        ⟨.send node remote (requestMessage { object := objectArtifact, id := id }), .ok ()⟩ ::
        ⟨.receive node, .ok greeting⟩ ::
        ⟨.send node remote (Transfer.offerMessage []), .ok ()⟩ ::
        chunks.map (fun chunk => ⟨.receive node, .ok chunk.1⟩) ++
        [⟨.receive node, .ok close⟩] := by
  rcases Task.does_bind_value.mp does with ⟨_, _, _, dials, requests, rfl⟩
  rcases Task.does_dial_ok.mp dials with rfl
  rcases Task.does_bind_value.mp requests with ⟨_, _, _, sends, reads, rfl⟩
  rcases Task.does_send_ok.mp sends with rfl
  rcases Task.does_bind_value.mp reads with ⟨_, _, _, takes, goes, rfl⟩
  rcases Task.does_receive_ok.mp takes with ⟨greeting, rfl, rfl⟩
  split at goes
  · rcases Task.does_fail.mp goes with ⟨_, isError⟩
    cases isError
  · rename_i isHello
    rcases Task.does_bind_value.mp goes with ⟨hello, _, _, decoding, running, rfl⟩
    rcases Task.does_tryIt_ok.mp decoding with ⟨rfl, decodes⟩
    rcases Task.does_bind_value.mp running with ⟨_, _, _, runs, returns, rfl⟩
    rcases Coroutine.does_pure.mp returns with ⟨rfl, isPair, _⟩
    cases isPair
    rcases Transfer.Receiver.run_ok runs with
      ⟨chunks, close, after, collects, isClose, completes, rfl⟩
    rw [Transfer.Receiver.offer_new]
    exact ⟨greeting, hello, chunks, close, after, isHello, decodes, rfl, collects, isClose,
      completes, by simp⟩
  · rcases Task.does_fail.mp goes with ⟨_, isError⟩
    cases isError

/-! ## What the tasks perform -/

/-- What the protocols do on the wire and with a peer has the property; they offer nothing as
held. -/
structure Wired (holds : Net.Event → Prop) : Prop where
  dial : ∀ node remote answer, holds ⟨.dial node remote, answer⟩
  send : ∀ node remote message answer,
    (message.kind = .ack → message = Transfer.offerMessage []) →
      holds ⟨.send node remote message, answer⟩
  receive : ∀ node answer, holds ⟨.receive node, answer⟩
  receivePackage : ∀ node package answer, holds ⟨.receivePackage node package, answer⟩
  artifact : ∀ node id answer, holds ⟨.artifact node id, answer⟩
  publish : ∀ node artifact data answer, holds ⟨.publish node artifact data, answer⟩
  stall : ∀ answer, holds ⟨.stall, answer⟩

namespace Wired

open Coroutine (Only)

variable {α : Type} {holds : Net.Event → Prop}

theorem only_check (outcome : Except Raised α) : Only holds (Task.check outcome) := by
  cases outcome with
  | ok value => exact .pure value
  | error raised => exact .raise raised

theorem only_tryIt (outcome : Except Error α) : Only holds (Task.tryIt outcome) := by
  cases outcome with
  | ok value => exact .pure value
  | error error => exact .raise _

variable (wired : Wired holds)
include wired

theorem only_dial (node remote : NodeId) : Only holds (Task.dial node remote) :=
  .perform fun answer => wired.dial node remote answer

theorem only_send (node remote : NodeId) {message : Message} (notAck : message.kind ≠ .ack) :
    Only holds (Task.send node remote message) :=
  .perform fun answer => wired.send node remote message answer fun isAck => absurd isAck notAck

theorem only_receive (node : NodeId) : Only holds (Task.receive node) :=
  .perform fun answer => wired.receive node answer

theorem push (source : Transfer.Source) (node remote : NodeId) (held : List ℤ)
    (chunks : List Chunk) : Only holds (Transfer.push source node remote held chunks) := by
  induction chunks with
  | nil => exact wired.only_send node remote (by simp [Transfer.closeMessage, newMessage])
  | cons chunk rest ih =>
      unfold Transfer.push
      split
      · exact ih
      · refine .bind (only_check _) fun data => .bind (wired.only_send node remote ?_) fun _ => ih
        simp [Transfer.chunkMessage, newMessage]

theorem transferServe (source : Transfer.Source) (node remote : NodeId) :
    Only holds (Transfer.serve source node remote) := by
  refine .bind (.bind (wired.only_receive node) fun message => ?_) fun _ => wired.push _ _ _ _ _
  split
  · exact .bind (only_tryIt _) fun _ => .pure _
  · exact .raise _

theorem hello (node remote : NodeId) (body : HelloBody) :
    Only holds (Task.send node remote (helloMessage body)) :=
  wired.only_send node remote (by simp [helloMessage, newMessage])

variable [ContentHash]

theorem collect (node : NodeId) (fuel : ℕ) (receiver : Transfer.Receiver) :
    Only holds (Transfer.collect node fuel receiver) := by
  induction fuel generalizing receiver with
  | zero => exact .perform fun answer => wired.stall answer
  | succ fuel ih =>
      refine .bind (wired.only_receive node) fun message => ?_
      split
      · exact .bind (only_tryIt _) fun _ => .bind (only_tryIt _) fun _ => ih _
      · exact only_check _
      · exact .raise _

theorem run (manifest : Manifest) (fuel : ℕ) (node remote : NodeId) :
    Only holds (Transfer.Receiver.run { manifest := manifest } fuel node remote) := by
  refine .bind (.perform fun answer => ?_) fun _ => wired.collect node fuel _
  refine wired.send node remote _ answer fun _ => ?_
  rw [Transfer.Receiver.offer_new]

theorem sendPackage (node : NodeId) (package : WorkPackage) (remote : NodeId) :
    Only holds (Distributor.sendPackage node package remote) :=
  .bind (only_tryIt _) fun source => .bind (wired.only_dial node remote) fun _ =>
    .bind (wired.hello node remote _) fun _ =>
      .bind (wired.transferServe source node remote) fun _ => .pure _

theorem pullArtifact (fuel : ℕ) (node : NodeId) (id : String) (remote : NodeId) :
    Only holds (Distributor.pullArtifact fuel node id remote) := by
  have request : Only holds (Task.send node remote
      (requestMessage { object := objectArtifact, id := id })) :=
    wired.only_send node remote (by simp [requestMessage, newMessage])
  refine .bind (wired.only_dial node remote) fun _ => .bind request fun _ =>
    .bind (wired.only_receive node) fun message => ?_
  split
  · exact .raise _
  · exact .bind (only_tryIt _) fun _ => .bind (wired.run _ _ _ _) fun _ => .pure _
  · exact .raise _

theorem receiveSession (fuel : ℕ) (node remote : NodeId) (message : Message) :
    Only holds (Peer.receivePackage fuel node remote message) := by
  refine .bind (only_tryIt _) fun hello => ?_
  split
  · exact .raise _
  · exact .bind (wired.run _ _ _ _) fun _ => .perform fun answer =>
      wired.receivePackage node _ answer

theorem sendSession (node remote : NodeId) (message : Message) :
    Only holds (Peer.sendArtifact node remote message) := by
  refine .bind (only_tryIt _) fun request => ?_
  split
  · exact .raise _
  · refine .bind (.perform fun answer => wired.artifact node _ answer) fun found => ?_
    split
    · refine .bind (.perform fun answer => wired.send node remote _ answer ?_) fun _ => .raise _
      simp [Transfer.closeMessage, newMessage]
    · exact .bind (only_tryIt _) fun _ => .bind (wired.hello node remote _) fun _ =>
        wired.transferServe _ node remote

theorem serve (fuel : ℕ) (node remote : NodeId) : Only holds (Peer.serve fuel node remote) := by
  refine .bind (wired.only_dial node remote) fun _ =>
    .bind (wired.only_receive node) fun message => ?_
  split
  · exact wired.receiveSession _ _ _ _
  · exact wired.sendSession _ _ _
  · exact .raise _

theorem only_publish (node : NodeId) (artifact : Artifact) (data : Bytes) :
    Only holds (Peer.publish node artifact data) := by
  unfold Peer.publish
  split
  · exact .raise _
  · exact .perform fun answer => wired.publish node _ data answer

end Wired

end Aa.Sync
