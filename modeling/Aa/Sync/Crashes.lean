import Aa.Sync.Fifo
import Aa.Sync.Resumption

/-!
# Sessions that crash a node

A receiver allocates the buffer of a payload at the size its manifest announces, once every
chunk is there. A session with a size that cannot be allocated ends in a panic, and no other
session does.
-/

namespace Aa.Sync

open Aa.Library Transport

/-- The runtime can allocate so many bytes. -/
def Allocatable (size : ℤ) : Prop := 0 ≤ size ∧ size ≤ Transfer.maxAlloc

instance (size : ℤ) : Decidable (Allocatable size) := inferInstanceAs (Decidable (_ ∧ _))

/-! ## Tasks that panic on the frames they take -/

/-- On the answers of a net, the task panics exactly when it takes frames with the property from
the inbox of the node. A stalled task is not answered. -/
def PanicsOn {α : Type} (node : NodeId) (task : Task α) (frames : List Frame → Prop) : Prop :=
  ∀ before events outcome after, task.Does before events outcome after →
    (⟨.stall, ()⟩ : Net.Event) ∉ events →
      (outcome = .error .panic ↔ frames (events.filterMap (Net.taken node)))

/-- The task takes no frame and does not panic. -/
def Quiet {α : Type} (node : NodeId) (task : Task α) : Prop :=
  ∀ before events outcome after, task.Does before events outcome after →
    (⟨.stall, ()⟩ : Net.Event) ∉ events →
      events.filterMap (Net.taken node) = [] ∧ outcome ≠ .error .panic

section Rules

variable {α β : Type} {node : NodeId}

namespace Quiet

theorem pure (value : α) : Quiet node (Pure.pure value : Task α) := by
  intro before events outcome after does _
  rcases Coroutine.does_pure.mp does with ⟨rfl, rfl, _⟩
  simp

theorem fail (error : Error) : Quiet node (Task.fail error : Task α) := by
  intro before events outcome after does _
  rcases Task.does_fail.mp does with ⟨rfl, rfl⟩
  simp

theorem tryIt (tried : Except Error α) : Quiet node (Task.tryIt tried) := by
  cases tried with
  | ok value => exact pure value
  | error error => exact fail error

theorem check {tried : Except Raised α} (isCalm : tried ≠ .error .panic) :
    Quiet node (Task.check tried) := by
  intro before events outcome after does _
  rcases Task.does_check.mp does with ⟨rfl, rfl⟩
  exact ⟨rfl, isCalm⟩

theorem perform {op : Net.Op} {reply : Net.Answer op → Except Raised α}
    (notTaken : ∀ answer, Net.taken node ⟨op, answer⟩ = none)
    (isCalm : ∀ answer, reply answer ≠ .error .panic) :
    Quiet node (Coroutine.perform op reply) := by
  intro before events outcome after does _
  rcases Coroutine.does_perform.mp does with ⟨answer, rfl, rfl, _⟩
  exact ⟨by simp [notTaken answer], isCalm answer⟩

theorem call {op : Net.Op} (notTaken : ∀ answer, Net.taken node ⟨op, answer⟩ = none) :
    Quiet node (Task.call op) :=
  perform notTaken (fun answer => by simp)

theorem dial (own remote : NodeId) : Quiet node (Task.dial own remote) :=
  perform (fun _ => rfl) (fun answer => by cases answer <;> simp)

theorem send (own remote : NodeId) (message : Message) :
    Quiet node (Task.send own remote message) :=
  perform (fun _ => rfl) (fun answer => by cases answer <;> simp)

theorem bind {first : Task β} {rest : β → Task α} (isFirst : Quiet node first)
    (isRest : ∀ value, Quiet node (rest value)) : Quiet node (first >>= rest) := by
  intro before events outcome after does noStall
  rcases Coroutine.does_bind.mp does with
    ⟨value, middle, early, late, starts, goes, rfl⟩ | ⟨raised, starts, rfl⟩
  · rw [List.mem_append, not_or] at noStall
    rcases isFirst _ _ _ _ starts noStall.1 with ⟨noneEarly, _⟩
    rcases isRest value _ _ _ _ goes noStall.2 with ⟨noneLate, isCalm⟩
    exact ⟨by rw [List.filterMap_append, noneEarly, noneLate, List.append_nil], isCalm⟩
  · rcases isFirst _ _ _ _ starts noStall with ⟨noneTaken, isCalm⟩
    refine ⟨noneTaken, fun isPanic => isCalm ?_⟩
    cases isPanic
    rfl

end Quiet

namespace PanicsOn

variable {frames : List Frame → Prop}

theorem quiet {task : Task α} (isQuiet : Quiet node task) (isNot : ¬ frames []) :
    PanicsOn node task frames := by
  intro before events outcome after does noStall
  rcases isQuiet _ _ _ _ does noStall with ⟨noneTaken, isCalm⟩
  rw [noneTaken]
  exact iff_of_false isCalm isNot

theorem congr {task : Task α} {others : List Frame → Prop} (panics : PanicsOn node task frames)
    (isSame : ∀ taken, frames taken ↔ others taken) : PanicsOn node task others := by
  intro before events outcome after does noStall
  rw [panics _ _ _ _ does noStall, isSame]

/-- A quiet start leaves the frames to the rest. -/
theorem after_quiet {first : Task β} {rest : β → Task α} (isQuiet : Quiet node first)
    (panics : ∀ value, PanicsOn node (rest value) frames) (isNot : ¬ frames []) :
    PanicsOn node (first >>= rest) frames := by
  intro before events outcome after does noStall
  rcases Coroutine.does_bind.mp does with
    ⟨value, middle, early, late, starts, goes, rfl⟩ | ⟨raised, starts, rfl⟩
  · rw [List.mem_append, not_or] at noStall
    rw [panics value _ _ _ _ goes noStall.2, List.filterMap_append,
      (isQuiet _ _ _ _ starts noStall.1).1, List.nil_append]
  · rcases isQuiet _ _ _ _ starts noStall with ⟨noneTaken, isCalm⟩
    rw [noneTaken]
    refine iff_of_false (fun isPanic => isCalm ?_) isNot
    cases isPanic
    rfl

/-- A task that goes on with a value it could compute. -/
theorem tryIt {tried : Except Error β} {rest : β → Task α}
    (panics : ∀ value, tried = .ok value → PanicsOn node (rest value) frames)
    (isNot : ¬ frames []) : PanicsOn node (Task.tryIt tried >>= rest) frames := by
  cases tried with
  | ok value => exact panics value rfl
  | error error => exact quiet (.fail error) isNot

theorem check {tried : Except Raised α} {holds : Prop}
    (isPanic : tried = .error .panic ↔ holds) :
    PanicsOn node (Task.check tried) (fun _ => holds) := by
  intro before events outcome after does _
  rcases Task.does_check.mp does with ⟨rfl, rfl⟩
  exact isPanic

/-- A quiet end panics on nothing, and takes no frame either. -/
theorem then_quiet {first : Task β} {rest : β → Task α} (panics : PanicsOn node first frames)
    (isQuiet : ∀ value, Quiet node (rest value)) : PanicsOn node (first >>= rest) frames := by
  intro before events outcome after does noStall
  rcases Coroutine.does_bind.mp does with
    ⟨value, middle, early, late, starts, goes, rfl⟩ | ⟨raised, starts, rfl⟩
  · rw [List.mem_append, not_or] at noStall
    rcases isQuiet value _ _ _ _ goes noStall.2 with ⟨noneTaken, isCalm⟩
    rw [List.filterMap_append, noneTaken, List.append_nil,
      ← panics _ _ _ _ starts noStall.1]
    exact iff_of_false isCalm (by simp)
  · rw [← panics _ _ _ _ starts noStall]
    simp

/-- A task that takes a frame and goes on with its message. -/
theorem receive {rest : Message → Task α} {frames : Message → List Frame → Prop}
    (panics : ∀ message, PanicsOn node (rest message) (frames message)) :
    PanicsOn node (Task.receive node >>= rest)
      (fun taken => ∃ frame later, taken = frame :: later ∧ frames frame.message later) := by
  intro before events outcome after does noStall
  rcases Coroutine.does_bind.mp does with
    ⟨message, middle, early, late, starts, goes, rfl⟩ | ⟨raised, starts, rfl⟩
  · rcases Task.does_receive_ok.mp starts with ⟨frame, rfl, rfl⟩
    rw [List.mem_append, not_or] at noStall
    rw [panics _ _ _ _ _ goes noStall.2]
    simp
  · rcases Coroutine.does_perform.mp starts with ⟨answer, rfl, isRaised, _⟩
    cases answer with
    | ok frame => cases isRaised
    | error error =>
        cases isRaised
        simp [Net.taken, List.filterMap_cons]

theorem receive_quiet {rest : Message → Task α} (isQuiet : ∀ message, Quiet node (rest message)) :
    PanicsOn node (Task.receive node >>= rest) (fun _ => False) := by
  have panics := @receive α node rest (fun _ _ => False)
    fun message => quiet (isQuiet message) not_false
  exact panics.congr fun taken => by simp

end PanicsOn

end Rules

variable [ContentHash]

/-! ## Receivers -/

namespace Transfer

namespace Receiver

/-- The frames bring every missing chunk and close the session, and the buffer of the payload
cannot be allocated. -/
def Overflows (receiver : Receiver) (frames : List Frame) : Prop :=
  ∃ chunks close rest after, frames = chunks.map Prod.fst ++ close :: rest ∧
    receiver.Collects chunks after ∧ close.message.kind = .close ∧ after.missing = [] ∧
    ¬ Allocatable receiver.manifest.size

theorem not_overflows_nil (receiver : Receiver) : ¬ receiver.Overflows [] := by
  rintro ⟨chunks, close, rest, after, isNil, _⟩
  simp at isNil

theorem overflows_close {receiver : Receiver} {frame : Frame} {rest : List Frame}
    (isClose : frame.message.kind = .close) :
    receiver.Overflows (frame :: rest) ↔
      receiver.missing = [] ∧ ¬ Allocatable receiver.manifest.size := by
  constructor
  · rintro ⟨chunks, close, later, after, isFrames, collects, _, noneMissing, tooLarge⟩
    cases collects with
    | refl => exact ⟨noneMissing, tooLarge⟩
    | chunk isChunk =>
        cases isFrames
        rw [isClose] at isChunk
        cases isChunk
  · rintro ⟨noneMissing, tooLarge⟩
    exact ⟨[], frame, rest, receiver, rfl, .refl receiver, isClose, noneMissing, tooLarge⟩

theorem overflows_chunk {receiver : Receiver} {frame : Frame} {rest : List Frame}
    (isChunk : frame.message.kind = .chunk) :
    receiver.Overflows (frame :: rest) ↔
      ∃ body after, decodeBody frame.message (·.chunk) = .ok body ∧
        receiver.accept body.chunk body.data = .ok after ∧ after.Overflows rest := by
  constructor
  · rintro ⟨chunks, close, later, after, isFrames, collects, isClose, noneMissing, tooLarge⟩
    cases collects with
    | refl =>
        cases isFrames
        rw [isChunk] at isClose
        cases isClose
    | @chunk _ middle _ first body others _ decodes accepts collects =>
        cases isFrames
        have isManifest : middle.manifest = receiver.manifest :=
          (Collects.chunk isChunk decodes accepts (.refl middle)).manifest
        exact ⟨body, middle, decodes, accepts, others, close, later, after, rfl, collects, isClose,
          noneMissing, isManifest ▸ tooLarge⟩
  · rintro ⟨body, middle, decodes, accepts, chunks, close, later, after, rfl, collects, isClose,
      noneMissing, tooLarge⟩
    have isManifest : middle.manifest = receiver.manifest :=
      (Collects.chunk isChunk decodes accepts (.refl middle)).manifest
    exact ⟨(frame, body) :: chunks, close, later, after, rfl,
      .chunk isChunk decodes accepts collects, isClose, noneMissing, isManifest ▸ tooLarge⟩

theorem not_overflows_of_kind {receiver : Receiver} {frame : Frame} {rest : List Frame}
    (notChunk : frame.message.kind ≠ .chunk) (notClose : frame.message.kind ≠ .close) :
    ¬ receiver.Overflows (frame :: rest) := by
  rintro ⟨chunks, close, later, after, isFrames, collects, isClose, _⟩
  cases collects with
  | refl =>
      cases isFrames
      exact notClose isClose
  | chunk isChunk =>
      cases isFrames
      exact notChunk isChunk

/-- A receiver that has every chunk panics on a size that cannot be allocated. -/
theorem complete_panics_iff (receiver : Receiver) :
    receiver.complete = .error .panic ↔
      receiver.missing = [] ∧ ¬ Allocatable receiver.manifest.size := by
  unfold complete Allocatable
  split
  · rename_i isMissing
    simp [isMissing]
  · rename_i noneMissing
    split
    · rename_i tooLarge
      refine iff_of_true rfl ⟨not_not.mp noneMissing, ?_⟩
      omega
    · rename_i fits
      refine iff_of_false ?_ ?_
      · dsimp only
        split <;> simp
      · omega

end Receiver

/-- What the first message of a session says about the frames that follow. -/
def Receiver.OverflowsAfter (receiver : Receiver) (message : Message) (later : List Frame) : Prop :=
  (message.kind = .close ∧ receiver.missing = [] ∧ ¬ Allocatable receiver.manifest.size) ∨
    (message.kind = .chunk ∧ ∃ body after, decodeBody message (·.chunk) = .ok body ∧
      receiver.accept body.chunk body.data = .ok after ∧ after.Overflows later)

theorem Receiver.overflows_iff (receiver : Receiver) (frames : List Frame) :
    (∃ frame later, frames = frame :: later ∧ receiver.OverflowsAfter frame.message later) ↔
      receiver.Overflows frames := by
  cases frames with
  | nil => simp [receiver.not_overflows_nil]
  | cons frame rest =>
      by_cases isClose : frame.message.kind = .close
      · simp [OverflowsAfter, isClose, overflows_close isClose]
      · by_cases isChunk : frame.message.kind = .chunk
        · simp [OverflowsAfter, isChunk, overflows_chunk isChunk]
        · simp [OverflowsAfter, isClose, isChunk, not_overflows_of_kind isChunk isClose]

/-- The loop panics on the frames that overflow its receiver. -/
theorem panicsOn_collect (node : NodeId) (fuel : ℕ) (receiver : Receiver) :
    PanicsOn node (collect node fuel receiver) receiver.Overflows := by
  induction fuel generalizing receiver with
  | zero =>
      intro before events outcome after does noStall
      rcases Coroutine.does_perform.mp does with ⟨answer, rfl, _⟩
      exact absurd List.mem_cons_self noStall
  | succ fuel ih =>
      refine PanicsOn.congr (.receive fun message => ?_) receiver.overflows_iff
      split
      · rename_i isChunk
        have isNot : ¬ receiver.OverflowsAfter message [] := by
          simp [Receiver.OverflowsAfter, isChunk, Receiver.not_overflows_nil]
        refine .tryIt (fun body decodes => .tryIt (fun after accepts => ?_) isNot) isNot
        refine (ih after).congr fun later => ?_
        simp [Receiver.OverflowsAfter, isChunk, decodes, accepts]
      · rename_i isClose
        refine (PanicsOn.check receiver.complete_panics_iff).congr fun later => ?_
        simp [Receiver.OverflowsAfter, isClose]
      · rename_i notChunk notClose
        refine .quiet (.fail _) ?_
        rintro (⟨isClose, _⟩ | ⟨isChunk, _⟩)
        · exact notClose isClose
        · exact notChunk isChunk

theorem panicsOn_run (receiver : Receiver) (fuel : ℕ) (node remote : NodeId) :
    PanicsOn node (receiver.run fuel node remote) receiver.Overflows :=
  .after_quiet (.send node remote _) (fun _ => panicsOn_collect node fuel receiver)
    receiver.not_overflows_nil

/-! ## Senders -/

/-- Each chunk of the source can be read. -/
def Source.Readable (source : Source) (chunks : List Chunk) : Prop :=
  ∀ chunk ∈ chunks, source.chunkData chunk.index ≠ .error .panic

theorem readable_of_newSource {id name : String} {data : Bytes} {chunkSize : ℤ} {source : Source}
    (builds : newSource id name data chunkSize = .ok source) :
    source.Readable source.manifest.chunks := by
  intro chunk isThere
  rcases List.getElem?_of_mem isThere with ⟨position, isChunk⟩
  have isIndex : chunk.index = (position : ℤ) := by
    rw [(cut_of_newSource builds).1.chunk position chunk isChunk]
    rfl
  rw [isIndex, chunkData_of_newSource builds isChunk]
  simp

omit [ContentHash] in
theorem quiet_push {source : Source} {own : NodeId} (node remote : NodeId) (held : List ℤ)
    {chunks : List Chunk} (readable : source.Readable chunks) :
    Quiet own (push source node remote held chunks) := by
  induction chunks with
  | nil => exact .send node remote _
  | cons chunk rest ih =>
      have isRest := ih fun other isThere => readable other (List.mem_cons_of_mem _ isThere)
      unfold push
      split
      · exact isRest
      · exact .bind (.check (readable chunk List.mem_cons_self)) fun data =>
          .bind (.send node remote _) fun _ => isRest

omit [ContentHash] in
theorem panicsOn_serve {source : Source} (node remote : NodeId)
    (readable : source.Readable source.manifest.chunks) :
    PanicsOn node (serve source node remote) (fun _ => False) := by
  refine .then_quiet (.receive_quiet fun message => ?_) fun held =>
    quiet_push node remote held readable
  split
  · exact .bind (.tryIt _) fun offer => .pure _
  · exact .fail _

end Transfer

/-! ## Sessions -/

/-- The frames open a session with a hello frame that is admitted, and overflow the receiver of
its manifest. -/
def SessionOverflows (admits : HelloBody → Prop) (frames : List Frame) : Prop :=
  ∃ greeting later hello, frames = greeting :: later ∧ greeting.message.kind = .hello ∧
    decodeBody greeting.message (·.hello) = .ok hello ∧ admits hello ∧
    Transfer.Receiver.Overflows { manifest := hello.manifest } later

theorem not_sessionOverflows_nil (admits : HelloBody → Prop) : ¬ SessionOverflows admits [] := by
  rintro ⟨greeting, later, hello, isNil, _⟩
  cases isNil

/-- The frames of a session after its first message. -/
def OverflowsFrom (admits : HelloBody → Prop) (message : Message) (later : List Frame) : Prop :=
  message.kind = .hello ∧ ∃ hello, decodeBody message (·.hello) = .ok hello ∧ admits hello ∧
    Transfer.Receiver.Overflows { manifest := hello.manifest } later

theorem sessionOverflows_iff (admits : HelloBody → Prop) (frames : List Frame) :
    (∃ frame later, frames = frame :: later ∧ OverflowsFrom admits frame.message later) ↔
      SessionOverflows admits frames := by
  constructor
  · rintro ⟨frame, later, rfl, isHello, hello, decodes, isAdmitted, overflows⟩
    exact ⟨frame, later, hello, rfl, isHello, decodes, isAdmitted, overflows⟩
  · rintro ⟨frame, later, hello, rfl, isHello, decodes, isAdmitted, overflows⟩
    exact ⟨frame, later, rfl, isHello, hello, decodes, isAdmitted, overflows⟩

theorem not_overflowsFrom_nil (admits : HelloBody → Prop) (message : Message) :
    ¬ OverflowsFrom admits message [] := by
  rintro ⟨_, hello, _, _, overflows⟩
  exact Transfer.Receiver.not_overflows_nil _ overflows

theorem panicsOn_pullArtifact (fuel : ℕ) (node : NodeId) (id : String) (remote : NodeId) :
    PanicsOn node (Distributor.pullArtifact fuel node id remote)
      (SessionOverflows fun _ => True) := by
  have isNot := not_sessionOverflows_nil fun _ => True
  refine .after_quiet (.dial node remote) (fun _ => ?_) isNot
  refine .after_quiet (.send node remote _) (fun _ => ?_) isNot
  refine PanicsOn.congr (.receive fun message => ?_) (sessionOverflows_iff fun _ => True)
  split
  · rename_i isClose
    exact .quiet (.fail _) (by simp [OverflowsFrom, isClose])
  · rename_i isHello
    refine .tryIt (fun hello decodes => ?_) (not_overflowsFrom_nil _ message)
    refine .then_quiet ?_ fun data => .pure _
    refine (Transfer.panicsOn_run _ fuel node remote).congr fun later => ?_
    simp [OverflowsFrom, isHello, decodes]
  · rename_i notClose notHello
    exact .quiet (.fail _) fun overflows => notHello overflows.1

omit [ContentHash] in
theorem panicsOn_once {α : Type} {node : NodeId} {key : String} {move : Task α}
    {keep : α → Net.Op} {receipt : α → Time → Receipt} {frames : List Frame → Prop}
    (panics : PanicsOn node move frames) (isNot : ¬ frames [])
    (notTaken : ∀ value answer, Net.taken node ⟨keep value, answer⟩ = none) :
    PanicsOn node (Task.once node key move keep receipt) frames := by
  refine .after_quiet (.call fun _ => rfl) (fun found => ?_) isNot
  cases found with
  | some found => exact .quiet (.pure found) isNot
  | none =>
      refine .then_quiet panics fun value => ?_
      refine .bind (.call (notTaken value)) fun _ => ?_
      refine .bind (.call fun _ => rfl) fun now => ?_
      exact .bind (.call fun _ => rfl) fun _ => .pure _

theorem panicsOn_fetchArtifact (fuel : ℕ) (node : NodeId) (id : String) (remote : NodeId) :
    PanicsOn node (Distributor.fetchArtifact fuel node id remote)
      (SessionOverflows fun _ => True) := by
  have isNot := not_sessionOverflows_nil fun _ => True
  rw [fetchArtifact_eq]
  split
  · exact .quiet (.fail _) isNot
  · exact panicsOn_once (panicsOn_pullArtifact fuel node id remote) isNot fun _ _ => rfl

theorem panicsOn_distribute (node : NodeId) (package : WorkPackage) (remote : NodeId) :
    PanicsOn node (Distributor.distribute node package remote) (fun _ => False) := by
  rw [distribute_eq]
  split
  · exact .quiet (.fail _) not_false
  · refine panicsOn_once ?_ not_false fun _ _ => rfl
    refine .tryIt (fun source builds => ?_) not_false
    refine .after_quiet (.dial node remote) (fun _ => ?_) not_false
    refine .after_quiet (.send node remote _) (fun _ => ?_) not_false
    exact .then_quiet (Transfer.panicsOn_serve node remote
      (Transfer.readable_of_newSource builds)) fun _ => .pure _

theorem panicsOn_sendArtifact (node remote : NodeId) (message : Message) :
    PanicsOn node (Peer.sendArtifact node remote message) (fun _ => False) := by
  refine .tryIt (fun request decodes => ?_) not_false
  split
  · exact .quiet (.fail _) not_false
  · refine .after_quiet (.call fun _ => rfl) (fun found => ?_) not_false
    split
    · exact .quiet (.bind (.call fun _ => rfl) fun _ => .fail _) not_false
    · refine .tryIt (fun source builds => ?_) not_false
      refine .after_quiet (.send node remote _) (fun _ => ?_) not_false
      exact Transfer.panicsOn_serve node remote (Transfer.readable_of_newSource builds)

theorem panicsOn_peerServe (fuel : ℕ) (node remote : NodeId) :
    PanicsOn node (Peer.serve fuel node remote)
      (SessionOverflows fun hello => hello.object = objectWorkPackage) := by
  refine .after_quiet (.dial node remote) (fun _ => ?_) (not_sessionOverflows_nil _)
  refine PanicsOn.congr (.receive fun message => ?_) (sessionOverflows_iff _)
  split
  · rename_i isHello
    refine .tryIt (fun hello decodes => ?_) (not_overflowsFrom_nil _ message)
    split
    · rename_i isOther
      exact .quiet (.fail _) (not_overflowsFrom_nil _ message)
    · rename_i isPackage
      refine .then_quiet ?_ fun data => .call fun _ => rfl
      refine (Transfer.panicsOn_run _ fuel node remote).congr fun later => ?_
      simp [OverflowsFrom, isHello, decodes, not_not.mp isPackage]
  · rename_i isRevision
    refine (panicsOn_sendArtifact node remote message).congr fun later => ?_
    simp [OverflowsFrom, isRevision]
  · rename_i notHello notRevision
    exact .quiet (.fail _) fun overflows => notHello overflows.1

/-! ## Runs -/

namespace Call

/-- The node a call is made on. -/
def node : Call → NodeId
  | .distribute node _ _ | .fetchArtifact _ node _ _ | .serve _ node _ | .publish node _ _
  | .send node _ _ | .failNext node _ => node

/-- The frames that make the call panic. -/
def Overflows : Call → List Frame → Prop
  | .fetchArtifact .. => SessionOverflows fun _ => True
  | .serve .. => SessionOverflows fun hello => hello.object = objectWorkPackage
  | _ => fun _ => False

theorem not_overflows_nil (call : Call) : ¬ call.Overflows [] := by
  cases call
  all_goals first | exact not_sessionOverflows_nil _ | exact not_false

theorem panicsOn_task (call : Call) : PanicsOn call.node call.task call.Overflows := by
  cases call with
  | distribute node package remote =>
      exact .then_quiet (panicsOn_distribute node package remote) fun _ => .pure _
  | fetchArtifact fuel node id remote =>
      exact .then_quiet (panicsOn_fetchArtifact fuel node id remote) fun _ => .pure _
  | serve fuel node remote =>
      exact .then_quiet (panicsOn_peerServe fuel node remote) fun _ => .pure _
  | publish node artifact data =>
      refine .quiet (.bind ?_ fun _ => .pure _) not_false
      unfold Peer.publish
      split
      · exact .fail _
      · exact .call fun _ => rfl
  | send node remote message =>
      exact .quiet (.bind (.dial node remote) fun _ => .bind (.send node remote _) fun _ =>
        .pure _) not_false
  | failNext node count =>
      exact .quiet (.bind (.call fun _ => rfl) fun _ => .pure _) not_false

end Call

namespace Net

/-- A call has ended, with a value or early. -/
def Ended (pool : Net.Pool) (thread : ℕ) (outcome : Except Raised (Option Receipt)) : Prop :=
  pool.threads thread = .done (outcome, ())

/-- The frames the call of a thread took from the inbox of its node. -/
def framesOf (calls : ℕ → Call) (moments : List Moment) (thread : ℕ) : List Frame :=
  (Pool.own thread moments).filterMap (taken (calls thread).node)

omit [ContentHash] in
theorem stall_not_mem_trace (start : Net.Pool) (schedule : List (ℕ × Choice)) (thread : ℕ) :
    (thread, (⟨.stall, ()⟩ : Event)) ∉ Pool.trace respond start schedule := by
  intro isThere
  rcases Pool.exists_turn_of_mem_trace isThere with ⟨earlier, turn, later, _, isStep⟩
  rcases Pool.step_cases respond (Pool.run respond start earlier) turn with
    waits | ⟨op, next, answer, after, _, answers, moves⟩
  · rw [waits] at isStep
    cases isStep
  · rw [moves] at isStep
    cases isStep
    cases answers

/-- Receivers, receiving loops, and the calls of every run panic on the sessions that close with
every chunk there and announce a size that cannot be allocated, and on no others. -/
theorem panics_iff_overflows :
    (∀ receiver : Transfer.Receiver, receiver.complete = .error .panic ↔
      receiver.missing = [] ∧ ¬ Allocatable receiver.manifest.size) ∧
    (∀ (receiver : Transfer.Receiver) (fuel : ℕ) (node remote : NodeId),
      PanicsOn node (receiver.run fuel node remote) receiver.Overflows) ∧
    (∀ (calls : ℕ → Call) (net : Net) (schedule : List (ℕ × Choice)) (thread : ℕ)
      (outcome : Except Raised (Option Receipt)),
      Ended (Pool.run respond (net.start calls) schedule) thread outcome →
        (outcome = .error .panic ↔ (calls thread).Overflows
          (framesOf calls (Pool.trace respond (net.start calls) schedule) thread))) := by
  refine ⟨Transfer.Receiver.complete_panics_iff, Transfer.panicsOn_run, ?_⟩
  intro calls net schedule thread outcome ended
  have reaches := Pool.reaches_own respond (net.start calls) schedule thread
  rw [ended] at reaches
  refine (calls thread).panicsOn_task () _ outcome () reaches.behaves fun isStall => ?_
  exact stall_not_mem_trace _ schedule thread (Pool.mem_own.mp isStall)

/-! ## Sessions with no chunks -/

/-- A peer that serves a node, which announces an empty payload of the given size. -/
def emptySession (size : ℤ) (thread : ℕ) : Call :=
  match thread with
  | 0 => .serve 1 "n" "p"
  | 1 => .send "p" "n" (helloMessage
      { object := objectWorkPackage
        manifest := { id := "w", size := size, hash := hash [] }
        id := "w" })
  | _ => .send "p" "n" Transfer.closeMessage

def sessionTurns : List (ℕ × Choice) :=
  [1, 1, 2, 2, 0, 0, 0, 0, 0].map fun thread => (thread, {})

omit [ContentHash] in
theorem emptySession_ended :
    letI := textHash
    Ended (Pool.run respond (start {} (emptySession 0)) sessionTurns) 0 (.ok none) := by
  let _ := textHash
  exact Program.value?_eq_some.mp (by decide +kernel)

omit [ContentHash] in
/-- The session whose size is right does not panic, so its frames do not overflow. -/
theorem emptySession_calm :
    letI := textHash
    (.ok none : Except Raised (Option Receipt)) = .error .panic ↔
      (emptySession 0 0).Overflows (framesOf (emptySession 0)
        (Pool.trace respond (start {} (emptySession 0)) sessionTurns) 0) := by
  let _ := textHash
  exact panics_iff_overflows.2.2 (emptySession 0) {} sessionTurns 0 _ emptySession_ended

omit [ContentHash] in
/-- A node crashes when it serves the session with a negative size. -/
theorem negativeSize_crashes :
    letI := textHash
    ¬ ∀ (calls : ℕ → Call) (schedule : List (ℕ × Choice)) (thread : ℕ)
      (outcome : Except Raised (Option Receipt)),
      Ended (Pool.run respond (start {} calls) schedule) thread outcome →
        outcome ≠ .error .panic := by
  let _ := textHash
  intro calm
  refine calm (emptySession (-1)) sessionTurns 0 (.error .panic) ?_ rfl
  exact Program.value?_eq_some.mp (by decide +kernel)

end Net

end Aa.Sync
