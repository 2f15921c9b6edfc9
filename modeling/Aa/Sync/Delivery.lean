import Aa.Sync.AtMostOnce
import Aa.Sync.Chunks
import Aa.Sync.Fifo

/-!
# What a completed distribution delivers

A distribution completes once its close frame is in the inbox of the peer. All sessions of the
peer take their frames from that inbox, whoever sent them; the package has been received when the
inbox is consumed in the runs in which every session goes on with the frames of one sender.
-/

namespace Aa.Sync

open Aa.Library Transport

variable [ContentHash]

/-! ## What a distribution sends -/

omit [ContentHash] in
/-- A push that returns has sent the chunks that are not held, with their data, and a close
frame. -/
theorem Transfer.push_ok {source : Transfer.Source} {node remote : NodeId} {held : List ℤ}
    {chunks : List Chunk} {events : List Net.Event}
    (does : (Transfer.push source node remote held chunks).Does () events (.ok ()) ()) :
    ∃ bodies : List ChunkBody,
      bodies.map (·.chunk) = chunks.filter (fun chunk => chunk.index ∉ held) ∧
      (∀ body ∈ bodies, source.chunkData body.chunk.index = .ok body.data) ∧
      events = bodies.map (fun body =>
          ⟨.send node remote (Transfer.chunkMessage body.chunk body.data), .ok ()⟩) ++
        [⟨.send node remote Transfer.closeMessage, .ok ()⟩] := by
  induction chunks generalizing events with
  | nil => exact ⟨[], rfl, by simp, Task.does_send_ok.mp does⟩
  | cons chunk rest ih =>
      unfold Transfer.push at does
      split at does
      · rename_i isHeld
        rcases ih does with ⟨bodies, areChunks, areData, isEvents⟩
        exact ⟨bodies, by simp [isHeld, areChunks], areData, isEvents⟩
      · rename_i notHeld
        rcases Task.does_bind_value.mp does with ⟨data, _, _, reads, goes, rfl⟩
        rcases Task.does_check.mp reads with ⟨rfl, isData⟩
        rcases Task.does_bind_value.mp goes with ⟨_, _, _, sends, pushes, rfl⟩
        rcases Task.does_send_ok.mp sends with rfl
        rcases ih pushes with ⟨bodies, areChunks, areData, rfl⟩
        refine ⟨⟨chunk, data⟩ :: bodies, by simp [notHeld, areChunks], ?_, rfl⟩
        intro body isBody
        rcases List.mem_cons.mp isBody with rfl | isRest
        · exact isData.symm
        · exact areData body isRest

/-- A move that returns has sent a hello frame, read an offer, and sent the chunks that are not
offered and a close frame. -/
theorem sendPackage_ok {node : NodeId} {package : WorkPackage} {remote : NodeId}
    {events : List Net.Event} {manifest : Manifest}
    (does : (Distributor.sendPackage node package remote).Does () events (.ok manifest) ()) :
    ∃ (source : Transfer.Source) (ack : Frame) (offer : OfferBody) (bodies : List ChunkBody),
      Transfer.newSource package.id package.name package.payload 0 = .ok source ∧
      manifest = source.manifest ∧ ack.message.kind = .ack ∧
      decodeBody ack.message (·.offer) = .ok offer ∧
      bodies.map (·.chunk) =
        source.manifest.chunks.filter (fun chunk => chunk.index ∉ offer.held) ∧
      (∀ body ∈ bodies, source.chunkData body.chunk.index = .ok body.data) ∧
      events = ⟨.dial node remote, .ok ()⟩ ::
        ⟨.send node remote (helloMessage (Distributor.packageHello package source.manifest)),
          .ok ()⟩ ::
        ⟨.receive node, .ok ack⟩ ::
        bodies.map (fun body =>
          ⟨.send node remote (Transfer.chunkMessage body.chunk body.data), .ok ()⟩) ++
        [⟨.send node remote Transfer.closeMessage, .ok ()⟩] := by
  rcases Task.does_bind_value.mp does with ⟨source, _, _, builds, dialing, rfl⟩
  rcases Task.does_tryIt_ok.mp builds with ⟨rfl, isSource⟩
  rcases Task.does_bind_value.mp dialing with ⟨_, _, _, dials, greeting, rfl⟩
  rcases Task.does_dial_ok.mp dials with rfl
  rcases Task.does_bind_value.mp greeting with ⟨_, _, _, greets, serving, rfl⟩
  rcases Task.does_send_ok.mp greets with rfl
  rcases Task.does_bind_value.mp serving with ⟨_, _, _, serves, returns, rfl⟩
  rcases Coroutine.does_pure.mp returns with ⟨rfl, isManifest, _⟩
  cases isManifest
  rcases Task.does_bind_value.mp serves with ⟨held, _, _, waits, pushes, rfl⟩
  rcases Task.does_bind_value.mp waits with ⟨_, _, _, takes, decoding, rfl⟩
  rcases Task.does_receive_ok.mp takes with ⟨ack, rfl, rfl⟩
  split at decoding
  · rename_i isAck
    rcases Task.does_bind_value.mp decoding with ⟨offer, _, _, decodes, ends, rfl⟩
    rcases Task.does_tryIt_ok.mp decodes with ⟨rfl, isOffer⟩
    rcases Coroutine.does_pure.mp ends with ⟨rfl, isHeld, _⟩
    cases isHeld
    rcases Transfer.push_ok pushes with ⟨bodies, areChunks, areData, rfl⟩
    exact ⟨source, ack, offer, bodies, isSource, rfl, isAck, isOffer, areChunks, areData,
      by simp⟩
  · rcases Task.does_fail.mp decoding with ⟨_, isError⟩
    cases isError

/-! ## What a session receives -/

namespace Net

/-- The package as the peer stores it. -/
def received (package : WorkPackage) : WorkPackage :=
  { id := package.id
    name := package.name
    payload := package.payload
    hash := hash package.payload }

/-- The frames of one distribution of a package: its hello frame, all its chunks and a close
frame. -/
structure IsSession (package : WorkPackage) (source : Transfer.Source) (greeting : Frame)
    (chunks : List (Frame × ChunkBody)) (close : Frame) : Prop where
  isSource : Transfer.newSource package.id package.name package.payload 0 = .ok source
  isHello : greeting.message.kind = .hello
  decodes : decodeBody greeting.message (·.hello) =
    .ok (Distributor.packageHello package source.manifest)
  carried : ∀ chunk ∈ chunks, source.Carried chunk
  all : chunks.map (·.2.chunk) = source.manifest.chunks
  isClose : close.message.kind = .close

/-- What a session does that receives the package. -/
def sessionEvents (node remote : NodeId) (package : WorkPackage) (greeting : Frame)
    (chunks : List (Frame × ChunkBody)) (close : Frame) : List Event :=
  ⟨.dial node remote, .ok ()⟩ :: ⟨.receive node, .ok greeting⟩ ::
    ⟨.send node remote (Transfer.offerMessage []), .ok ()⟩ ::
    chunks.map (fun chunk => ⟨.receive node, .ok chunk.1⟩) ++
    [⟨.receive node, .ok close⟩, ⟨.receivePackage node (received package), ()⟩]

section Taken

variable {α β : Type} {node : NodeId} {frame : Frame} {frames : List Frame}
  {events : List Event} {outcome : Except Raised α}

omit [ContentHash] in
/-- A task that takes a frame does not end with an operation before it. -/
theorem perform_then {op : Op} {reply : Answer op → Except Raised β} {rest : β → Task α}
    (notTaken : ∀ answer, taken node ⟨op, answer⟩ = none)
    (does : (Coroutine.perform op reply >>= rest : Task α).Does () events outcome ())
    (isTaken : events.filterMap (taken node) = frame :: frames) :
    ∃ answer value later, reply answer = .ok value ∧ (rest value).Does () later outcome () ∧
      later.filterMap (taken node) = frame :: frames ∧ events = ⟨op, answer⟩ :: later := by
  rcases Coroutine.does_bind.mp does with
    ⟨value, _, _, later, performs, goes, rfl⟩ | ⟨raised, performs, _⟩
  · rcases Coroutine.does_perform.mp performs with ⟨answer, rfl, isValue, _⟩
    rw [List.singleton_append, List.filterMap_cons_none (notTaken answer)] at isTaken
    exact ⟨answer, value, later, isValue.symm, goes, isTaken, rfl⟩
  · rcases Coroutine.does_perform.mp performs with ⟨answer, rfl, _, _⟩
    rw [List.filterMap_cons_none (notTaken answer)] at isTaken
    cases isTaken

omit [ContentHash] in
/-- A task that begins with a receive takes its first frame there. -/
theorem receive_then {rest : Message → Task α}
    (does : (Task.receive node >>= rest : Task α).Does () events outcome ())
    (isTaken : events.filterMap (taken node) = frame :: frames) :
    ∃ later, (rest frame.message).Does () later outcome () ∧
      later.filterMap (taken node) = frames ∧ events = ⟨.receive node, .ok frame⟩ :: later := by
  rcases Coroutine.does_bind.mp does with
    ⟨message, _, _, later, receives, goes, rfl⟩ | ⟨raised, receives, _⟩
  · rcases Task.does_receive_ok.mp receives with ⟨first, rfl, rfl⟩
    simp only [List.singleton_append, List.filterMap_cons, taken_receive, if_true,
      List.cons.injEq] at isTaken
    rcases isTaken with ⟨rfl, isRest⟩
    exact ⟨later, goes, isRest, rfl⟩
  · rcases Coroutine.does_perform.mp receives with ⟨answer, rfl, isError, _⟩
    cases answer with
    | ok first => cases isError
    | error error => cases isTaken

/-- A loop that takes chunks it accepts and then a close frame returns what they make up. -/
theorem collect_of_taken {fuel : ℕ} {receiver after : Transfer.Receiver}
    {chunks : List (Frame × ChunkBody)} {close : Frame} {data : Bytes}
    {outcome : Except Raised Bytes}
    (collects : receiver.Collects chunks after) (completes : after.complete = .ok data)
    (isClose : close.message.kind = .close)
    (does : (Transfer.collect node fuel receiver).Does () events outcome ())
    (isTaken : events.filterMap (taken node) = chunks.map Prod.fst ++ [close]) :
    outcome = .ok data ∧ events = chunks.map (fun chunk => ⟨.receive node, .ok chunk.1⟩) ++
      [⟨.receive node, .ok close⟩] := by
  induction fuel generalizing receiver chunks events with
  | zero =>
      rcases Coroutine.does_perform.mp does with ⟨_, rfl, _⟩
      rw [List.filterMap_cons_none rfl] at isTaken
      simp at isTaken
  | succ fuel ih =>
      cases collects with
      | refl receiver =>
          rcases receive_then does isTaken with ⟨later, goes, _, rfl⟩
          rw [isClose] at goes
          rcases Task.does_check.mp goes with ⟨rfl, isOutcome⟩
          exact ⟨isOutcome.trans completes, rfl⟩
      | chunk isChunk decodes accepts collects =>
          rcases receive_then does isTaken with ⟨later, goes, isRest, rfl⟩
          rw [isChunk, decodes] at goes
          change (Task.tryIt (receiver.accept _ _) >>= fun receiver =>
            Transfer.collect node fuel receiver).Does () later outcome () at goes
          rw [accepts] at goes
          rcases ih collects goes isRest with ⟨isOutcome, rfl⟩
          exact ⟨isOutcome, rfl⟩

/-- A receiver that offers nothing and takes chunks it accepts and a close frame returns what they
make up. -/
theorem run_of_taken {fuel : ℕ} {remote : NodeId} {manifest : Manifest}
    {after : Transfer.Receiver} {chunks : List (Frame × ChunkBody)} {close : Frame} {data : Bytes}
    {outcome : Except Raised Bytes}
    (collects : Transfer.Receiver.Collects { manifest := manifest } chunks after)
    (completes : after.complete = .ok data) (isClose : close.message.kind = .close)
    (does : (Transfer.Receiver.run { manifest := manifest } fuel node remote).Does () events
      outcome ())
    (isTaken : events.filterMap (taken node) = chunks.map Prod.fst ++ [close]) :
    outcome = .ok data ∧ events = ⟨.send node remote (Transfer.offerMessage []), .ok ()⟩ ::
      chunks.map (fun chunk => ⟨.receive node, .ok chunk.1⟩) ++ [⟨.receive node, .ok close⟩] := by
  have isSome : ∃ first rest, chunks.map Prod.fst ++ [close] = first :: rest := by
    cases chunks <;> simp
  rcases isSome with ⟨first, rest, isCons⟩
  rcases perform_then (fun _ => rfl) does (isTaken.trans isCons) with
    ⟨sent, _, collected, sends, goes, nextTaken, rfl⟩
  rcases collect_of_taken collects completes isClose goes (nextTaken.trans isCons.symm) with
    ⟨isOutcome, rfl⟩
  cases sent with
  | ok _ =>
      rw [Transfer.Receiver.offer_new]
      exact ⟨isOutcome, rfl⟩
  | error error => cases sends

/-- A session that takes the frames of a distribution stores its package. -/
theorem serve_of_taken {fuel : ℕ} {remote : NodeId} {package : WorkPackage}
    {source : Transfer.Source} {greeting close : Frame} {chunks : List (Frame × ChunkBody)}
    {outcome : Except Raised Unit} (session : IsSession package source greeting chunks close)
    (fits : (package.payload.length : ℤ) ≤ Transfer.maxAlloc)
    (does : (Peer.serve fuel node remote).Does () events outcome ())
    (isTaken : events.filterMap (taken node) = greeting :: chunks.map Prod.fst ++ [close]) :
    events = sessionEvents node remote package greeting chunks close := by
  rcases Transfer.cut_of_newSource session.isSource with ⟨cut, isData⟩
  rw [← isData] at fits
  rcases cut.round_trip fits session.carried session.all with ⟨after, collects, completes⟩
  rcases perform_then (fun _ => rfl) does isTaken with
    ⟨dialled, _, greeted, dials, greets, greetingTaken, rfl⟩
  rcases receive_then greets greetingTaken with ⟨stored, receives, restTaken, rfl⟩
  rw [session.isHello] at receives
  rcases Coroutine.does_bind.mp receives with
    ⟨hello, _, _, _, decoding, running, rfl⟩ | ⟨raised, decoding, _⟩
  · rcases Task.does_tryIt_ok.mp decoding with ⟨rfl, decodes⟩
    cases session.decodes.symm.trans decodes
    simp only [Distributor.packageHello, ne_eq, not_true_eq_false, if_false] at running
    rw [List.nil_append] at restTaken
    rcases Coroutine.does_bind.mp running with
      ⟨data, _, collected, storing, runs, stores, rfl⟩ | ⟨raised, runs, _⟩
    · rcases Task.does_call.mp stores with ⟨_, rfl, _⟩
      rw [List.filterMap_append, List.filterMap_cons_none rfl, List.filterMap_nil,
        List.append_nil] at restTaken
      rcases run_of_taken collects completes session.isClose runs restTaken with ⟨isOk, rfl⟩
      cases isOk
      cases dialled with
      | ok _ =>
          rw [isData, cut.hash, isData]
          simp [sessionEvents, received]
      | error error => cases dials
    · rcases run_of_taken collects completes session.isClose runs restTaken with ⟨isOk, _⟩
      cases isOk
  · rw [Task.does_tryIt, session.decodes] at decoding
    cases decoding.2

end Taken

/-! ## The peer at rest -/

/-- A session that has not begun, waits for a message or has returned: it holds no message that it
has not dealt with. -/
def Resting (program : Program Op Answer (Except Raised (Option Receipt) × Unit)) : Prop :=
  match program with
  | .done _ | .perform (.dial ..) _ | .perform (.receive _) _ | .perform .stall _ => True
  | _ => False

instance (program : Program Op Answer (Except Raised (Option Receipt) × Unit)) :
    Decidable (Resting program) :=
  match program with
  | .done _ => .isTrue trivial
  | .perform op _ =>
      match op with
      | .dial .. | .receive _ | .stall => .isTrue trivial
      | .cached .. | .store .. | .putPackage .. | .putArtifact .. | .package .. | .status ..
      | .now | .send .. | .receivePackage .. | .artifact .. | .publish .. | .failNext .. =>
          .isFalse id

/-- A session at rest that has taken all frames of a distribution has stored its package. -/
theorem received_of_resting {fuel : ℕ} {node remote : NodeId} {package : WorkPackage}
    {source : Transfer.Source} {greeting close : Frame} {chunks : List (Frame × ChunkBody)}
    {events : List Event} {rest : Program Op Answer (Except Raised (Option Receipt) × Unit)}
    (session : IsSession package source greeting chunks close)
    (fits : (package.payload.length : ℤ) ≤ Transfer.maxAlloc)
    (reaches : (Call.serve fuel node remote).program.Reaches events rest)
    (isTaken : events.filterMap (taken node) = greeting :: chunks.map Prod.fst ++ [close])
    (resting : Resting rest) :
    (⟨.receivePackage node (received package), ()⟩ : Event) ∈ events := by
  cases rest with
  | done value =>
      have does : (Call.serve fuel node remote).task.Does () events value.1 () := reaches.behaves
      rcases Task.does_map.mp does with ⟨outcome, serves, _⟩
      rw [serve_of_taken session fits serves isTaken]
      simp [sessionEvents]
  | perform op next =>
      rcases reaches.completes_perform anyAnswer with ⟨later, value, behaves, answered⟩
      have does : (Call.serve fuel node remote).task.Does ()
        (events ++ ⟨op, anyAnswer op⟩ :: later) value.1 () := behaves
      rcases Task.does_map.mp does with ⟨outcome, serves, _⟩
      have nothingLater : later.filterMap (taken node) = [] :=
        List.filterMap_eq_nil_iff.mpr fun event isLater => taken_of_anyAnswer (answered event isLater)
      have nothingNow : taken node ⟨op, anyAnswer op⟩ = none := taken_of_anyAnswer rfl
      have allTaken : (events ++ ⟨op, anyAnswer op⟩ :: later).filterMap (taken node) =
          greeting :: chunks.map Prod.fst ++ [close] := by
        rw [List.filterMap_append, List.filterMap_cons_none nothingNow, nothingLater, isTaken,
          List.append_nil]
      have isSession := serve_of_taken session fits serves allTaken
      -- the session took a frame, so the operation it waits for comes after its dial
      cases events with
      | nil => cases isTaken
      | cons first others =>
          have isLater : (⟨op, anyAnswer op⟩ : Event) ∈ (sessionEvents node remote package greeting
              chunks close).tail := by
            rw [← isSession]
            simp
          cases op with
          | dial | stall => simp [sessionEvents] at isLater
          | receive own => simp [sessionEvents, anyAnswer] at isLater
          | _ => exact resting.elim

/-! ## Distributions to one peer -/

/-- A distribution to the peer, of a payload that a runtime can hold, or a session of the peer. -/
def Delivers (peer : NodeId) : Call → Prop
  | .distribute _ package remote =>
      remote = peer ∧ (package.payload.length : ℤ) ≤ Transfer.maxAlloc
  | .serve _ node _ => node = peer
  | _ => False

/-- The peer has taken all messages of its inbox, and its sessions have dealt with them. -/
def Consumed (calls : ℕ → Call) (peer : NodeId) (pool : Net.Pool) : Prop :=
  pool.shared.wire.pending peer = [] ∧
    ∀ thread fuel remote, calls thread = .serve fuel peer remote → Resting (pool.threads thread)

theorem consumed_of_turns {calls : ℕ → Call} {peer : NodeId} {schedule : List (ℕ × Choice)}
    (isEmpty : (Pool.run respond (start {} calls) schedule).shared.wire.pending peer = [])
    (resting : ∀ turn ∈ schedule,
      Resting ((Pool.run respond (start {} calls) schedule).threads turn.1)) :
    Consumed calls peer (Pool.run respond (start {} calls) schedule) := by
  refine ⟨isEmpty, fun thread fuel remote isServe => ?_⟩
  by_cases hasTurn : ∃ turn ∈ schedule, turn.1 = thread
  · rcases hasTurn with ⟨turn, isTurn, rfl⟩
    exact resting turn isTurn
  · rw [Pool.threads_of_no_turn fun turn isTurn isThread => hasTurn ⟨turn, isTurn, isThread⟩]
    change Resting (calls thread).program
    rw [isServe]
    trivial

/-- The peer has had the package among the ones it received. -/
def HasReceived (calls : ℕ → Call) (schedule : List (ℕ × Choice)) (peer : NodeId)
    (package : WorkPackage) : Prop :=
  ∃ earlier later, schedule = earlier ++ later ∧
    ((Pool.run respond (start {} calls) earlier).shared.peers peer).packages.lookup package.id =
      some (received package)

/-- A session begins with a hello frame and goes on with frames of the same origin; a
distribution takes an offer. -/
def Follows (call : Call) (first : Option (ℕ × Frame)) (frame : Frame) : Prop :=
  match call, first with
  | .serve .., none => frame.message.kind = .hello
  | .serve .., some first => frame.origin = first.2.origin
  | _, _ => frame.message.kind = .ack

instance (call : Call) (first : Option (ℕ × Frame)) (frame : Frame) :
    Decidable (Follows call first frame) :=
  match call, first with
  | .serve .., none | .distribute .., _ | .fetchArtifact .., _ | .publish .., _ | .send .., _
  | .failNext .., _ => inferInstanceAs (Decidable (frame.message.kind = _))
  | .serve .., some first => inferInstanceAs (Decidable (frame.origin = first.2.origin))

/-- The package a call distributes. -/
def distributes : Call → Option WorkPackage
  | .distribute _ package _ => some package
  | _ => none

/-- The key under which an event stores a receipt. -/
def storesKey : Event → Option (NodeId × String)
  | ⟨.store node key _, _⟩ => some (node, key)
  | _ => none

/-- The key under which an event finds a receipt. -/
def findsKey : Event → Option (NodeId × String)
  | ⟨.cached node key, some _⟩ => some (node, key)
  | _ => none

/-- What a step has to meet for distributions to be received. A frame that is taken from the inbox
of the peer goes on with the frames its thread took, and a receipt that is found was stored
for the same package. -/
structure Orderly (calls : ℕ → Call) (peer : NodeId) (past : List Moment) (moment : Moment) :
    Prop where
  taken : ∀ taken ∈ takesFrom peer moment,
    Follows (calls moment.1) ((takes peer past).find? (·.1 = moment.1)) taken.2
  found : ∀ key ∈ findsKey moment.2, ∀ earlier ∈ past, storesKey earlier.2 = some key →
    (distributes (calls earlier.1)).map received = (distributes (calls moment.1)).map received

instance (calls : ℕ → Call) (peer : NodeId) (past : List Moment) (moment : Moment) :
    Decidable (Orderly calls peer past moment) :=
  decidable_of_iff (_ ∧ _) ⟨fun ⟨taken, found⟩ => ⟨taken, found⟩,
    fun ⟨taken, found⟩ => ⟨taken, found⟩⟩

variable {calls : ℕ → Call} {schedule : List (ℕ × Choice)} {peer : NodeId}

/-! ### The frames of one sender -/

/-- A session that took a frame took a hello frame of the same origin first. -/
theorem first_of_orderly {moments : List Moment} {thread fuel : ℕ} {node remote : NodeId}
    {frame : Frame} (orderly : Guarded (Orderly calls peer) [] moments)
    (isServe : calls thread = .serve fuel node remote)
    (isTaken : (thread, frame) ∈ takes peer moments) :
    ∃ first, (takes peer moments).find? (·.1 = thread) = some (thread, first) ∧
      first.message.kind = .hello ∧ frame.origin = first.origin := by
  induction moments using List.reverseRecOn generalizing frame with
  | nil => cases isTaken
  | append_singleton past moment ih =>
      rcases guarded_append.mp orderly with ⟨pastOrderly, isOrderly, _⟩
      rw [takes_append, takes_self] at isTaken ⊢
      rw [List.find?_append]
      rcases List.mem_append.mp isTaken with isPast | isNow
      · rcases ih pastOrderly isPast with ⟨first, isFirst, isHello, isOrigin⟩
        exact ⟨first, by simp [isFirst], isHello, isOrigin⟩
      · have takesIt := Option.mem_toList.mp isNow
        have isMover : moment.1 = thread := by
          rcases moment with ⟨mover, event⟩
          rw [takesFrom_eq] at takesIt
          rcases Option.map_eq_some_iff.mp takesIt with ⟨_, _, isPair⟩
          exact congrArg Prod.fst isPair
        have follows := isOrderly.taken _ takesIt
        rw [isMover, isServe] at follows
        rw [List.nil_append] at follows
        cases isFirst : (takes peer past).find? (·.1 = thread) with
        | none =>
            rw [isFirst] at follows
            refine ⟨frame, ?_, follows, rfl⟩
            simp [takesIt]
        | some first =>
            rw [isFirst] at follows
            have isThread : first.1 = thread := by simpa using List.find?_some isFirst
            rcases first with ⟨_, first⟩
            cases isThread
            rcases ih pastOrderly (List.mem_of_find?_eq_some isFirst) with
              ⟨opening, isOpening, isHello, _⟩
            cases isFirst.symm.trans isOpening
            exact ⟨first, rfl, isHello, follows⟩

/-- An offer that is sent is empty. -/
def OffersNothing (event : Event) : Prop :=
  ∀ node remote message, event.op = .send node remote message → message.kind = .ack →
    message = Transfer.offerMessage []

omit [ContentHash] in
theorem offersNothing_of_op {op : Op} (notSend : ∀ node remote message, op ≠ .send node remote message)
    (answer : Answer op) : OffersNothing ⟨op, answer⟩ :=
  fun node remote message isSend => absurd isSend (notSend node remote message)

omit [ContentHash] in
theorem offersNothing_wired : Wired OffersNothing where
  dial _ _ := offersNothing_of_op (by simp)
  send _ _ _ _ isOffer _ _ _ isSend := by
    cases isSend
    exact isOffer
  receive _ := offersNothing_of_op (by simp)
  receivePackage _ _ := offersNothing_of_op (by simp)
  artifact _ _ := offersNothing_of_op (by simp)
  publish _ _ _ := offersNothing_of_op (by simp)
  stall := offersNothing_of_op (by simp)

theorem offersNothing_task {call : Call} (delivers : Delivers peer call) :
    Coroutine.Only OffersNothing call.task := by
  cases call with
  | distribute node package remote =>
      refine .bind ?_ fun _ => .pure _
      unfold Distributor.distribute
      split
      · exact .raise _
      · refine .bind (.perform (offersNothing_of_op (by simp))) fun found => ?_
        split
        · exact .pure _
        · exact .bind (offersNothing_wired.sendPackage _ _ _) fun _ =>
            .bind (.perform (offersNothing_of_op (by simp))) fun _ =>
              .bind (.perform (offersNothing_of_op (by simp))) fun _ =>
                .bind (.perform (offersNothing_of_op (by simp))) fun _ => .pure _
  | serve fuel node remote =>
      exact .bind (offersNothing_wired.serve fuel node remote) fun _ => .pure _
  | _ => exact delivers.elim

/-- An offer that is taken is empty. -/
theorem offer_of_taken {node : NodeId} {thread : ℕ} {frame : Frame} {offer : OfferBody}
    (delivers : ∀ thread, Delivers peer (calls thread))
    (isTaken : (thread, (⟨.receive node, .ok frame⟩ : Event)) ∈
      Pool.trace respond (start {} calls) schedule)
    (isAck : frame.message.kind = .ack)
    (decodes : decodeBody frame.message (·.offer) = .ok offer) : offer.held = [] := by
  rcases mem_sentTo.mp (mem_sentTo_of_takes (mem_takes.mpr isTaken)) with
    ⟨own, message, isSent, isMessage⟩
  rcases (Pool.reaches_own respond (start {} calls) schedule frame.origin).completes anyAnswer with
    ⟨later, value, behaves, _⟩
  have does : (calls frame.origin).task.Does () _ value.1 value.2 := behaves
  rw [isMessage] at isAck decodes
  have isOffer := offersNothing_task (delivers frame.origin) _ _ _ _ does _
    (List.mem_append_left _ (Pool.mem_own.mpr isSent)) own node message rfl isAck
  rw [isOffer] at decodes
  cases decodes
  rfl

/-- A distribution that has stored its receipt has sent the frames of its package to the peer. -/
theorem session_of_stored {thread : ℕ} {node place : NodeId} {package : WorkPackage}
    {key : String} {receipt : Receipt}
    (delivers : ∀ thread, Delivers peer (calls thread))
    (isDistribute : calls thread = .distribute node package peer)
    (isStored : (thread, (⟨.store place key receipt, ()⟩ : Event)) ∈
      Pool.trace respond (start {} calls) schedule) :
    ∃ source greeting chunks close, IsSession package source greeting chunks close ∧
      (sentTo peer (Pool.trace respond (start {} calls) schedule)).filter (·.origin = thread) =
        greeting :: chunks.map Prod.fst ++ [close] := by
  have isOwn := Pool.mem_own.mpr isStored
  rcases (Pool.reaches_own respond (start {} calls) schedule thread).completes anyAnswer with
    ⟨later, value, behaves, _⟩
  have does : (calls thread).task.Does () _ value.1 value.2 := behaves
  rw [isDistribute] at does
  rcases Task.does_map.mp does with ⟨outcome, distributes, _⟩
  rw [distribute_eq] at distributes
  split at distributes
  · have isNil := (List.append_eq_nil_iff.mp (Task.does_fail.mp distributes).1).1
    rw [isNil] at isOwn
    cases isOwn
  rcases moved_of_stored (silent_wired.sendPackage _ _ _) (by simp) (Task.once_cases distributes)
    isOwn with ⟨rfl, _, manifest, moved, kept, now, moves, rfl, areOwn⟩
  rcases sendPackage_ok moves with
    ⟨source, ack, offer, bodies, isSource, rfl, isAck, decodes, areChunks, areData, isMoved⟩
  have ackTaken : (thread, (⟨.receive place, .ok ack⟩ : Event)) ∈
      Pool.trace respond (start {} calls) schedule := by
    rw [← Pool.mem_own, areOwn, isMoved]
    simp
  have noneHeld := offer_of_taken delivers ackTaken isAck decodes
  let frame (message : Message) : Frame := ⟨thread, Wire.stamp place peer message⟩
  refine ⟨source, frame (helloMessage (Distributor.packageHello package source.manifest)),
    bodies.map fun body => (frame (Transfer.chunkMessage body.chunk body.data), body),
    frame Transfer.closeMessage, ⟨isSource, rfl, rfl, ?_, ?_, rfl⟩, ?_⟩
  · intro chunk isChunk
    rcases List.mem_map.mp isChunk with ⟨body, isBody, rfl⟩
    exact ⟨rfl, rfl, areData body isBody⟩
  · rw [List.map_map]
    refine Eq.trans ?_ (areChunks.trans ?_)
    · rfl
    · simp [noneHeld]
  · rw [sentTo_own, areOwn, isMoved]
    simp [sent, frame, List.filterMap_cons, List.filterMap_append, List.filterMap_map,
      Function.comp_def]
    rfl

/-! ### The session that takes them -/

/-- Only sessions take what is not an offer. -/
theorem serves_of_taken {moments : List Moment} {thread : ℕ} {frame : Frame}
    (delivers : ∀ thread, Delivers peer (calls thread))
    (orderly : Guarded (Orderly calls peer) [] moments)
    (isTaken : (thread, frame) ∈ takes peer moments) (notAck : frame.message.kind ≠ .ack) :
    ∃ fuel remote, calls thread = .serve fuel peer remote := by
  rcases List.mem_iff_append.mp (mem_takes.mp isTaken) with ⟨before, after, isTrace⟩
  have follows := (guarded_iff_split.mp orderly before _ after isTrace).taken (thread, frame)
    (by simp [takesFrom])
  have isDelivering := delivers thread
  cases isCall : calls thread with
  | serve fuel node remote =>
      rw [isCall] at isDelivering
      cases isDelivering
      exact ⟨fuel, remote, rfl⟩
  | _ =>
      rw [isCall] at follows
      exact absurd follows notAck

theorem IsSession.not_ack {package : WorkPackage} {source : Transfer.Source}
    {greeting close frame : Frame} {chunks : List (Frame × ChunkBody)}
    (session : IsSession package source greeting chunks close)
    (isThere : frame ∈ greeting :: chunks.map Prod.fst ++ [close]) :
    frame.message.kind ≠ .ack := by
  simp only [List.cons_append, List.mem_cons, List.mem_append, List.not_mem_nil, or_false]
    at isThere
  rcases isThere with rfl | isChunk | rfl
  · simp [session.isHello]
  · rcases List.mem_map.mp isChunk with ⟨chunk, isCarried, rfl⟩
    simp [(session.carried chunk isCarried).kind]
  · simp [session.isClose]

theorem IsSession.hellos {package : WorkPackage} {source : Transfer.Source}
    {greeting close : Frame} {chunks : List (Frame × ChunkBody)}
    (session : IsSession package source greeting chunks close) :
    (greeting :: chunks.map Prod.fst ++ [close]).filter (·.message.kind = .hello) = [greeting] := by
  have noChunk : (chunks.map Prod.fst).filter (fun frame => frame.message.kind = .hello) = [] := by
    refine List.filter_eq_nil_iff.mpr fun frame isFrame => ?_
    rcases List.mem_map.mp isFrame with ⟨chunk, isChunk, rfl⟩
    simp [(session.carried chunk isChunk).kind]
  simp [List.filter_append, session.isHello, session.isClose, noChunk]

/-- When the inbox is consumed, one session has taken the frames of a distribution, and no
others. -/
theorem taken_of_consumed {thread : ℕ} {package : WorkPackage} {source : Transfer.Source}
    {greeting close : Frame} {chunks : List (Frame × ChunkBody)}
    (delivers : ∀ thread, Delivers peer (calls thread))
    (orderly : Guarded (Orderly calls peer) [] (Pool.trace respond (start {} calls) schedule))
    (isEmpty : (Pool.run respond (start {} calls) schedule).shared.wire.pending peer = [])
    (session : IsSession package source greeting chunks close)
    (areFrames : (sentTo peer (Pool.trace respond (start {} calls) schedule)).filter
      (·.origin = thread) = greeting :: chunks.map Prod.fst ++ [close]) :
    ∃ taker fuel remote, calls taker = .serve fuel peer remote ∧
      (Pool.own taker (Pool.trace respond (start {} calls) schedule)).filterMap (taken peer) =
        greeting :: chunks.map Prod.fst ++ [close] := by
  have areTaken := conserved_run calls schedule peer
  rw [isEmpty, List.append_nil] at areTaken
  generalize Pool.trace respond (start {} calls) schedule = moments at *
  rw [← areTaken, List.filter_map] at areFrames
  have serves : ∀ taker frame, (taker, frame) ∈ takes peer moments → frame.origin = thread →
      ∃ fuel remote, calls taker = .serve fuel peer remote := by
    intro taker frame isTaken isOrigin
    refine serves_of_taken delivers orderly isTaken (session.not_ack ?_)
    rw [← areFrames]
    exact List.mem_map.mpr ⟨_, List.mem_filter.mpr ⟨isTaken, by simp [isOrigin]⟩, rfl⟩
  -- the hello frame of the distribution is taken once
  have single : ∀ first second : ℕ × Frame, first ∈ takes peer moments →
      second ∈ takes peer moments → first.2.origin = thread → second.2.origin = thread →
      first.2.message.kind = .hello → second.2.message.kind = .hello → first = second := by
    intro first second firstTaken secondTaken firstOrigin secondOrigin firstHello secondHello
    have areHellos : (((takes peer moments).filter fun taken => taken.2.origin = thread).filter
        fun taken => taken.2.message.kind = .hello).map Prod.snd = [greeting] := by
      rw [← session.hellos, ← areFrames, List.filter_map]
      rfl
    rcases List.map_eq_singleton_iff.mp areHellos with ⟨only, areOnly, _⟩
    have isOnly : ∀ taken ∈ takes peer moments, taken.2.origin = thread →
        taken.2.message.kind = .hello → taken = only := by
      intro taken isTaken isOrigin isHello
      have isThere : taken ∈ [only] := by
        rw [← areOnly]
        simp [isTaken, isOrigin, isHello]
      exact List.mem_singleton.mp isThere
    rw [isOnly first firstTaken firstOrigin firstHello,
      isOnly second secondTaken secondOrigin secondHello]
  have isThere : greeting ∈ greeting :: chunks.map Prod.fst ++ [close] := by simp
  rw [← areFrames] at isThere
  rcases List.mem_map.mp isThere with ⟨⟨taker, opening⟩, isFiltered, isOpening⟩
  cases isOpening
  rcases List.mem_filter.mp isFiltered with ⟨greetingTaken, isOrigin⟩
  have greetingOrigin : opening.origin = thread := by simpa using isOrigin
  rcases serves taker opening greetingTaken greetingOrigin with ⟨fuel, remote, isServe⟩
  rcases first_of_orderly orderly isServe greetingTaken with
    ⟨first, isFirst, firstHello, firstOrigin⟩
  rw [greetingOrigin] at firstOrigin
  refine ⟨taker, fuel, remote, isServe, ?_⟩
  rw [← takes_own, ← areFrames]
  congr 1
  refine List.filter_congr fun ⟨other, frame⟩ isTaken => ?_
  simp only [Function.comp_apply, decide_eq_decide]
  constructor
  · rintro rfl
    rcases first_of_orderly orderly isServe isTaken with ⟨own, isOwn, _, ownOrigin⟩
    cases isFirst.symm.trans isOwn
    exact ownOrigin.trans firstOrigin.symm
  · intro frameOrigin
    rcases serves other frame isTaken frameOrigin with ⟨_, _, otherServes⟩
    rcases first_of_orderly orderly otherServes isTaken with ⟨own, isOwn, ownHello, ownOrigin⟩
    rw [frameOrigin] at ownOrigin
    have isSame := single (other, own) (taker, first) (List.mem_of_find?_eq_some isOwn)
      (List.mem_of_find?_eq_some isFirst) ownOrigin.symm firstOrigin.symm ownHello firstHello
    exact congrArg Prod.fst isSame

/-! ### Completed distributions -/

/-- A package the peer stores is among the ones it received. -/
theorem hasReceived_of_event {thread : ℕ} {package : WorkPackage}
    (isStored : (thread, (⟨.receivePackage peer (received package), ()⟩ : Event)) ∈
      Pool.trace respond (start {} calls) schedule) :
    HasReceived calls schedule peer package := by
  rcases Pool.exists_turn_of_mem_trace isStored with ⟨earlier, turn, later, rfl, isStep⟩
  refine ⟨earlier ++ [turn], later, by simp, ?_⟩
  rw [Pool.run_snoc]
  rcases Pool.step_cases respond (Pool.run respond (start {} calls) earlier) turn with
    waits | ⟨op, next, answer, shared, _, answers, moves⟩
  · rw [waits] at isStep
    cases isStep
  · rw [moves] at isStep ⊢
    cases isStep
    cases answers
    simp [onPeer, received]

/-- A distribution that has stored its receipt is received when the inbox is consumed. -/
theorem hasReceived_of_stored {thread : ℕ} {node place : NodeId} {package : WorkPackage}
    {key : String} {receipt : Receipt}
    (delivers : ∀ thread, Delivers peer (calls thread))
    (orderly : Guarded (Orderly calls peer) [] (Pool.trace respond (start {} calls) schedule))
    (consumed : Consumed calls peer (Pool.run respond (start {} calls) schedule))
    (isDistribute : calls thread = .distribute node package peer)
    (isStored : (thread, (⟨.store place key receipt, ()⟩ : Event)) ∈
      Pool.trace respond (start {} calls) schedule) :
    HasReceived calls schedule peer package := by
  rcases session_of_stored delivers isDistribute isStored with
    ⟨source, greeting, chunks, close, session, areFrames⟩
  rcases taken_of_consumed delivers orderly consumed.1 session areFrames with
    ⟨taker, fuel, remote, isServe, areTaken⟩
  have fits : (package.payload.length : ℤ) ≤ Transfer.maxAlloc := by
    have isDelivering := delivers thread
    rw [isDistribute] at isDelivering
    exact isDelivering.2
  have reaches := Pool.reaches_own respond (start {} calls) schedule taker
  have isProgram : (start {} calls).threads taker = (Call.serve fuel peer remote).program := by
    rw [← isServe]
    rfl
  rw [isProgram] at reaches
  exact hasReceived_of_event (Pool.mem_own.mp
    (received_of_resting session fits reaches areTaken (consumed.2 taker fuel remote isServe)))

/-- In a run in which every session goes on with the frames of one sender, a package whose
distribution has returned a receipt is received when the peer has consumed its messages. -/
theorem received_of_orderly (calls : ℕ → Call) (peer : NodeId) (schedule : List (ℕ × Choice))
    (thread : ℕ) (node : NodeId) (package : WorkPackage) (receipt : Receipt)
    (delivers : ∀ thread, Delivers peer (calls thread))
    (orderly : Guarded (Orderly calls peer) [] (Pool.trace respond (start {} calls) schedule))
    (isDistribute : calls thread = .distribute node package peer)
    (returned : Returned (Pool.run respond (start {} calls) schedule) thread receipt)
    (consumed : Consumed calls peer (Pool.run respond (start {} calls) schedule)) :
    HasReceived calls schedule peer package := by
  have reaches := Pool.reaches_own respond (start {} calls) schedule thread
  rw [returned] at reaches
  have does : (calls thread).task.Does () _ (.ok (some receipt)) () := reaches.behaves
  rw [isDistribute] at does
  rcases Task.does_map.mp does with ⟨outcome, distributed, isOutcome⟩
  rw [distribute_eq] at distributed
  split at distributed
  · rcases Task.does_fail.mp distributed with ⟨_, rfl⟩
    cases isOutcome
  cases outcome with
  | error raised => cases isOutcome
  | ok found =>
      cases isOutcome
      generalize isOwn : Pool.own thread (Pool.trace respond (start {} calls) schedule) = own at *
      cases Task.once_cases distributed with
      | hit =>
          have isMoment : (thread, (⟨.cached node (Distributor.distributeKey package.id peer),
              some receipt⟩ : Event)) ∈ Pool.trace respond (start {} calls) schedule := by
            rw [← Pool.mem_own, isOwn]
            simp
          rcases List.mem_iff_append.mp isMoment with ⟨before, later, isTrace⟩
          rcases stored_of_found isTrace with ⟨executor, wasStored⟩
          have isSame := (guarded_iff_split.mp orderly before _ later isTrace).found _ rfl _
            wasStored rfl
          rw [isDistribute] at isSame
          have isDelivering := delivers executor
          have isStored : (executor, (⟨.store node (Distributor.distributeKey package.id peer)
              receipt, ()⟩ : Event)) ∈ Pool.trace respond (start {} calls) schedule := by
            rw [isTrace]
            exact List.mem_append_left _ wasStored
          cases isExecutor : calls executor with
          | distribute place other remote =>
              rw [isExecutor] at isSame isDelivering
              cases isDelivering.1
              have sameReceived : received other = received package := Option.some.inj isSame
              have sameId : other.id = package.id := by
                simpa [received] using congrArg WorkPackage.id sameReceived
              have hasOther := hasReceived_of_stored delivers orderly consumed isExecutor isStored
              rwa [HasReceived, sameReceived, sameId] at hasOther
          | _ =>
              rw [isExecutor] at isSame
              cases isSame
      | @moved _ manifest kept now moves =>
          have isStored : (thread, (⟨.store node (Distributor.distributeKey package.id peer)
              (Distributor.distributed { package with hash := hash package.payload } peer manifest
                now), ()⟩ : Event)) ∈ Pool.trace respond (start {} calls) schedule := by
            rw [← Pool.mem_own, isOwn]
            simp
          exact hasReceived_of_stored delivers orderly consumed isDistribute isStored

/-! ## One sender, and two -/

/-- A distribution and a session of its peer. -/
def pairCalls (thread : ℕ) : Call :=
  match thread with
  | 0 => .distribute "n" { id := "w", payload := [7] } "p"
  | _ => .serve 2 "p" "n"

def pairTurns : List (ℕ × Choice) :=
  [0, 0, 0, 1, 1, 1, 0, 0, 0, 0, 0, 0, 1, 1, 1].map fun thread => (thread, {})

omit [ContentHash] in
theorem pair_received :
    @HasReceived textHash pairCalls pairTurns "p" { id := "w", payload := [7] } := by
  refine @received_of_orderly textHash pairCalls "p" pairTurns 0 "n" _
    { transferId := "distribute:w:p", workPackageId := "w", nodeId := "p", state := .complete
      hash := String.ofList [Char.ofNat 7], bytes := 1, createdAt := "" } ?_ ?_ rfl ?_ ?_
  · rintro (_ | thread)
    · exact ⟨rfl, by decide⟩
    · rfl
  · decide +kernel
  · exact returned_of_value (by decide +kernel)
  · exact @consumed_of_turns textHash _ _ _ (by decide +kernel) (by decide +kernel)

/-- Two senders, of whom the second greets the peer first, and two sessions of the peer. -/
def crossedCalls (thread : ℕ) : Call :=
  match thread with
  | 0 => .distribute "n" { id := "v" } "p"
  | 1 => .distribute "m" { id := "w" } "p"
  | _ => .serve 2 "p" "n"

def crossedTurns : List (ℕ × Choice) :=
  [1, 1, 1, 0, 0, 0, 2, 2, 2, 0, 0, 0, 0, 0, 2, 3, 3].map fun thread => (thread, {})

omit [ContentHash] in
/-- The session reads the greeting of one sender and offers to the other, which completes; the
greeting of that one ends the session. -/
theorem crossed_not_received :
    letI := textHash
    ¬ ∀ (calls : ℕ → Call) (peer : NodeId) (schedule : List (ℕ × Choice))
      (thread : ℕ) (node : NodeId) (package : WorkPackage) (receipt : Receipt),
      (∀ thread, Delivers peer (calls thread)) →
      calls thread = .distribute node package peer →
      Returned (Pool.run respond (start {} calls) schedule) thread receipt →
      Consumed calls peer (Pool.run respond (start {} calls) schedule) →
      HasReceived calls schedule peer package := by
  intro hasReceived
  have delivers : ∀ thread, Delivers "p" (crossedCalls thread) := by
    rintro (_ | _ | thread)
    · exact ⟨rfl, by decide⟩
    · exact ⟨rfl, by decide⟩
    · rfl
  have returned : Returned (Pool.run respond (@start textHash {} crossedCalls) crossedTurns) 0
      { transferId := "distribute:v:p", workPackageId := "v", nodeId := "p", state := .complete
        hash := "", bytes := 0, createdAt := "" } := returned_of_value (by decide +kernel)
  have consumed : Consumed crossedCalls "p"
      (Pool.run respond (@start textHash {} crossedCalls) crossedTurns) :=
    @consumed_of_turns textHash _ _ _ (by decide +kernel) (by decide +kernel)
  rcases hasReceived crossedCalls "p" crossedTurns 0 "n" { id := "v" } _ delivers rfl returned
    consumed with ⟨earlier, later, isSchedule, isThere⟩
  have nowhere : ∀ count < 18, ((Pool.run respond (@start textHash {} crossedCalls)
      (crossedTurns.take count)).shared.peers "p").packages.lookup "v" = none := by
    decide +kernel
  have isEarlier : earlier = crossedTurns.take earlier.length := by
    rw [isSchedule, List.take_left]
  have isShort : earlier.length < 18 := by
    have isLength : crossedTurns.length = earlier.length + later.length := by
      rw [isSchedule, List.length_append]
    have isSeventeen : crossedTurns.length = 17 := rfl
    omega
  rw [isEarlier] at isThere
  cases (nowhere _ isShort).symm.trans isThere

end Net

end Aa.Sync
