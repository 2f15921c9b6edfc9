import Aa.Sync.Chunks

/-!
# Resumed transfers

A sender and a receiver over two FIFO connections. However they interleave, a receiver that
holds any of the verified chunks ends with the bytes of the source.
-/

namespace Aa.Sync.Transfer

open Aa.Library Transport

variable [ContentHash]

/-! ## Chunks a receiver is given -/

namespace Receiver

/-- A call of `Accept`: its error, if any, and the receiver after it. -/
def take (receiver : Receiver) (chunk : Chunk) (data : Bytes) : Option Error × Receiver :=
  match receiver.accept chunk data with
  | .ok after => (none, after)
  | .error error => (some error, receiver)

/-- The receiver after calls of `Accept`, whatever they answered. -/
def takeAll (receiver : Receiver) (chunks : List (Chunk × Bytes)) : Receiver :=
  chunks.foldl (fun receiver chunk => (receiver.take chunk.1 chunk.2).2) receiver

/-- The loop of `Run` over the messages it reads: how it ends, if it does, and the receiver
it leaves. -/
def consume (receiver : Receiver) : List Message → Option (Except Raised Bytes) × Receiver
  | [] => (none, receiver)
  | message :: rest =>
      match message.kind with
      | .chunk =>
          match decodeBody message (·.chunk) with
          | .error error => (some (.error (.error error)), receiver)
          | .ok body =>
              match receiver.take body.chunk body.data with
              | (some error, receiver) => (some (.error (.error error)), receiver)
              | (none, receiver) => consume receiver rest
      | .close => (some receiver.complete, receiver)
      | kind => (some (.error (.error (.wrap .invalid ("unexpected frame " ++ kind.text)))), receiver)

/-- A chunk whose index is out of range, whose data has another length than the manifest
says, or whose data has another hash. -/
def Refuses (receiver : Receiver) (chunk : Chunk) (data : Bytes) : Prop :=
  chunk.index < 0 ∨ (receiver.manifest.chunks.length : ℤ) ≤ chunk.index ∨
    ∃ want, receiver.manifest.chunks[chunk.index.toNat]? = some want ∧
      ((data.length : ℤ) ≠ want.length ∨ hash data ≠ want.hash)

variable {receiver : Receiver} {chunk : Chunk} {data : Bytes}

theorem not_refuses_of_accept {after : Receiver} (accepts : receiver.accept chunk data = .ok after) :
    ¬ receiver.Refuses chunk data := by
  rcases accept_ok accepts with ⟨want, isIndex, isWant, isLength, isHash, _⟩
  have inRange := (List.getElem?_eq_some_iff.mp isWant).1
  rintro (isNegative | isBeyond | ⟨other, isOther, differs⟩)
  · omega
  · omega
  · cases Option.some.inj (isWant.symm.trans isOther)
    rcases differs with lengthNe | hashNe
    · exact lengthNe isLength
    · exact hashNe isHash

/-- A refused chunk is answered with an error and leaves the receiver as it was. -/
theorem take_of_refuses (refuses : receiver.Refuses chunk data) :
    ∃ error, receiver.take chunk data = (some error, receiver) := by
  rw [take]
  cases accepting : receiver.accept chunk data with
  | ok after => exact absurd refuses (not_refuses_of_accept accepting)
  | error error => exact ⟨error, rfl⟩

theorem take_manifest (receiver : Receiver) (chunk : Chunk) (data : Bytes) :
    (receiver.take chunk data).2.manifest = receiver.manifest := by
  rw [take]
  cases accepting : receiver.accept chunk data with
  | error error => rfl
  | ok after =>
      rcases accept_ok accepting with ⟨_, _, _, _, _, rfl⟩
      rfl

/-- The loop goes on over messages it has not ended at. -/
theorem consume_append {before later : List Message} {after : Receiver}
    (goesOn : receiver.consume before = (none, after)) :
    receiver.consume (before ++ later) = after.consume later := by
  induction before generalizing receiver with
  | nil =>
      cases (Prod.mk.inj goesOn).2
      rfl
  | cons message rest ih =>
      rw [List.cons_append, consume]
      rw [consume] at goesOn
      split
      · rename_i isChunk
        simp only [isChunk] at goesOn
        split
        · rename_i undecoded
          simp [undecoded] at goesOn
        · rename_i decoded
          simp only [decoded] at goesOn
          split
          · rename_i refused
            simp [refused] at goesOn
          · rename_i accepted
            simp only [accepted] at goesOn
            exact ih goesOn
      · rename_i isClose
        simp [isClose] at goesOn
      · rename_i kind notChunk notClose
        split at goesOn
        · rename_i isChunk
          exact absurd isChunk notChunk
        · rename_i isClose
          exact absurd isClose notClose
        · simp at goesOn

theorem consume_manifest (receiver : Receiver) (messages : List Message) :
    (receiver.consume messages).2.manifest = receiver.manifest := by
  induction messages generalizing receiver with
  | nil => rfl
  | cons message rest ih =>
      rw [consume]
      split
      · split
        · rfl
        · rename_i body _
          have kept := receiver.take_manifest body.chunk body.data
          split
          · rename_i refused
            rwa [refused] at kept
          · rename_i accepted
            rw [accepted] at kept
            rw [ih, kept]
      · rfl
      · rfl

end Receiver

/-- An execution of the loop that reads some frames ends as the loop over their messages. -/
theorem consume_of_collect {node : NodeId} {fuel : ℕ} {receiver : Receiver} {frames : List Frame}
    {outcome : Except Raised Bytes}
    (does : (collect node fuel receiver).Does ()
      (frames.map fun frame => ⟨.receive node, .ok frame⟩) outcome ()) :
    (receiver.consume (frames.map Frame.message)).1 = some outcome := by
  induction fuel generalizing receiver frames with
  | zero =>
      rcases Coroutine.does_perform.mp does with ⟨answer, isEvents, _⟩
      cases frames with
      | nil => cases isEvents
      | cons frame rest => cases isEvents
  | succ fuel ih =>
      rcases Coroutine.does_bind.mp does with
        ⟨message, _, taken, later, takes, goes, isEvents⟩ | ⟨raised, fails, _⟩
      · rcases Task.does_receive_ok.mp takes with ⟨frame, rfl, rfl⟩
        cases frames with
        | nil => cases isEvents
        | cons first rest =>
            cases isEvents
            rw [List.map_cons, Receiver.consume]
            cases isKind : frame.message.kind with
            | chunk =>
                simp only [isKind] at goes ⊢
                cases decoding : decodeBody frame.message (·.chunk) with
                | error error =>
                    rw [decoding] at goes
                    have fails : (Task.fail error : Task Bytes).Does () _ outcome () := goes
                    rcases Task.does_fail.mp fails with ⟨_, rfl⟩
                    rfl
                | ok body =>
                    rw [decoding] at goes
                    cases accepting : receiver.accept body.chunk body.data with
                    | error error =>
                        have ends : (Task.tryIt (receiver.accept body.chunk body.data) >>=
                          fun after => collect node fuel after).Does () _ outcome () := goes
                        rw [accepting] at ends
                        have fails : (Task.fail error : Task Bytes).Does () _ outcome () := ends
                        rcases Task.does_fail.mp fails with ⟨_, rfl⟩
                        simp [Receiver.take, accepting]
                    | ok after =>
                        have continues : (Task.tryIt (receiver.accept body.chunk body.data) >>=
                          fun after => collect node fuel after).Does () _ outcome () := goes
                        rw [accepting] at continues
                        simp only [Receiver.take, accepting]
                        exact ih continues
            | close =>
                simp only [isKind] at goes ⊢
                rcases Task.does_check.mp goes with ⟨_, rfl⟩
                rfl
            | hello | ack | revision | receipt | other name =>
                simp only [isKind] at goes ⊢
                rcases Task.does_fail.mp goes with ⟨_, rfl⟩
                rfl
      · rcases Coroutine.does_perform.mp fails with ⟨answer, isEvents, isError, _⟩
        cases frames with
        | nil => cases isEvents
        | cons first rest =>
            simp only [List.map_cons, List.cons.injEq, Event.mk.injEq, heq_eq_eq, true_and]
              at isEvents
            rw [← isEvents.1] at isError
            cases isError

/-! ## The chunks of a source -/

theorem offset_of_chunksFrom {data : Bytes} {chunkSize rounds offset index position : ℕ}
    (inRange : position < (chunksFrom data chunkSize rounds offset index).length) :
    offset + position * chunkSize < data.length := by
  induction rounds generalizing offset index position with
  | zero => simp [chunksFrom] at inRange
  | succ rounds ih =>
      rw [chunksFrom_succ] at inRange
      split at inRange
      · rename_i isInside
        cases position with
        | zero => simpa using isInside
        | succ position =>
            have later := ih (Nat.lt_of_succ_lt_succ inRange)
            rw [Nat.succ_mul]
            omega
      · simp at inRange

/-- Each chunk of a built source can be read. -/
theorem chunkData_of_newSource {id name : String} {data : Bytes} {chunkSize : ℤ}
    {source : Source} (builds : newSource id name data chunkSize = .ok source) {position : ℕ}
    {chunk : Chunk} (isThere : source.manifest.chunks[position]? = some chunk) :
    source.chunkData position = .ok (source.part position) := by
  have isChunk := (cut_of_newSource builds).1.chunk position chunk isThere
  unfold newSource build at builds
  split at builds
  · cases builds
  · cases builds
    generalize isSize : (if chunkSize ≤ 0 then defaultChunkSize else chunkSize) = size at *
    have inside : 0 + position * size.toNat < data.length :=
      offset_of_chunksFrom (List.getElem?_eq_some_iff.mp isThere).1
    have isLength : (partAt data size.toNat (position * size.toNat)).length =
        min size.toNat (data.length - position * size.toNat) := by
      simp [partAt]
    have notNegative : ¬ (position : ℤ) < 0 := by omega
    simp only [Source.chunkData, if_neg notNegative, Int.toNat_natCast, isThere]
    rw [isChunk]
    simp only [chunkOf, Source.part, Int.toNat_natCast, isLength]
    rw [if_neg (by omega), if_neg (by omega)]
    congr 1
    rw [partAt, List.take_eq_take_iff, List.length_drop]
    omega

/-- The receiver holds parts of the source only. -/
structure Receiver.Faithful (receiver : Receiver) (source : Source) : Prop where
  manifest : receiver.manifest = source.manifest
  parts : ∀ index, receiver.isHeld index = true → receiver.Has source index

theorem Receiver.Faithful.take {source : Source} (cut : source.Cut)
    (collisionFree : Function.Injective hash) {receiver : Receiver}
    (verified : receiver.Faithful source) (chunk : Chunk) (data : Bytes) :
    (receiver.take chunk data).2.Faithful source := by
  rw [Receiver.take]
  cases accepting : receiver.accept chunk data with
  | error error => exact verified
  | ok after =>
      rcases Receiver.accept_ok accepting with ⟨want, isIndex, isWant, _, isHash, rfl⟩
      rw [verified.manifest] at isWant
      have isChunk := cut.chunk _ _ isWant
      have isNat : ((chunk.index.toNat : ℕ) : ℤ) = chunk.index := by omega
      rw [isNat] at isChunk
      have isPart : data = source.part chunk.index := by
        apply collisionFree
        rw [isHash, isChunk]
        rfl
      refine ⟨verified.manifest, ?_⟩
      intro index isHeld
      by_cases isIndexed : index = chunk.index
      · subst isIndexed
        exact ⟨isHeld, by simp [isPart]⟩
      · rw [Receiver.isHeld, AList.lookup_insert_ne isIndexed] at isHeld
        have has := verified.parts index isHeld
        constructor
        · rw [Receiver.isHeld, AList.lookup_insert_ne isIndexed]
          exact has.held
        · rw [AList.lookup_insert_ne isIndexed]
          exact has.part

theorem Receiver.Faithful.takeAll {source : Source} (cut : source.Cut)
    (collisionFree : Function.Injective hash) {receiver : Receiver}
    (verified : receiver.Faithful source) (chunks : List (Chunk × Bytes)) :
    (receiver.takeAll chunks).Faithful source := by
  induction chunks generalizing receiver with
  | nil => exact verified
  | cons chunk rest ih => exact ih (verified.take cut collisionFree chunk.1 chunk.2)

omit [ContentHash] in
theorem Receiver.faithful_new (source : Source) :
    Receiver.Faithful { manifest := source.manifest } source := by
  refine ⟨rfl, ?_⟩
  intro index isHeld
  simp [Receiver.isHeld] at isHeld

/-! ## Two connections -/

/-- The two ends of a transfer. -/
inductive Party where
  | sender
  | receiver
deriving DecidableEq

namespace Link

/-- Two FIFO connections that fail no send: the messages on their way to each node. -/
abbrev State := NodeId → List Frame

def respond : Pool.Responder Party State Unit Net.Op Net.Answer
  | _, _, link, .send node remote message =>
      some (.ok (),
        Function.update link remote (link remote ++ [⟨0, Wire.stamp node remote message⟩]))
  | _, _, link, .receive node =>
      match link node with
      | [] => none
      | frame :: rest => some (.ok frame, Function.update link node rest)
  | _, _, _, _ => none

/-- A sender that serves a source and a receiver that runs, with nothing on its way. -/
def start (source : Source) (receiver : Receiver) (fuel : ℕ) (node remote : NodeId) :
    Pool Party State Net.Op Net.Answer (Except Raised Bytes × Unit) where
  shared _ := []
  threads
    | .sender => (do serve source node remote; return [] : Task Bytes) ()
    | .receiver => receiver.run fuel remote node ()

end Link

/-! ## What the sender sends -/

/-- The chunks a sender sends to a receiver that offers some as held. -/
def Source.due (source : Source) (held : List ℤ) : List Chunk :=
  source.manifest.chunks.filter fun chunk => chunk.index ∉ held

/-- The messages for some chunks. -/
def Source.messages (source : Source) (chunks : List Chunk) : List Message :=
  chunks.map (fun chunk => chunkMessage chunk (source.part chunk.index)) ++ [closeMessage]

/-- A sender that has some messages left to send. -/
def sending (node remote : NodeId) :
    List Message → Program Net.Op Net.Answer (Except Raised Bytes × Unit)
  | [] => .done (.ok [], ())
  | message :: rest =>
      .perform (.send node remote message) fun
        | .ok _ => sending node remote rest
        | .error error => .done (.error (.error error), ())

omit [ContentHash] in
theorem push_eq_sending {source : Source} (node remote : NodeId) (held : List ℤ)
    {chunks : List Chunk}
    (readable : ∀ chunk ∈ chunks, source.chunkData chunk.index = .ok (source.part chunk.index)) :
    (do push source node remote held chunks; return [] : Task Bytes) () =
      sending node remote (source.messages (chunks.filter fun chunk => chunk.index ∉ held)) := by
  induction chunks with
  | nil =>
      change Program.perform _ _ = Program.perform _ _
      congr 1
      funext answer
      cases answer <;> rfl
  | cons chunk rest ih =>
      have laterReadable : ∀ chunk ∈ rest,
          source.chunkData chunk.index = .ok (source.part chunk.index) :=
        fun later isLater => readable later (by simp [isLater])
      by_cases isHeld : chunk.index ∈ held
      · rw [List.filter_cons_of_neg (by simpa using isHeld), ← ih laterReadable, push,
          if_pos isHeld]
      · rw [List.filter_cons_of_pos (by simpa using isHeld), push, if_neg isHeld,
          readable chunk (by simp)]
        change Program.perform _ _ = Program.perform _ _
        congr 1
        funext answer
        cases answer with
        | ok sent => exact ih laterReadable
        | error error => rfl

omit [ContentHash] in
/-- A sender that reads an offer sends what is due. -/
theorem serve_receives {source : Source} {node remote : NodeId}
    (readable : ∀ chunk ∈ source.manifest.chunks,
      source.chunkData chunk.index = .ok (source.part chunk.index)) :
    ∃ next, (do serve source node remote; return [] : Task Bytes) () =
        .perform (.receive node) next ∧
      ∀ (frame : Frame) (held : List ℤ), frame.message.kind = .ack →
        decodeBody frame.message (·.offer) = .ok { held := held } →
        next (.ok frame) = sending node remote (source.messages (source.due held)) := by
  refine ⟨_, rfl, ?_⟩
  intro frame held isAck decodes
  rw [Source.due, ← push_eq_sending node remote held readable]
  simp only [Program.bind, isAck, decodes, Task.tryIt]
  rfl

/-- A receiver takes a chunk and goes on, or reads a close frame and completes. -/
theorem collect_receives (node : NodeId) (fuel : ℕ) (receiver : Receiver) :
    ∃ next, collect node (fuel + 1) receiver () = .perform (.receive node) next ∧
      (∀ (frame : Frame) (body : ChunkBody) (after : Receiver), frame.message.kind = .chunk →
        decodeBody frame.message (·.chunk) = .ok body →
        receiver.accept body.chunk body.data = .ok after →
        next (.ok frame) = collect node fuel after ()) ∧
      ∀ (frame : Frame) (data : Bytes), frame.message.kind = .close →
        receiver.complete = .ok data → next (.ok frame) = .done (.ok data, ()) := by
  refine ⟨_, rfl, ?_, ?_⟩
  · intro frame body after isChunk decodes accepts
    simp only [Program.bind, isChunk, decodes, Task.tryIt]
    change (Task.tryIt (receiver.accept body.chunk body.data) >>= _) () = _
    rw [accepts]
    rfl
  · intro frame data isClose completes
    simp only [Program.bind, isClose, completes, Task.check]
    rfl

/-! ## How far a transfer has come -/

/-- A built source between two different nodes, with a hash free of collisions and data that
the runtime can hold. -/
structure Setting (source : Source) (node remote : NodeId) : Prop where
  cut : source.Cut
  readable : ∀ chunk ∈ source.manifest.chunks,
    source.chunkData chunk.index = .ok (source.part chunk.index)
  collisionFree : Function.Injective hash
  fits : (source.data.length : ℤ) ≤ maxAlloc
  apart : node ≠ remote

abbrev Link.Pool := Library.Pool Party Link.State Net.Op Net.Answer (Except Raised Bytes × Unit)

/-- The stage of a transfer, with the number of operations that are left. -/
inductive Stage (source : Source) (node remote : NodeId) : Link.Pool → ℕ → Prop
  | offering {pool : Link.Pool} {fuel : ℕ} {receiver : Receiver}
      (quiet : pool.shared node = [] ∧ pool.shared remote = [])
      (verified : receiver.Faithful source)
      (enough : (source.due receiver.offer).length < fuel)
      (serves : pool.threads .sender = (do serve source node remote; return [] : Task Bytes) ())
      (runs : pool.threads .receiver = receiver.run fuel remote node ()) :
      Stage source node remote pool (2 * (source.due receiver.offer).length + 4)
  | offered {pool : Link.Pool} {fuel : ℕ} {receiver : Receiver}
      (onTheWay : pool.shared node =
        [⟨0, Wire.stamp remote node (offerMessage receiver.offer)⟩] ∧ pool.shared remote = [])
      (verified : receiver.Faithful source)
      (enough : (source.due receiver.offer).length < fuel)
      (serves : pool.threads .sender = (do serve source node remote; return [] : Task Bytes) ())
      (collects : pool.threads .receiver = collect remote fuel receiver ()) :
      Stage source node remote pool (2 * (source.due receiver.offer).length + 3)
  | pushing {pool : Link.Pool} {fuel : ℕ} {receiver : Receiver} {inflight unsent : List Message}
      {due : List Chunk} (onTheWay : (pool.shared remote).map Frame.message =
        inflight.map (Wire.stamp node remote))
      (verified : receiver.Faithful source) (enough : due.length < fuel)
      (isDue : inflight ++ unsent = source.messages due)
      (isPart : ∀ chunk ∈ due, chunk ∈ source.manifest.chunks)
      (isHeld : ∀ chunk ∈ source.manifest.chunks,
        chunk ∈ due ∨ receiver.isHeld chunk.index = true)
      (sends : pool.threads .sender = sending node remote unsent)
      (collects : pool.threads .receiver = collect remote fuel receiver ()) :
      Stage source node remote pool (inflight.length + 2 * unsent.length)
  | returned {pool : Link.Pool} (sender : pool.threads .sender = .done (.ok [], ()))
      (receiver : pool.threads .receiver = .done (.ok source.data, ())) :
      Stage source node remote pool 0

variable {source : Source} {node remote : NodeId}

/-- A chunk on its way is accepted, and the parts held before are kept. -/
theorem Setting.accepts (setting : Setting source node remote) {receiver : Receiver}
    (verified : receiver.Faithful source) {chunk : Chunk}
    (isPart : chunk ∈ source.manifest.chunks) :
    ∃ after, receiver.accept chunk (source.part chunk.index) = .ok after ∧
      after.Faithful source ∧ after.isHeld chunk.index = true ∧
      ∀ index, receiver.isHeld index = true → after.isHeld index = true := by
  let frame : Frame := ⟨0, chunkMessage chunk (source.part chunk.index)⟩
  have carried : source.Carried (frame, { chunk, data := source.part chunk.index }) :=
    ⟨rfl, rfl, setting.readable chunk isPart⟩
  rcases setting.cut.accept verified.manifest carried with ⟨after, accepts, _, has, kept⟩
  refine ⟨after, accepts, ?_, has.held, ?_⟩
  · have taken := verified.take setting.cut setting.collisionFree chunk (source.part chunk.index)
    rwa [Receiver.take, accepts] at taken
  · intro index isHeld
    exact (kept index (verified.parts index isHeld)).held

/-- A receiver that holds all chunks completes with the data. -/
theorem Setting.completes (setting : Setting source node remote) {receiver : Receiver}
    (verified : receiver.Faithful source)
    (isHeld : ∀ chunk ∈ source.manifest.chunks, receiver.isHeld chunk.index = true) :
    receiver.complete = .ok source.data := by
  refine setting.cut.complete verified.manifest setting.fits ?_
  intro position inRange
  have isThere := List.getElem?_eq_getElem inRange
  have isChunk := setting.cut.chunk position _ isThere
  apply verified.parts
  have held := isHeld _ (List.getElem_mem inRange)
  rwa [isChunk] at held

theorem run_sends (receiver : Receiver) (fuel : ℕ) (remote node : NodeId) :
    ∃ next, receiver.run fuel remote node () =
        .perform (.send remote node (offerMessage receiver.offer)) next ∧
      next (.ok ()) = collect remote fuel receiver () :=
  ⟨_, rfl, rfl⟩

omit [ContentHash] in
/-- A sender that has sent everything waits for nothing. -/
theorem sending_of_perform {unsent : List Message} {op : Net.Op}
    {next : Net.Answer op → Program Net.Op Net.Answer (Except Raised Bytes × Unit)}
    (isSending : sending node remote unsent = .perform op next) :
    ∃ message rest, unsent = message :: rest := by
  cases unsent with
  | nil => cases isSending
  | cons message rest => exact ⟨message, rest, rfl⟩

omit [ContentHash] in
/-- What is on its way is a chunk that is due, or the close frame after the last of them. -/
theorem messages_cases {due : List Chunk} {message : Message} {rest : List Message}
    (isDue : message :: rest = source.messages due) :
    (∃ chunk later, due = chunk :: later ∧
      message = chunkMessage chunk (source.part chunk.index) ∧ rest = source.messages later) ∨
    due = [] ∧ message = closeMessage ∧ rest = [] := by
  cases due with
  | nil =>
      rcases List.cons.inj isDue with ⟨isClose, isRest⟩
      exact .inr ⟨rfl, isClose, isRest⟩
  | cons chunk later =>
      rcases List.cons.inj isDue with ⟨isChunk, isRest⟩
      exact .inl ⟨chunk, later, rfl, isChunk, isRest⟩

/-- A receiver in the middle of a transfer has read a message. -/
theorem Setting.stage_received (setting : Setting source node remote) {pool : Link.Pool}
    {fuel : ℕ} {receiver : Receiver} {inflight unsent : List Message} {due : List Chunk}
    {message : Message} {frame : Frame} (isFrame : frame.message = Wire.stamp node remote message)
    (onTheWay : (pool.shared remote).map Frame.message = inflight.map (Wire.stamp node remote))
    (verified : receiver.Faithful source) (enough : due.length < fuel)
    (isDue : message :: (inflight ++ unsent) = source.messages due)
    (isPart : ∀ chunk ∈ due, chunk ∈ source.manifest.chunks)
    (isHeld : ∀ chunk ∈ source.manifest.chunks,
      chunk ∈ due ∨ receiver.isHeld chunk.index = true)
    (sends : pool.threads .sender = sending node remote unsent)
    {next : Net.Answer (.receive remote) →
      Program Net.Op Net.Answer (Except Raised Bytes × Unit)}
    (collects : collect remote fuel receiver () = .perform (.receive remote) next)
    (reads : pool.threads .receiver = next (.ok frame)) :
    Stage source node remote pool (inflight.length + 2 * unsent.length) := by
  cases fuel with
  | zero => omega
  | succ fuel =>
      rcases collect_receives remote fuel receiver with ⟨reading, isReading, onChunk, onClose⟩
      rw [isReading] at collects
      cases collects
      rcases messages_cases isDue with
        ⟨chunk, later, rfl, rfl, isRest⟩ | ⟨rfl, rfl, isRest⟩
      · rcases setting.accepts verified (isPart chunk (by simp)) with
          ⟨after, accepts, verifiedAfter, holds, kept⟩
        have goesOn := onChunk frame { chunk, data := source.part chunk.index } after
          (by rw [isFrame]; rfl) (by rw [isFrame]; rfl) accepts
        refine .pushing onTheWay verifiedAfter (Nat.lt_of_succ_lt_succ enough) isRest
          (fun other isLater => isPart other (by simp [isLater])) ?_ sends (reads.trans goesOn)
        intro other isThere
        rcases isHeld other isThere with isOther | isHeldBefore
        · rcases List.mem_cons.mp isOther with rfl | isLater
          · exact .inr holds
          · exact .inl isLater
        · exact .inr (kept _ isHeldBefore)
      · rcases List.append_eq_nil_iff.mp isRest with ⟨rfl, rfl⟩
        have completes := setting.completes verified fun chunk isThere =>
          (isHeld chunk isThere).resolve_left (by simp)
        exact .returned sends (reads.trans (onClose frame source.data (by rw [isFrame]; rfl) completes))

omit [ContentHash] in
/-- A receiver that waits for a message reads the first on its way. -/
theorem receive_answer {party : Party} {choice : Unit} {link after : Link.State} {node : NodeId}
    {answer : Net.Answer (.receive node)}
    (isAnswer : Link.respond party choice link (.receive node) = some (answer, after)) :
    ∃ frame rest, link node = frame :: rest ∧ answer = .ok frame ∧
      after = Function.update link node rest := by
  simp only [Link.respond] at isAnswer
  split at isAnswer
  · cases isAnswer
  · rename_i frame rest isLink
    cases isAnswer
    exact ⟨frame, rest, isLink, rfl, rfl⟩

/-- A loop with fuel left reads a message next. -/
theorem collect_performs {fuel : ℕ} {receiver : Receiver} {op : Net.Op}
    {next : Net.Answer op → Program Net.Op Net.Answer (Except Raised Bytes × Unit)}
    (isFuelled : 0 < fuel) (performs : collect remote fuel receiver () = .perform op next) :
    op = .receive remote := by
  cases fuel with
  | zero => omega
  | succ fuel =>
      cases performs
      rfl

/-- Every operation of a transfer takes it one stage further. -/
theorem Setting.stage_advance (setting : Setting source node remote) {pool : Link.Pool} {left : ℕ}
    (stage : Stage source node remote pool left) {party : Party} {choice : Unit} {op : Net.Op}
    {next : Net.Answer op → Program Net.Op Net.Answer (Except Raised Bytes × Unit)}
    (isThread : pool.threads party = .perform op next) {answer : Net.Answer op}
    {shared : Link.State}
    (isAnswer : Link.respond party choice pool.shared op = some (answer, shared)) :
    ∃ rest, left = rest + 1 ∧
      Stage source node remote (pool.advance party (next answer) shared) rest := by
  have apart := setting.apart
  have senderNe : Party.sender ≠ .receiver := by decide
  have receiverNe : Party.receiver ≠ .sender := by decide
  cases stage with
  | @offering fuel receiver quiet verified enough serves runs =>
      cases party with
      | sender =>
          rcases @serve_receives source node remote setting.readable with ⟨serving, isServe, _⟩
          rw [serves, isServe] at isThread
          cases isThread
          simp [Link.respond, quiet.1] at isAnswer
      | receiver =>
          rcases run_sends receiver fuel remote node with ⟨running, isRun, goesOn⟩
          rw [runs, isRun] at isThread
          cases isThread
          cases isAnswer
          refine ⟨_, rfl, .offered ⟨?_, ?_⟩ verified enough ?_ ?_⟩
          · simp [quiet.1]
          · simp [apart.symm, quiet.2]
          · rw [Pool.advance_threads_of_ne _ _ _ senderNe, serves]
          · rw [Pool.advance_threads_self, goesOn]
  | @offered fuel receiver onTheWay verified enough serves collects =>
      cases party with
      | sender =>
          rcases @serve_receives source node remote setting.readable with
            ⟨serving, isServe, goesOn⟩
          rw [serves, isServe] at isThread
          cases isThread
          rcases receive_answer isAnswer with ⟨frame, rest, isFirst, rfl, rfl⟩
          rw [onTheWay.1] at isFirst
          cases isFirst
          have sends := goesOn ⟨0, Wire.stamp remote node (offerMessage receiver.offer)⟩
            receiver.offer rfl rfl
          refine ⟨2 * (source.due receiver.offer).length + 2, rfl, ?_⟩
          have stage : Stage source node remote
              (pool.advance .sender
                (serving (.ok ⟨0, Wire.stamp remote node (offerMessage receiver.offer)⟩))
                (Function.update pool.shared node []))
              (0 + 2 * (source.messages (source.due receiver.offer)).length) :=
            @Stage.pushing _ source node remote _ fuel receiver [] _ _ ?_ verified enough rfl
              (fun chunk isDue => List.mem_of_mem_filter isDue) ?_
              ((Pool.advance_threads_self _ _ _ _).trans sends)
              ((Pool.advance_threads_of_ne _ _ _ receiverNe).trans collects)
          · simpa [Source.messages, Nat.mul_add] using stage
          · simp [apart.symm, onTheWay.2]
          · intro chunk isThere
            by_cases isOffered : chunk.index ∈ receiver.offer
            · exact .inr (List.mem_filter.mp isOffered).2
            · exact .inl (List.mem_filter.mpr ⟨isThere, by simpa using isOffered⟩)
      | receiver =>
          rw [collects] at isThread
          cases collect_performs (Nat.zero_lt_of_lt enough) isThread
          rcases receive_answer isAnswer with ⟨frame, rest, isFirst, _⟩
          rw [onTheWay.2] at isFirst
          cases isFirst
  | @pushing fuel receiver inflight unsent due onTheWay verified enough isDue isPart isHeld sends
      collects =>
      cases party with
      | sender =>
          rw [sends] at isThread
          rcases sending_of_perform isThread with ⟨message, rest, rfl⟩
          cases isThread
          cases isAnswer
          have isLonger : (inflight ++ [message]) ++ rest = source.messages due := by
            rw [← isDue]
            simp
          refine ⟨(inflight ++ [message]).length + 2 * rest.length, ?_,
            .pushing ?_ verified enough isLonger isPart isHeld
              (Pool.advance_threads_self _ _ _ _)
              ((Pool.advance_threads_of_ne _ _ _ receiverNe).trans collects)⟩
          · simp
            omega
          · simp [onTheWay]
      | receiver =>
          rw [collects] at isThread
          cases collect_performs (Nat.zero_lt_of_lt enough) isThread
          rcases receive_answer isAnswer with ⟨frame, rest, isFirst, rfl, rfl⟩
          rw [isFirst] at onTheWay
          cases inflight with
          | nil => simp at onTheWay
          | cons message later =>
              rcases List.cons.inj onTheWay with ⟨isFrame, isRest⟩
              refine ⟨later.length + 2 * unsent.length, by simp; omega, ?_⟩
              exact setting.stage_received isFrame (by simpa using isRest) verified enough isDue
                isPart isHeld ((Pool.advance_threads_of_ne _ _ _ senderNe).trans sends) isThread
                (Pool.advance_threads_self _ _ _ _)
  | returned sender receiver =>
      cases party with
      | sender => rw [sender] at isThread; cases isThread
      | receiver => rw [receiver] at isThread; cases isThread

omit [ContentHash] in
theorem step_moves {pool : Link.Pool} {party : Party} {op : Net.Op}
    {next : Net.Answer op → Program Net.Op Net.Answer (Except Raised Bytes × Unit)}
    (isThread : pool.threads party = .perform op next)
    (isAnswered : Link.respond party () pool.shared op ≠ none) :
    (Pool.step Link.respond pool (party, ())).2 ≠ none := by
  rcases Option.ne_none_iff_exists'.mp isAnswered with ⟨⟨answer, shared⟩, isAnswer⟩
  simp [Pool.step, isThread, isAnswer]

/-- While a transfer is not over one of its parties can move. -/
theorem Setting.stage_moves (setting : Setting source node remote) {pool : Link.Pool} {left : ℕ}
    (stage : Stage source node remote pool left) :
    pool.threads .receiver = .done (.ok source.data, ()) ∨
      (∃ op next, pool.threads .receiver = .perform op next) ∧
        ∃ party, (Pool.step Link.respond pool (party, ())).2 ≠ none := by
  have performs : ∀ {fuel : ℕ} {receiver : Receiver}, 0 < fuel →
      ∃ next, collect remote fuel receiver () = .perform (.receive remote) next := by
    intro fuel receiver isFuelled
    cases fuel with
    | zero => omega
    | succ fuel => exact ⟨_, rfl⟩
  cases stage with
  | @offering fuel receiver quiet verified enough serves runs =>
      rcases run_sends receiver fuel remote node with ⟨running, isRun, _⟩
      have isThread := runs.trans isRun
      exact .inr ⟨⟨_, _, isThread⟩, .receiver, step_moves isThread (by simp [Link.respond])⟩
  | @offered fuel receiver onTheWay verified enough serves collects =>
      rcases @serve_receives source node remote setting.readable with ⟨serving, isServe, _⟩
      rcases performs (Nat.zero_lt_of_lt enough) with ⟨reading, isCollect⟩
      exact .inr ⟨⟨_, _, collects.trans isCollect⟩, .sender,
        step_moves (serves.trans isServe) (by simp [Link.respond, onTheWay.1])⟩
  | @pushing fuel receiver inflight unsent due onTheWay verified enough isDue isPart isHeld sends
      collects =>
      rcases performs (Nat.zero_lt_of_lt enough) with ⟨reading, isCollect⟩
      have isThread := collects.trans isCollect
      refine .inr ⟨⟨_, _, isThread⟩, ?_⟩
      cases unsent with
      | cons message rest => exact ⟨.sender, step_moves sends (by simp [Link.respond])⟩
      | nil =>
          -- the close frame at least is on its way
          cases isLink : pool.shared remote with
          | nil =>
              rw [isLink] at onTheWay
              simp only [List.map_nil, List.nil_eq, List.map_eq_nil_iff] at onTheWay
              simp [Source.messages, onTheWay] at isDue
          | cons frame rest =>
              exact ⟨.receiver, step_moves isThread (by simp [Link.respond, isLink])⟩
  | returned sender receiver => exact .inl receiver

/-- The operations done and the operations left of a transfer. -/
theorem Setting.stage_run (setting : Setting source node remote) {receiver : Receiver}
    (verified : receiver.Faithful source) {fuel : ℕ}
    (enough : (source.due receiver.offer).length < fuel) (schedule : List (Party × Unit)) :
    ∃ left, (Pool.trace Link.respond (Link.start source receiver fuel node remote)
          schedule).length + left = 2 * (source.due receiver.offer).length + 4 ∧
      Stage source node remote
        (Pool.run Link.respond (Link.start source receiver fuel node remote) schedule) left := by
  refine Pool.run_induction (fun moments pool => ∃ left,
    moments.length + left = 2 * (source.due receiver.offer).length + 4 ∧
      Stage source node remote pool left) ?_ ?_
  · exact ⟨_, by simp, .offering ⟨rfl, rfl⟩ verified enough rfl rfl⟩
  · rintro moments pool party choice op next answer shared ⟨left, isTotal, stage⟩ isThread isAnswer
    rcases setting.stage_advance stage isThread isAnswer with ⟨rest, rfl, further⟩
    exact ⟨rest, by simp; omega, further⟩

theorem setting_of_newSource (collisionFree : Function.Injective hash) {id name : String}
    {data : Bytes} {chunkSize : ℤ} (fits : (data.length : ℤ) ≤ maxAlloc)
    (builds : newSource id name data chunkSize = .ok source) (apart : node ≠ remote) :
    Setting source node remote := by
  rcases cut_of_newSource builds with ⟨cut, rfl⟩
  refine ⟨cut, ?_, collisionFree, fits, apart⟩
  intro chunk isThere
  rcases List.mem_iff_getElem?.mp isThere with ⟨position, isPosition⟩
  rw [cut.chunk position chunk isPosition]
  exact chunkData_of_newSource builds isPosition

/-- Data that is not the part of the source at its index is refused. -/
theorem Source.Cut.refuses (cut : source.Cut) (collisionFree : Function.Injective Sync.hash)
    {receiver : Receiver} (isManifest : receiver.manifest = source.manifest) {chunk : Chunk}
    {data : Bytes} (isOther : data ≠ source.part chunk.index) : receiver.Refuses chunk data := by
  by_cases isNegative : chunk.index < 0
  · exact .inl isNegative
  · by_cases isBeyond : (receiver.manifest.chunks.length : ℤ) ≤ chunk.index
    · exact .inr (.inl isBeyond)
    · have inRange : chunk.index.toNat < receiver.manifest.chunks.length := by omega
      have isThere : ∃ want, receiver.manifest.chunks[chunk.index.toNat]? = some want :=
        ⟨_, List.getElem?_eq_getElem inRange⟩
      rcases isThere with ⟨want, isWant⟩
      refine .inr (.inr ⟨want, isWant, .inr ?_⟩)
      rw [isManifest] at isWant
      have isNat : ((chunk.index.toNat : ℕ) : ℤ) = chunk.index := by omega
      have isChunk := cut.chunk _ _ isWant
      rw [isNat] at isChunk
      rw [isChunk]
      intro sameHash
      exact isOther (collisionFree sameHash)

/-- A receiver that was given any chunks of a built source, over two FIFO connections that
fail no send: in every interleaving with the sender it either has returned the bytes of the
source, or still runs and one of the two can move, and no interleaving moves more often than
twice for each chunk and four times more. Whatever messages a receiver reads, the bytes it
returns have the hash of its manifest; and a chunk that it refuses, as it does every chunk
with other data than the source, is answered with an error and changes nothing. -/
theorem resumed_exactly (collisionFree : Function.Injective hash) {id name : String} {data : Bytes}
    {chunkSize : ℤ} (fits : (data.length : ℤ) ≤ maxAlloc) {source : Source}
    (builds : newSource id name data chunkSize = .ok source) {node remote : NodeId}
    (apart : node ≠ remote) {fuel : ℕ} (enough : source.manifest.chunks.length < fuel) :
    (∀ given : List (Chunk × Bytes), ∀ schedule : List (Party × Unit),
      let start := Link.start source (Receiver.takeAll { manifest := source.manifest } given) fuel
        node remote
      let pool := Pool.run Link.respond start schedule
      (pool.threads .receiver = .done (.ok data, ()) ∨
        (∃ op next, pool.threads .receiver = .perform op next) ∧
          ∃ party, (Pool.step Link.respond pool (party, ())).2 ≠ none) ∧
      (Pool.trace Link.respond start schedule).length ≤ 2 * source.manifest.chunks.length + 4) ∧
    (∀ (receiver : Receiver) (fuel : ℕ) (events : List Net.Event) (bytes : Bytes),
      (receiver.run fuel remote node).Does () events (.ok bytes) () →
        hash bytes = receiver.manifest.hash) ∧
    ∀ (receiver between : Receiver) (messages later : List Message) (message : Message)
      (body : ChunkBody), receiver.consume messages = (none, between) → message.kind = .chunk →
      decodeBody message (·.chunk) = .ok body →
      between.Refuses body.chunk body.data ∨
        receiver.manifest = source.manifest ∧ body.data ≠ source.part body.chunk.index →
      ∃ error, between.take body.chunk body.data = (some error, between) ∧
        receiver.consume (messages ++ message :: later) =
          (some (.error (.error error)), between) := by
  have setting : Setting source node remote :=
    setting_of_newSource collisionFree fits builds apart
  rcases cut_of_newSource builds with ⟨cut, isData⟩
  refine ⟨?_, ?_, ?_⟩
  · intro given schedule
    have verified : Receiver.Faithful (Receiver.takeAll { manifest := source.manifest } given)
        source := (Receiver.faithful_new source).takeAll cut collisionFree given
    have isShorter := List.length_filter_le
      (fun chunk : Chunk => chunk.index ∉
        (Receiver.takeAll { manifest := source.manifest } given).offer) source.manifest.chunks
    rcases setting.stage_run verified (Nat.lt_of_le_of_lt isShorter enough) schedule with
      ⟨left, isTotal, stage⟩
    refine ⟨?_, ?_⟩
    · rw [← isData]
      exact setting.stage_moves stage
    · rw [Source.due] at isTotal
      omega
  · intro receiver fuel events bytes does
    rcases Receiver.run_ok does with ⟨chunks, close, after, collects, _, completes, _⟩
    rw [← collects.manifest]
    exact (Receiver.complete_ok completes).2.1
  · intro receiver between messages later message body goesOn isChunk decodes isBad
    have isManifest : between.manifest = receiver.manifest := by
      rw [← receiver.consume_manifest messages, goesOn]
    have refuses : between.Refuses body.chunk body.data := by
      rcases isBad with refuses | ⟨isSource, isOther⟩
      · exact refuses
      · exact cut.refuses collisionFree (isManifest.trans isSource) isOther
    rcases Receiver.take_of_refuses refuses with ⟨error, isRefused⟩
    refine ⟨error, isRefused, ?_⟩
    rw [Receiver.consume_append goesOn]
    simp only [Receiver.consume, isChunk, decodes, isRefused]

omit [ContentHash] in
theorem textHash_injective : Function.Injective textHash.sum := by
  have isByte : ∀ byte : Fin 256, (Char.ofNat byte.val).toNat = byte.val := by decide +kernel
  have isChar : Function.Injective fun byte : UInt8 => Char.ofNat byte.toNat := by
    intro left right same
    have chars := congrArg Char.toNat same
    have leftByte := isByte ⟨left.toNat, left.toNat_lt⟩
    have rightByte := isByte ⟨right.toNat, right.toNat_lt⟩
    simp only at chars leftByte rightByte
    rw [leftByte, rightByte] at chars
    exact UInt8.toNat_inj.mp chars
  intro left right same
  exact List.map_injective_iff.mpr isChar (String.ofList_injective same)

omit [ContentHash] in
/-- Three bytes in two chunks, the first of which the receiver was given before. -/
theorem threeBytes_resumed :
    letI := textHash
    let source : Source :=
      { manifest :=
          { id := "m", name := "p", size := 3, chunkSize := 2, hash := hash [1, 2, 3]
            chunks := [chunkOf 0 0 [1, 2], chunkOf 1 2 [3]] }
        data := [1, 2, 3] }
    let start := Link.start source
      (Receiver.takeAll { manifest := source.manifest } [(chunkOf 0 0 [1, 2], [1, 2])]) 3 "a" "b"
    let pool := Pool.run Link.respond start
      [(.receiver, ()), (.sender, ()), (.sender, ()), (.receiver, ()), (.sender, ())]
    (pool.threads .receiver = .done (.ok [1, 2, 3], ()) ∨
      (∃ op next, pool.threads .receiver = .perform op next) ∧
        ∃ party, (Pool.step Link.respond pool (party, ())).2 ≠ none) ∧
    (Pool.trace Link.respond start
      [(.receiver, ()), (.sender, ()), (.sender, ()), (.receiver, ()), (.sender, ())]).length ≤ 8 :=
  (@resumed_exactly textHash textHash_injective "m" "p" [1, 2, 3] 2 (by decide) _ rfl "a" "b"
    (by decide) 3 (by decide)).1 [(@chunkOf textHash 0 0 [1, 2], [1, 2])] _

end Aa.Sync.Transfer
