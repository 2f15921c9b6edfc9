import Aa.Sync.Types

/-!
# The in-memory transport

Every node has a FIFO inbox: a send appends to the inbox of the peer, and a receive takes
the oldest message of the local one, whoever sent it. A raw message body is held as what
each decoder of the sync protocols makes of it.
-/

namespace Aa.Sync

open Aa.Library

/-- Opens a transfer: the object, its manifest and its name. -/
structure HelloBody where
  object : String := ""
  manifest : Manifest := {}
  id : String := ""
  name : String := ""
deriving DecidableEq

/-- Asks for an object. -/
structure RequestBody where
  object : String := ""
  id : String := ""
deriving DecidableEq

structure ChunkBody where
  chunk : Chunk := {}
  data : Bytes := []
deriving DecidableEq

/-- The chunks a receiver holds already. -/
structure OfferBody where
  held : List ℤ := []
deriving DecidableEq

/-- A raw JSON body: the outcome of decoding it into each body of the protocols. -/
structure Body where
  hello : Except String HelloBody
  request : Except String RequestBody
  chunk : Except String ChunkBody
  offer : Except String OfferBody

/-- The encoding of a body: the fields of another body are found by their names. -/
def HelloBody.encode (body : HelloBody) : Body where
  hello := .ok body
  request := .ok { object := body.object, id := body.id }
  chunk := .ok {}
  offer := .ok {}

def RequestBody.encode (body : RequestBody) : Body where
  hello := .ok { object := body.object, id := body.id }
  request := .ok body
  chunk := .ok {}
  offer := .ok {}

def ChunkBody.encode (body : ChunkBody) : Body where
  hello := .ok {}
  request := .ok {}
  chunk := .ok body
  offer := .ok {}

def OfferBody.encode (body : OfferBody) : Body where
  hello := .ok {}
  request := .ok {}
  chunk := .ok {}
  offer := .ok body

namespace Transport

def errClosed : Error := .plain "transport: closed"
def errUnknownPeer : Error := .plain "transport: unknown peer"
def errDropped : Error := .plain "transport: message dropped"

/-- The kinds of messages; the wire carries them as strings. -/
inductive Kind where
  | hello
  | chunk
  | ack
  | revision
  | receipt
  | close
  | other (name : String)
deriving DecidableEq

def Kind.text : Kind → String
  | .hello => "hello"
  | .chunk => "chunk"
  | .ack => "ack"
  | .revision => "revision"
  | .receipt => "receipt"
  | .close => "close"
  | .other name => name

/-- One message between two nodes. -/
structure Message where
  kind : Kind
  sender : NodeId
  receiver : NodeId
  seq : ℕ
  body : Option Body

def newMessage (kind : Kind) (sender receiver : NodeId) (seq : ℕ) (body : Option Body) :
    Message :=
  { kind, sender, receiver, seq, body }

/-- Decodes a message body with one of its decoders. -/
def decodeBody {α : Type} (message : Message) (decode : Body → Except String α) :
    Except Error α :=
  match message.body with
  | none => .error (.wrap .invalid "empty body")
  | some body =>
      match decode body with
      | .error text => .error (.wrap .invalid ("decode body: " ++ text))
      | .ok value => .ok value

/-- A message in an inbox, with the thread that sent it, which no code reads. -/
structure Frame where
  origin : ℕ
  message : Message

/-- The in-memory wire. -/
structure Wire where
  capacity : ℕ := 1024
  inbox : GoMap NodeId (List Frame) := ∅
  closed : GoMap NodeId Bool := ∅
  fail : GoMap NodeId ℤ := ∅

namespace Wire

/-- The messages a node has not taken. -/
def pending (wire : Wire) (node : NodeId) : List Frame := (wire.inbox.lookup node).getD []

def isClosed (wire : Wire) (node : NodeId) : Bool := (wire.closed.lookup node).getD false

def ensure (wire : Wire) (node : NodeId) : Wire :=
  match wire.inbox.lookup node with
  | some _ => wire
  | none =>
      { wire with
        inbox := wire.inbox.insert node []
        closed := wire.closed.insert node false }

/-- Makes the next `count` sends to the node fail. -/
def failNext (wire : Wire) (node : NodeId) (count : ℤ) : Wire :=
  let wire := wire.ensure node
  { wire with fail := wire.fail.insert node ((wire.fail.lookup node).getD 0 + count) }

/-- Opens a connection, which is the pair of its nodes. -/
def dial (wire : Wire) (node remote : NodeId) : Except Error Unit × Wire :=
  if node = "" ∨ remote = "" then (.error ⟨[.invalid], GoSentinel.text Sentinel.invalid⟩, wire)
  else
    let wire := (wire.ensure node).ensure remote
    if wire.isClosed node ∨ wire.isClosed remote then (.error errClosed, wire)
    else (.ok (), wire)

/-- The message with the nodes of its connection filled in. -/
def stamp (node remote : NodeId) (message : Message) : Message :=
  { message with
    sender := if message.sender = "" then node else message.sender
    receiver := if message.receiver = "" then remote else message.receiver }

def send (wire : Wire) (origin : ℕ) (node remote : NodeId) (message : Message) :
    Except Error Unit × Wire :=
  let message := stamp node remote message
  let failures := (wire.fail.lookup remote).getD 0
  if wire.isClosed node then (.error errClosed, wire)
  else if message.sender ≠ node ∨ message.receiver ≠ remote then
    (.error (.wrap .invalid "envelope does not match connection"), wire)
  else if 0 < failures then
    (.error errDropped, { wire with fail := wire.fail.insert remote (failures - 1) })
  else
    match wire.inbox.lookup remote with
    | none => (.error errUnknownPeer, wire)
    | some queue =>
        if queue.length < wire.capacity then
          (.ok (), { wire with inbox := wire.inbox.insert remote (queue ++ [⟨origin, message⟩]) })
        else (.error (.wrap .conflict "inbox full"), wire)

/-- Takes the oldest message of the inbox; none where a receive has to wait. -/
def receive (wire : Wire) (node : NodeId) : Option (Frame × Wire) :=
  match wire.pending node with
  | [] => none
  | frame :: rest => some (frame, { wire with inbox := wire.inbox.insert node rest })

variable {wire : Wire} {node remote : NodeId}

@[simp]
theorem pending_ensure (wire : Wire) (node other : NodeId) :
    (wire.ensure node).pending other = wire.pending other := by
  unfold ensure
  split
  · rfl
  · rename_i isNew
    by_cases isNode : other = node
    · subst isNode
      simp [pending, isNew]
    · simp [pending, isNode]

@[simp]
theorem pending_failNext (wire : Wire) (node other : NodeId) (count : ℤ) :
    (wire.failNext node count).pending other = wire.pending other :=
  pending_ensure wire node other

@[simp]
theorem pending_dial (wire : Wire) (node remote other : NodeId) :
    (wire.dial node remote).2.pending other = wire.pending other := by
  simp only [dial]
  split
  · rfl
  · split <;> simp

/-- A send that succeeds appends the stamped message to the inbox of the peer; one that
fails leaves every inbox as it is. -/
theorem send_cases (wire : Wire) (origin : ℕ) (node remote : NodeId) (message : Message) :
    (∃ error after, wire.send origin node remote message = (.error error, after) ∧
      ∀ other, after.pending other = wire.pending other) ∨
    ∃ after, wire.send origin node remote message = (.ok (), after) ∧
      (stamp node remote message).sender = node ∧
      ∀ other, after.pending other = wire.pending other ++
        if other = remote then [⟨origin, stamp node remote message⟩] else [] := by
  simp only [send]
  split
  · exact .inl ⟨_, _, rfl, fun _ => rfl⟩
  · split
    · exact .inl ⟨_, _, rfl, fun _ => rfl⟩
    · rename_i isEnvelope
      split
      · exact .inl ⟨_, _, rfl, fun _ => rfl⟩
      · split
        · exact .inl ⟨_, _, rfl, fun _ => rfl⟩
        · rename_i queue isQueue
          split
          · refine .inr ⟨_, rfl, by simpa using (not_or.mp isEnvelope).1, ?_⟩
            intro other
            by_cases isRemote : other = remote
            · subst isRemote
              simp [pending, isQueue]
            · simp [pending, isRemote]
          · exact .inl ⟨_, _, rfl, fun _ => rfl⟩

/-- A receive takes the head of the inbox and leaves the other inboxes. -/
theorem receive_eq_some {frame : Frame} {after : Wire}
    (receives : wire.receive node = some (frame, after)) :
    ∀ other, wire.pending other =
      (if other = node then [frame] else []) ++ after.pending other := by
  unfold receive at receives
  split at receives
  · cases receives
  · rename_i first rest isPending
    cases receives
    intro other
    by_cases isNode : other = node
    · subst isNode
      rw [isPending]
      simp [pending]
    · simp [isNode, pending]

end Wire

end Transport

end Aa.Sync
