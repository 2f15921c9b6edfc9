import Mathlib.Algebra.Ring.Int.Defs
import Aa.Sync.Net

/-!
# Chunked transfer

A payload is described by a manifest of chunks. Every chunk and the assembled payload are
verified against the manifest by their hashes, and a sender leaves out the chunks the
receiver offers as held.
-/

namespace Aa.Sync

open Aa.Library Transport

/-- How a call ends early: with an error, or by a panic of the runtime. -/
inductive Raised where
  | error (error : Error)
  | panic
deriving DecidableEq

/-- A call, with the operations of the net as its own. -/
abbrev Task := Coroutine Net.Op Net.Answer Unit Raised

namespace Task

variable {α : Type}

def fail (error : Error) : Task α := Coroutine.raise (.error error)

def check : Except Raised α → Task α
  | .ok value => pure value
  | .error raised => Coroutine.raise raised

def tryIt : Except Error α → Task α
  | .ok value => pure value
  | .error error => fail error

/-- Performs an operation that returns a value. -/
def call (op : Net.Op) : Task (Net.Answer op) := Coroutine.perform op .ok

def dial (node remote : NodeId) : Task Unit :=
  Coroutine.perform (.dial node remote) fun
    | .ok _ => .ok ()
    | .error error => .error (.error error)

def send (node remote : NodeId) (message : Message) : Task Unit :=
  Coroutine.perform (.send node remote message) fun
    | .ok _ => .ok ()
    | .error error => .error (.error error)

def receive (node : NodeId) : Task Message :=
  Coroutine.perform (.receive node) fun
    | .ok frame => .ok frame.message
    | .error error => .error (.error error)

end Task

namespace Transfer

def defaultChunkSize : ℤ := 64 * 1024

/-- The largest allocation of the runtime. -/
def maxAlloc : ℤ := 2 ^ 48

/-- A payload and its manifest. -/
structure Source where
  manifest : Manifest
  data : Bytes

section Hashing

variable [ContentHash]

/-- The chunk of `part` at a position. -/
def chunkOf (index offset : ℕ) (part : Bytes) : Chunk :=
  { index := index, offset := offset, length := part.length, hash := hash part }

/-- The loop that cuts the data from `offset` on; one round for each byte is enough. -/
def chunksFrom (data : Bytes) (chunkSize : ℕ) : (rounds offset index : ℕ) → List Chunk
  | 0, _, _ => []
  | rounds + 1, offset, index =>
      if offset < data.length then
        let stop := min (offset + chunkSize) data.length
        let part := (data.drop offset).take (stop - offset)
        chunkOf index offset part :: chunksFrom data chunkSize rounds (offset + chunkSize) (index + 1)
      else []

/-- The manifest of data cut by a chunk size. -/
def build (id name : String) (data : Bytes) (chunkSize : ℤ) : Except Error Manifest :=
  if id = "" then .error (.wrap .invalid "manifest id is required")
  else
    let chunkSize := if chunkSize ≤ 0 then defaultChunkSize else chunkSize
    .ok
      { id := id
        name := name
        size := data.length
        chunkSize := chunkSize
        hash := hash data
        chunks := chunksFrom data chunkSize.toNat data.length 0 0 }

def newSource (id name : String) (data : Bytes) (chunkSize : ℤ) : Except Error Source :=
  (build id name data chunkSize).map fun manifest => { manifest := manifest, data := data }

end Hashing

/-- The bytes of a chunk; a slice out of range is a panic. -/
def Source.chunkData (source : Source) (index : ℤ) : Except Raised Bytes :=
  match if index < 0 then none else source.manifest.chunks[index.toNat]? with
  | none => .error (.error (.wrap .notFound ("chunk " ++ Go.itoa index)))
  | some chunk =>
      let start := chunk.offset
      let stop := start + chunk.length
      if (source.data.length : ℤ) < stop then
        .error (.error (.wrap .corrupt ("chunk " ++ Go.itoa index ++ " out of range")))
      else if start < 0 ∨ stop < start then .error .panic
      else .ok ((source.data.drop start.toNat).take (stop - start).toNat)

/-- The verified chunks of one manifest. -/
structure Receiver where
  manifest : Manifest
  parts : GoMap ℤ Bytes := ∅
  held : GoMap ℤ Bool := ∅

namespace Receiver

def isHeld (receiver : Receiver) (index : ℤ) : Bool := (receiver.held.lookup index).getD false

/-- The indexes of the manifest's chunks. -/
def indexes (receiver : Receiver) : List ℤ :=
  (List.range receiver.manifest.chunks.length).map fun index : ℕ => (index : ℤ)

/-- The received indexes in order. -/
def offer (receiver : Receiver) : List ℤ := receiver.indexes.filter receiver.isHeld

def missing (receiver : Receiver) : List ℤ :=
  receiver.indexes.filter fun index => !receiver.isHeld index

variable [ContentHash]

/-- Verifies and stores one chunk. -/
def accept (receiver : Receiver) (chunk : Chunk) (data : Bytes) : Except Error Receiver :=
  match if chunk.index < 0 then none else receiver.manifest.chunks[chunk.index.toNat]? with
  | none => .error (.wrap .invalid ("chunk index " ++ Go.itoa chunk.index))
  | some want =>
      if (data.length : ℤ) ≠ want.length then
        .error (.wrap .corrupt ("chunk " ++ Go.itoa chunk.index ++ " length " ++
          Go.itoa data.length ++ ", want " ++ Go.itoa want.length))
      else if hash data ≠ want.hash then
        .error (.wrap .corrupt ("chunk " ++ Go.itoa chunk.index ++ " hash mismatch"))
      else
        .ok { receiver with
              parts := receiver.parts.insert chunk.index data
              held := receiver.held.insert chunk.index true }

/-- Assembles the payload and verifies its hash; the buffer is allocated at the size the
manifest gives. -/
def complete (receiver : Receiver) : Except Raised Bytes :=
  if receiver.missing ≠ [] then
    .error (.error (.wrap .notFound (Go.itoa receiver.missing.length ++ " chunks missing")))
  else if receiver.manifest.size < 0 ∨ maxAlloc < receiver.manifest.size then .error .panic
  else
    let buffer := receiver.indexes.flatMap fun index => (receiver.parts.lookup index).getD []
    if hash buffer ≠ receiver.manifest.hash then
      .error (.error (.wrap .corrupt "payload hash mismatch"))
    else .ok buffer

end Receiver

/-! ## The protocol -/

def chunkMessage (chunk : Chunk) (data : Bytes) : Message :=
  newMessage .chunk "" "" (chunk.index + 1).toNat (some (ChunkBody.encode { chunk, data }))

def closeMessage : Message := newMessage .close "" "" 0 none

def offerMessage (held : List ℤ) : Message :=
  newMessage .ack "" "" 0 (some (OfferBody.encode { held }))

/-- Sends the chunks that are not held, then a close frame. -/
def push (source : Source) (node remote : NodeId) (held : List ℤ) : List Chunk → Task Unit
  | [] => Task.send node remote closeMessage
  | chunk :: rest =>
      if chunk.index ∈ held then push source node remote held rest
      else do
        let data ← Task.check (source.chunkData chunk.index)
        Task.send node remote (chunkMessage chunk data)
        push source node remote held rest

/-- Reads the offer of the receiver. -/
def waitOffer (node : NodeId) : Task (List ℤ) := do
  let message ← Task.receive node
  match message.kind with
  | .ack => do
      let offer ← Task.tryIt (decodeBody message (·.offer))
      return offer.held
  | kind => Task.fail (.wrap .invalid ("expected offer, got " ++ kind.text))

/-- Waits for an offer and sends the missing chunks. -/
def serve (source : Source) (node remote : NodeId) : Task Unit := do
  let held ← waitOffer node
  push source node remote held source.manifest.chunks

variable [ContentHash]

/-- The loop that collects chunks until a close frame. It is followed for as many frames
as `fuel` says and is not scheduled any more after them. -/
def collect (node : NodeId) : (fuel : ℕ) → Receiver → Task Bytes
  | 0, _ => Coroutine.perform .stall fun _ => .error .panic
  | fuel + 1, receiver => do
      let message ← Task.receive node
      match message.kind with
      | .chunk => do
          let body ← Task.tryIt (decodeBody message (·.chunk))
          let receiver ← Task.tryIt (receiver.accept body.chunk body.data)
          collect node fuel receiver
      | .close => Task.check receiver.complete
      | kind => Task.fail (.wrap .invalid ("unexpected frame " ++ kind.text))

/-- Offers what the receiver holds and collects the rest. -/
def Receiver.run (receiver : Receiver) (fuel : ℕ) (node remote : NodeId) : Task Bytes := do
  Task.send node remote (offerMessage receiver.offer)
  collect node fuel receiver

end Transfer

end Aa.Sync
