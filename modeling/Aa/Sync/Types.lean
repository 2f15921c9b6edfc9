import Aa.Library.GoError
import Aa.Library.GoText

/-!
# Types and errors of remote sync
-/

namespace Aa.Sync

open Aa.Library

/-- The sentinel errors of sync components. -/
inductive Sentinel where
  | invalid
  | notFound
  | conflict
  | unauthorized
  | stale
  | corrupt
  | deletionGuard
  | authority
deriving DecidableEq

instance : GoSentinel Sentinel where
  text
    | .invalid => "sync: invalid input"
    | .notFound => "sync: not found"
    | .conflict => "sync: conflict"
    | .unauthorized => "sync: unauthorized"
    | .stale => "sync: stale"
    | .corrupt => "sync: corrupt payload"
    | .deletionGuard => "sync: deletion refused"
    | .authority => "sync: execution authority is not granted"

abbrev Error := GoError Sentinel

/-- A peer's stable identity. -/
abbrev NodeId := String

abbrev Bytes := List UInt8

/-- The content hash of the node; what it maps together is not fixed here. -/
class ContentHash where
  sum : Bytes → String

/-- Text for bytes, which maps no two of them together. -/
abbrev textHash : ContentHash where
  sum data := String.ofList (data.map fun byte => Char.ofNat byte.toNat)

/-- The hash of data, as text. -/
def hash [ContentHash] (data : Bytes) : String := ContentHash.sum data

/-- A time of the node's clock, as text. -/
abbrev Time := String

/-- One content-addressed slice of a payload. -/
structure Chunk where
  index : ℤ := 0
  offset : ℤ := 0
  length : ℤ := 0
  hash : String := ""
deriving DecidableEq

/-- A payload as a sequence of verified chunks. -/
structure Manifest where
  id : String := ""
  name : String := ""
  size : ℤ := 0
  chunkSize : ℤ := 0
  hash : String := ""
  chunks : List Chunk := []
deriving DecidableEq

/-- A unit of work moved to another node. -/
structure WorkPackage where
  id : String := ""
  projectId : String := ""
  name : String := ""
  payload : Bytes := []
  hash : String := ""
deriving DecidableEq

/-- A named output moved between nodes. -/
structure Artifact where
  id : String := ""
  name : String := ""
  size : ℤ := 0
  hash : String := ""
deriving DecidableEq

/-- The lifecycle of a transfer. -/
inductive TransferState where
  | pending
  | active
  | complete
  | failed
deriving DecidableEq

/-- The outcome of a distribution or a fetch. -/
structure Receipt where
  transferId : String
  workPackageId : String := ""
  artifactId : String := ""
  nodeId : NodeId
  state : TransferState
  hash : String := ""
  bytes : ℤ
  createdAt : Time
deriving DecidableEq

/-- One version of a path in a replica. -/
structure RevisionRecord where
  id : String
  path : String
  revision : ℕ
  hash : String := ""
  size : ℤ := 0
  deleted : Bool := false
deriving DecidableEq

/-- The kind of a revision operation; the wire carries it as a string. -/
inductive OpKind where
  | put
  | delete
  | other (name : String)
deriving DecidableEq

/-- One application step produced by a revision diff. -/
structure Op where
  kind : OpKind
  record : RevisionRecord
deriving DecidableEq

/-- A deletion is the operation of a tombstone, and of nothing else. -/
def Op.WellFormed (op : Op) : Prop :=
  op.kind = .delete ↔ op.record.deleted = true

instance (op : Op) : Decidable op.WellFormed := inferInstanceAs (Decidable (_ ↔ _))

/-- A stable idempotency key from an operation name and its parts. -/
def key (operation : String) (parts : List String) : String :=
  Go.join ":" (Go.trimSpace operation :: parts.map Go.trimSpace)

/-- The idempotency key for distributing a work package or fetching an artifact. -/
def transferKey (kind objectId : String) (node : NodeId) : String :=
  key kind [objectId, node]

end Aa.Sync
