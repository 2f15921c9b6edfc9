import Aa.Contracts.Rpc
import Aa.Sync.Executions

/-!
# The sync RPC service

The adapter of sync to inter-module RPC version 1. It distributes work packages, fetches
artifacts and reports their status.
-/

namespace Aa.Sync.Rpc

open Aa.Library Aa.Contracts.Rpc

def methodDistribute : String := "sync.distribute"
def methodFetchArtifact : String := "sync.fetchArtifact"
def methodStatus : String := "sync.status"

/-- The result object of a method. -/
inductive RpcResult where
  | accepted (transferId : String)
  | fetched (transferId hash : String)
  | transfers (receipts : List Receipt)
deriving DecidableEq

/-- A panic is not answered, it ends the process; it is listed with the internal errors. -/
def errorFrom : Raised → RpcError
  | .panic => ⟨codeInternalError, "panic"⟩
  | .error error =>
      if error.is .invalid then ⟨codeInvalidParams, error.message⟩
      else if error.is .notFound then ⟨codeNotFound, error.message⟩
      else ⟨codeInternalError, error.message⟩

section Decoding

open GoJson

/-- The value of a character of the base64 alphabet. -/
def sextet (c : Char) : Option ℕ :=
  if 'A' ≤ c ∧ c ≤ 'Z' then some (c.toNat - 65)
  else if 'a' ≤ c ∧ c ≤ 'z' then some (c.toNat - 71)
  else if '0' ≤ c ∧ c ≤ '9' then some (c.toNat + 4)
  else if c = '+' then some 62
  else if c = '/' then some 63
  else none

/-- The bytes of padded base64 text. -/
def base64 : List Char → Option Bytes
  | [] => some []
  | [first, second, '=', '='] => do
      let a ← sextet first
      let b ← sextet second
      return [UInt8.ofNat (a * 4 + b / 16)]
  | [first, second, third, '='] => do
      let a ← sextet first
      let b ← sextet second
      let c ← sextet third
      return [UInt8.ofNat (a * 4 + b / 16), UInt8.ofNat (b * 16 + c / 4)]
  | first :: second :: third :: fourth :: rest => do
      let a ← sextet first
      let b ← sextet second
      let c ← sextet third
      let d ← sextet fourth
      let later ← base64 rest
      return UInt8.ofNat (a * 4 + b / 16) :: UInt8.ofNat (b * 16 + c / 4) ::
        UInt8.ofNat (c * 64 + d) :: later
  | _ => none

def decodeByte : Decoder UInt8
  | .num value, _ =>
      if value.den = 1 ∧ 0 ≤ value.num ∧ value.num ≤ 255 then .ok (UInt8.ofNat value.num.toNat)
      else .error (typeError (.num value) "uint8")
  | .null, target => .ok target
  | value, _ => .error (typeError value "uint8")

/-- A byte slice: base64 text, whose line ends are skipped, or an array of numbers. -/
def decodeBytes : Decoder Bytes
  | .str text, _ =>
      match base64 (text.toList.filter fun c => c ≠ '\n' ∧ c ≠ '\r') with
      | some bytes => .ok bytes
      | none => .error "illegal base64 data"
  | value, target => slice 0 decodeByte value target

def decodeWorkPackage : Decoder WorkPackage :=
  struct "sync.WorkPackage"
    [field "id" string (·.id) (fun package value => { package with id := value }),
      field "projectId" string (·.projectId)
        (fun package value => { package with projectId := value }),
      field "name" string (·.name) (fun package value => { package with name := value }),
      field "payload" decodeBytes (·.payload)
        (fun package value => { package with payload := value }),
      field "hash" string (·.hash) (fun package value => { package with hash := value })]

end Decoding

def stringField (params : Option Json.Object) (name : String) : Task String :=
  Task.tryIt (requiredString (.wrap .invalid) params name)

/-- The work package of a request: given whole, or by the id of a registered one. -/
def workPackage (node : NodeId) (params : Option Json.Object) : Task WorkPackage :=
  match (params.getD []).lookup "workPackage" with
  | some raw =>
      match decodeWorkPackage raw {} with
      | .error text => Task.fail (.wrap .invalid ("workPackage: " ++ text))
      | .ok package => return package
  | none => do
      let id ← stringField params "workPackageId"
      match ← Task.call (.package node id) with
      | none => Task.fail (.wrap .notFound ("work package " ++ id))
      | some package => return package

variable [ContentHash]

def distribute (node : NodeId) (request : Request) : Task RpcResult := do
  let remote ← stringField request.params "nodeId"
  let package ← workPackage node request.params
  let receipt ← Distributor.distribute node package remote
  return .accepted receipt.transferId

def fetchArtifact (fuel : ℕ) (node : NodeId) (request : Request) : Task RpcResult := do
  let remote ← stringField request.params "nodeId"
  let id ← stringField request.params "artifactId"
  let receipt ← Distributor.fetchArtifact fuel node id remote
  return .fetched receipt.transferId receipt.hash

def status (node : NodeId) (request : Request) : Task RpcResult := do
  let remote := (Json.stringAt request.params "nodeId").getD ""
  let receipts ← Task.call (.status node remote)
  return .transfers receipts

/-- The task of a method; none is an unknown method. -/
def method (fuel : ℕ) (node : NodeId) (request : Request) : Option (Task RpcResult) :=
  if request.method = methodDistribute then some (distribute node request)
  else if request.method = methodFetchArtifact then some (fetchArtifact fuel node request)
  else if request.method = methodStatus then some (status node request)
  else none

/-- What a request meets: the frames it is followed for, the net its node is on while it runs
and what the environment chooses then. -/
structure World where
  fuel : ℕ
  net : Net
  choice : Net.Choice

/-- Performs a method on a net that only it changes; a call that waits for ever ends with its
context. -/
def dispatch (node : NodeId) (world : World) (distributor : Distributor) (request : Request) :
    Option (Except Raised RpcResult × Distributor) :=
  (method world.fuel node request).map fun task =>
    let net := world.net.onDistributor node fun _ => distributor
    match (task ()).solo (Net.respond 0 world.choice) net with
    | none => (.error (.error (.plain "context canceled")), distributor)
    | some ((outcome, _), net) => (outcome, net.distributors node)

end Aa.Sync.Rpc
