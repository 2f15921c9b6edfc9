import Aa.Contracts.Rpc
import Aa.Forge.Fake

/-!
# The forge RPC service

The adapter of the forge to inter-module RPC version 1. Merging is not among its
methods.
-/

namespace Aa.Forge.Rpc

open Aa.Library Aa.Contracts.Rpc

def methodCreateIssue : String := "forge.createIssue"
def methodOpenPR : String := "forge.openPullRequest"
def methodCheckpoint : String := "forge.checkpoint"
def methodRelease : String := "forge.release"

abbrev Service := Contracts.Rpc.Service Fake Ref

/-- A service over a forge. -/
def new (forge : Fake) : Service := { state := forge }

def errorFrom (error : Error) : RpcError :=
  if error.is .invalid ∨ error.is .notFound then ⟨codeInvalidParams, error.message⟩
  else if error.is .rateLimited then ⟨codeUnavailable, error.message⟩
  else ⟨codeInternalError, error.message⟩

def stringField (params : Option Json.Object) (field : String) : Except Error String :=
  requiredString (.wrap .invalid) params field

def decodeField {α : Type} (params : Option Json.Object) (field : String)
    (decode : GoJson.Decoder α) (zero : α) : Except Error α :=
  match (params.getD []).lookup field with
  | none => .error (.wrap .invalid (field ++ " is required"))
  | some value =>
      match decode value zero with
      | .error message => .error (.wrap .invalid (field ++ ": " ++ message))
      | .ok target => .ok target

/-- The repository and the object of a create request. -/
def createParams {α : Type} (request : Request) (field : String) (decode : GoJson.Decoder α)
    (zero : α) : Except Error (String × α) := do
  let repoId ← stringField request.params "repoId"
  let object ← decodeField request.params field decode zero
  return (repoId, object)

/-- The common part of the methods: the parameters, the create, and its reference. -/
def createVia {α : Type} (params : Except Error (String × α)) (forge : Fake)
    (create : String → α → Except Error α × Fake) (ref : α → Ref) :
    Except Error Ref × Fake :=
  match params with
  | .error error => (.error error, forge)
  | .ok (repoId, object) =>
      let (created, forge) := create repoId object
      (created.map ref, forge)

def createIssue (cancelled : Option Error) (forge : Fake) (request : Request) :
    Except Error Ref × Fake :=
  createVia (createParams request "issue" decodeIssue {}) forge (forge.createIssue cancelled)
    (·.ref)

def openParams (request : Request) : Except Error (String × PullRequest) :=
  createParams request "pullRequest" decodePullRequest {}

def openPullRequest (cancelled : Option Error) (forge : Fake) (request : Request) :
    Except Error Ref × Fake :=
  createVia (openParams request) forge (forge.openPullRequest cancelled) (·.ref)

def checkpoint (cancelled : Option Error) (forge : Fake) (request : Request) :
    Except Error Ref × Fake :=
  createVia (createParams request "checkpoint" decodeCheckpoint {}) forge
    (forge.createCheckpoint cancelled) (fun created => { kind := "checkpoint", id := created.id })

def release (cancelled : Option Error) (forge : Fake) (request : Request) :
    Except Error Ref × Fake :=
  createVia (createParams request "release" decodeRelease {}) forge
    (forge.createRelease cancelled) (fun created => { kind := "release", id := created.id })

def dispatch (cancelled : Option Error) (forge : Fake) (request : Request) :
    Option (Except Error Ref × Fake) :=
  if request.method = methodCreateIssue then some (createIssue cancelled forge request)
  else if request.method = methodOpenPR then some (openPullRequest cancelled forge request)
  else if request.method = methodCheckpoint then some (checkpoint cancelled forge request)
  else if request.method = methodRelease then some (release cancelled forge request)
  else none

/-- The adapter, for a request whose context has the given error, if any. -/
def adapter (cancelled : Option Error) : Adapter Fake Error Ref where
  dispatch := dispatch cancelled
  errorFrom := errorFrom

def handle (service : Service) (cancelled : Option Error) (request : Request) :
    Response Ref × Service :=
  (adapter cancelled).handle service request

end Aa.Forge.Rpc
