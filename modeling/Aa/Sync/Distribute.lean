import Aa.Sync.Transfer

/-!
# Distribution of work packages and artifacts

A distributor sends work packages and pulls artifacts on behalf of one node; a peer serves
the incoming sessions of its node. All calls of all nodes are the threads of one pool.
-/

namespace Aa.Sync

open Aa.Library Transport

def objectWorkPackage : String := "workpackage"
def objectArtifact : String := "artifact"

def helloMessage (body : HelloBody) : Message := newMessage .hello "" "" 0 (some body.encode)

def requestMessage (body : RequestBody) : Message :=
  newMessage .revision "" "" 0 (some body.encode)

variable [ContentHash]

namespace Distributor

def distributeKey (id : String) (remote : NodeId) : String := transferKey "distribute" id remote

def artifactKey (id : String) (remote : NodeId) : String := transferKey "artifact" id remote

/-- The receipt of a completed distribution. -/
def distributed (package : WorkPackage) (remote : NodeId) (manifest : Manifest) (now : Time) :
    Receipt :=
  { transferId := distributeKey package.id remote
    workPackageId := package.id
    nodeId := remote
    state := .complete
    hash := manifest.hash
    bytes := manifest.size
    createdAt := now }

/-- The receipt of a completed fetch. -/
def fetched (id : String) (remote : NodeId) (manifest : Manifest) (now : Time) : Receipt :=
  { transferId := artifactKey id remote
    artifactId := id
    nodeId := remote
    state := .complete
    hash := manifest.hash
    bytes := manifest.size
    createdAt := now }

/-- The hello frame of a work package. -/
def packageHello (package : WorkPackage) (manifest : Manifest) : HelloBody :=
  { object := objectWorkPackage, manifest := manifest, id := package.id, name := package.name }

/-- Moves a work package to a remote node; the manifest it was moved with. -/
def sendPackage (node : NodeId) (package : WorkPackage) (remote : NodeId) : Task Manifest := do
  let source ← Task.tryIt (Transfer.newSource package.id package.name package.payload 0)
  Task.dial node remote
  Task.send node remote (helloMessage (packageHello package source.manifest))
  Transfer.serve source node remote
  return source.manifest

/-- Sends a work package to a remote node, once for each package and node. -/
def distribute (node : NodeId) (package : WorkPackage) (remote : NodeId) : Task Receipt := do
  if package.id = "" ∨ remote = "" then
    Task.fail (.wrap .invalid "work package id and node are required")
  else
    let key := distributeKey package.id remote
    match ← Task.call (.cached node key) with
    | some receipt => return receipt
    | none =>
        let package := { package with hash := hash package.payload }
        let manifest ← sendPackage node package remote
        Task.call (.putPackage node package)
        let now ← Task.call .now
        let receipt := distributed package remote manifest now
        Task.call (.store node key receipt)
        return receipt

/-- Pulls an artifact from a remote node; its manifest and its bytes. -/
def pullArtifact (fuel : ℕ) (node : NodeId) (id : String) (remote : NodeId) :
    Task (Manifest × Bytes) := do
  Task.dial node remote
  Task.send node remote (requestMessage { object := objectArtifact, id := id })
  let message ← Task.receive node
  match message.kind with
  | .close => Task.fail (.wrap .notFound ("artifact " ++ id))
  | .hello => do
      let hello ← Task.tryIt (decodeBody message (·.hello))
      let receiver : Transfer.Receiver := { manifest := hello.manifest }
      let data ← receiver.run fuel node remote
      return (hello.manifest, data)
  | kind => Task.fail (.wrap .invalid ("expected hello, got " ++ kind.text))

/-- Pulls an artifact held by a remote node, once for each artifact and node. -/
def fetchArtifact (fuel : ℕ) (node : NodeId) (id : String) (remote : NodeId) : Task Receipt := do
  if id = "" ∨ remote = "" then
    Task.fail (.wrap .invalid "artifact id and node are required")
  else
    let key := artifactKey id remote
    match ← Task.call (.cached node key) with
    | some receipt => return receipt
    | none =>
        let (manifest, data) ← pullArtifact fuel node id remote
        Task.call (.putArtifact node id data)
        let now ← Task.call .now
        let receipt := fetched id remote manifest now
        Task.call (.store node key receipt)
        return receipt

end Distributor

namespace Peer

/-- Makes an artifact available to fetch. -/
def publish (node : NodeId) (artifact : Artifact) (data : Bytes) : Task Unit :=
  if artifact.id = "" then Task.fail (.wrap .invalid "artifact id is required")
  else
    Task.call (.publish node { artifact with hash := hash data, size := data.length } data)

/-- The session of a sender that opened with a hello frame. -/
def receivePackage (fuel : ℕ) (node remote : NodeId) (message : Message) : Task Unit := do
  let hello ← Task.tryIt (decodeBody message (·.hello))
  if hello.object ≠ objectWorkPackage then
    Task.fail (.wrap .invalid ("unexpected object " ++ Go.quote hello.object))
  else
    let receiver : Transfer.Receiver := { manifest := hello.manifest }
    let data ← receiver.run fuel node remote
    Task.call (.receivePackage node
      { id := hello.id, name := hello.name, payload := data, hash := hello.manifest.hash })

/-- The session of a node that requested an artifact. -/
def sendArtifact (node remote : NodeId) (message : Message) : Task Unit := do
  let request ← Task.tryIt (decodeBody message (·.request))
  if request.object ≠ objectArtifact then
    Task.fail (.wrap .invalid ("unexpected object " ++ Go.quote request.object))
  else
    match ← Task.call (.artifact node request.id) with
    | none =>
        -- a close frame that cannot be sent is not reported
        let _ ← Task.call (.send node remote Transfer.closeMessage)
        Task.fail (.wrap .notFound ("artifact " ++ request.id))
    | some (artifact, data) =>
        let source ← Task.tryIt (Transfer.newSource artifact.id artifact.name data 0)
        Task.send node remote (helloMessage
          { object := objectArtifact
            manifest := source.manifest
            id := artifact.id
            name := artifact.name })
        Transfer.serve source node remote

/-- Handles one incoming session from the given node. -/
def serve (fuel : ℕ) (node remote : NodeId) : Task Unit := do
  Task.dial node remote
  let message ← Task.receive node
  match message.kind with
  | .hello => receivePackage fuel node remote message
  | .revision => sendArtifact node remote message
  | kind => Task.fail (.wrap .invalid ("unexpected frame " ++ kind.text))

end Peer

/-! ## The calls of a run -/

/-- A call on a node. A remote node that follows no protocol sends any message. -/
inductive Call where
  | distribute (node : NodeId) (package : WorkPackage) (remote : NodeId)
  | fetchArtifact (fuel : ℕ) (node : NodeId) (id : String) (remote : NodeId)
  | serve (fuel : ℕ) (node remote : NodeId)
  | publish (node : NodeId) (artifact : Artifact) (data : Bytes)
  | send (node remote : NodeId) (message : Message)
  | failNext (node : NodeId) (count : ℤ)

namespace Call

/-- What a call does; a distribution or a fetch returns a receipt. -/
def task : Call → Task (Option Receipt)
  | .distribute node package remote => do
      return some (← Distributor.distribute node package remote)
  | .fetchArtifact fuel node id remote => do
      return some (← Distributor.fetchArtifact fuel node id remote)
  | .serve fuel node remote => do
      Peer.serve fuel node remote
      return none
  | .publish node artifact data => do
      Peer.publish node artifact data
      return none
  | .send node remote message => do
      Task.dial node remote
      Task.send node remote message
      return none
  | .failNext node count => do
      Task.call (.failNext node count)
      return none

def program (call : Call) : Program Net.Op Net.Answer (Except Raised (Option Receipt) × Unit) :=
  call.task ()

end Call

/-- The calls on a net, none of which has begun. -/
abbrev Net.Pool := Library.Pool ℕ Net Net.Op Net.Answer (Except Raised (Option Receipt) × Unit)

def Net.start (net : Net) (calls : ℕ → Call) : Net.Pool :=
  { shared := net, threads := fun thread => (calls thread).program }

/-- A distribution or a fetch has returned a receipt. -/
def Net.Returned (pool : Net.Pool) (thread : ℕ) (receipt : Receipt) : Prop :=
  pool.threads thread = .done (.ok (some receipt), ())

omit [ContentHash] in
theorem Net.returned_of_value {pool : Net.Pool} {thread : ℕ} {receipt : Receipt}
    (isReturned : (pool.threads thread).value? = some (.ok (some receipt), ())) :
    Net.Returned pool thread receipt :=
  Program.value?_eq_some.mp isReturned

end Aa.Sync
