import Aa.Library.Threads
import Aa.Sync.Transport

/-!
# Nodes on a wire

The state shared by the calls on all nodes, and its atomic operations: each is one locked
section of the distributor, the peer or the wire. A call that waits for a message may be
cancelled at any time.
-/

namespace Aa.Sync

open Aa.Library Transport

/-- What a distributor keeps under its lock. -/
structure Distributor where
  receipts : GoMap String Receipt := ∅
  packages : GoMap String WorkPackage := ∅
  artifacts : GoMap String Bytes := ∅

/-- What a peer keeps under its lock. -/
structure Peer where
  packages : GoMap String WorkPackage := ∅
  artifacts : GoMap String Artifact := ∅
  artifactData : GoMap String Bytes := ∅

/-- The nodes and the wire between them. -/
structure Net where
  wire : Wire := {}
  distributors : NodeId → Distributor := fun _ => {}
  peers : NodeId → Peer := fun _ => {}

namespace Net

/-- The atomic operations; `stall` is never answered. -/
inductive Op where
  | cached (node : NodeId) (key : String)
  | store (node : NodeId) (key : String) (receipt : Receipt)
  | putPackage (node : NodeId) (package : WorkPackage)
  | putArtifact (node : NodeId) (id : String) (data : Bytes)
  | package (node : NodeId) (id : String)
  | status (node remote : NodeId)
  | now
  | dial (node remote : NodeId)
  | send (node remote : NodeId) (message : Message)
  | receive (node : NodeId)
  | receivePackage (node : NodeId) (package : WorkPackage)
  | artifact (node : NodeId) (id : String)
  | publish (node : NodeId) (artifact : Artifact) (data : Bytes)
  | failNext (node : NodeId) (count : ℤ)
  | stall

abbrev Answer : Op → Type
  | .cached .. => Option Receipt
  | .package .. => Option WorkPackage
  | .status .. => List Receipt
  | .now => Time
  | .dial .. => Except Error Unit
  | .send .. => Except Error Unit
  | .receive .. => Except Error Frame
  | .artifact .. => Option (Artifact × Bytes)
  | _ => Unit

/-- Some answer to each operation. -/
def anyAnswer : (op : Op) → Answer op
  | .cached .. => none
  | .package .. => none
  | .status .. => []
  | .now => ""
  | .dial .. => .ok ()
  | .send .. => .ok ()
  | .receive .. => .error errClosed
  | .artifact .. => none
  | .store .. | .putPackage .. | .putArtifact .. | .receivePackage .. | .publish .. => ()
  | .failNext .. | .stall => ()

/-- What the environment chooses: whether a waiting call is cancelled, and the time. -/
structure Choice where
  cancelled : Option Error := none
  time : Time := ""

/-- Changes what one distributor keeps. -/
def onDistributor (net : Net) (node : NodeId) (change : Distributor → Distributor) : Net :=
  { net with
    distributors := Function.update net.distributors node (change (net.distributors node)) }

/-- Changes what one peer keeps. -/
def onPeer (net : Net) (node : NodeId) (change : Peer → Peer) : Net :=
  { net with peers := Function.update net.peers node (change (net.peers node)) }

/-- The receipts for a node, all of them for the empty node, by transfer id. -/
def statusOf (distributor : Distributor) (remote : NodeId) : List Receipt :=
  let found := distributor.receipts.entries.map (·.2)
  let found := found.filter fun receipt => remote = "" || receipt.nodeId = remote
  found.mergeSort fun left right => left.transferId ≤ right.transferId

/-- How an operation of a thread is answered. -/
def respond : Pool.Responder ℕ Net Choice Op Answer
  | _, _, net, .cached node key => some ((net.distributors node).receipts.lookup key, net)
  | _, _, net, .store node key receipt =>
      some ((), net.onDistributor node fun distributor =>
        { distributor with receipts := distributor.receipts.insert key receipt })
  | _, _, net, .putPackage node package =>
      some ((), net.onDistributor node fun distributor =>
        { distributor with packages := distributor.packages.insert package.id package })
  | _, _, net, .putArtifact node id data =>
      some ((), net.onDistributor node fun distributor =>
        { distributor with artifacts := distributor.artifacts.insert id data })
  | _, _, net, .package node id => some ((net.distributors node).packages.lookup id, net)
  | _, _, net, .status node remote => some (statusOf (net.distributors node) remote, net)
  | _, choice, net, .now => some (choice.time, net)
  | _, _, net, .dial node remote =>
      let (outcome, wire) := net.wire.dial node remote
      some (outcome, { net with wire := wire })
  | thread, _, net, .send node remote message =>
      let (outcome, wire) := net.wire.send thread node remote message
      some (outcome, { net with wire := wire })
  | _, choice, net, .receive node =>
      match choice.cancelled with
      | some error => some (.error error, net)
      | none => (net.wire.receive node).map fun (frame, wire) =>
          (.ok frame, { net with wire := wire })
  | _, _, net, .receivePackage node package =>
      some ((), net.onPeer node fun peer =>
        { peer with packages := peer.packages.insert package.id package })
  | _, _, net, .artifact node id =>
      let peer := net.peers node
      some ((peer.artifacts.lookup id).map fun artifact =>
        (artifact, (peer.artifactData.lookup id).getD []), net)
  | _, _, net, .publish node artifact data =>
      some ((), net.onPeer node fun peer =>
        { peer with
          artifacts := peer.artifacts.insert artifact.id artifact
          artifactData := peer.artifactData.insert artifact.id data })
  | _, _, net, .failNext node count =>
      some ((), { net with wire := net.wire.failNext node count })
  | _, _, _, .stall => none

end Net

end Aa.Sync
