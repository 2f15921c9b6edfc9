import Aa.Contracts.Concurrent
import Aa.Forge.Rpc
import Aa.Sync.AtMostOnce
import Aa.Sync.Rpc
import Aa.Toolbox.Concurrent

/-!
# At most one execution for a key

The invocation host, the RPC adapters and the distributor all look a key up, execute on a
miss and store the result, and give the lock up in between.
-/

namespace Aa

open Aa.Library Aa.Contracts.Rpc Aa.Toolbox Aa.Sync

/-- The host, the sync and the forge adapter and the distributors execute a key at most once, and
every success returns that execution's result, in every run in which no request misses the
key while another that missed it is on its way. -/
theorem executed_once_of_serial [ContentHash] :
    (∀ (calls : ℕ → HostCall) (host : Host) (schedule : List (ℕ × Reply)) (key : String),
      host.cache.lookup key = none →
      (Host.results calls).SerialRun key (host.start calls) schedule →
      (Host.results calls).OnceRun key (host.start calls) schedule) ∧
    (∀ (node : NodeId) (requests : ℕ → Request)
      (service : Service Distributor Sync.Rpc.RpcResult)
      (schedule : List (ℕ × Sync.Rpc.World)) (key : String),
      service.cache.lookup key = none →
      (results (Sync.Rpc.dispatch node) Sync.Rpc.errorFrom requests).SerialRun key
        (service.start Sync.Rpc.errorFrom requests) schedule →
      (results (Sync.Rpc.dispatch node) Sync.Rpc.errorFrom requests).OnceRun key
        (service.start Sync.Rpc.errorFrom requests) schedule) ∧
    (∀ (requests : ℕ → Request) (service : Forge.Rpc.Service)
      (schedule : List (ℕ × Option Forge.Error)) (key : String),
      service.cache.lookup key = none →
      (results Forge.Rpc.dispatch Forge.Rpc.errorFrom requests).SerialRun key
        (service.start Forge.Rpc.errorFrom requests) schedule →
      (results Forge.Rpc.dispatch Forge.Rpc.errorFrom requests).OnceRun key
        (service.start Forge.Rpc.errorFrom requests) schedule) ∧
    (∀ (calls : ℕ → Call) (net : Net) (schedule : List (ℕ × Net.Choice))
      (key : NodeId × String),
      (net.distributors key.1).receipts.lookup key.2 = none →
      (Net.receipts calls).SerialRun key (net.start calls) schedule →
      (Net.receipts calls).OnceRun key (net.start calls) schedule) := by
  refine ⟨?_, ?_, ?_, ?_⟩
  · intro calls host schedule key fresh serial
    have isNone : (Host.results calls).lookup host key = none := by
      change (host.cache.lookup key).map _ = none
      rw [fresh]
      rfl
    exact Memoized.atMostOnce rfl isNone serial
  · intro node requests service schedule key fresh serial
    exact Memoized.atMostOnce rfl fresh serial
  · intro requests service schedule key fresh serial
    exact Memoized.atMostOnce rfl fresh serial
  · intro calls net schedule key fresh serial
    exact Memoized.atMostOnce rfl fresh serial

/-! ## Two requests under one key -/

/-- Two invocations of the reading tool. -/
def twoReads (thread : ℕ) : HostCall :=
  if thread = 0 then Host.readCall "ec_1" "k1" "a.go" else Host.readCall "ec_1" "k1" "b.go"

/-- The turns of the two invocations, and what their tool returns. -/
def reading (turns : List ℕ) : List (ℕ × Reply) :=
  turns.map fun thread => (thread, .ok [("read", .str (if thread = 0 then "a.go" else "b.go"))])

/-- Two requests for the status of the transfers. -/
def twoStatuses (_ : ℕ) : Request :=
  { method := Sync.Rpc.methodStatus, params := some [("idempotencyKey", .str "k1")] }

/-- Two requests to create an issue. -/
def twoCreates (thread : ℕ) : Request :=
  { method := Forge.Rpc.methodCreateIssue
    params := some [("idempotencyKey", .str "k1"), ("repoId", .str "repo"),
      ("issue", .obj [("title", .str (if thread = 0 then "first" else "second"))])] }

/-- A forge with one repository. -/
def oneRepository : Forge.Fake :=
  { clock := fun _ => "", repos := (∅ : GoMap String Forge.Repository).insert "repo" {} }

/-- Two distributions of one package, and two sessions of the peer. -/
def twoDistributions (thread : ℕ) : Call :=
  if thread < 2 then .distribute "n" { id := "w" } "p" else .serve 2 "p" "n"

/-- A request returns before the next one begins. -/
theorem successiveReads_once :
    (Host.results twoReads).OnceRun (twoReads 0).cacheKey (Toolbox.Rpc.readerHost.start twoReads)
      (reading [0, 0, 0, 0, 0, 0, 1, 1, 1, 1]) := by
  refine (@executed_once_of_serial textHash).1 twoReads Toolbox.Rpc.readerHost _ _ rfl ?_
  exact Memoized.serial_of_single_miss (by decide)

/-- Requests that all miss the key before one of them stores its result execute it twice, in
each of the four. -/
theorem overlapping_execute_twice :
    letI := textHash
    (¬ ∀ (calls : ℕ → HostCall) (host : Host) (schedule : List (ℕ × Reply)) (key : String),
      host.cache.lookup key = none →
      (Host.results calls).OnceRun key (host.start calls) schedule) ∧
    (¬ ∀ (node : NodeId) (requests : ℕ → Request)
      (service : Service Distributor Sync.Rpc.RpcResult)
      (schedule : List (ℕ × Sync.Rpc.World)) (key : String),
      service.cache.lookup key = none →
      (results (Sync.Rpc.dispatch node) Sync.Rpc.errorFrom requests).OnceRun key
        (service.start Sync.Rpc.errorFrom requests) schedule) ∧
    (¬ ∀ (requests : ℕ → Request) (service : Forge.Rpc.Service)
      (schedule : List (ℕ × Option Forge.Error)) (key : String),
      service.cache.lookup key = none →
      (results Forge.Rpc.dispatch Forge.Rpc.errorFrom requests).OnceRun key
        (service.start Forge.Rpc.errorFrom requests) schedule) ∧
    (¬ ∀ (calls : ℕ → Call) (net : Net) (schedule : List (ℕ × Net.Choice))
      (key : NodeId × String),
      (net.distributors key.1).receipts.lookup key.2 = none →
      (Net.receipts calls).OnceRun key (net.start calls) schedule) := by
  refine ⟨?_, ?_, ?_, ?_⟩
  · intro once
    have executed := (once twoReads Toolbox.Rpc.readerHost
      (reading [0, 0, 0, 0, 1, 1, 1, 1, 0, 1, 0, 1]) (twoReads 0).cacheKey rfl).executed
    exact absurd executed (by decide)
  · intro once
    have executed := (once "n" twoStatuses { state := {} }
      ([0, 1, 0, 1].map fun thread => (thread, { fuel := 0, net := {}, choice := {} }))
      "sync.status|k1" rfl).executed
    exact absurd executed (by decide)
  · intro once
    have executed := (once twoCreates (Forge.Rpc.new oneRepository)
      ([0, 1, 0, 1].map fun thread => (thread, none)) "forge.createIssue|k1" rfl).executed
    exact absurd executed (by decide)
  · intro once
    have executed := (once twoDistributions {}
      ([0, 1, 0, 0, 2, 2, 2, 0, 0, 2, 2, 1, 1, 3, 3, 3, 1, 1, 3, 3, 0, 1].map
        fun thread => (thread, {})) (twoDistributions 0).key rfl).executed
    exact absurd executed (by decide)

end Aa
