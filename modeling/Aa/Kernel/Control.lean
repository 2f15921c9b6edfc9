import Aa.Library.GoError
import Aa.Library.GoText

/-!
# Assignments and leases

The assignment state machine: a transition outside the table fails and leaves the
assignment as it is.
-/

namespace Aa.Kernel.Control

open Aa.Library

inductive State where
  | planned
  | leased
  | preparing
  | running
  | paused
  | collecting
  | awaitingGates
  | accepted
  | failed
  | canceled
  | expired
deriving DecidableEq

namespace State

def text : State → String
  | .planned => "planned"
  | .leased => "leased"
  | .preparing => "preparing"
  | .running => "running"
  | .paused => "paused"
  | .collecting => "collecting"
  | .awaitingGates => "awaiting_gates"
  | .accepted => "accepted"
  | .failed => "failed"
  | .canceled => "canceled"
  | .expired => "expired"

end State

inductive Sentinel where
  | invalidTransition
deriving DecidableEq

instance : GoSentinel Sentinel where
  text
    | .invalidTransition => "control: invalid assignment transition"

abbrev Error := GoError Sentinel

/-- The states a state may change to. -/
def transitions : State → List State
  | .planned => [.leased, .canceled]
  | .leased => [.preparing, .expired, .canceled]
  | .preparing => [.running, .failed, .expired, .canceled]
  | .running => [.paused, .collecting, .failed, .canceled]
  | .paused => [.running, .failed, .canceled]
  | .collecting => [.awaitingGates, .failed]
  | .awaitingGates => [.accepted, .failed]
  | .accepted => []
  | .failed => [.planned]
  | .canceled => []
  | .expired => [.planned]

/-- Grants an owner temporary authority over an assignment; times are in nanoseconds. -/
structure Lease where
  owner : String := ""
  expiresAt : ℤ := 0
deriving DecidableEq

def Lease.expired (lease : Lease) (now : ℤ) : Bool := lease.expiresAt ≤ now

/-- Binds a work package to a worker under a lease. -/
structure Assignment where
  id : String
  projectId : String
  workPackageId : String
  workerId : String
  state : State := .planned
  lease : Lease := {}
  attempt : ℤ := 0
deriving DecidableEq

namespace Assignment

/-- A planned assignment. -/
def new (id projectId workPackageId workerId : String) : Assignment :=
  { id := id, projectId := projectId, workPackageId := workPackageId, workerId := workerId }

def canTransition (assignment : Assignment) (state : State) : Bool :=
  assignment.state = state || state ∈ transitions assignment.state

def transition (assignment : Assignment) (state : State) : Except Error Assignment :=
  if assignment.canTransition state then .ok { assignment with state := state }
  else .error (.wrap .invalidTransition (assignment.state.text ++ " -> " ++ state.text))

/-- A transition whose error is ignored. -/
def transitionIgnoring (assignment : Assignment) (state : State) : Assignment :=
  match assignment.transition state with
  | .ok moved => moved
  | .error _ => assignment

def leaseFor (assignment : Assignment) (owner : String) (now ttl : ℤ) : Assignment :=
  { assignment with lease := { owner := owner, expiresAt := now + ttl } }

/-- Expires a leased or preparing assignment whose lease has expired. -/
def expire (assignment : Assignment) (now : ℤ) : Except Error Assignment :=
  if assignment.state ≠ .leased ∧ assignment.state ≠ .preparing then .ok assignment
  else if !assignment.lease.expired now then .ok assignment
  else assignment.transition .expired

/-- Returns an expired or failed assignment to planned and bumps the attempt. -/
def retry (assignment : Assignment) : Except Error Assignment :=
  if assignment.state ≠ .expired ∧ assignment.state ≠ .failed then
    .error (.wrap .invalidTransition ("cannot retry from " ++ assignment.state.text))
  else
    (assignment.transition .planned).map fun planned =>
      { planned with attempt := planned.attempt + 1, lease := {} }

theorem transition_eq_ok {assignment : Assignment} {state : State}
    (permitted : assignment.canTransition state = true) :
    assignment.transition state = .ok { assignment with state := state } := by
  rw [transition, if_pos permitted]

theorem transitionIgnoring_eq {assignment : Assignment} {state : State}
    (permitted : assignment.canTransition state = true) :
    assignment.transitionIgnoring state = { assignment with state := state } := by
  rw [transitionIgnoring, transition_eq_ok permitted]

end Assignment

end Aa.Kernel.Control
