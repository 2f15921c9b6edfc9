import Aa.Contracts.V1

/-!
# Events

The canonical orchestration and execution event and its validator.
-/

namespace Aa.Contracts.V1

open Aa.Library

/-- The canonical event types. -/
def eventTypes : List String :=
  ["PROJECT_REGISTERED", "PROJECT_UPDATED", "WORK_PACKAGE_CREATED", "WORK_PACKAGE_READY",
    "WORK_PACKAGE_COMPLETED", "DEPENDENCY_GRAPH_REVISED", "EXECUTION_PLANNED",
    "EXECUTION_LEASED", "EXECUTION_STARTED", "EXECUTION_PAUSED", "EXECUTION_RESUMED",
    "EXECUTION_COMPLETED", "EXECUTION_FAILED", "EXECUTION_EXPIRED", "RESULT_RECORDED",
    "TEST_RECORDED", "REVIEW_RECORDED", "HANDOFF_CREATED", "ARTIFACT_RECORDED",
    "WORK_ACCEPTED", "WORK_REJECTED", "DEFICIENCY_RAISED", "TELEMETRY_RECORDED",
    "MEMORY_CANDIDATE_CREATED", "MEMORY_VALIDATED", "MEMORY_PROMOTED", "MEMORY_SUPERSEDED",
    "MEMORY_ARCHIVED"]

/-- The entity an event applies to. -/
structure EventAggregate where
  kind : String := ""
  id : String := ""

/-- A canonical orchestration or execution event. -/
structure Event extends Envelope where
  sequence : ℤ := 0
  occurredAt : String := ""
  recordedAt : String := ""
  type : String := ""
  aggregate : EventAggregate := {}
  actor : Actor := {}
  causationId : String := ""
  correlationId : String := ""
  payload : Json.Object := []

def Event.validate (event : Event) : Check := do
  if event.kind ≠ "event" then
    throw ("kind: expected \"event\", got " ++ Go.quote event.kind)
  event.toEnvelope.validate
  if event.sequence < 0 then throw "sequence: must be >= 0"
  requireTimestamp "occurredAt" event.occurredAt
  optionalTimestamp "recordedAt" event.recordedAt
  if event.type ∉ eventTypes then throw ("type: unknown event type " ++ Go.quote event.type)
  requireEnum "aggregate.kind" event.aggregate.kind
    ["project", "work_package", "assignment", "attempt", "artifact", "issue", "strategy", "memory",
      "tool", "workflow"]
  requireIdentifier "aggregate.id" event.aggregate.id
  event.actor.validate
  optionalIdentifier "causationId" event.causationId
  optionalIdentifier "correlationId" event.correlationId

end Aa.Contracts.V1
