import Aa.Sifter.Routing.Preflight

/-!
# Routing and escalation policies

The route of a task is decided by the routing policy from the assessment. Under
`local_only` the route is local whatever the assessment. The escalation policy says
when a failure has to go to the human first.
-/

namespace Aa.Sifter

open Aa.Library

inductive RouteKind
  | «local»
  | hybrid
  | cloud
  deriving DecidableEq

def RouteKind.value : RouteKind → String
  | .local => "local"
  | .hybrid => "hybrid"
  | .cloud => "cloud"

inductive RoutingPolicy
  | localOnly
  | cloudOnly
  | localFirst
  | expertFirst
  | adaptive
  | budgetConstrained
  deriving DecidableEq

/-- `PolicyEngine._coerce`. -/
def RoutingPolicy.coerce (value : String) : RoutingPolicy :=
  if value = "local_only" then localOnly
  else if value = "cloud_only" then cloudOnly
  else if value = "local_first" then localFirst
  else if value = "expert_first" then expertFirst
  else if value = "budget_constrained" then budgetConstrained
  else adaptive

structure RouteDecision where
  kind : RouteKind
  plannerTier : Option Tier := none
  executorTier : Tier := .local
  reviewTier : Option Tier := none
  reasons : List String := []
  forcedCloud : Bool := false

namespace RouteDecision

def usesCloud (decision : RouteDecision) : Bool :=
  decision.executorTier = .expert || decision.plannerTier = some .expert ||
    decision.reviewTier = some .expert

/-- A local route. -/
def locally (reason : String) : RouteDecision where
  kind := .local
  reasons := [reason]

/-- A cloud route without review. -/
def byExpert (reason : String) : RouteDecision where
  kind := .cloud
  plannerTier := some .expert
  executorTier := .expert
  reasons := [reason]
  forcedCloud := true

/-- A route planned and reviewed by the expert and executed locally. -/
def planned (reason : String) : RouteDecision where
  kind := .hybrid
  plannerTier := some .expert
  executorTier := .local
  reviewTier := some .expert
  reasons := [reason]
  forcedCloud := true

end RouteDecision

structure PolicyEngine where
  config : SifterConfig

namespace PolicyEngine

/-- `PolicyEngine._adaptive`. -/
def adaptive (assessment : PreflightAssessment) (localViable : Bool) (failedAttempts : ℕ) :
    RouteDecision :=
  let highStakes := assessment.decisionLevel = .major || assessment.decisionLevel = .critical
  if failedAttempts > 0 then
    if assessment.architectureImpact && highStakes then
      { RouteDecision.byExpert "local failed and change is decision-significant" with
        reviewTier := some .expert }
    else .byExpert s!"{failedAttempts} local failure(s); expert escalation"
  else if localViable && !assessment.requiresCloud then
    .locally "adaptive: task within local capability"
  else if assessment.reasoningDifficulty ≥ 65 / 100 || !localViable then
    .planned "adaptive: cloud planning/review with local execution"
  else .planned "adaptive: decision requires expert planning, local execution"

/-- The policy a run is routed by: `policy or self.config.routing_policy`. -/
def selected (engine : PolicyEngine) (policy : Option String) : RoutingPolicy :=
  .coerce ((orElse policy (some engine.config.routingPolicy)).getD "")

def decide (engine : PolicyEngine) (assessment : PreflightAssessment) (policy : Option String)
    (cloudBudgetAvailable : Bool) (failedAttempts : ℕ := 0) : RouteDecision :=
  let selected := engine.selected policy
  let localViable : Bool :=
    assessment.localSuccessProbability ≥ engine.config.localConfidenceThreshold &&
      (assessment.contextRequirement : ℤ) ≤ engine.config.localContextLimit
  let decision : RouteDecision := match selected with
    | .localOnly => .locally "policy local_only"
    | .cloudOnly =>
        { RouteDecision.byExpert "policy cloud_only" with reviewTier := some .expert }
    | .expertFirst => .byExpert "policy expert_first"
    | .budgetConstrained =>
        if !cloudBudgetAvailable || localViable then
          .locally "policy budget_constrained; local preferred"
        else
          { kind := .hybrid
            plannerTier := some .expert
            executorTier := .local
            reasons := ["policy budget_constrained; cloud plan only"] }
    | .localFirst =>
        if localViable && failedAttempts = 0 then .locally "policy local_first; local viable"
        else .byExpert "policy local_first; escalating to expert"
    | .adaptive => adaptive assessment localViable failedAttempts
  if !cloudBudgetAvailable && decision.usesCloud &&
      (selected = .adaptive || selected = .localFirst || selected = .budgetConstrained) then
    .locally "cloud budget unavailable; local fallback"
  else decision

theorem decide_localOnly {engine : PolicyEngine} {policy : Option String}
    (isLocalOnly : engine.selected policy = .localOnly) (assessment : PreflightAssessment)
    (cloudBudgetAvailable : Bool) (failedAttempts : ℕ) :
    (engine.decide assessment policy cloudBudgetAvailable failedAttempts).kind = .local := by
  simp only [decide, isLocalOnly]
  split <;> rfl

end PolicyEngine

/-! ## Escalation -/

inductive EscalationAction
  | none
  | cloudDebug
  | cloudReview
  | cloudPlan
  | cloudSynthesis
  | userDecision
  | abort
  deriving DecidableEq

structure EscalationRequest where
  reason : String
  failedAttempts : ℕ := 0
  recommendedAction : EscalationAction := .cloudReview
  potentialMajorDecision : Bool := false

structure EscalationOutcome where
  escalate : Bool
  action : EscalationAction
  requiresHumanApproval : Bool
  reason : String

namespace EscalationPolicy

def evaluate (request : EscalationRequest) (forceUserIfMajor : Bool := true) :
    EscalationOutcome :=
  let requiresApproval := request.potentialMajorDecision && forceUserIfMajor
  { escalate := true
    action := if requiresApproval then .userDecision else request.recommendedAction
    requiresHumanApproval := requiresApproval
    reason := request.reason }

def architectureMarkers : List String :=
  ["architecture", "replace the", "persistence layer", "database", "rearchitect", "redesign",
    "migration", "security model", "framework"]

def isArchitectureLike (unicode : PyUnicode) (text : String) : Bool :=
  architectureMarkers.any (Py.contains (unicode.lowered text))

end EscalationPolicy

end Aa.Sifter
