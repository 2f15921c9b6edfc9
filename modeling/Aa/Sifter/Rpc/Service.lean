import Aa.Sifter.Trace

/-!
# The route method

`sifter.route` says how a prompt would be routed without running it. It classifies the prompt
itself and asks the same policy engine as a run, but neither reads the standing rules nor
the approval flags nor the budget.
-/

namespace Aa.Sifter

open Aa.Library

structure RouteRequest where
  id : String
  prompt : String
  context : Option String := none
  policy : Option String := none

structure RouteResponse where
  requestId : String
  route : String
  decisionLevel : String
  requiresHumanApproval : Bool
  reasons : List String
  plannerTier : String
  executorTier : String
  reviewTier : String
  blockedReason : Option String
  estimatedCostUsd : ℚ

/-- `_tier_name`. -/
def tierName : Option Tier → String
  | none => "none"
  | some .local => "local"
  | some .expert => "expert"

structure SifterService where
  sifter : ComputeSifter

namespace SifterService

variable (service : SifterService)

/-- The policy that the route is decided by. -/
def effective (request : RouteRequest) : String :=
  if !service.sifter.config.cloudAllowed then "local_only"
  else (orElse request.policy (some service.sifter.config.routingPolicy)).getD ""

def classification (request : RouteRequest) : DecisionClassification :=
  DecisionClassifier.classify service.sifter.unicode request.prompt []

def assessment (request : RouteRequest) : PreflightAssessment :=
  service.sifter.assessor.assess request.prompt request.context (service.classification request)

def decision (request : RouteRequest) : RouteDecision :=
  service.sifter.policyEngine.decide (service.assessment request)
    (some (service.effective request)) true

def estimateCost (inputTokens : ℤ) : ℚ :=
  (service.sifter.modelConfig .expert).estimateCost (max 0 inputTokens)
    (service.sifter.maxOutput .expert)

def route (request : RouteRequest) : RouteResponse :=
  let classification := service.classification request
  let decision := service.decision request
  let blocked : Bool := decision.usesCloud && !service.sifter.config.cloudAllowed
  { requestId := request.id
    route := if blocked then "blocked" else decision.kind.value
    decisionLevel := classification.level.value
    requiresHumanApproval := classification.requiresHumanApproval
    reasons := decision.reasons ++ classification.reasons
    plannerTier := tierName decision.plannerTier
    executorTier := tierName (some decision.executorTier)
    reviewTier := tierName decision.reviewTier
    blockedReason := if blocked then some "cloud is disabled by the active profile" else none
    estimatedCostUsd :=
      max 0 (service.estimateCost (service.assessment request).contextRequirement) }

end SifterService

/-! ## What a run does with the same arguments -/

/-- The request with the arguments of a run. -/
def Task.routeRequest (task : Task) (id : String) : RouteRequest where
  id := id
  prompt := task.prompt
  context := task.context
  policy := task.policy

namespace ComputeSifter

variable (sifter : ComputeSifter) (task : Task)

/-- The route that a run takes if nobody is asked. -/
def routeTaken : RouteDecision :=
  sifter.policyEngine.decide (sifter.assessment task) (sifter.effectivePolicy task {})
    (0 < (sifter.newSession task).budget.remainingCalls &&
      !(sifter.newSession task).budget.exhausted)

end ComputeSifter

namespace PolicyEngine

/-- Whether the engine routes a first attempt locally, or the policy does not look at the
budget. -/
def ignoresBudget (engine : PolicyEngine) (assessment : PreflightAssessment)
    (policy : RoutingPolicy) : Prop :=
  let localViable : Prop :=
    assessment.localSuccessProbability ≥ engine.config.localConfidenceThreshold ∧
      (assessment.contextRequirement : ℤ) ≤ engine.config.localContextLimit
  match policy with
  | .adaptive => localViable ∧ assessment.requiresCloud = false
  | .localFirst | .budgetConstrained => localViable
  | .localOnly | .cloudOnly | .expertFirst => True

variable {engine : PolicyEngine} {assessment : PreflightAssessment} {policy : Option String}

/-- The budget makes no difference exactly if it is there or not looked at. -/
theorem decide_kind_iff (available : Bool) :
    (engine.decide assessment policy true).kind = (engine.decide assessment policy available).kind ↔
      available = true ∨ engine.ignoresBudget assessment (engine.selected policy) := by
  cases available with
  | true => simp
  | false =>
      simp only [decide, ignoresBudget]
      generalize engine.selected policy = selected
      by_cases isLikely :
          assessment.localSuccessProbability ≥ engine.config.localConfidenceThreshold
      · by_cases fits : (assessment.contextRequirement : ℤ) ≤ engine.config.localContextLimit
        · cases selected <;> cases isRequired : assessment.requiresCloud <;>
            by_cases isHard : assessment.reasoningDifficulty ≥ 65 / 100 <;>
            simp [isLikely, fits, adaptive, isRequired, isHard, RouteDecision.locally,
              RouteDecision.byExpert, RouteDecision.planned, RouteDecision.usesCloud]
        · cases selected <;>
            simp [isLikely, fits, adaptive, RouteDecision.locally,
              RouteDecision.byExpert, RouteDecision.planned, RouteDecision.usesCloud]
      · cases selected <;>
          simp [isLikely, adaptive, RouteDecision.locally,
            RouteDecision.byExpert, RouteDecision.planned, RouteDecision.usesCloud]

theorem decide_congr {other : Option String} (same : engine.selected policy = engine.selected other)
    (available : Bool) (failedAttempts : ℕ) :
    engine.decide assessment policy available failedAttempts =
      engine.decide assessment other available failedAttempts := by
  simp only [decide, same]

theorem usesCloud_of_localOnly (isLocalOnly : engine.selected policy = .localOnly)
    (available : Bool) : (engine.decide assessment policy available).usesCloud = false := by
  simp [decide, isLocalOnly, RouteDecision.usesCloud, RouteDecision.locally]

end PolicyEngine

theorem RouteKind.value_injective {first second : RouteKind} (same : first.value = second.value) :
    first = second := by
  cases first <;> cases second <;> simp_all [RouteKind.value]

theorem DecisionLevel.value_injective {first second : DecisionLevel}
    (same : first.value = second.value) : first = second := by
  cases first <;> cases second <;> simp_all [DecisionLevel.value]

/-- The level that a conflict with a standing rule gives. -/
theorem DecisionLevel.maxLevel_major (level : DecisionLevel) :
    DecisionLevel.maxLevel [level, .major] = level ↔ level.atLeast .major := by
  cases level <;> decide

namespace ComputeSifter

variable {sifter : ComputeSifter} {task : Task} {id : String}

/-- The level of a prompt by its text alone. -/
def promptLevel (sifter : ComputeSifter) (prompt : String) : DecisionLevel :=
  DecisionClassifier.levelForSignals (DecisionClassifier.detectSignals sifter.unicode prompt)

/-- The standing rules do not raise the level of the prompt, the flags ask for approval of the
major and critical levels only, and a prompt that nobody is asked about is routed the same
with and without budget, or there is budget. -/
structure RoutesAlike (sifter : ComputeSifter) (task : Task) : Prop where
  level : sifter.rules.detectConflicts task.prompt ≠ [] →
    (sifter.promptLevel task.prompt).atLeast .major
  approval : sifter.gate.approvalNeeded (sifter.promptLevel task.prompt) =
    (sifter.promptLevel task.prompt).atLeast .major
  route : (sifter.promptLevel task.prompt).atLeast .major = false →
    0 < sifter.config.maxCloudCallsPerTask ∨
      sifter.policyEngine.ignoresBudget (sifter.assessment task)
        (sifter.policyEngine.selected (sifter.effectivePolicy task {}))

theorem selected_effective :
    sifter.policyEngine.selected (some ((SifterService.mk sifter).effective (task.routeRequest id))) =
      sifter.policyEngine.selected (sifter.effectivePolicy task {}) := by
  simp only [PolicyEngine.selected, SifterService.effective, effectivePolicy, Task.routeRequest,
    policyEngine]
  cases sifter.config.cloudAllowed with
  | false => rfl
  | true =>
      cases task.policy with
      | none => by_cases isEmpty : sifter.config.routingPolicy = "" <;> simp [orElse, isEmpty]
      | some policy =>
          by_cases isEmpty : policy = ""
          · by_cases alsoEmpty : sifter.config.routingPolicy = "" <;>
              simp [orElse, isEmpty, alsoEmpty]
          · simp [orElse, isEmpty]

theorem classification_level : (sifter.classification task).level =
    if (sifter.rules.detectConflicts task.prompt).isEmpty then sifter.promptLevel task.prompt
    else DecisionLevel.maxLevel [sifter.promptLevel task.prompt, .major] := rfl

theorem classification_level_iff :
    sifter.promptLevel task.prompt = (sifter.classification task).level ↔
      (sifter.rules.detectConflicts task.prompt ≠ [] →
        (sifter.promptLevel task.prompt).atLeast .major) := by
  rw [classification_level]
  by_cases isFree : sifter.rules.detectConflicts task.prompt = []
  · simp [isFree]
  · rw [if_neg (by simpa using isFree), eq_comm, DecisionLevel.maxLevel_major]
    simp [isFree]

/-- The classifications of the two paths are the same where no rule is in conflict and the
flags agree with the level. -/
theorem classification_eq (noConflicts : sifter.rules.detectConflicts task.prompt = [])
    (approval : sifter.gate.approvalNeeded (sifter.promptLevel task.prompt) =
      (sifter.promptLevel task.prompt).atLeast .major) :
    (SifterService.mk sifter).classification (task.routeRequest id) = sifter.classification task := by
  have needed : (sifter.classification task).requiresHumanApproval =
      ((SifterService.mk sifter).classification (task.routeRequest id)).requiresHumanApproval := by
    have isLevel : (sifter.classification task).level = sifter.promptLevel task.prompt := by
      rw [classification_level, noConflicts]
      rfl
    calc (sifter.classification task).requiresHumanApproval
      _ = sifter.gate.approvalNeeded (sifter.classification task).level := rfl
      _ = (sifter.promptLevel task.prompt).atLeast .major := by rw [isLevel, approval]
      _ = ((SifterService.mk sifter).classification
            (task.routeRequest id)).requiresHumanApproval := rfl
  have isClassification : sifter.classification task =
      { DecisionClassifier.classify sifter.unicode task.prompt
          (sifter.rules.detectConflicts task.prompt) with
        requiresHumanApproval := (sifter.classification task).requiresHumanApproval } := rfl
  rw [isClassification, needed, noConflicts]
  rfl

theorem route_eq : ((SifterService.mk sifter).route (task.routeRequest id)).route =
    ((SifterService.mk sifter).decision (task.routeRequest id)).kind.value := by
  have notBlocked : (((SifterService.mk sifter).decision (task.routeRequest id)).usesCloud &&
      !sifter.config.cloudAllowed) = false := by
    cases isAllowed : sifter.config.cloudAllowed with
    | true => simp
    | false =>
        have isLocalOnly : sifter.policyEngine.selected
            (some ((SifterService.mk sifter).effective (task.routeRequest id))) = .localOnly := by
          simp [SifterService.effective, isAllowed, PolicyEngine.selected, orElse,
            RoutingPolicy.coerce]
        rw [SifterService.decision, PolicyEngine.usesCloud_of_localOnly isLocalOnly]
        rfl
  simp only [SifterService.route, notBlocked]
  rfl

theorem newSession_available : (0 < (sifter.newSession task).budget.remainingCalls &&
    !(sifter.newSession task).budget.exhausted) = true ↔ 0 < sifter.config.maxCloudCallsPerTask := by
  simp [newSession, BudgetTracker.new, BudgetTracker.remainingCalls]

/-- Where the classifications are the same, so are the routes exactly if there is budget or it
makes no difference. -/
theorem kind_iff (noConflicts : sifter.rules.detectConflicts task.prompt = [])
    (approval : sifter.gate.approvalNeeded (sifter.promptLevel task.prompt) =
      (sifter.promptLevel task.prompt).atLeast .major) :
    ((SifterService.mk sifter).decision (task.routeRequest id)).kind = (sifter.routeTaken task).kind ↔
      0 < sifter.config.maxCloudCallsPerTask ∨
        sifter.policyEngine.ignoresBudget (sifter.assessment task)
          (sifter.policyEngine.selected (sifter.effectivePolicy task {})) := by
  have isAssessment : (SifterService.mk sifter).assessment (task.routeRequest id) =
      sifter.assessment task := by
    rw [SifterService.assessment, classification_eq noConflicts approval]
    rfl
  have isDecision : (SifterService.mk sifter).decision (task.routeRequest id) =
      sifter.policyEngine.decide (sifter.assessment task) (sifter.effectivePolicy task {}) true := by
    rw [SifterService.decision, isAssessment]
    exact PolicyEngine.decide_congr selected_effective true 0
  rw [isDecision, routeTaken, PolicyEngine.decide_kind_iff, newSession_available]

/-- What the method says of the arguments of a run: the level and whether a human is asked, and
where none is asked the route. -/
structure Foretells (sifter : ComputeSifter) (task : Task) (response : RouteResponse) : Prop where
  level : response.decisionLevel = (sifter.classification task).level.value
  approval : response.requiresHumanApproval = (sifter.classification task).requiresHumanApproval
  route : (sifter.classification task).requiresHumanApproval = false →
    response.route = (sifter.routeTaken task).kind.value

theorem foretells_iff :
    sifter.Foretells task ((SifterService.mk sifter).route (task.routeRequest id)) ↔
      sifter.RoutesAlike task := by
  have needed : (sifter.classification task).requiresHumanApproval =
      sifter.gate.approvalNeeded (sifter.classification task).level := rfl
  constructor
  · intro foretells
    have sameLevel : sifter.promptLevel task.prompt = (sifter.classification task).level :=
      DecisionLevel.value_injective foretells.level
    have keepsLevel := classification_level_iff.mp sameLevel
    have approval : sifter.gate.approvalNeeded (sifter.promptLevel task.prompt) =
        (sifter.promptLevel task.prompt).atLeast .major := by
      rw [sameLevel, ← needed, ← foretells.approval]
      exact congrArg (DecisionLevel.atLeast · .major) sameLevel
    refine ⟨keepsLevel, approval, fun isMinor => ?_⟩
    have noConflicts : sifter.rules.detectConflicts task.prompt = [] := by
      by_contra isConflict
      rw [keepsLevel isConflict] at isMinor
      cases isMinor
    have notNeeded : (sifter.classification task).requiresHumanApproval = false := by
      rw [needed, ← sameLevel, approval, isMinor]
    have sameRoute := foretells.route notNeeded
    rw [route_eq] at sameRoute
    exact (kind_iff noConflicts approval).mp (RouteKind.value_injective sameRoute)
  · intro alike
    have sameLevel := classification_level_iff.mpr alike.level
    refine ⟨congrArg DecisionLevel.value sameLevel, ?_, fun notNeeded => ?_⟩
    · rw [needed, ← sameLevel, alike.approval]
      rfl
    · have isMinor : (sifter.promptLevel task.prompt).atLeast .major = false := by
        rw [← alike.approval, sameLevel, ← needed, notNeeded]
      have noConflicts : sifter.rules.detectConflicts task.prompt = [] := by
        by_contra isConflict
        rw [alike.level isConflict] at isMinor
        cases isMinor
      rw [route_eq, (kind_iff noConflicts alike.approval).mpr (alike.route isMinor)]

section Reports

variable {before after : Session} {events : List (Event Op Op.Answer)} {result : SifterResult}

/-- Work that is carried to its end reports the route it was decided to take. -/
theorem carryOut_reports {direction : Direction}
    (does : (sifter.carryOut task direction).Does before events (.ok result) after) :
    result.route = (sifter.policyEngine.decide (sifter.assessment task)
      (sifter.effectivePolicy task direction)
      (0 < before.budget.remainingCalls && !before.budget.exhausted)).kind.value := by
  simp only [carryOut] at does
  rcases Coroutine.does_bind.mp does with ⟨session, _, _, _, reading, rest, _⟩ | ⟨_, _, no⟩
  · rcases Coroutine.does_read.mp reading with ⟨_, isSession, _⟩
    cases isSession
    rcases Coroutine.does_bind.mp rest with ⟨execution, _, _, _, _, resolving, _⟩ | ⟨_, _, no⟩
    · rcases Coroutine.does_bind.mp resolving with ⟨answered, _, _, _, _, finishing, _⟩ | ⟨_, _, no⟩
      · exact (finish_reports finishing).2
      · cases no
    · cases no
  · cases no

/-- A run that asks nobody and is carried to its end reports the route `routeTaken`. -/
theorem run_reports (notNeeded : (sifter.classification task).requiresHumanApproval = false)
    (does : (sifter.run task).Does (sifter.newSession task) events (.ok result) after)
    (ended : result.status = "completed" ∨ result.status = "failed") :
    result.route = (sifter.routeTaken task).kind.value := by
  rcases Coroutine.does_catching.mp does with ⟨_, running, isResult⟩ |
      ⟨raised, _, _, _, _, handling, _⟩
  · cases isResult
    simp only [runBody, notNeeded] at running
    exact carryOut_reports running
  · cases raised with
    | budgetExceeded exceeded =>
        rw [(finish_reports handling).1] at ended
        simp at ended
    | providerError message =>
        rw [(finish_reports handling).1] at ended
        simp at ended
    | other message =>
        rcases Coroutine.does_raise.mp handling with ⟨_, no, _⟩
        cases no

end Reports

/-- A sifter with its default configuration and the rules given. -/
def ruledBy (rules : List StandingRule) : ComputeSifter where
  config := {}
  registry := buildRegistry {}
  rules := { unicode := .ascii, rules := rules }

def jwtTask : Task where
  prompt := "jwt"

theorem jwtTask_routine (rules : List StandingRule) :
    (ruledBy rules).promptLevel jwtTask.prompt = .routine := by
  refine DecisionClassifier.levelForSignals_of_letters fun c isThere => ?_
  simp only [jwtTask, String.reduceToList, List.mem_cons, List.not_mem_nil, or_false] at isThere ⊢
  tauto

def oauthRule : StandingRule where
  text := "use only oauth"
  forbidTerms := ["auth", "oauth"]

theorem jwtTask_conflicts :
    (ruledBy [oauthRule]).rules.detectConflicts jwtTask.prompt ≠ [] := by
  decide +kernel

end ComputeSifter

end Aa.Sifter
