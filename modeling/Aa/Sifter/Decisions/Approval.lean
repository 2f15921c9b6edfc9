import Aa.Sifter.Models
import Aa.Sifter.Decisions.Policy

/-!
# Approval requests and the decision gate

What the human is asked, what the human can answer, the provider that answers
without a human, and the gate that decides which classifications need an answer.
-/

namespace Aa.Sifter

open Aa.Library

inductive ApprovalAction
  | approve
  | reject
  | modify
  | chooseOption
  | moreLocalAnalysis
  | allowExpertAnalysis
  | continueCurrent
  | stop
  deriving DecidableEq

namespace ApprovalAction

def value : ApprovalAction → String
  | approve => "approve"
  | reject => "reject"
  | modify => "modify"
  | chooseOption => "choose_option"
  | moreLocalAnalysis => "ask_for_more_local_analysis"
  | allowExpertAnalysis => "allow_expert_analysis"
  | continueCurrent => "continue_with_current_architecture"
  | stop => "stop_task"

def authorizing : ApprovalAction → Bool
  | approve | chooseOption | allowExpertAnalysis | continueCurrent => true
  | reject | stop | modify | moreLocalAnalysis => false

end ApprovalAction

structure ApprovalOption where
  key : String
  label : String
  description : String := ""

/-- The stage of a run at which a request is raised. -/
inductive Stage
  | analysis
  | implementation
  | escalation
  deriving DecidableEq

structure ApprovalRequest where
  category : DecisionLevel
  issue : String
  whyItMatters : String := ""
  currentApproach : String := ""
  options : List ApprovalOption := []
  recommendedAction : String := ""
  cloudReasoningInvoked : Bool := false
  stage : Stage := .analysis
  context : List (String × List String) := []

structure HumanDecision where
  action : ApprovalAction
  selectedOptions : List String := []
  constraints : List String := []
  note : String := ""
  deriving DecidableEq

def HumanDecision.authorized (decision : HumanDecision) : Bool :=
  decision.action.authorizing

/-- The provider that answers without a human. -/
structure AutoApprovalProvider where
  default : Option HumanDecision := none
  major : Option HumanDecision := none
  critical : Option HumanDecision := none
  significant : Option HumanDecision := none

namespace AutoApprovalProvider

variable (provider : AutoApprovalProvider)

/-- The answer configured for critical decisions. -/
def criticalAnswer : HumanDecision :=
  provider.critical.getD { action := .stop, note := "critical decision not auto-approved" }

/-- The answer configured for major decisions. -/
def majorAnswer : HumanDecision :=
  (provider.major.or provider.default).getD
    { action := .stop, note := "major decision not auto-approved" }

/-- The answer for the other decisions. -/
def otherAnswer : HumanDecision :=
  provider.significant.getD { action := .approve, note := "non-interactive routine approval" }

def request (asked : ApprovalRequest) : HumanDecision :=
  if asked.category = .critical then provider.criticalAnswer
  else if asked.category = .major then provider.majorAnswer
  else provider.otherAnswer

end AutoApprovalProvider

/-- The gate in front of major decisions. -/
structure DecisionGate where
  config : SifterConfig
  rules : StandingRuleEngine

namespace DecisionGate

variable (gate : DecisionGate)

def approvalNeeded (level : DecisionLevel) : Bool :=
  match level with
  | .critical => gate.config.humanApprovalForCriticalDecisions
  | .major => gate.config.humanApprovalForMajorDecisions
  | .significant => gate.config.humanApprovalForSignificantDecisions
  | .routine => false

def classify (proposal : String) : DecisionClassification :=
  let classification := DecisionClassifier.classify gate.rules.unicode proposal
    (gate.rules.detectConflicts proposal)
  { classification with requiresHumanApproval := gate.approvalNeeded classification.level }

/-- Under a validated configuration a major or critical decision needs a human. -/
theorem requiresHumanApproval_of_isMajor {gate : DecisionGate} (validated : gate.config.Safe)
    {proposal : String} (isMajor : (gate.classify proposal).isMajor) :
    (gate.classify proposal).requiresHumanApproval := by
  have needed (level : DecisionLevel) (severe : level.atLeast .major) :
      gate.approvalNeeded level := by
    cases level with
    | routine => simp [DecisionLevel.atLeast, DecisionLevel.severity] at severe
    | significant => simp [DecisionLevel.atLeast, DecisionLevel.severity] at severe
    | major => exact validated.major
    | critical => exact validated.critical
  exact needed _ isMajor

end DecisionGate

end Aa.Sifter
