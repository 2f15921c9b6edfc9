import Aa.Sifter.Models
import Aa.Sifter.Decisions.Classifier

/-!
# Preflight assessment

The deterministic estimate of a task's kind, difficulty and chance of local success.
Floating point numbers are exact rationals, rounded to three decimals at the end as
the source rounds them.
-/

namespace Aa.Sifter

open Aa.Library

structure PreflightAssessment where
  taskType : String := "general"
  complexity : ℚ := 3 / 10
  localSuccessProbability : ℚ := 8 / 10
  reasoningDifficulty : ℚ := 3 / 10
  contextRequirement : ℕ := 4000
  estimatedSubtasks : ℤ := 1
  architectureImpact : Bool := false
  securitySensitive : Bool := false
  decisionLevel : DecisionLevel := .routine
  requiresHumanApproval : Bool := false
  requiresCloud : Bool := false
  recommendedRoute : String := "local"
  reason : String := ""
  modelAssisted : Bool := false

def taskTypes : List (String × List String) :=
  [("testing", ["test", "pytest", "unit test", "coverage"]),
    ("debugging", ["debug", "bug", "failing", "failure", "traceback", "error", "broken"]),
    ("implementation", ["implement", "add", "build", "create", "write", "feature"]),
    ("refactor", ["refactor", "restructure", "cleanup", "clean up"]),
    ("documentation", ["document", "readme", "docstring", "comment"]),
    ("review", ["review", "audit", "inspect", "analyze"]),
    ("architecture", ["architecture", "design", "plan", "migration"])]

def complexitySignals : List String :=
  ["concurrency", "distributed", "performance", "algorithm", "optimize", "security", "crypto",
    "migration", "refactor", "architecture", "asynchronous", "async", "race condition", "deadlock"]

def securitySignals : List String :=
  ["auth", "oauth", "password", "credential", "secret", "encryption", "security"]

/-- `_clamp(value)` to the unit interval. -/
def clamp (value : ℚ) : ℚ :=
  max 0 (min 1 value)

/-- `round(value, 3)`, ties to even. -/
def round3 (value : ℚ) : ℚ :=
  let scaled := value * 1000
  let below := scaled.floor
  let fraction := scaled - below
  let rounded :=
    if fraction < 1 / 2 then below
    else if fraction > 1 / 2 then below + 1
    else if below % 2 = 0 then below else below + 1
  rounded / 1000

structure PreflightAssessor where
  config : SifterConfig
  unicode : PyUnicode

namespace PreflightAssessor

def taskType (text : String) : String :=
  ((taskTypes.find? fun entry => entry.2.any (Py.contains text)).map (·.1)).getD "general"

def assess (assessor : PreflightAssessor) (prompt : String) (context : Option String)
    (classification : DecisionClassification) (failedAttempts retryCount : ℕ := 0) :
    PreflightAssessment :=
  let config := assessor.config
  let text := assessor.unicode.lowered (prompt ++ "\n" ++ context.getD "")
  let contextRequirement := max 1 (prompt.length / 4) + (context.getD "").length / 4
  let kind := taskType text
  let matching : ℚ := (complexitySignals.filter (Py.contains text)).length
  let lengthFactor : ℚ := min 1 (prompt.length / 4000)
  let complexity := clamp (15 / 100 + 1 / 10 * matching + 1 / 2 * lengthFactor)
  let reasoningDifficulty := clamp (2 / 10 + 12 / 100 * matching + 4 / 10 * lengthFactor)
  let architectureImpact := classification.signals .architectureChange
  let securitySensitive :=
    classification.signals .securityBoundary || securitySignals.any (Py.contains text)
  let unpenalized := 92 / 100 - 1 / 2 * complexity - 1 / 4 * reasoningDifficulty -
    min (4 / 10) (2 / 10 * failedAttempts) - min (2 / 10) (5 / 100 * retryCount)
  let localProbability :=
    clamp (if architectureImpact then unpenalized - 15 / 100 else unpenalized)
  let contextPressure : Bool := (contextRequirement : ℤ) > config.localContextLimit
  let requiresCloud : Bool :=
    localProbability < config.localConfidenceThreshold || contextPressure ||
      classification.level = .major || classification.level = .critical
  let subtasks : ℤ := 1 + (complexity * 4).floor
  let estimatedSubtasks :=
    if (kind = "architecture" || kind = "implementation") && complexity > 1 / 2 then
      max subtasks 3
    else subtasks
  let route :=
    if requiresCloud || architectureImpact then
      if contextPressure then "cloud" else if localProbability > 4 / 10 then "hybrid" else "cloud"
    else "local"
  let reasons :=
    (if classification.level = .routine then []
      else [s!"decision level {classification.level.value}"]) ++
    (if contextPressure then
      [s!"context ~{contextRequirement} tokens exceeds local limit {config.localContextLimit}"]
      else []) ++
    (if failedAttempts = 0 then [] else [s!"{failedAttempts} prior failed attempt(s)"])
  { taskType := kind
    complexity := round3 complexity
    localSuccessProbability := round3 localProbability
    reasoningDifficulty := round3 reasoningDifficulty
    contextRequirement := contextRequirement
    estimatedSubtasks := estimatedSubtasks
    architectureImpact := architectureImpact
    securitySensitive := securitySensitive
    decisionLevel := classification.level
    requiresHumanApproval := classification.requiresHumanApproval
    requiresCloud := requiresCloud
    recommendedRoute := route
    reason :=
      if reasons.isEmpty then "localized work within local model capability"
      else Py.join "; " reasons }

end PreflightAssessor

end Aa.Sifter
