import Aa.Sifter.Models

/-!
# The cloud budget of a task

Calls, tokens and cost spent on the expert tier in one run and the limits on them. A
check comes before each expert call, a record after it.
-/

namespace Aa.Sifter

structure Budget where
  maxCalls : ℤ := 5
  maxTokens : ℤ := 200000
  maxCost : ℚ := 2
  maxParallel : ℤ := 2
  calls : ℤ := 0
  tokens : ℤ := 0
  cost : ℚ := 0

def Budget.wouldExceed (budget : Budget) (estimatedTokens : ℤ) (estimatedCost : ℚ) :
    Option String :=
  if budget.calls + 1 > budget.maxCalls then some "max_cloud_calls"
  else if budget.tokens + estimatedTokens > budget.maxTokens then some "max_cloud_tokens"
  else if budget.cost + estimatedCost > budget.maxCost then some "max_cloud_cost"
  else none

/-- What `BudgetExceeded` carries. -/
structure BudgetExceeded where
  reason : String
  kind : String
  limit : ℚ
  used : ℚ

structure BudgetTracker where
  budget : Budget
  waiverCeiling : Option ℚ := none
  exhausted : Bool := false
  exhaustedReason : Option String := none

namespace BudgetTracker

/-- A tracker for one run: an explicit maximum replaces the configured one, and a
waiver above the result raises it. -/
def new (config : SifterConfig) (maxCost costWaiver : Option ℚ) : BudgetTracker :=
  let configured := maxCost.getD config.maxCloudCostPerTask
  let effective := match costWaiver with
    | some waiver => if waiver > configured then waiver else configured
    | none => configured
  { budget :=
      { maxCalls := config.maxCloudCallsPerTask
        maxTokens := config.maxCloudTokensPerTask
        maxCost := effective
        maxParallel := config.maxParallelCloudCalls }
    waiverCeiling := costWaiver }

variable (tracker : BudgetTracker)

/-- The exception a denied check raises. -/
def exceeded (kind : String) : BudgetExceeded where
  reason := s!"Cloud budget exceeded: {kind}"
  kind := kind
  limit :=
    if kind = "max_cloud_calls" then tracker.budget.maxCalls
    else if kind = "max_cloud_tokens" then tracker.budget.maxTokens
    else tracker.budget.maxCost
  used :=
    if kind = "max_cloud_calls" then tracker.budget.calls
    else if kind = "max_cloud_tokens" then tracker.budget.tokens
    else tracker.budget.cost

/-- The outcome of a check and the tracker after it. -/
def check (estimatedTokens : ℤ) (estimatedCost : ℚ) : Option BudgetExceeded × BudgetTracker :=
  match tracker.budget.wouldExceed estimatedTokens estimatedCost with
  | none => (none, tracker)
  | some kind =>
      (some (tracker.exceeded kind), { tracker with exhausted := true, exhaustedReason := some kind })

def record (result : GenerationResult) (config : ModelConfig) : BudgetTracker :=
  { tracker with
    budget :=
      { tracker.budget with
        calls := tracker.budget.calls + 1
        tokens := tracker.budget.tokens + (result.inputTokens + result.outputTokens)
        cost := tracker.budget.cost + config.estimateCost result.inputTokens result.outputTokens } }

def remainingCalls : ℤ :=
  max 0 (tracker.budget.maxCalls - tracker.budget.calls)

end BudgetTracker

/-- The counters of one run. -/
structure UsageMetrics where
  localInputTokens : ℤ := 0
  localOutputTokens : ℤ := 0
  cloudInputTokens : ℤ := 0
  cloudOutputTokens : ℤ := 0
  localCalls : ℕ := 0
  cloudCalls : ℕ := 0
  cloudCost : ℚ := 0
  localInferenceMs : ℚ := 0
  cloudInferenceMs : ℚ := 0
  escalations : ℕ := 0
  retries : ℕ := 0
  humanApprovalRequests : ℕ := 0
  humanApprovedCloudAnalyses : ℕ := 0
  majorDecisions : ℕ := 0

def UsageMetrics.recordGeneration (usage : UsageMetrics) (result : GenerationResult)
    (config : ModelConfig) : UsageMetrics :=
  if result.tier = .local then
    { usage with
      localCalls := usage.localCalls + 1
      localInputTokens := usage.localInputTokens + result.inputTokens
      localOutputTokens := usage.localOutputTokens + result.outputTokens
      localInferenceMs := usage.localInferenceMs + result.durationMs }
  else
    { usage with
      cloudCalls := usage.cloudCalls + 1
      cloudInputTokens := usage.cloudInputTokens + result.inputTokens
      cloudOutputTokens := usage.cloudOutputTokens + result.outputTokens
      cloudInferenceMs := usage.cloudInferenceMs + result.durationMs
      cloudCost := usage.cloudCost + config.estimateCost result.inputTokens result.outputTokens }

end Aa.Sifter
