import Mathlib.Data.Prod.Lex
import Mathlib.Data.Rat.Defs
import Mathlib.Algebra.Order.Field.Rat
import Aa.Library.PyText
import Aa.Library.StableSort
import Aa.Sifter.Recommend.Catalog

/-!
# Recommendations

A profile for a machine and a goal: the models of the catalog are scored for the local and for
the expert tier, and the best of each is taken. The runners-up are offered as alternatives.
-/

namespace Aa.Sifter.Recommend

open Aa.Library
open Aa.Sifter.Config

/-- What the recommender takes from the language: `str.lower`, and the `g` format of a number. -/
structure Texts where
  lower : String → String
  general : ℚ → String

def implementedCloudProviders : List String := ["deepseek", "openai-compatible"]

def implementedLocalProviders : List String := ["ollama"]

def contextSteps : List ℤ := [8192, 16384, 32768, 65536, 131072]

def weightsGbPerB : ℚ := 6 / 10

/-- `value or default` of a number that may be missing. -/
def orNumber (value : Option ℚ) (default : ℚ) : ℚ :=
  match value with
  | none => default
  | some number => if number = 0 then default else number

/-- `value or default` of a count that may be missing. -/
def orCount (value : Option ℤ) (default : ℤ) : ℤ :=
  match value with
  | none => default
  | some count => if count = 0 then default else count

/-- The capabilities that a goal asks for, each once. -/
def requiredCapabilities (texts : Texts) (goal : UserGoal) : List String :=
  let workload := goal.workload.map texts.lower
  let isAny (names : List String) : Bool := workload.any fun item => item ∈ names
  let capabilities :=
    (if isAny ["coding", "software development", "code generation", "software engineering",
        "software engineering agents", "local autonomous agents", "multi-agent orchestration"]
      then ["coding"] else []) ++
    (if isAny ["agents", "agent workflows", "software engineering agents",
        "local autonomous agents", "multi-agent orchestration"]
      then ["tool_use", "agentic"] else []) ++
    (if isAny ["reasoning", "research"] then ["reasoning"] else []) ++
    (if isAny ["large repository analysis", "summarization"] then ["long_context"] else []) ++
    (if isAny ["data analysis"] then ["structured_output"] else [])
  if capabilities.isEmpty then ["general"] else capabilities

structure Scored where
  model : ModelMetadata
  score : ℚ
  comfortable : Bool
  compatible : Bool
  reasons : List String

/-- Higher scores come first, equal ones by key. -/
def Scored.rank (scored : Scored) : ℚ ×ₗ String := toLex (-scored.score, scored.model.key)

/-! ## Local candidates -/

/-- The memory a model is recommended to have. -/
def recommendedVram (model : ModelMetadata) : ℚ :=
  orNumber model.recommendedVramGb (orNumber model.minimumVramGb 0)

/-- The memory a model needs. -/
def minimumVram (model : ModelMetadata) : ℚ :=
  orNumber model.minimumVramGb (recommendedVram model)

def fitScore (model : ModelMetadata) (vram : Option ℚ) (comfortable compatible : Bool) : ℚ :=
  match vram with
  | none => 5 / 10
  | some vram =>
      if !compatible then -1
      else
        let recommended := orNumber model.recommendedVramGb (orNumber model.minimumVramGb vram)
        let ratio := if vram = 0 then 1 else recommended / vram
        if comfortable && ratio ≤ 9 / 10 then 11 / 10 else 7 / 10

/-- The capabilities asked for that a model has. -/
def matched (required : List String) (model : ModelMetadata) : List String :=
  required.filter fun capability => capability ∈ model.capabilities

def capabilityScore (required : List String) (model : ModelMetadata) : ℚ :=
  if required.isEmpty then 1 else (matched required model).length / required.length

/-- One turn of `_score_local`. -/
def scoredLocal (texts : Texts) (required : List String) (goal : UserGoal) (vram ram : Option ℚ)
    (model : ModelMetadata) : Scored :=
  let compatible : Bool := match vram with
    | none => true
    | some vram => minimumVram model ≤ vram
  let comfortable : Bool := match vram with
    | none => false
    | some vram => minimumVram model ≤ vram && recommendedVram model ≤ vram
  let vramText := texts.general (vram.getD 0)
  let fit := fitScore model vram comfortable compatible
  let params := orNumber model.parameterCountB 8
  let quality := min 1 (params / 32)
  let speed := 1 - min 1 (params / 32)
  let score :=
    12 / 10 * fit + 9 / 10 * capabilityScore required model +
      (5 / 10 + goal.qualityPriority) * quality + (5 / 10 + goal.speedPriority) * speed +
      (if 5 / 10 ≤ goal.costPriority then 35 / 100 else 0) +
      (if 5 / 10 ≤ goal.privacyPriority then 35 / 100 else 0) +
      (if goal.qualityPriority < 5 / 10 then 25 / 100 else 0)
  let memoryReasons :=
    if !compatible then
      [model.displayName ++ " needs ~" ++ texts.general (minimumVram model) ++
        " GB VRAM, more than the available " ++ vramText ++ " GB."]
    else if comfortable then
      [model.displayName ++ " fits comfortably within " ++ vramText ++
        " GB VRAM, leaving room for KV cache and agent tooling."]
    else if vram.isSome then
      [model.displayName ++ " fits only tightly within " ++ vramText ++ " GB VRAM."]
    else []
  let capabilityReasons :=
    if required.isEmpty then []
    else ["Supports " ++ Py.join ", " (sortBy (fun name => name) (matched required model)) ++ "."]
  let ramReasons : List String := match ram, model.minimumRamGb with
    | some ram, some minimum =>
        if minimum ≠ 0 ∧ ram < minimum then
          ["Prefers more than " ++ texts.general ram ++ " GB system RAM."]
        else []
    | _, _ => []
  { model := model
    score := if ramReasons.isEmpty then score else score - 5 / 10
    comfortable := comfortable
    compatible := compatible
    reasons := memoryReasons ++ capabilityReasons ++ ramReasons }

def scoreLocal (texts : Texts) (catalog : ModelCatalog) (required : List String) (goal : UserGoal)
    (vram ram : Option ℚ) (providers : List String) : List Scored :=
  sortBy Scored.rank <|
    (catalog.filter (some true) none providers required).map
      (scoredLocal texts required goal vram ram)

/-! ## Expert candidates -/

def cloudQuality (model : ModelMetadata) : ℚ :=
  5 / 10 + (if model.supports "reasoning" then 3 / 10 else 0) +
    (if model.supports "coding" then 2 / 10 else 0) +
    (if model.supports "long_context" then 1 / 10 else 0) +
    (if model.supports "agentic" then 1 / 10 else 0) +
    (if model.supports "vision" then 5 / 100 else 0)

def cost (model : ModelMetadata) : ℚ :=
  match model.cost with
  | none => 1
  | some cost => cost.inputPerMtok + cost.outputPerMtok

/-- One turn of `_score_cloud`. -/
def scoredCloud (required : List String) (goal : UserGoal) (maxCost : ℚ) (model : ModelMetadata) :
    Scored :=
  let names := Py.join ", " (sortBy (fun name => name) required)
  { model := model
    score :=
      (5 / 10 + goal.qualityPriority) * cloudQuality model -
        (5 / 10 + goal.costPriority) * (cost model / maxCost) +
        8 / 10 * capabilityScore required model +
        (if "long_context" ∈ required ∧ model.supports "long_context" = true then 2 / 10 else 0)
    comfortable := true
    compatible := true
    reasons := ["Expert capability match for " ++ (if names = "" then "general" else names) ++ "."] }

def scoreCloud (catalog : ModelCatalog) (required : List String) (goal : UserGoal)
    (providers : List String) : List Scored :=
  let candidates := catalog.filter none (some true) providers required
  let maxCost := orNumber (candidates.map cost).max? 1
  sortBy Scored.rank (candidates.map (scoredCloud required goal maxCost))

/-! ## Context limits -/

def stepHeadroom (step : ℤ) : ℚ :=
  if step = 8192 then 5 / 10
  else if step = 16384 then 15 / 10
  else if step = 32768 then 3
  else if step = 65536 then 45 / 10
  else if step = 131072 then 8
  else 99

/-- The window of a model, a common one if it is unknown. -/
def contextWindow (model : ModelMetadata) : ℤ := orCount model.contextWindow 32768

/-- The largest step that the memory left by the weights has room for. -/
def capacity (model : ModelMetadata) (vram : ℚ) : ℤ :=
  let weights := orNumber model.parameterCountB 8 * weightsGbPerB
  let headroom := max 0 (vram - weights)
  contextSteps.foldl (fun capacity step => if stepHeadroom step ≤ headroom then step else capacity)
    8192

def recommendContext (model : ModelMetadata) (vram : Option ℚ) (preferred : Option ℤ) :
    ℤ × List String :=
  let theoretical := contextWindow model
  match vram with
  | none =>
      let chosen := min (orCount preferred 8192) theoretical
      (chosen,
        if orCount preferred 0 = 0 then
          ["Recommended local context: " ++ toString chosen ++ " tokens (unknown GPU memory)."]
        else [])
  | some vram =>
      let safe := min (capacity model vram) theoretical
      let chosen := match preferred with
        | none => safe
        | some preferred => if safe < preferred then safe else preferred
      let warnings := match preferred with
        | none => []
        | some preferred =>
            if safe < preferred then
              ["Requested context " ++ toString preferred ++ " exceeds the safe local estimate " ++
                toString safe ++ "; using the safe estimate."]
            else []
      (chosen,
        warnings ++
          ["Recommended local context: " ++ toString chosen ++ " tokens (model maximum " ++
            toString theoretical ++
            "; operational estimate leaves room for KV cache and tooling)."])

def expertContext (texts : Texts) (model : ModelMetadata) (goal : UserGoal) : ℤ :=
  let window := orCount model.contextWindow 64000
  if orCount goal.preferredContext 0 ≠ 0 then min (orCount goal.preferredContext 0) window
  else if "long_context" ∈ requiredCapabilities texts goal then min 131072 window
  else min 64000 window

/-! ## The recommendation -/

def defaultExpertEndpoint (provider : String) : Option String :=
  if provider = "deepseek" then some "https://api.deepseek.com/v1" else none

def defaultExpertKeyEnv (provider : String) : Option String :=
  if provider = "deepseek" then some "DEEPSEEK_API_KEY"
  else if provider = "openai-compatible" then some "OPENAI_API_KEY"
  else none

def preferencesFromGoal (goal : UserGoal) : UserPreferenceConfig where
  localFirst := 5 / 10 ≤ goal.privacyPriority || 5 / 10 ≤ goal.costPriority
  costSensitive := 5 / 10 ≤ goal.costPriority
  privacySensitive := 5 / 10 ≤ goal.privacyPriority
  cloudAllowed := goal.cloudAllowed
  preferredContext := goal.preferredContext

def recommendPolicy (goal : UserGoal) (cloudAllowed : Bool)
    (localTier expertTier : Option ModelTierConfig) : String :=
  if !cloudAllowed || expertTier.isNone then "local_only"
  else if localTier.isNone then "expert_first"
  else if 75 / 100 ≤ goal.qualityPriority ∧ goal.costPriority < 5 / 10 then "adaptive"
  else if 6 / 10 ≤ goal.costPriority ∨ 6 / 10 ≤ goal.privacyPriority then "local_first"
  else "adaptive"

def confidence (vram : Option ℚ) (localBest expertBest : Option Scored) (required : List String) :
    String :=
  if vram.isNone then "medium"
  else if (localBest.any Scored.comfortable && !required.isEmpty) = true then "high"
  else if localBest.isSome || expertBest.isSome then "medium"
  else "low"

/-- The tier of an alternative local model. -/
def alternative (item : Scored) : ModelTierConfig where
  provider := item.model.provider
  model := item.model.modelId
  contextLimit := item.model.contextWindow

/-- The next two compatible models besides the best. -/
def alternatives (scored : List Scored) (best : Option Scored) : List ModelTierConfig :=
  let others := scored.filter fun item =>
    !(best.any fun best => item.model.key = best.model.key) && item.compatible
  (others.take 2).map alternative

/-- The tier of an alternative expert model. -/
def expertAlternative (item : Scored) : ModelTierConfig where
  provider := item.model.provider
  model := item.model.modelId
  endpoint := defaultExpertEndpoint item.model.provider
  apiKeyEnv := defaultExpertKeyEnv item.model.provider
  inputCostPerMtok := item.model.cost.map CostMetadata.inputPerMtok
  outputCostPerMtok := item.model.cost.map CostMetadata.outputPerMtok

structure Recommendation where
  profile : ComputeProfile
  reasons : List String := []
  localAlternatives : List ModelTierConfig := []
  expertAlternatives : List ModelTierConfig := []
  confidence : String := "medium"
  notes : List String := []

/-- What a profile is recommended for: the machine if it is known, the goal, the catalog, and the
providers that can be used if they are given. -/
structure Request where
  hardware : Option HardwareProfile
  goal : UserGoal
  catalog : ModelCatalog
  name : String := "recommended"
  availableLocalProviders : List String := []
  availableCloudProviders : List String := []

namespace Request

variable (texts : Texts) (request : Request)

def localProviders : List String :=
  if request.availableLocalProviders.isEmpty then implementedLocalProviders
  else request.availableLocalProviders

def cloudProviders : List String :=
  if request.availableCloudProviders.isEmpty then implementedCloudProviders
  else request.availableCloudProviders

def required : List String := requiredCapabilities texts request.goal

def vram : Option ℚ := request.hardware.bind HardwareProfile.gpuVramGb

def ram : Option ℚ := request.hardware.bind HardwareProfile.systemRamGb

def localScored : List Scored :=
  scoreLocal texts request.catalog (request.required texts) request.goal request.vram request.ram
    request.localProviders

def localBest : Option Scored := (request.localScored texts).find? Scored.compatible

def expertScored : List Scored :=
  scoreCloud request.catalog (request.required texts) request.goal request.cloudProviders

/-- The best expert candidate, none where the goal disallows the cloud. -/
def expertBest : Option Scored :=
  if request.goal.cloudAllowed then (request.expertScored texts).head? else none

def localTier (best : Scored) : ModelTierConfig where
  provider := best.model.provider
  model := best.model.modelId
  contextLimit :=
    some (recommendContext best.model request.vram request.goal.preferredContext).1
  maxOutputTokens := some 4096
  temperature := some (2 / 10)

def expertTier (best : Scored) : ModelTierConfig where
  provider := best.model.provider
  model := best.model.modelId
  endpoint := defaultExpertEndpoint best.model.provider
  apiKeyEnv := defaultExpertKeyEnv best.model.provider
  contextLimit := some (expertContext texts best.model request.goal)
  maxOutputTokens := some 8192
  temperature := some (2 / 10)
  inputCostPerMtok := best.model.cost.map CostMetadata.inputPerMtok
  outputCostPerMtok := best.model.cost.map CostMetadata.outputPerMtok

def expertReason (best : Scored) : String :=
  best.model.displayName ++ " selected for the expert tier" ++
    (match best.model.cost with
    | none => ""
    | some cost => " ($" ++ texts.general cost.inputPerMtok ++ "/$" ++
        texts.general cost.outputPerMtok ++ " per Mtok)") ++ "."

def recommendProfile : Recommendation :=
  let goal := request.goal
  let localBest := request.localBest texts
  let expertBest := request.expertBest texts
  let localTier := localBest.map request.localTier
  let expertTier := expertBest.map (request.expertTier texts)
  let routingPolicy := recommendPolicy goal goal.cloudAllowed localTier expertTier
  let missing := localBest.isNone && expertBest.isNone
  { profile :=
      { name := request.name
        «local» := localTier
        expert := expertTier
        routingPolicy := routingPolicy
        preferences := preferencesFromGoal goal
        hardware := request.hardware
        goal := some goal }
    reasons :=
      (localBest.map Scored.reasons).getD [] ++ (expertBest.map (expertReason texts)).toList ++
        ["Routing strategy: " ++ routingPolicy ++ "."]
    localAlternatives := alternatives (request.localScored texts) localBest
    expertAlternatives := (((request.expertScored texts).drop 1).take 2).map expertAlternative
    confidence :=
      if missing then "low" else confidence request.vram localBest expertBest (request.required texts)
    notes :=
      (if localBest.isSome then []
        else if request.vram.isSome then
          ["No catalog local model fits the available GPU memory comfortably; " ++
            "cloud-heavy routing is recommended."]
        else ["No GPU detected; local inference would be CPU-bound."]) ++
      (if goal.cloudAllowed then []
        else ["Cloud use is disabled by the user goal; only local models were considered."]) ++
      ((localBest.map fun best =>
        (recommendContext best.model request.vram goal.preferredContext).2).getD []) ++
      (if missing then
        ["No compatible model was found; configure a model manually with " ++
          "`aa_sifter model set`."]
        else []) }

end Request

end Aa.Sifter.Recommend
