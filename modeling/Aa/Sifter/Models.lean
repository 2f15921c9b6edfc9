import Mathlib
import Aa.Library.PyText

/-!
# Model tiers and their configuration

The configuration record of the sifter, the two tiers it calls models in, the
providers its factory builds and the registry that chooses one for a call. Rates,
costs and times are exact rationals. A configuration is `Safe` when it satisfies what
its own validator enforces.
-/

namespace Aa.Sifter

open Aa.Library

inductive Tier
  | «local»
  | expert
  deriving DecidableEq

inductive Role
  | system
  | user
  | assistant
  | tool
  deriving DecidableEq

def Role.value : Role → String
  | .system => "system"
  | .user => "user"
  | .assistant => "assistant"
  | .tool => "tool"

/-- A message to a model, its content as glyphs. -/
structure Message (α : Type) where
  role : Role
  content : List α
  deriving DecidableEq

namespace Message

def system (content : String) : Message Char := ⟨.system, content.toList⟩

def user (content : String) : Message Char := ⟨.user, content.toList⟩

def assistant (content : String) : Message Char := ⟨.assistant, content.toList⟩

end Message

structure GenerationResult where
  text : String
  model : String
  tier : Tier
  inputTokens : ℤ := 0
  outputTokens : ℤ := 0
  durationMs : ℚ := 0

structure ModelConfig where
  name : String
  provider : String := "ollama"
  tier : Tier := .local
  contextLimit : ℤ := 64000
  inputCostPerMtok : ℚ := 0
  outputCostPerMtok : ℚ := 0
  timeoutSeconds : ℚ := 300

def ModelConfig.estimateCost (config : ModelConfig) (inputTokens outputTokens : ℤ) : ℚ :=
  inputTokens / 1000000 * config.inputCostPerMtok +
    outputTokens / 1000000 * config.outputCostPerMtok

def defaultLocalMaxOutput : ℤ := 4096

def defaultExpertMaxOutput : ℤ := 8192

structure SifterConfig where
  ollamaHost : String := "http://localhost:11434"
  localProvider : String := "ollama"
  localEndpoint : Option String := none
  localApiKeyEnv : Option String := none
  localModel : String := "qwen3.5:9b"
  localContextLimit : ℤ := 64000
  localConfidenceThreshold : ℚ := 72 / 100
  localMaxRetries : ℤ := 2
  localMaxOutputTokens : Option ℤ := none
  localTemperature : Option ℚ := some (2 / 10)
  expertProvider : String := "deepseek"
  expertEndpoint : Option String := none
  expertApiKeyEnv : Option String := some "DEEPSEEK_API_KEY"
  cloudModel : String := "deepseek-chat"
  cloudContextLimit : ℤ := 64000
  cloudInputCostPerMtok : ℚ := 14 / 100
  cloudOutputCostPerMtok : ℚ := 28 / 100
  expertMaxOutputTokens : Option ℤ := none
  expertTemperature : Option ℚ := some (2 / 10)
  cloudAllowed : Bool := true
  preferLocal : Bool := true
  costSensitive : Bool := true
  privacySensitive : Bool := true
  configProfile : Option String := none
  routingPolicy : String := "adaptive"
  maxCloudCallsPerTask : ℤ := 5
  maxCloudTokensPerTask : ℤ := 200000
  maxCloudCostPerTask : ℚ := 2
  maxParallelCloudCalls : ℤ := 2
  maxParallelLocalCalls : ℤ := 1
  requestTimeoutSeconds : ℚ := 300
  humanApprovalForMajorDecisions : Bool := true
  humanApprovalForCriticalDecisions : Bool := true
  humanApprovalForSignificantDecisions : Bool := false
  nonInteractive : Bool := false
  redactSecrets : Bool := true

namespace SifterConfig

/-- The validator that runs when a configuration is built or assigned to. -/
def enforceSafety (config : SifterConfig) : SifterConfig :=
  { config with
    humanApprovalForCriticalDecisions := true
    humanApprovalForMajorDecisions := true
    localContextLimit := if config.localContextLimit ≤ 0 then 64000 else config.localContextLimit
    maxCloudCostPerTask := if config.maxCloudCostPerTask < 0 then 0 else config.maxCloudCostPerTask }

/-- What the validator guarantees. -/
structure Safe (config : SifterConfig) : Prop where
  major : config.humanApprovalForMajorDecisions = true
  critical : config.humanApprovalForCriticalDecisions = true
  contextLimit : 0 < config.localContextLimit
  maxCost : 0 ≤ config.maxCloudCostPerTask

theorem enforceSafety_safe (config : SifterConfig) : config.enforceSafety.Safe where
  major := rfl
  critical := rfl
  contextLimit := by
    simp only [enforceSafety]
    split <;> omega
  maxCost := by
    simp only [enforceSafety]
    split
    · exact le_refl 0
    · rename_i notNegative
      exact not_lt.mp notNegative

def localModelConfig (config : SifterConfig) : ModelConfig where
  name := config.localModel
  provider := config.localProvider
  tier := .local
  contextLimit := config.localContextLimit
  timeoutSeconds := config.requestTimeoutSeconds

def cloudModelConfig (config : SifterConfig) : ModelConfig where
  name := config.cloudModel
  provider := config.expertProvider
  tier := .expert
  contextLimit := config.cloudContextLimit
  inputCostPerMtok := config.cloudInputCostPerMtok
  outputCostPerMtok := config.cloudOutputCostPerMtok
  timeoutSeconds := config.requestTimeoutSeconds

end SifterConfig

/-! ## Providers -/

/-- A provider implementation and what it was built on. -/
inductive Provider
  | ollama (host : String)
  | deepSeek (baseUrl apiKeyEnv : String)
  | openAICompatible (baseUrl : String) (apiKeyEnv : Option String)
  | injected (name : String)
  deriving DecidableEq

def Provider.name : Provider → String
  | .ollama _ => "ollama"
  | .deepSeek _ _ => "deepseek"
  | .openAICompatible _ _ => "openai-compatible"
  | .injected name => name

/-- `first or second` of optional strings: an empty string counts as missing. -/
def orElse (first second : Option String) : Option String :=
  match first with
  | some text => if text = "" then second else some text
  | none => second

/-- `url.rstrip("/")`. -/
def stripSlashes (url : String) : String :=
  String.ofList (url.toList.reverse.dropWhile (· == '/')).reverse

/-- Builds a provider, or fails with the text of a `ProviderError`. -/
def buildProvider (name : String) (config : SifterConfig) : Except String Provider :=
  if name = "ollama" then
    .ok (.ollama (stripSlashes ((orElse config.localEndpoint
      (orElse (some config.ollamaHost) (some "http://localhost:11434"))).getD "")))
  else if name = "deepseek" then
    .ok (.deepSeek
      (stripSlashes ((orElse config.expertEndpoint (some "https://api.deepseek.com/v1")).getD ""))
      ((orElse config.expertApiKeyEnv (some "DEEPSEEK_API_KEY")).getD ""))
  else if name = "openai-compatible" then
    match orElse (orElse config.expertEndpoint config.localEndpoint) none with
    | none =>
        .error ("provider 'openai-compatible' requires an endpoint " ++
          "(set expert_endpoint or local_endpoint)")
    | some endpoint =>
        .ok (.openAICompatible (stripSlashes endpoint)
          (orElse config.expertApiKeyEnv config.localApiKeyEnv))
  else .error s!"Unknown provider '{name}'"

/-- The registry: providers by name. -/
structure ModelRegistry where
  providers : AList (fun _ : String => Provider) := ∅

namespace ModelRegistry

/-- Adds the provider a name stands for, unless it is unknown or already there. -/
def addBuilt (config : SifterConfig) (registry : ModelRegistry) (name : String) : ModelRegistry :=
  if name = "" || name ∈ registry.providers then registry
  else
    match buildProvider name config with
    | .ok provider => { providers := registry.providers.insert name provider }
    | .error _ => registry

/-- The provider a model is sent to, or the text of a `ProviderError`. -/
def providerFor (registry : ModelRegistry) (modelName default : String) :
    Except String Provider :=
  let afterColon := (modelName.toList.dropWhile (· != ':')).tail
  let fallback : Except String Provider :=
    match (if default = "" then none else registry.providers.lookup default) with
    | some provider => .ok provider
    | none =>
        match registry.providers.entries with
        | [entry] => .ok entry.2
        | _ => .error s!"No provider registered for model '{modelName}'"
  if modelName.toList.contains ':' && afterColon = "cloud".toList then
    match registry.providers.lookup "ollama" with
    | some provider => .ok provider
    | none => fallback
  else fallback

end ModelRegistry

def buildRegistry (config : SifterConfig) (injected : Option Provider := none) : ModelRegistry :=
  match injected with
  | some provider =>
      { providers := (∅ : AList (fun _ : String => Provider)).insert provider.name provider }
  | none => ModelRegistry.addBuilt config (ModelRegistry.addBuilt config {} config.localProvider)
      config.expertProvider

end Aa.Sifter
