import Aa.Sifter.Config.Schema

/-!
# The configuration of a run

A run is configured from the environment, the active profile and the options of the command
line, in this order and each over the one before. Only the configuration read from the
environment goes through the validator.
-/

namespace Aa.Sifter.Config

open Aa.Library

/-! ## The environment -/

/-- The variables of a process, the ones of its dotenv file included. -/
abbrev Environment := String → Option String

/-- What `int` and `float` read from a text, where it is a numeral. -/
structure Numerals where
  int : String → Option ℤ
  float : String → Option ℚ

namespace Environment

variable (unicode : PyUnicode) (numerals : Numerals) (environ : Environment)

/-- A variable, with the prefix if it is set so. -/
def env (name : String) : Option String := environ ("SIFTER_" ++ name) <|> environ name

def envBool (name : String) (default : Bool) : Bool :=
  match environ.env name with
  | none => default
  | some raw =>
      let value := unicode.lowered (String.ofList (Glyph.strip raw.toList))
      ["1", "true", "yes", "on"].contains value

def envInt (name : String) (default : ℤ) : ℤ :=
  match environ.env name with
  | none => default
  | some raw => if Glyph.strip raw.toList = [] then default else (numerals.int raw).getD default

def envFloat (name : String) (default : ℚ) : ℚ :=
  match environ.env name with
  | none => default
  | some raw => if Glyph.strip raw.toList = [] then default else (numerals.float raw).getD default

/-- `value or None`. -/
def nonzero (value : ℤ) : Option ℤ := if value = 0 then none else some value

end Environment

/-- The configuration that the environment gives. -/
def fromEnv (unicode : PyUnicode) (numerals : Numerals) (environ : Environment) : SifterConfig :=
  SifterConfig.enforceSafety {
    ollamaHost := (environ "OLLAMA_HOST").getD "http://localhost:11434"
    localProvider := (environ.env "LOCAL_PROVIDER").getD "ollama"
    localEndpoint := environ.env "LOCAL_ENDPOINT"
    localApiKeyEnv := environ.env "LOCAL_API_KEY_ENV"
    localModel := (environ.env "LOCAL_MODEL").getD "qwen3.5:9b"
    localContextLimit := environ.envInt numerals "LOCAL_CONTEXT_LIMIT" 64000
    localConfidenceThreshold := environ.envFloat numerals "LOCAL_CONFIDENCE_THRESHOLD" (72 / 100)
    localMaxRetries := environ.envInt numerals "LOCAL_MAX_RETRIES" 2
    localMaxOutputTokens :=
      Environment.nonzero (environ.envInt numerals "LOCAL_MAX_OUTPUT_TOKENS" 0)
    localTemperature := some (environ.envFloat numerals "LOCAL_TEMPERATURE" (2 / 10))
    expertProvider := (environ.env "EXPERT_PROVIDER").getD "deepseek"
    expertEndpoint := environ.env "EXPERT_ENDPOINT"
    expertApiKeyEnv := some ((environ.env "EXPERT_API_KEY_ENV").getD "DEEPSEEK_API_KEY")
    cloudModel := (environ.env "CLOUD_MODEL").getD "deepseek-chat"
    cloudContextLimit := environ.envInt numerals "CLOUD_CONTEXT_LIMIT" 64000
    cloudInputCostPerMtok := environ.envFloat numerals "CLOUD_INPUT_COST_PER_MTOK" (14 / 100)
    cloudOutputCostPerMtok := environ.envFloat numerals "CLOUD_OUTPUT_COST_PER_MTOK" (28 / 100)
    expertMaxOutputTokens :=
      Environment.nonzero (environ.envInt numerals "EXPERT_MAX_OUTPUT_TOKENS" 0)
    expertTemperature := some (environ.envFloat numerals "EXPERT_TEMPERATURE" (2 / 10))
    cloudAllowed := environ.envBool unicode "CLOUD_ALLOWED" true
    preferLocal := environ.envBool unicode "PREFER_LOCAL" true
    costSensitive := environ.envBool unicode "COST_SENSITIVE" true
    privacySensitive := environ.envBool unicode "PRIVACY_SENSITIVE" true
    routingPolicy := (environ.env "ROUTING_POLICY").getD "adaptive"
    maxCloudCallsPerTask := environ.envInt numerals "MAX_CLOUD_CALLS_PER_TASK" 5
    maxCloudTokensPerTask := environ.envInt numerals "MAX_CLOUD_TOKENS_PER_TASK" 200000
    maxCloudCostPerTask := environ.envFloat numerals "MAX_CLOUD_COST_PER_TASK" 2
    maxParallelCloudCalls := environ.envInt numerals "MAX_PARALLEL_CLOUD_CALLS" 2
    maxParallelLocalCalls := environ.envInt numerals "MAX_PARALLEL_LOCAL_CALLS" 1
    requestTimeoutSeconds := environ.envFloat numerals "REQUEST_TIMEOUT_SECONDS" 300
    humanApprovalForMajorDecisions :=
      environ.envBool unicode "HUMAN_APPROVAL_FOR_MAJOR_DECISIONS" true
    humanApprovalForCriticalDecisions :=
      environ.envBool unicode "HUMAN_APPROVAL_FOR_CRITICAL_DECISIONS" true
    humanApprovalForSignificantDecisions :=
      environ.envBool unicode "HUMAN_APPROVAL_FOR_SIGNIFICANT_DECISIONS" false
    nonInteractive := environ.envBool unicode "NON_INTERACTIVE" false
    redactSecrets := environ.envBool unicode "REDACT_SECRETS" true }

/-! ## The profile -/

/-- The configuration with the local tier of a profile. -/
def localTierUpdates (tier : ModelTierConfig) (config : SifterConfig) : SifterConfig :=
  { config with
    localProvider := tier.provider
    localModel := tier.model
    localContextLimit := tier.contextLimit.getD config.localContextLimit
    localEndpoint := tier.endpoint <|> config.localEndpoint
    localApiKeyEnv := tier.apiKeyEnv <|> config.localApiKeyEnv
    localMaxOutputTokens := tier.maxOutputTokens <|> config.localMaxOutputTokens
    localTemperature := tier.temperature <|> config.localTemperature }

/-- The configuration with the expert tier of a profile. -/
def expertTierUpdates (tier : ModelTierConfig) (config : SifterConfig) : SifterConfig :=
  { config with
    expertProvider := tier.provider
    cloudModel := tier.model
    cloudContextLimit := tier.contextLimit.getD config.cloudContextLimit
    expertEndpoint := tier.endpoint <|> config.expertEndpoint
    expertApiKeyEnv := tier.apiKeyEnv <|> config.expertApiKeyEnv
    expertMaxOutputTokens := tier.maxOutputTokens <|> config.expertMaxOutputTokens
    expertTemperature := tier.temperature <|> config.expertTemperature
    cloudInputCostPerMtok := tier.inputCostPerMtok.getD config.cloudInputCostPerMtok
    cloudOutputCostPerMtok := tier.outputCostPerMtok.getD config.cloudOutputCostPerMtok }

/-- The prices of the catalog, where the tier gives none. -/
def catalogUpdates (catalog : Option ModelCatalog) (tier : ModelTierConfig)
    (config : SifterConfig) : SifterConfig :=
  match (catalog.bind fun catalog => catalog tier.provider tier.model).bind (·.cost) with
  | none => config
  | some cost =>
      { config with
        cloudInputCostPerMtok :=
          if tier.inputCostPerMtok = none then cost.inputPerMtok else config.cloudInputCostPerMtok
        cloudOutputCostPerMtok :=
          if tier.outputCostPerMtok = none then cost.outputPerMtok
          else config.cloudOutputCostPerMtok }

def localUpdates (profile : ComputeProfile) (config : SifterConfig) : SifterConfig :=
  match profile.local with
  | some tier =>
      if tier.enabled then localTierUpdates tier config
      else { config with localProvider := tier.provider }
  | none => config

def expertUpdates (catalog : Option ModelCatalog) (profile : ComputeProfile)
    (config : SifterConfig) : SifterConfig :=
  match profile.expert with
  | some tier =>
      if tier.enabled then catalogUpdates catalog tier (expertTierUpdates tier config) else config
  | none => config

/-- Whether a profile lets tasks use the cloud. -/
def ComputeProfile.allowsCloud (profile : ComputeProfile) : Bool :=
  (profile.expert.any (·.enabled)) && profile.preferences.cloudAllowed &&
    profile.goal.all (·.cloudAllowed)

/-- The configuration under a profile, and warnings. -/
def applyProfileToConfig (base : SifterConfig) (profile : ComputeProfile)
    (catalog : Option ModelCatalog) : SifterConfig × List String :=
  let config := { base with
    routingPolicy := profile.routingPolicy
    preferLocal := profile.preferences.localFirst
    costSensitive := profile.preferences.costSensitive
    privacySensitive := profile.preferences.privacySensitive }
  let config := expertUpdates catalog profile (localUpdates profile config)
  let config := { config with
    cloudAllowed := profile.allowsCloud
    maxCloudCallsPerTask := profile.budget.maxCloudCallsPerTask
    maxCloudTokensPerTask := profile.budget.maxCloudTokensPerTask
    maxCloudCostPerTask := profile.budget.maxCloudCostPerTask
    maxParallelCloudCalls := profile.budget.maxParallelCloudCalls
    maxParallelLocalCalls := profile.budget.maxParallelLocalCalls
    humanApprovalForMajorDecisions := profile.approval.major
    humanApprovalForCriticalDecisions := profile.approval.critical
    humanApprovalForSignificantDecisions := profile.approval.significant
    nonInteractive := profile.approval.nonInteractive }
  (config,
    if !profile.approval.major || !profile.approval.critical then
      ["major/critical approval is mandatory and was re-enabled"]
    else [])

def precedence : String := "cli_override > active_profile > environment > defaults"

/-- Warns of a model of the environment that the profile replaces. -/
def warnLegacyEnv (environ : Environment) (profile : ComputeProfile) : List String :=
  let checks := [
    ("LOCAL_MODEL", orElse (environ "SIFTER_LOCAL_MODEL") (environ "LOCAL_MODEL"),
      profile.local.map (·.model)),
    ("CLOUD_MODEL", orElse (environ "SIFTER_CLOUD_MODEL") (environ "CLOUD_MODEL"),
      profile.expert.map (·.model))]
  checks.filterMap fun (name, envValue, profileValue) =>
    match orElse envValue none, orElse profileValue none with
    | some envValue, some profileValue =>
        if envValue = profileValue then none
        else
          some ("environment " ++ name ++ "='" ++ envValue ++ "' is overridden by profile " ++
            "'" ++ profile.name ++ "' ('" ++ profileValue ++ "'); precedence is " ++ precedence)
    | _, _ => none

/-! ## The command line -/

/-- The options of the command line that configure a run. -/
structure Arguments where
  maxCloudCost : Option ℚ := none
  localProvider : Option String := none
  localModel : Option String := none
  localEndpoint : Option String := none
  expertProvider : Option String := none
  expertModel : Option String := none
  expertEndpoint : Option String := none
  contextLimit : Option ℤ := none
  routing : Option String := none
  cloud : Option Bool := none

structure Overrides where
  maxCloudCostPerTask : Option ℚ := none
  localProvider : Option String := none
  localModel : Option String := none
  localEndpoint : Option String := none
  expertProvider : Option String := none
  cloudModel : Option String := none
  expertEndpoint : Option String := none
  localContextLimit : Option ℤ := none
  routingPolicy : Option String := none
  cloudAllowed : Option Bool := none

/-- An empty text and a limit of 0 count as not given. -/
def runtimeOverrides (args : Arguments) : Overrides where
  maxCloudCostPerTask := args.maxCloudCost
  localProvider := orElse args.localProvider none
  localModel := orElse args.localModel none
  localEndpoint := orElse args.localEndpoint none
  expertProvider := orElse args.expertProvider none
  cloudModel := orElse args.expertModel none
  expertEndpoint := orElse args.expertEndpoint none
  localContextLimit := args.contextLimit.bind Environment.nonzero
  routingPolicy := orElse args.routing none
  cloudAllowed := args.cloud

/-- The configuration under the overrides that are given. -/
def Overrides.update (overrides : Overrides) (config : SifterConfig) : SifterConfig :=
  { config with
    maxCloudCostPerTask := overrides.maxCloudCostPerTask.getD config.maxCloudCostPerTask
    localProvider := overrides.localProvider.getD config.localProvider
    localModel := overrides.localModel.getD config.localModel
    localEndpoint := overrides.localEndpoint <|> config.localEndpoint
    expertProvider := overrides.expertProvider.getD config.expertProvider
    cloudModel := overrides.cloudModel.getD config.cloudModel
    expertEndpoint := overrides.expertEndpoint <|> config.expertEndpoint
    localContextLimit := overrides.localContextLimit.getD config.localContextLimit
    routingPolicy := overrides.routingPolicy.getD config.routingPolicy
    cloudAllowed := overrides.cloudAllowed.getD config.cloudAllowed }

/-! ## Resolution -/

/-- The name of the profile of a run. -/
def profileOf (app : ApplicationConfig) (profileName : Option String) : String :=
  (orElse profileName none).getD app.activeProfile

/-- The profile of a run, if there is one and profiles apply. -/
def selected (app : ApplicationConfig) (profileName : Option String) (applyProfile : Bool) :
    Option ComputeProfile :=
  if applyProfile then app.profiles.lookup (profileOf app profileName) else none

def localOnlyPolicy (policy : String) : String :=
  if policy ≠ "local_only" then "local_only" else policy

/-- A run that may not use the cloud is routed locally. -/
def restrict (config : SifterConfig) : SifterConfig :=
  if config.cloudAllowed then config
  else { config with routingPolicy := localOnlyPolicy config.routingPolicy }

/-- The configuration under the profile of a run, if there is one, and warnings. -/
def profiled (environ : Environment) (catalog : Option ModelCatalog) (base : SifterConfig) :
    Option ComputeProfile → SifterConfig × List String
  | some profile =>
      let applied := applyProfileToConfig base profile catalog
      (applied.1, applied.2 ++ warnLegacyEnv environ profile)
  | none => (base, [])

/-- The configuration of a run, and warnings. -/
def resolveConfig (unicode : PyUnicode) (numerals : Numerals) (environ : Environment)
    (app : ApplicationConfig) (profileName : Option String) (overrides : Overrides)
    (catalog : Option ModelCatalog) (applyProfile : Bool) : SifterConfig × List String :=
  let profile := selected app profileName applyProfile
  let resolved := profiled environ catalog (fromEnv unicode numerals environ) profile
  let config := { overrides.update resolved.1 with
    configProfile := if profile.isSome then some (profileOf app profileName) else none }
  (restrict config, resolved.2)

/-! ## Safety -/

/-- The context limit that a profile sets. -/
def ComputeProfile.localLimit (profile : ComputeProfile) : Option ℤ :=
  match profile.local with
  | some tier => if tier.enabled then tier.contextLimit else none
  | none => none

theorem localUpdates_localContextLimit (profile : ComputeProfile) (config : SifterConfig) :
    (localUpdates profile config).localContextLimit =
      profile.localLimit.getD config.localContextLimit := by
  rw [localUpdates, ComputeProfile.localLimit]
  cases profile.local with
  | none => rfl
  | some tier =>
      by_cases isEnabled : tier.enabled
      · simp [isEnabled, localTierUpdates]
      · simp [isEnabled]

theorem expertUpdates_localContextLimit (catalog : Option ModelCatalog) (profile : ComputeProfile)
    (config : SifterConfig) :
    (expertUpdates catalog profile config).localContextLimit = config.localContextLimit := by
  have catalogKeeps : ∀ tier config,
      (catalogUpdates catalog tier config).localContextLimit = config.localContextLimit := by
    intro tier config
    rw [catalogUpdates]
    split <;> rfl
  rw [expertUpdates]
  split
  · split
    · rw [catalogKeeps]
      rfl
    · rfl
  · rfl

theorem applyProfileToConfig_localContextLimit (base : SifterConfig) (profile : ComputeProfile)
    (catalog : Option ModelCatalog) :
    (applyProfileToConfig base profile catalog).1.localContextLimit =
      profile.localLimit.getD base.localContextLimit := by
  simp only [applyProfileToConfig, expertUpdates_localContextLimit, localUpdates_localContextLimit]

theorem applyProfileToConfig_approvals (base : SifterConfig) (profile : ComputeProfile)
    (catalog : Option ModelCatalog) :
    (applyProfileToConfig base profile catalog).1.humanApprovalForMajorDecisions = true ∧
      (applyProfileToConfig base profile catalog).1.humanApprovalForCriticalDecisions = true :=
  ⟨profile.approval.isMajor, profile.approval.isCritical⟩

section Profiled

variable (environ : Environment) (catalog : Option ModelCatalog) {base : SifterConfig}
  (profile : Option ComputeProfile)

theorem profiled_approvals (safe : base.Safe) :
    (profiled environ catalog base profile).1.humanApprovalForMajorDecisions = true ∧
      (profiled environ catalog base profile).1.humanApprovalForCriticalDecisions = true := by
  cases profile with
  | none => exact ⟨safe.major, safe.critical⟩
  | some profile => exact applyProfileToConfig_approvals base profile catalog

theorem profiled_localContextLimit :
    (profiled environ catalog base profile).1.localContextLimit =
      (profile.bind (·.localLimit)).getD base.localContextLimit := by
  cases profile with
  | none => rfl
  | some profile => exact applyProfileToConfig_localContextLimit base profile catalog

theorem profiled_maxCloudCostPerTask :
    (profiled environ catalog base profile).1.maxCloudCostPerTask =
      (profile.map (·.budget.maxCloudCostPerTask)).getD base.maxCloudCostPerTask := by
  cases profile <;> rfl

end Profiled

theorem restrict_safe_iff (config : SifterConfig) : (restrict config).Safe ↔ config.Safe := by
  rw [restrict]
  split
  · rfl
  · exact ⟨fun safe => ⟨safe.major, safe.critical, safe.contextLimit, safe.maxCost⟩,
      fun safe => ⟨safe.major, safe.critical, safe.contextLimit, safe.maxCost⟩⟩

theorem localOnlyPolicy_eq (policy : String) : localOnlyPolicy policy = "local_only" := by
  rw [localOnlyPolicy]
  split
  · rfl
  · rename_i isLocalOnly
    exact not_not.mp isLocalOnly

theorem restrict_localOnly (config : SifterConfig)
    (notAllowed : (restrict config).cloudAllowed = false) :
    (restrict config).routingPolicy = "local_only" := by
  by_cases isAllowed : config.cloudAllowed
  · simp [restrict, isAllowed] at notAllowed
  · simp [restrict, isAllowed, localOnlyPolicy_eq]

/-- A value that replaces a good one is good exactly if the outcome is. -/
theorem getD_iff {α : Type} {good : α → Prop} {value : α} (isGood : good value)
    (given : Option α) : good (given.getD value) ↔ ∀ other, given = some other → good other := by
  cases given with
  | none => simp [isGood]
  | some other => simp

theorem getD_orElse {α : Type} (first second : Option α) (value : α) :
    (first <|> second).getD value = first.getD (second.getD value) := by
  cases first <;> rfl

/-- The context limit that replaces the one of the environment. -/
def givenContextLimit (profile : Option ComputeProfile) (overrides : Overrides) : Option ℤ :=
  overrides.localContextLimit <|> profile.bind (·.localLimit)

/-- The cost cap that replaces the one of the environment. -/
def givenMaxCost (profile : Option ComputeProfile) (overrides : Overrides) : Option ℚ :=
  overrides.maxCloudCostPerTask <|> profile.map (·.budget.maxCloudCostPerTask)

theorem update_safe_iff (environ : Environment) (catalog : Option ModelCatalog)
    {base : SifterConfig} (baseSafe : base.Safe) (profile : Option ComputeProfile)
    (overrides : Overrides) :
    (overrides.update (profiled environ catalog base profile).1).Safe ↔
      (∀ limit, givenContextLimit profile overrides = some limit → 0 < limit) ∧
        ∀ cost, givenMaxCost profile overrides = some cost → 0 ≤ cost := by
  have approvals := profiled_approvals environ catalog profile baseSafe
  have contextLimit :
      (overrides.update (profiled environ catalog base profile).1).localContextLimit =
        (givenContextLimit profile overrides).getD base.localContextLimit := by
    rw [givenContextLimit, getD_orElse, ← profiled_localContextLimit environ catalog profile]
    rfl
  have maxCost :
      (overrides.update (profiled environ catalog base profile).1).maxCloudCostPerTask =
        (givenMaxCost profile overrides).getD base.maxCloudCostPerTask := by
    rw [givenMaxCost, getD_orElse, ← profiled_maxCloudCostPerTask environ catalog profile]
    rfl
  have limit_iff := getD_iff baseSafe.contextLimit (givenContextLimit profile overrides)
  have cost_iff := getD_iff baseSafe.maxCost (givenMaxCost profile overrides)
  rw [← contextLimit] at limit_iff
  rw [← maxCost] at cost_iff
  rw [← limit_iff, ← cost_iff]
  exact ⟨fun safe => ⟨safe.contextLimit, safe.maxCost⟩,
    fun inRange => ⟨approvals.1, approvals.2, inRange.1, inRange.2⟩⟩

end Aa.Sifter.Config
