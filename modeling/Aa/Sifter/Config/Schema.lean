import Aa.Sifter.Models

/-!
# The application configuration

The schema of the configuration file: named compute profiles, each with a model tier for
local and one for expert work, budgets, approval gates and preferences.
-/

namespace Aa.Sifter.Config

/-- The value of an option of a tier. -/
inductive OptionValue where
  | string (text : String)
  | integer (value : ℤ)
  | float (value : ℚ)
  | boolean (value : Bool)
  | list (items : List OptionValue)
  | table (entries : List (String × OptionValue))

structure HardwareProfile where
  cpuName : Option String := none
  cpuCores : Option ℤ := none
  cpuThreads : Option ℤ := none
  gpuName : Option String := none
  gpuVendor : Option String := none
  gpuVramGb : Option ℚ := none
  systemRamGb : Option ℚ := none
  operatingSystem : Option String := none
  architecture : Option String := none
  source : String := "manual"

structure UserGoal where
  workload : List String := []
  qualityPriority : ℚ := 1 / 2
  speedPriority : ℚ := 1 / 2
  costPriority : ℚ := 1 / 2
  privacyPriority : ℚ := 1 / 2
  cloudAllowed : Bool := true
  preferredContext : Option ℤ := none

structure BudgetConfig where
  maxCloudCallsPerTask : ℤ := 5
  maxCloudTokensPerTask : ℤ := 200000
  maxCloudCostPerTask : ℚ := 2
  maxParallelCloudCalls : ℤ := 2
  maxParallelLocalCalls : ℤ := 1

/-- The approval gates. The major and the critical one cannot be switched off. -/
structure ApprovalConfig where
  major : Bool := true
  critical : Bool := true
  significant : Bool := false
  nonInteractive : Bool := false
  isMajor : major = true := by rfl
  isCritical : critical = true := by rfl

/-- Builds the gates from any flags and switches the protected ones on. -/
def ApprovalConfig.protectGates (_major _critical significant nonInteractive : Bool) :
    ApprovalConfig where
  significant := significant
  nonInteractive := nonInteractive

structure UserPreferenceConfig where
  localFirst : Bool := true
  costSensitive : Bool := true
  privacySensitive : Bool := true
  cloudAllowed : Bool := true
  preferredContext : Option ℤ := none

structure ModelTierConfig where
  provider : String
  model : String
  endpoint : Option String := none
  apiKeyEnv : Option String := none
  contextLimit : Option ℤ := none
  maxOutputTokens : Option ℤ := none
  temperature : Option ℚ := none
  inputCostPerMtok : Option ℚ := none
  outputCostPerMtok : Option ℚ := none
  enabled : Bool := true
  options : List (String × OptionValue) := []

structure ComputeProfile where
  name : String
  «local» : Option ModelTierConfig := none
  expert : Option ModelTierConfig := none
  localFallbacks : List ModelTierConfig := []
  routingPolicy : String := "adaptive"
  budget : BudgetConfig := {}
  approval : ApprovalConfig := {}
  preferences : UserPreferenceConfig := {}
  hardware : Option HardwareProfile := none
  goal : Option UserGoal := none

def configVersion : ℤ := 1

structure ApplicationConfig where
  version : ℤ := configVersion
  activeProfile : String := "default"
  activeHardware : Option String := none
  profiles : List (String × ComputeProfile) := []
  hardware : List (String × HardwareProfile) := []

/-! ## The catalog -/

structure CostMetadata where
  inputPerMtok : ℚ := 0
  outputPerMtok : ℚ := 0

structure ModelMetadata where
  cost : Option CostMetadata := none

/-- What a catalog knows of a model, by provider and model. -/
abbrev ModelCatalog := String → String → Option ModelMetadata

end Aa.Sifter.Config
