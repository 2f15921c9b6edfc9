import Aa.Sifter.Config.Schema

/-!
# The model catalog

What is known of models, and the filter by which candidates for a tier are taken from it.
-/

namespace Aa.Sifter.Recommend

open Aa.Sifter.Config

structure ModelMetadata where
  provider : String
  modelId : String
  displayName : String
  parameterCountB : Option ℚ := none
  minimumVramGb : Option ℚ := none
  recommendedVramGb : Option ℚ := none
  minimumRamGb : Option ℚ := none
  contextWindow : Option ℤ := none
  capabilities : List String := []
  «local» : Bool := false
  cloud : Bool := false
  cost : Option CostMetadata := none

namespace ModelMetadata

def hasCapabilities (model : ModelMetadata) (required : List String) : Bool :=
  required.all fun capability => capability ∈ model.capabilities

def supports (model : ModelMetadata) (capability : String) : Bool :=
  capability ∈ model.capabilities

def key (model : ModelMetadata) : String :=
  model.provider ++ "/" ++ model.modelId

end ModelMetadata

/-- The models that are known, in the order of the data. -/
structure ModelCatalog where
  models : List ModelMetadata

/-- The models with the flags that are given, of the providers and with the capabilities. -/
def ModelCatalog.filter (catalog : ModelCatalog) (isLocal isCloud : Option Bool)
    (providers capabilities : List String) : List ModelMetadata :=
  catalog.models.filter fun model =>
    (isLocal = none || isLocal = some model.local) && (isCloud = none || isCloud = some model.cloud) &&
      decide (model.provider ∈ providers) && model.hasCapabilities capabilities

theorem ModelCatalog.mem_filter {catalog : ModelCatalog} {isLocal isCloud : Option Bool}
    {providers capabilities : List String} {model : ModelMetadata}
    (isThere : model ∈ catalog.filter isLocal isCloud providers capabilities) :
    model ∈ catalog.models ∧ (isLocal = none ∨ isLocal = some model.local) := by
  simp only [ModelCatalog.filter, List.mem_filter, Bool.and_eq_true, Bool.or_eq_true,
    decide_eq_true_eq] at isThere
  exact ⟨isThere.1, isThere.2.1.1.1⟩

end Aa.Sifter.Recommend
