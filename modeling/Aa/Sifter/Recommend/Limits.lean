import Aa.Sifter.Recommend.Recommender

/-!
# What a recommendation respects

The local tier and its alternatives are local models of the catalog that the memory has room for,
and the local context limit is within the model's window. The expert tier is left out where the
goal disallows the cloud, but its alternatives are not.
-/

namespace Aa.Sifter.Recommend

open Aa.Library
open Aa.Sifter.Config

variable {texts : Texts} {request : Request}

/-! ## Local candidates -/

theorem mem_localScored {item : Scored} (isScored : item ∈ request.localScored texts) :
    item.model ∈ request.catalog.models ∧ item.model.local = true ∧
      (item.compatible = true → ∀ vram, request.vram = some vram →
        minimumVram item.model ≤ vram) := by
  rcases List.mem_map.mp (mem_sortBy.mp isScored) with ⟨model, isCandidate, rfl⟩
  rcases ModelCatalog.mem_filter isCandidate with ⟨isModel, isNone | isLocal⟩
  · cases isNone
  · refine ⟨isModel, (Option.some.inj isLocal).symm, ?_⟩
    intro isCompatible vram isVram
    simpa [scoredLocal, isVram] using isCompatible

theorem localBest_scored {best : Scored} (isBest : request.localBest texts = some best) :
    best ∈ request.localScored texts ∧ best.compatible = true :=
  ⟨List.mem_of_find?_eq_some isBest, List.find?_some isBest⟩

theorem mem_alternatives {scored : List Scored} {best : Option Scored} {config : ModelTierConfig}
    (isAlternative : config ∈ alternatives scored best) :
    ∃ item ∈ scored, item.compatible = true ∧ config = alternative item := by
  rcases List.mem_map.mp isAlternative with ⟨item, isTaken, rfl⟩
  have isOther := List.mem_filter.mp (List.mem_of_mem_take isTaken)
  rw [Bool.and_eq_true] at isOther
  exact ⟨item, isOther.1, isOther.2.2, rfl⟩

/-! ## The context limit -/

/-- Some step is chosen, and all of them are positive. -/
theorem capacity_pos (model : ModelMetadata) (vram : ℚ) : 0 < capacity model vram := by
  have general : ∀ (steps : List ℤ) (start : ℤ), (∀ step ∈ steps, 0 < step) → 0 < start →
      0 < steps.foldl (fun capacity step =>
        if stepHeadroom step ≤ max 0 (vram - orNumber model.parameterCountB 8 * weightsGbPerB)
        then step else capacity) start := by
    intro steps
    induction steps with
    | nil => exact fun _ _ isStart => isStart
    | cons step steps ih =>
        intro start positive isStart
        rw [List.foldl_cons]
        refine ih _ (fun other isOther => positive other (List.mem_cons_of_mem _ isOther)) ?_
        split
        · exact positive step List.mem_cons_self
        · exact isStart
  exact general contextSteps 8192 (by decide) (by decide)

theorem recommendContext_le (model : ModelMetadata) (vram : Option ℚ) (preferred : Option ℤ) :
    (recommendContext model vram preferred).1 ≤ contextWindow model := by
  cases vram with
  | none => exact min_le_right _ _
  | some vram =>
      cases preferred with
      | none => exact min_le_right _ _
      | some preferred =>
          simp only [recommendContext]
          have safe : min (capacity model vram) (contextWindow model) ≤ contextWindow model :=
            min_le_right _ _
          split
          · exact safe
          · omega

/-- With a positive preference the limit is positive exactly if the window is. -/
theorem recommendContext_pos_iff {model : ModelMetadata} (vram : Option ℚ) {preferred : ℤ}
    (positive : 0 < preferred) :
    0 < (recommendContext model vram (some preferred)).1 ↔ 0 < contextWindow model := by
  cases vram with
  | none =>
      have isGiven : orCount (some preferred) 8192 = preferred := by
        simp only [orCount]
        exact if_neg (by omega)
      simp only [recommendContext, isGiven, lt_min_iff, positive, true_and]
  | some vram =>
      have some := capacity_pos model vram
      simp only [recommendContext]
      split
      · rw [lt_min_iff, and_iff_right some]
      · rename_i isSafe
        constructor
        · intro _
          have safe : 0 < min (capacity model vram) (contextWindow model) := by omega
          exact (lt_min_iff.mp safe).2
        · exact fun _ => positive

theorem contextWindow_pos_iff {model : ModelMetadata} :
    0 < contextWindow model ↔ ∀ window, model.contextWindow = some window → 0 ≤ window := by
  rw [contextWindow]
  cases model.contextWindow with
  | none => simp [orCount]
  | some window =>
      simp only [orCount, Option.some.injEq, forall_eq']
      split
      · omega
      · omega

/-! ## The recommendation -/

/-- The tier is that of a local model of the catalog which the memory, if it is known, has room
for. -/
def IsLocal (request : Request) (config : ModelTierConfig) (model : ModelMetadata) : Prop :=
  model ∈ request.catalog.models ∧ model.local = true ∧ config.provider = model.provider ∧
    config.model = model.modelId ∧
    ∀ vram, request.vram = some vram → minimumVram model ≤ vram

/-- The context limit of a tier is positive and within the window of its model. -/
def WithinWindow (config : ModelTierConfig) (model : ModelMetadata) : Prop :=
  ∃ limit, config.contextLimit = some limit ∧ 0 < limit ∧ limit ≤ contextWindow model

/-- What a recommendation is to respect: where the goal disallows the cloud there is no model for
the cloud and the policy is local; the local tier and its alternatives are local models that fit
the memory; and with a positive preference the local context limit is positive and within the
window of the model. -/
structure Respects (request : Request) (recommendation : Recommendation) : Prop where
  cloud : request.goal.cloudAllowed = false → recommendation.profile.expert = none ∧
    recommendation.expertAlternatives = [] ∧ recommendation.profile.routingPolicy = "local_only"
  tier : ∀ config, recommendation.profile.local = some config → ∃ model,
    IsLocal request config model ∧ ∀ preferred, request.goal.preferredContext = some preferred →
      0 < preferred → WithinWindow config model
  alternatives : ∀ config ∈ recommendation.localAlternatives, ∃ model,
    IsLocal request config model

namespace Request

variable (texts : Texts) (request : Request)

theorem recommendProfile_local : (request.recommendProfile texts).profile.local =
    (request.localBest texts).map request.localTier := rfl

theorem recommendProfile_expert : (request.recommendProfile texts).profile.expert =
    (request.expertBest texts).map (request.expertTier texts) := rfl

theorem recommendProfile_policy : (request.recommendProfile texts).profile.routingPolicy =
    recommendPolicy request.goal request.goal.cloudAllowed
      ((request.localBest texts).map request.localTier)
      ((request.expertBest texts).map (request.expertTier texts)) := rfl

theorem recommendProfile_expertAlternatives :
    (request.recommendProfile texts).expertAlternatives =
      (((request.expertScored texts).drop 1).take 2).map expertAlternative := rfl

end Request

theorem expertAlternatives_eq_nil :
    (request.recommendProfile texts).expertAlternatives = [] ↔
      (request.catalog.filter none (some true) request.cloudProviders
        (request.required texts)).length ≤ 1 := by
  have isLength : (request.expertScored texts).length = (request.catalog.filter none (some true)
      request.cloudProviders (request.required texts)).length := by
    simp [Request.expertScored, scoreCloud]
  rw [← isLength, Request.recommendProfile_expertAlternatives, List.map_eq_nil_iff,
    List.take_eq_nil_iff, List.drop_eq_nil_iff]
  simp

theorem isLocal_of_scored {item : Scored} {config : ModelTierConfig}
    (isScored : item ∈ request.localScored texts) (isCompatible : item.compatible = true)
    (sameProvider : config.provider = item.model.provider)
    (sameModel : config.model = item.model.modelId) : IsLocal request config item.model := by
  rcases mem_localScored isScored with ⟨isModel, isLocal, fits⟩
  exact ⟨isModel, isLocal, sameProvider, sameModel, fits isCompatible⟩

/-- A goal that disallows the cloud, with two cloud models in the catalog. -/
def privateRequest : Request where
  hardware := none
  goal := { workload := ["coding"], cloudAllowed := false }
  catalog :=
    { models :=
        [{ provider := "deepseek", modelId := "deepseek-chat", displayName := "DeepSeek Chat",
           capabilities := ["coding"], cloud := true },
         { provider := "openai-compatible", modelId := "gpt-4o-mini", displayName := "GPT-4o mini",
           capabilities := ["coding"], cloud := true }] }

def asciiTexts : Texts where
  lower := String.toLower
  general := fun _ => "0"

end Aa.Sifter.Recommend
