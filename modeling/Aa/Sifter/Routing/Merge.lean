import Aa.Library.PyValue
import Aa.Sifter.Routing.Preflight

/-!
# Merging a model's assessment

A model's own assessment of a task is any JSON object. It can raise concern but not lower it,
where the merge comes to its end: integers that are too large for a double, infinite doubles and
reasons that cannot be written are not handled, and a level that is raised does not bring the
approval with it.
-/

namespace Aa.Sifter

open Aa.Library

/-! ## The merge -/

/-- `_clamp` of a double; NaN is not less than one, so that it is cut to one. -/
def clampFloat : PyFloat → ℚ
  | .finite double => clamp double.value
  | .infinite negative => if negative then 0 else 1
  | .nan => 1

def mergeFloat (interpreter : PyInterpreter) (base : ℚ) (candidate : PyValue) (higher : Bool) :
    Except PyError ℚ :=
  PyValue.handled base <| (candidate.float interpreter).map fun value =>
    if higher then max base (clampFloat value) else min base (clampFloat value)

/-- `DecisionLevel(raw)` where `raw` is the text of a level. -/
def namedLevel : PyValue → Option DecisionLevel
  | .str text => [DecisionLevel.routine, .significant, .major, .critical].find? (·.value = text)
  | _ => none

def mergeLevel (base : DecisionLevel) (raw : PyValue) : DecisionLevel :=
  match namedLevel raw with
  | some level => if level.severity > base.severity then level else base
  | none => base

def mergeContext (interpreter : PyInterpreter) (base : ℕ) (raw : PyValue) : Except PyError ℕ :=
  PyValue.handled base <|
    (PyValue.int interpreter (if raw.truthy then raw else .num (.int 0))).map fun required =>
      (max (base : ℤ) required).toNat

def mergeReason (interpreter : PyInterpreter) (base : String) (raw : PyValue) :
    Except PyError String :=
  if raw.truthy then do
    let text ← raw.formatted interpreter
    pure (base ++ "; model: " ++ text)
  else pure base

/-- `merge_assessment`; `parsed` has the members of the model's object. -/
def mergeAssessment (interpreter : PyInterpreter) (base : PreflightAssessment)
    (parsed : List (String × PyValue)) : Except PyError PreflightAssessment := do
  let complexity ← mergeFloat interpreter base.complexity (PyValue.get parsed "complexity") true
  let reasoningDifficulty ← mergeFloat interpreter base.reasoningDifficulty
    (PyValue.get parsed "reasoning_difficulty") true
  let localSuccessProbability ← mergeFloat interpreter base.localSuccessProbability
    (PyValue.get parsed "local_success_probability") false
  let contextRequirement ← mergeContext interpreter base.contextRequirement
    (PyValue.get parsed "context_requirement")
  let reason ← mergeReason interpreter base.reason (PyValue.get parsed "reason")
  pure
    { base with
      modelAssisted := true
      decisionLevel := mergeLevel base.decisionLevel (PyValue.get parsed "decision_level")
      complexity := complexity
      reasoningDifficulty := reasoningDifficulty
      localSuccessProbability := localSuccessProbability
      contextRequirement := contextRequirement
      architectureImpact :=
        base.architectureImpact || (PyValue.get parsed "architecture_impact").truthy
      securitySensitive :=
        base.securitySensitive || (PyValue.get parsed "security_sensitive").truthy
      requiresCloud := base.requiresCloud || (PyValue.get parsed "requires_cloud").truthy
      reason := reason }

/-! ## What a merge may do -/

/-- Nothing in the merged assessment is of less concern than in the base, and a major level comes
with cloud and approval. -/
structure RaisesConcern (base merged : PreflightAssessment) : Prop where
  level : base.decisionLevel.severity ≤ merged.decisionLevel.severity
  complexity : base.complexity ≤ merged.complexity
  reasoningDifficulty : base.reasoningDifficulty ≤ merged.reasoningDifficulty
  contextRequirement : base.contextRequirement ≤ merged.contextRequirement
  localSuccessProbability : merged.localSuccessProbability ≤ base.localSuccessProbability
  architectureImpact : base.architectureImpact = true → merged.architectureImpact = true
  securitySensitive : base.securitySensitive = true → merged.securitySensitive = true
  requiresCloud : base.requiresCloud = true → merged.requiresCloud = true
  requiresHumanApproval : base.requiresHumanApproval = true → merged.requiresHumanApproval = true
  guaranteed : merged.decisionLevel.atLeast .major = true →
    merged.requiresCloud = true ∧ merged.requiresHumanApproval = true

/-- The model names a level that is major or critical. -/
def NamesMajor (parsed : List (String × PyValue)) : Prop :=
  ∃ level, namedLevel (PyValue.get parsed "decision_level") = some level ∧
    level.atLeast .major = true

/-- The numbers of the model's object can be converted and its reason can be written, and where
one of the two levels is major, approval was required before the merge. -/
structure Mergeable (interpreter : PyInterpreter) (base : PreflightAssessment)
    (parsed : List (String × PyValue)) : Prop where
  floats : ∀ name ∈ ["complexity", "reasoning_difficulty", "local_success_probability"],
    ¬ (PyValue.get parsed name).TooLarge
  context : ¬ (PyValue.get parsed "context_requirement").Infinite
  reason : (PyValue.get parsed "reason").truthy = true →
    (PyValue.get parsed "reason").Writable interpreter
  approved : base.decisionLevel.atLeast .major = true ∨ NamesMajor parsed →
    base.requiresHumanApproval = true
  cloud : NamesMajor parsed →
    base.requiresCloud = true ∨ (PyValue.get parsed "requires_cloud").truthy = true

variable {interpreter : PyInterpreter} {base merged : PreflightAssessment}
  {parsed : List (String × PyValue)} {raw : PyValue}

theorem mergeFloat_ok_iff (value : ℚ) (higher : Bool) :
    (∃ result, mergeFloat interpreter value raw higher = .ok result) ↔ ¬ raw.TooLarge :=
  PyValue.handled_float_iff

theorem le_mergeFloat {value result : ℚ}
    (isMerged : mergeFloat interpreter value raw true = .ok result) : value ≤ result := by
  rcases PyValue.handled_eq_ok isMerged with rfl | isOk
  · exact le_rfl
  · cases isConverted : raw.float interpreter with
    | ok converted =>
        rw [isConverted] at isOk
        cases isOk
        exact le_max_left _ _
    | error error =>
        rw [isConverted] at isOk
        cases isOk

theorem mergeFloat_le {value result : ℚ}
    (isMerged : mergeFloat interpreter value raw false = .ok result) : result ≤ value := by
  rcases PyValue.handled_eq_ok isMerged with rfl | isOk
  · exact le_rfl
  · cases isConverted : raw.float interpreter with
    | ok converted =>
        rw [isConverted] at isOk
        cases isOk
        exact min_le_left _ _
    | error error =>
        rw [isConverted] at isOk
        cases isOk

theorem mergeContext_ok_iff (required : ℕ) :
    (∃ result, mergeContext interpreter required raw = .ok result) ↔ ¬ raw.Infinite := by
  unfold mergeContext
  split
  · exact PyValue.handled_int_iff
  · rename_i isFalse
    refine PyValue.handled_int_iff.trans ⟨fun _ isInfinite => ?_, fun _ => id⟩
    exact isFalse (PyValue.truthy_of_infinite isInfinite)

theorem le_mergeContext {required result : ℕ}
    (isMerged : mergeContext interpreter required raw = .ok result) : required ≤ result := by
  rcases PyValue.handled_eq_ok isMerged with rfl | isOk
  · exact le_rfl
  · cases isConverted : PyValue.int interpreter (if raw.truthy then raw else .num (.int 0)) with
    | ok converted =>
        rw [isConverted] at isOk
        cases isOk
        change required ≤ (max (required : ℤ) converted).toNat
        omega
    | error error =>
        rw [isConverted] at isOk
        cases isOk

theorem mergeReason_ok_iff (reason : String) :
    (∃ result, mergeReason interpreter reason raw = .ok result) ↔
      (raw.truthy = true → raw.Writable interpreter) := by
  unfold mergeReason
  split
  · rename_i isTrue
    rw [PyValue.bind_pure_ok_iff, PyValue.formatted_ok_iff]
    exact ⟨fun writable _ => writable, fun writable => writable isTrue⟩
  · rename_i isFalse
    exact ⟨fun _ isTrue => absurd isTrue isFalse, fun _ => ⟨_, rfl⟩⟩

theorem severity_le_mergeLevel (level : DecisionLevel) :
    level.severity ≤ (mergeLevel level raw).severity := by
  unfold mergeLevel
  split
  · split
    · rename_i isHigher
      exact Nat.le_of_lt isHigher
    · exact le_rfl
  · exact le_rfl

theorem atLeast_mergeLevel (level : DecisionLevel) :
    (mergeLevel level raw).atLeast .major = true ↔
      level.atLeast .major = true ∨
        ∃ named, namedLevel raw = some named ∧ named.atLeast .major = true := by
  simp only [DecisionLevel.atLeast, decide_eq_true_eq]
  unfold mergeLevel
  split
  · rename_i named isNamed
    simp only [isNamed, Option.some.injEq, exists_eq_left']
    split
    · omega
    · omega
  · rename_i isNone
    simp [isNone]

theorem mergeAssessment_eq_ok_iff :
    mergeAssessment interpreter base parsed = .ok merged ↔
      ∃ complexity, mergeFloat interpreter base.complexity (PyValue.get parsed "complexity") true =
        .ok complexity ∧
      ∃ reasoningDifficulty, mergeFloat interpreter base.reasoningDifficulty
        (PyValue.get parsed "reasoning_difficulty") true = .ok reasoningDifficulty ∧
      ∃ localSuccessProbability, mergeFloat interpreter base.localSuccessProbability
        (PyValue.get parsed "local_success_probability") false = .ok localSuccessProbability ∧
      ∃ contextRequirement, mergeContext interpreter base.contextRequirement
        (PyValue.get parsed "context_requirement") = .ok contextRequirement ∧
      ∃ reason, mergeReason interpreter base.reason (PyValue.get parsed "reason") = .ok reason ∧
      merged =
        { base with
          modelAssisted := true
          decisionLevel := mergeLevel base.decisionLevel (PyValue.get parsed "decision_level")
          complexity := complexity
          reasoningDifficulty := reasoningDifficulty
          localSuccessProbability := localSuccessProbability
          contextRequirement := contextRequirement
          architectureImpact :=
            base.architectureImpact || (PyValue.get parsed "architecture_impact").truthy
          securitySensitive :=
            base.securitySensitive || (PyValue.get parsed "security_sensitive").truthy
          requiresCloud := base.requiresCloud || (PyValue.get parsed "requires_cloud").truthy
          reason := reason } := by
  simp only [mergeAssessment, PyValue.bind_eq_ok_iff]
  have returned {result : PreflightAssessment} :
      (pure result : Except PyError PreflightAssessment) = .ok merged ↔ merged = result :=
    ⟨fun isOk => (Except.ok.inj isOk).symm, fun isSame => congrArg Except.ok isSame.symm⟩
  simp only [returned]

/-- A merge that comes to its end never lowers concern. -/
theorem raisesConcern_iff (isMerged : mergeAssessment interpreter base parsed = .ok merged) :
    RaisesConcern base merged ↔
      (merged.decisionLevel.atLeast .major = true →
        merged.requiresCloud = true ∧ merged.requiresHumanApproval = true) := by
  refine ⟨RaisesConcern.guaranteed, fun guaranteed => ?_⟩
  rcases mergeAssessment_eq_ok_iff.mp isMerged with
    ⟨complexity, isComplexity, reasoning, isReasoning, probability, isProbability, context, isContext,
      reason, isReason, rfl⟩
  exact
    { level := severity_le_mergeLevel _
      complexity := le_mergeFloat isComplexity
      reasoningDifficulty := le_mergeFloat isReasoning
      contextRequirement := le_mergeContext isContext
      localSuccessProbability := mergeFloat_le isProbability
      architectureImpact := fun isSet => by simp [isSet]
      securitySensitive := fun isSet => by simp [isSet]
      requiresCloud := fun isSet => by simp [isSet]
      requiresHumanApproval := id
      guaranteed := guaranteed }

/-- An assessment of a major task requires cloud. -/
theorem PreflightAssessor.assess_requiresCloud (assessor : PreflightAssessor) (prompt : String)
    (context : Option String) {classification : DecisionClassification}
    (isMajor : classification.level.atLeast .major = true) (failedAttempts retryCount : ℕ) :
    (assessor.assess prompt context classification failedAttempts retryCount).requiresCloud =
      true := by
  have isLevel : classification.level = .major ∨ classification.level = .critical := by
    cases isName : classification.level with
    | routine => simp [isName, DecisionLevel.atLeast, DecisionLevel.severity] at isMajor
    | significant => simp [isName, DecisionLevel.atLeast, DecisionLevel.severity] at isMajor
    | major => exact .inl rfl
    | critical => exact .inr rfl
  simp only [assess, Bool.or_eq_true, decide_eq_true_eq]
  rcases isLevel with isLevel | isLevel
  · exact .inl (.inr isLevel)
  · exact .inr isLevel

theorem raisesConcern_iff_mergeable
    (requiresCloud : base.decisionLevel.atLeast .major = true → base.requiresCloud = true) :
    (∃ merged, mergeAssessment interpreter base parsed = .ok merged ∧ RaisesConcern base merged) ↔
      Mergeable interpreter base parsed := by
  constructor
  · rintro ⟨merged, isMerged, raises⟩
    have guaranteed := raises.guaranteed
    rcases mergeAssessment_eq_ok_iff.mp isMerged with
      ⟨complexity, isComplexity, reasoning, isReasoning, probability, isProbability, required,
        isRequired, reason, isReason, rfl⟩
    simp only [atLeast_mergeLevel] at guaranteed
    refine ⟨?_, (mergeContext_ok_iff _).mp ⟨_, isRequired⟩, (mergeReason_ok_iff _).mp ⟨_, isReason⟩,
      fun isMajor => (guaranteed isMajor).2, fun names => ?_⟩
    · intro name isName
      simp only [List.mem_cons, List.not_mem_nil, or_false] at isName
      rcases isName with rfl | rfl | rfl
      · exact (mergeFloat_ok_iff _ _).mp ⟨_, isComplexity⟩
      · exact (mergeFloat_ok_iff _ _).mp ⟨_, isReasoning⟩
      · exact (mergeFloat_ok_iff _ _).mp ⟨_, isProbability⟩
    · exact Bool.or_eq_true_iff.mp (guaranteed (.inr names)).1
  · intro mergeable
    have converts (name : String) (isName : name ∈ ["complexity", "reasoning_difficulty",
        "local_success_probability"]) (value : ℚ) (higher : Bool) :
        ∃ result, mergeFloat interpreter value (PyValue.get parsed name) higher = .ok result :=
      (mergeFloat_ok_iff value higher).mpr (mergeable.floats name isName)
    rcases converts "complexity" (by simp) base.complexity true with ⟨complexity, isComplexity⟩
    rcases converts "reasoning_difficulty" (by simp) base.reasoningDifficulty true with
      ⟨reasoning, isReasoning⟩
    rcases converts "local_success_probability" (by simp) base.localSuccessProbability false with
      ⟨probability, isProbability⟩
    rcases (mergeContext_ok_iff base.contextRequirement).mpr mergeable.context with
      ⟨required, isRequired⟩
    rcases (mergeReason_ok_iff base.reason).mpr mergeable.reason with ⟨reason, isReason⟩
    have isMerged := mergeAssessment_eq_ok_iff.mpr ⟨complexity, isComplexity, reasoning, isReasoning,
      probability, isProbability, required, isRequired, reason, isReason, rfl⟩
    refine ⟨_, isMerged, (raisesConcern_iff isMerged).mpr fun isMajor => ?_⟩
    have eitherMajor := (atLeast_mergeLevel base.decisionLevel).mp isMajor
    refine ⟨?_, mergeable.approved eitherMajor⟩
    rcases eitherMajor with isMajor | names
    · simp [requiresCloud isMajor]
    · exact Bool.or_eq_true_iff.mpr (mergeable.cloud names)

/-- A merge into an assessment of the assessor returns and raises concern exactly if the model's
object is mergeable. -/
theorem merge_raisesConcern_iff (interpreter : PyInterpreter) (assessor : PreflightAssessor)
    (prompt : String) (context : Option String) (classification : DecisionClassification)
    (failedAttempts retryCount : ℕ) (parsed : List (String × PyValue)) :
    (∃ merged, mergeAssessment interpreter
        (assessor.assess prompt context classification failedAttempts retryCount) parsed =
        .ok merged ∧
      RaisesConcern (assessor.assess prompt context classification failedAttempts retryCount)
        merged) ↔
      Mergeable interpreter
        (assessor.assess prompt context classification failedAttempts retryCount) parsed :=
  raisesConcern_iff_mergeable fun isMajor =>
    assessor.assess_requiresCloud prompt context isMajor failedAttempts retryCount

/-! ## Objects that are not mergeable -/

/-- An interpreter with room for a thousand nested calls. -/
def roomyInterpreter : PyInterpreter where
  int := String.toInt?
  float _ := none
  quoted text := "'" ++ text ++ "'"
  floatText _ := ""
  depth := 1000

/-- The assessment of a routine task. -/
def helperAssessment : PreflightAssessment :=
  (PreflightAssessor.mk {} .ascii).assess "Add a helper function." none
    { level := .routine
      signals := fun _ => false
      reasons := ["routine or significant; autonomous execution permitted by default"]
      requiresHumanApproval := false
      modelAssisted := false
      conflictsWithRules := [] } 0 0

/-- A complexity of four hundred zeros raises, and a major level comes without approval. -/
theorem helper_merges :
    mergeAssessment roomyInterpreter helperAssessment [("complexity", .num (.int (10 ^ 400)))] =
      .error .overflowError ∧
    ∃ merged, mergeAssessment roomyInterpreter helperAssessment
        [("decision_level", .str "major")] = .ok merged ∧
      merged.decisionLevel = .major ∧ merged.requiresHumanApproval = false ∧
      ¬ RaisesConcern helperAssessment merged := by
  constructor
  · have isTooLarge : PyFloat.ofInt (10 ^ 400) = .error .overflowError :=
      PyFloat.ofInt_eq_error_iff.mpr ⟨by decide +kernel, rfl⟩
    have isRaised : mergeFloat roomyInterpreter helperAssessment.complexity
        (.num (.int (10 ^ 400))) true = .error .overflowError := by
      rw [mergeFloat, PyValue.float, isTooLarge]
      rfl
    exact congrArg (· >>= _) isRaised
  · refine ⟨_, mergeAssessment_eq_ok_iff.mpr ⟨_, rfl, _, rfl, _, rfl, _, rfl, _, rfl, rfl⟩, rfl, rfl,
      fun raises => ?_⟩
    have isApproved := (raises.guaranteed rfl).2
    cases isApproved

end Aa.Sifter
