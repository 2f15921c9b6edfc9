import Aa.Sifter.Authority
import Aa.Sifter.ContextWindow

/-!
# A critical task that the human approves

One run under the default policy, from the approval to an escalation that the expert answers:
the expert plans, the local model executes, the verification fails, and the expert's diagnosis
ends the run. The expert here is an Ollama model, whose parser stamps its results as local.
-/

namespace Aa.Sifter

open Aa.Library

namespace ComputeSifter

def approvedConfig : SifterConfig where
  expertProvider := "ollama"
  cloudModel := "qwen3:32b"
  redactSecrets := false

def approvedSifter : ComputeSifter where
  config := approvedConfig
  registry := buildRegistry approvedConfig
  rules := { unicode := .ascii }

/-- The human's answer, with a constraint. -/
def keepSqlite : HumanDecision where
  action := .approve
  constraints := ["keep sqlite"]

def approvedDirection : Direction where
  constraints := ["keep sqlite"]
  allowCloudAnalysis := true

theorem approvedSifter_level : (approvedSifter.classification truncateTask).level = .critical :=
  truncateTask_level

theorem approvedSifter_needed :
    (approvedSifter.classification truncateTask).requiresHumanApproval = true := by
  change approvedSifter.gate.approvalNeeded (approvedSifter.classification truncateTask).level = true
  rw [approvedSifter_level]
  rfl

/-- What a model answers: nothing, without tokens, stamped as local. -/
def silence : GenerationResult where
  text := ""
  model := "qwen3:32b"
  tier := .local

/-- The budget of the run after some calls that cost nothing. -/
def spentCalls (calls : ℤ) : BudgetTracker where
  budget := { maxCalls := 5, maxTokens := 200000, maxCost := 2, maxParallel := 2, calls := calls }

/-- The messages of a call are affordable while there are calls left. -/
theorem approved_affords {calls : ℤ} (hasCalls : calls < 5) {messages : List (Message Char)}
    (few : messages.length ≤ 5) :
    (approvedSifter.checked (spentCalls calls) (approvedSifter.prepared .expert messages)).1 =
      none := by
  have within : (totalTokens (approvedSifter.prepared .expert messages) : ℤ) ≤ 55808 := by
    rw [prepared_eq_fitted (.inr rfl)]
    exact totalTokens_fitted_le few (by decide) (by decide)
  rw [checked]
  generalize totalTokens (approvedSifter.prepared .expert messages) = tokens at within ⊢
  have isCost : (approvedSifter.modelConfig .expert).estimateCost (tokens : ℤ) 0 =
      (tokens : ℚ) / 1000000 * (14 / 100) := by
    simp [ModelConfig.estimateCost, modelConfig, SifterConfig.cloudModelConfig, approvedSifter,
      approvedConfig]
  have isCheap : (tokens : ℚ) / 1000000 * (14 / 100) ≤ 2 := by
    have isSmall : (tokens : ℚ) ≤ 55808 := by exact_mod_cast within
    linarith
  have inCalls : ¬ 5 < calls + 1 := by omega
  have inTokens : ¬ (200000 : ℤ) < tokens := by omega
  rw [isCost]
  simp [BudgetTracker.check, Budget.wouldExceed, spentCalls, inCalls, inTokens, not_lt.mpr isCheap]

theorem approved_provider (tier : Tier) :
    approvedSifter.registry.providerFor (approvedSifter.modelConfig tier).name
      (approvedSifter.modelConfig tier).provider = .ok (.ollama "http://localhost:11434") := by
  cases tier <;> decide +kernel

/-- A call to the expert is made and answered. -/
theorem approved_expert {before : Session} {calls : ℤ} (isBudget : before.budget = spentCalls calls)
    (hasCalls : calls < 5) {messages : List (Message Char)} (few : messages.length ≤ 5)
    (purpose : Purpose) :
    (approvedSifter.callTier .expert messages purpose).Does before
      [approvedSifter.checkEvent before.budget (approvedSifter.prepared .expert messages),
        ⟨.generate (approvedSifter.callOf .expert purpose (.ollama "http://localhost:11434") messages),
          .ok silence⟩] (.ok "") (approvedSifter.recordGeneration .expert silence before) := by
  refine callTier_expert_answers (approved_provider .expert) rfl ?_ purpose silence
  rw [isBudget]
  exact approved_affords hasCalls few

/-- The route of a critical task is planned by the expert and executed locally. -/
theorem approved_route {available : Bool} (isAvailable : available = true) :
    (approvedSifter.policyEngine.decide (approvedSifter.assessment truncateTask)
      (approvedSifter.effectivePolicy truncateTask approvedDirection) available).kind = .hybrid := by
  have isAdaptive : approvedSifter.policyEngine.selected
      (approvedSifter.effectivePolicy truncateTask approvedDirection) = .adaptive := by
    decide +kernel
  have requiresCloud : (approvedSifter.assessment truncateTask).requiresCloud = true := by
    change (_ || decide ((approvedSifter.classification truncateTask).level = .critical)) = true
    rw [approvedSifter_level]
    simp
  subst isAvailable
  simp only [PolicyEngine.decide, isAdaptive, PolicyEngine.adaptive, requiresCloud, Bool.not_true,
    Bool.and_false, Bool.false_and, Bool.false_eq_true, if_false, gt_iff_lt, lt_irrefl]
  split <;> rfl

/-! ## The run -/

def planCall : Call :=
  approvedSifter.callOf .expert .cloudPlan (.ollama "http://localhost:11434")
    (planMessages truncateTask)

def workMessages : List (Message Char) :=
  executionMessages truncateTask ["keep sqlite"] ["Plan: "]

def workCall : Call :=
  approvedSifter.callOf .local .localExecute (.ollama "http://localhost:11434") workMessages

def failedCheck : VerificationResult where
  passed := false

/-- What the expert is told of the failure. -/
def failurePacket : EscalationPacket where
  originalTask := truncateTask.prompt
  currentPlan := "Local execution attempted and failed verification."
  completedWork := ""
  failedAttempts := (List.range 1).map fun i => s!"attempt {i + 1} failed"
  testResults := failedCheck.summary
  reasonForEscalation := s!"local verification failed: {failedCheck.summary}"
  humanConstraints := ["keep sqlite"]

def diagnosisCall : Call :=
  approvedSifter.callOf .expert .cloudEscalation (.ollama "http://localhost:11434")
    (approvedSifter.escalationMessages failurePacket)

def approvedEvents : List (Event Op Op.Answer) :=
  [⟨.approval (buildApprovalRequest truncateTask (approvedSifter.classification truncateTask)),
      .ok keepSqlite⟩,
    approvedSifter.checkEvent (spentCalls 0)
      (approvedSifter.prepared .expert (planMessages truncateTask)),
    ⟨.generate planCall, .ok silence⟩,
    ⟨.generate workCall, .ok silence⟩,
    ⟨.verify "", .ok failedCheck⟩,
    approvedSifter.checkEvent (spentCalls 1)
      (approvedSifter.prepared .expert (approvedSifter.escalationMessages failurePacket)),
    ⟨.generate diagnosisCall, .ok silence⟩]

/-- A plan, an execution and a verification that fails. -/
theorem approved_executes {before : Session} (isBudget : before.budget = spentCalls 0) :
    ∃ after, after.budget = spentCalls 1 ∧
      (approvedSifter.executeHybrid truncateTask ["keep sqlite"] []).Does before
        [approvedSifter.checkEvent (spentCalls 0)
            (approvedSifter.prepared .expert (planMessages truncateTask)),
          ⟨.generate planCall, .ok silence⟩, ⟨.generate workCall, .ok silence⟩,
          ⟨.verify "", .ok failedCheck⟩]
        (.ok { answer := "", verification := failedCheck, failedAttempts := 1 }) after := by
  have plans := approved_expert isBudget (by decide)
    (by exact (by decide : 2 ≤ 5) : (planMessages truncateTask).length ≤ 5) .cloudPlan
  rw [isBudget] at plans
  have works := callTier_local_answers (approved_provider .local) rfl workMessages .localExecute
    silence (approvedSifter.recordGeneration .expert silence before)
  have verifies (session : Session) : (verify "").Does session [⟨.verify "", .ok failedCheck⟩]
      (.ok failedCheck) session := Coroutine.does_perform_answer rfl
  refine ⟨approvedSifter.recordGeneration .local silence
    (approvedSifter.recordGeneration .expert silence before), ?_, ?_⟩
  · change before.budget.record silence (approvedSifter.modelConfig .expert) = spentCalls 1
    rw [isBudget]
    simp [BudgetTracker.record, spentCalls, silence, ModelConfig.estimateCost]
  · refine Coroutine.does_bind_ok plans (Coroutine.does_bind_ok works
      (Coroutine.does_bind_ok (verifies _) ?_))
    exact Coroutine.does_pure.mpr ⟨rfl, rfl, rfl⟩

/-- The diagnosis is obtained and appended. -/
theorem approved_diagnoses (answer : String) {before : Session}
    (isBudget : before.budget = spentCalls 1) :
    ∃ diagnosed after, (approvedSifter.diagnosed failurePacket answer).Does before
      [approvedSifter.checkEvent (spentCalls 1)
          (approvedSifter.prepared .expert (approvedSifter.escalationMessages failurePacket)),
        ⟨.generate diagnosisCall, .ok silence⟩] (.ok (diagnosed, true)) after := by
  have diagnoses := approved_expert isBudget (by decide)
    (by exact (by decide : 2 ≤ 5) : (approvedSifter.escalationMessages failurePacket).length ≤ 5)
    .cloudEscalation
  rw [isBudget] at diagnoses
  let diagnosis := ""
  refine ⟨s!"{answer}\n\n---\nExpert escalation:\n{diagnosis}",
    approvedSifter.recordGeneration .expert silence before, ?_⟩
  refine Coroutine.does_catching.mpr (.inl ⟨_, ?_, rfl⟩)
  exact Coroutine.does_bind_ok diagnoses (Coroutine.does_pure.mpr ⟨rfl, rfl, rfl⟩)

/-- The failure is escalated without asking, and the diagnosis completes the work. -/
theorem approved_resolves {before : Session} (isBudget : before.budget = spentCalls 1) :
    ∃ answer after, (approvedSifter.resolved truncateTask approvedDirection
      { answer := "", verification := failedCheck, failedAttempts := 1 }).Does before
        [approvedSifter.checkEvent (spentCalls 1)
            (approvedSifter.prepared .expert (approvedSifter.escalationMessages failurePacket)),
          ⟨.generate diagnosisCall, .ok silence⟩] (.ok (answer, true)) after := by
  have notLike : EscalationPolicy.isArchitectureLike approvedSifter.unicode truncateTask.prompt =
      false := by decide +kernel
  have isAllowed : approvedSifter.escalationAllowedBy truncateTask approvedDirection = true := by
    rw [escalationAllowedBy, show approvedDirection.allowCloudAnalysis = true from rfl,
      Bool.true_or, Bool.true_or, Bool.and_true]
    decide +kernel
  let escalated : Session :=
    { before with usage := { before.usage with escalations := before.usage.escalations + 1 } }
  rcases approved_diagnoses "" (show escalated.budget = spentCalls 1 from isBudget) with
    ⟨answer, after, diagnoses⟩
  refine ⟨answer, after, ?_⟩
  rw [resolved, if_neg (by decide), escalateAfterFailure]
  have asksNot (outcome : EscalationOutcome) (notAsked : outcome.requiresHumanApproval = false)
      (grant : Bool) : (approvedSifter.escalationAllowed outcome grant
        (approvedSifter.escalationAllowedBy truncateTask approvedDirection)).Does escalated []
          (.ok (some true)) escalated := by
    rw [escalationAllowed, notAsked, Bool.false_and, if_neg Bool.false_ne_true, isAllowed]
    exact Coroutine.does_pure.mpr ⟨rfl, rfl, rfl⟩
  refine Coroutine.does_bind_ok (Coroutine.does_modify.mpr ⟨rfl, rfl, rfl⟩) ?_
  refine Coroutine.does_bind_ok (asksNot _ ?_ _) ?_
  · simp [EscalationPolicy.evaluate, notLike]
  · exact diagnoses

theorem finish_does (status answer : String) (classification : DecisionClassification)
    (assessment : PreflightAssessment) (blockedReason route : Option String)
    (direction : Direction) (before : Session) :
    ∃ result, (finish status answer classification assessment blockedReason route direction).Does
      before [] (.ok result) before ∧ result.status = status :=
  ⟨_, Coroutine.does_bind_ok (Coroutine.does_read.mpr ⟨rfl, rfl, rfl⟩)
    (Coroutine.does_pure.mpr ⟨rfl, rfl, rfl⟩), rfl⟩

/-- The approved work is carried out to its completion. -/
theorem approved_carries {before : Session} (isBudget : before.budget = spentCalls 0) :
    ∃ result after, (approvedSifter.carryOut truncateTask approvedDirection).Does before
      (approvedEvents.drop 1) (.ok result) after ∧ result.status = "completed" := by
  rcases approved_executes isBudget with ⟨middle, isSpent, executes⟩
  rcases approved_resolves isSpent with ⟨answer, after, resolves⟩
  have isAvailable : (decide (0 < before.budget.remainingCalls) && !before.budget.exhausted) =
      true := by
    rw [isBudget]
    decide
  have isHybrid := approved_route isAvailable
  have routes (decision : RouteDecision) (isKind : decision.kind = .hybrid) :
      approvedSifter.executeRoute truncateTask decision ["keep sqlite"] [] =
        approvedSifter.executeHybrid truncateTask ["keep sqlite"] [] := by
    rw [executeRoute, isKind]
  rcases finish_does "completed" answer (approvedSifter.classification truncateTask)
    (approvedSifter.assessment truncateTask) none (some "hybrid") approvedDirection after with
    ⟨result, finishes, isCompleted⟩
  rw [show "hybrid" = RouteKind.hybrid.value from rfl, ← isHybrid] at finishes
  refine ⟨result, after, ?_, isCompleted⟩
  refine Coroutine.does_bind_ok (Coroutine.does_read.mpr ⟨rfl, rfl, rfl⟩) ?_
  refine Coroutine.does_bind_ok ((routes _ isHybrid).symm ▸ executes) ?_
  exact Coroutine.does_bind_ok resolves finishes

/-- The run completes. -/
theorem approved_does : ∃ result after, (approvedSifter.run truncateTask).Does
    (approvedSifter.newSession truncateTask) approvedEvents (.ok result) after ∧
      result.status = "completed" := by
  let noted : Session :=
    { approvedSifter.newSession truncateTask with
      approvals :=
        [{ stage := .analysis
           action := .approve
           selectedOptions := []
           constraints := ["keep sqlite"] }]
      usage := { humanApprovalRequests := 1, majorDecisions := 1 } }
  rcases approved_carries (show noted.budget = spentCalls 0 from rfl) with
    ⟨result, after, carries, isCompleted⟩
  have decides : (approvedSifter.handleMajorDecision truncateTask
      (approvedSifter.classification truncateTask)).Does (approvedSifter.newSession truncateTask)
      (approvedEvents.take 1) (.ok (some approvedDirection)) noted := by
    refine Coroutine.does_bind_ok (requireApproval_does rfl _ keepSqlite _) ?_
    refine Coroutine.does_bind_ok (Coroutine.does_modify.mpr ⟨rfl, rfl, rfl⟩) ?_
    exact Coroutine.does_pure.mpr ⟨rfl, rfl, rfl⟩
  refine ⟨result, after, Coroutine.does_catching.mpr (.inl ⟨result, ?_, rfl⟩), isCompleted⟩
  rw [runBody, if_pos approvedSifter_needed]
  exact Coroutine.does_bind_ok decides carries

end ComputeSifter

end Aa.Sifter
