import Aa.Library.Program
import Aa.Sifter.Context.Handoff
import Aa.Sifter.Decisions.Approval
import Aa.Sifter.Routing.Budget
import Aa.Sifter.Routing.Policy

/-!
# The compute sifter

One run of the sifter as a coroutine: it asks the human, calls models through the
registry and has answers verified, and it keeps the budget, the usage counters and
the list of approvals. The human, the history store, the providers and the verifier
are the environment, which may answer anything and may raise anything.
-/

namespace Aa.Sifter

open Aa.Library

/-- An exception a run can raise or be given. -/
inductive Raised
  | budgetExceeded (exceeded : BudgetExceeded)
  | providerError (message : String)
  | other (message : String)

/-- What a model is called for. -/
inductive Purpose
  | expertAnalysis
  | cloudExecute
  | cloudPlan
  | localExecute
  | cloudReview
  | cloudEscalation
  | inference
  deriving DecidableEq

/-- A request to a provider. -/
structure Call where
  tier : Tier
  purpose : Purpose
  provider : Provider
  model : String
  messages : List (Message Char)
  temperature : ℚ
  maxTokens : Option ℤ
  timeout : ℚ

structure VerificationCheck where
  name : String
  passed : Bool

structure VerificationResult where
  passed : Bool
  checks : List VerificationCheck := []

def VerificationResult.summary (result : VerificationResult) : String :=
  if result.checks.isEmpty then "no checks were run"
  else Py.join ", " (result.checks.map fun check =>
    check.name ++ "=" ++ if check.passed then "pass" else "FAIL")

/-- The operations of a run. A budget check is one only to be seen in the trace: its outcome
is a part of it. -/
inductive Op
  | approval (request : ApprovalRequest)
  | recordApproval (request : ApprovalRequest) (decision : HumanDecision)
  | budgetCheck (estimatedTokens : ℤ) (estimatedCost : ℚ) (denied : Option BudgetExceeded)
  | generate (call : Call)
  | verify (answer : String)

abbrev Op.Answer : Op → Type
  | approval _ => Except Raised HumanDecision
  | recordApproval _ _ => Except Raised Unit
  | budgetCheck _ _ _ => Unit
  | generate _ => Except Raised GenerationResult
  | verify _ => Except Raised VerificationResult

/-- One entry of the list of approvals of a run. -/
structure ApprovalRecord where
  stage : Stage
  action : ApprovalAction
  selectedOptions : List String
  constraints : List String := []

/-- What a run keeps besides its local variables. -/
structure Session where
  budget : BudgetTracker
  usage : UsageMetrics := {}
  approvals : List ApprovalRecord := []

abbrev Run (α : Type) := Coroutine Op Op.Answer Session Raised α

/-- The arguments of a run. -/
structure Task where
  prompt : String
  context : Option String := none
  policy : Option String := none
  maxCloudCost : Option ℚ := none

structure SifterResult where
  status : String
  answer : String
  route : String
  decisionLevel : DecisionLevel
  requiresHumanApproval : Bool
  blockedReason : Option String
  assessment : PreflightAssessment
  usage : UsageMetrics
  approvals : List ApprovalRecord
  approvedDecisions : List String := []
  humanConstraints : List String := []

structure ComputeSifter where
  config : SifterConfig
  registry : ModelRegistry
  rules : StandingRuleEngine
  hasHistory : Bool := false

def majorOptions : List ApprovalOption :=
  [{ key := "A"
     label := "Keep the current approach"
     description := "Proceed with the existing design and work around the limitation." },
    { key := "B"
      label := "Allow DeepSeek to analyze these options"
      description := "Cloud reasoning compares options and recommends, but does NOT implement." },
    { key := "C"
      label := "Give different instructions"
      description := "Provide explicit constraints or a different direction." },
    { key := "D", label := "Stop this work" }]

/-- `value or default` of an optional integer: 0 counts as missing. -/
def intOr (value : Option ℤ) (default : ℤ) : ℤ :=
  match value with
  | some given => if given = 0 then default else given
  | none => default

/-- True when a call can leave the machine: expert tier or a `:cloud` model. -/
def isCloudBound (tier : Tier) (model : ModelConfig) : Bool :=
  tier = .expert || Py.endsWith model.name ":cloud"

/-- Bounds the outbound messages to the context window of the model. -/
def fitToContext {α : Type} [Glyph α] (messages : List (Message α)) (model : ModelConfig)
    (maxOutput : ℤ) : List (Message α) :=
  if model.contextLimit ≤ 0 then messages
  else fitMessages messages (max 1024 (model.contextLimit - max 0 maxOutput)).toNat

namespace ComputeSifter

variable (sifter : ComputeSifter)

def unicode : PyUnicode := sifter.rules.unicode

def redactor : SecretRedactor where
  unicode := sifter.unicode
  enabled := sifter.config.redactSecrets

def gate : DecisionGate where
  config := sifter.config
  rules := sifter.rules

def assessor : PreflightAssessor where
  config := sifter.config
  unicode := sifter.unicode

def policyEngine : PolicyEngine where
  config := sifter.config

def modelConfig (tier : Tier) : ModelConfig :=
  if tier = .local then sifter.config.localModelConfig else sifter.config.cloudModelConfig

def maxOutput (tier : Tier) : ℤ :=
  if tier = .local then intOr sifter.config.localMaxOutputTokens defaultLocalMaxOutput
  else intOr sifter.config.expertMaxOutputTokens defaultExpertMaxOutput

def temperature (tier : Tier) : ℚ :=
  (if tier = .local then sifter.config.localTemperature
    else sifter.config.expertTemperature).getD (2 / 10)

/-- The messages as `_call_tier` sends them. -/
def prepared {α : Type} [Glyph α] (tier : Tier) (messages : List (Message α)) :
    List (Message α) :=
  let model := sifter.modelConfig tier
  let fitted := fitToContext messages model (sifter.maxOutput tier)
  if isCloudBound tier model then (sifter.redactor.redactModelMessages fitted).1 else fitted

def cloudDisabledMessage : String :=
  "cloud is disabled by the active profile (cloud_allowed = false)"

/-! ## Operations -/

def requireApproval (request : ApprovalRequest) : Run HumanDecision := do
  let decision ← Coroutine.perform (Op.approval request) id
  if sifter.hasHistory then
    Coroutine.perform (Op.recordApproval request decision) id
  pure decision

def verify (answer : String) : Run VerificationResult :=
  Coroutine.perform (Op.verify answer) id

/-- The budget check of an expert call; a denied one raises `BudgetExceeded`. -/
def checkBudget (tier : Tier) (messages : List (Message Char)) : Run Unit := do
  if tier = .expert then
    let session ← Coroutine.read
    let inputTokens : ℤ := totalTokens messages
    let inputCost := (sifter.modelConfig tier).estimateCost inputTokens 0
    let checked := session.budget.check inputTokens inputCost
    Coroutine.write { session with budget := checked.2 }
    Coroutine.perform (Op.budgetCheck inputTokens inputCost checked.1) .ok
    match checked.1 with
    | some exceeded => Coroutine.raise (.budgetExceeded exceeded)
    | none => pure ()

/-- Counts a finished generation. -/
def recordGeneration (tier : Tier) (result : GenerationResult) (session : Session) : Session :=
  let model := sifter.modelConfig tier
  { session with
    usage := session.usage.recordGeneration result model
    budget := if tier = .expert then session.budget.record result model else session.budget }

def callTier (tier : Tier) (messages : List (Message Char)) (purpose : Purpose) :
    Run String := do
  let model := sifter.modelConfig tier
  match sifter.registry.providerFor model.name model.provider with
  | .error message => Coroutine.raise (.providerError message)
  | .ok provider =>
      if isCloudBound tier model && !sifter.config.cloudAllowed then
        Coroutine.raise (.providerError cloudDisabledMessage)
      else
        sifter.checkBudget tier (sifter.prepared tier messages)
        let call : Call :=
          { tier := tier
            purpose := purpose
            provider := provider
            model := model.name
            messages := sifter.prepared tier messages
            temperature := sifter.temperature tier
            maxTokens := some (sifter.maxOutput tier)
            timeout := model.timeoutSeconds }
        let result ← Coroutine.perform (Op.generate call) id
        Coroutine.modify (sifter.recordGeneration tier result)
        pure result.text

/-! ## The approval path -/

def noteApproval (record : ApprovalRecord) (usage : UsageMetrics → UsageMetrics) : Run Unit :=
  Coroutine.modify fun session =>
    { session with approvals := session.approvals ++ [record], usage := usage session.usage }

def buildApprovalRequest (task : Task) (classification : DecisionClassification) :
    ApprovalRequest where
  category := classification.level
  issue := task.prompt
  whyItMatters :=
    if classification.level = .critical then
      "This is a critical, potentially destructive or irreversible action. " ++
      "Compute Sifter will default to the safest non-destructive behavior until you decide."
    else
      "This decision materially affects architecture, security, data, scope, " ++
      "external dependencies or cost. DeepSeek must not make it implicitly."
  currentApproach := match orElse task.context none with
    | some context => Py.takeText context 1500
    | none => "Not specified."
  options := majorOptions
  recommendedAction :=
    "Ask DeepSeek to compare the options and recommend; no implementation " ++
    "will occur until you separately approve it."
  cloudReasoningInvoked := false
  stage := .analysis
  context := [("signals", classification.signals.names), ("reasons", classification.reasons)]

/-- The messages of the expert's analysis. -/
def analysisMessages (task : Task) (constraints : List String) : List (Message Char) :=
  let packet : EscalationPacket :=
    { originalTask := task.prompt
      currentPlan := "Human has permitted expert analysis of major options."
      reasonForEscalation := "Major decision requires expert comparison of approved options."
      humanConstraints := constraints
      openQuestions := ["Which option best fits the stated constraints?"] }
  let redacted := String.ofList (sifter.redactor.redact packet.toPrompt.toList).text
  [Message.system <|
    "You are a senior engineer. Compare the options, state tradeoffs, and " ++
    "recommend ONE direction. Do NOT implement code. Respect the human " ++
    "constraints as authoritative and non-negotiable. End with a clear recommendation.",
  Message.user <| redacted ++ match orElse task.context none with
    | some context => "\n\nAdditional context:\n" ++ Py.takeText context 4000
    | none => ""]

def expertAnalysis (task : Task) (constraints : List String) : Run (String × DecisionLevel) := do
  let answer ← sifter.callTier .expert (sifter.analysisMessages task constraints) .expertAnalysis
  pure (answer, .major)

def implementRequest (category : DecisionLevel) (analysis : String) : ApprovalRequest where
  category := category
  issue := "DeepSeek has analyzed the options and produced a recommendation."
  whyItMatters :=
    "Implementing this recommendation changes project direction. Permission " ++
    "to analyze is not permission to implement."
  currentApproach := "No implementation changes have been made yet."
  options :=
    [{ key := "A", label := "Approve implementing the recommendation" },
      { key := "B", label := "Give different instructions" },
      { key := "C", label := "Stop this work" }]
  recommendedAction := Py.takeText analysis 2000
  cloudReasoningInvoked := true
  stage := .implementation
  context := [("recommendation", [Py.takeText analysis 4000])]

@[simp]
theorem buildApprovalRequest_stage (task : Task) (classification : DecisionClassification) :
    (buildApprovalRequest task classification).stage = .analysis := rfl

@[simp]
theorem buildApprovalRequest_category (task : Task) (classification : DecisionClassification) :
    (buildApprovalRequest task classification).category = classification.level := rfl

@[simp]
theorem implementRequest_stage (category : DecisionLevel) (analysis : String) :
    (implementRequest category analysis).stage = .implementation := rfl

@[simp]
theorem implementRequest_category (category : DecisionLevel) (analysis : String) :
    (implementRequest category analysis).category = category := rfl

/-- How a run goes on after the approval path. -/
structure Direction where
  constraints : List String := []
  approvedDecisions : List String := []
  allowCloudAnalysis : Bool := false
  forceLocal : Bool := false

/-- The approval path after the human has allowed an expert analysis. -/
def analysed (task : Task) (decision : HumanDecision) : Run (Option Direction) := do
  let (analysis, level) ← sifter.expertAnalysis task decision.constraints
  Coroutine.modify fun session =>
    { session with
      usage :=
        { session.usage with
          humanApprovedCloudAnalyses := session.usage.humanApprovedCloudAnalyses + 1 } }
  let second ← sifter.requireApproval (implementRequest level analysis)
  noteApproval
    { stage := .implementation
      action := second.action
      selectedOptions := second.selectedOptions
      constraints := second.constraints }
    fun usage => { usage with humanApprovalRequests := usage.humanApprovalRequests + 1 }
  if second.action = .approve || second.action = .chooseOption then
    pure (some
      { constraints := decision.constraints ++ second.constraints
        approvedDecisions :=
          [s!"DeepSeek-recommended direction approved: {Py.takeText analysis 500}"]
        allowCloudAnalysis := true })
  else pure none

/-- The direction the human has given for a major decision, or none if the work must
not go on. -/
def handleMajorDecision (task : Task) (classification : DecisionClassification) :
    Run (Option Direction) := do
  let decision ← sifter.requireApproval (buildApprovalRequest task classification)
  noteApproval
    { stage := .analysis
      action := decision.action
      selectedOptions := decision.selectedOptions
      constraints := decision.constraints }
    fun usage =>
      { usage with
        humanApprovalRequests := usage.humanApprovalRequests + 1
        majorDecisions := usage.majorDecisions + 1 }
  match decision.action with
  | .stop | .reject | .modify => pure none
  | .moreLocalAnalysis =>
      pure (some { constraints := decision.constraints, forceLocal := true })
  | .continueCurrent =>
      pure (some
        { constraints := decision.constraints
          approvedDecisions := ["keep current architecture"]
          forceLocal := true })
  | .approve | .chooseOption =>
      pure (some
        { constraints := decision.constraints ++
            decision.selectedOptions.map fun option => s!"Selected option {option}"
          allowCloudAnalysis := true })
  | .allowExpertAnalysis => sifter.analysed task decision

/-! ## Execution -/

def executionMessages (task : Task) (humanConstraints approvedDecisions : List String) :
    List (Message Char) :=
  let system :=
    "You are a capable local software engineer. Follow existing project patterns. " ++
    "Return a complete, coherent answer."
  let sections := authoritativeSections humanConstraints approvedDecisions
  let systemText :=
    if sections.isEmpty then system else system ++ "\n\n" ++ Py.join "\n\n" sections
  [Message.system systemText] ++
    (match orElse task.context none with
      | some context => [Message.user ("Context:\n" ++ context)]
      | none => []) ++
    [Message.user task.prompt]

/-- What executing a route leaves. -/
structure Execution where
  answer : String := ""
  verification : VerificationResult := { passed := false }
  failedAttempts : ℕ := 0

/-- A local execution, or the text of the `ProviderError` it raised. -/
def tryLocally (messages : List (Message Char)) : Run (Except String String) :=
  Coroutine.catching
    (do
      let answer ← sifter.callTier .local messages .localExecute
      pure (.ok answer))
    fun raised =>
      match raised with
      | .providerError message => pure (.error message)
      | raised => Coroutine.raise raised

/-- The messages of an attempt: from the second on with the answer that failed. -/
def attemptMessages (base : List (Message Char)) (attempt : ℕ) (answer : String) :
    List (Message Char) :=
  if attempt > 1 then
    base ++
      [Message.assistant answer,
        Message.user <|
          "The previous attempt did not pass verification. Fix the specific " ++
          "problem and return a corrected complete answer."]
  else base

/-- The local attempts from number `attempt` on, `remaining` of them. -/
def attemptLocally (base : List (Message Char)) : ℕ → ℕ → Execution → Run Execution
  | 0, _, execution => pure execution
  | remaining + 1, attempt, execution => do
      match ← sifter.tryLocally (attemptMessages base attempt execution.answer) with
      | .error message =>
          attemptLocally base remaining (attempt + 1)
            { execution with
              answer := s!"Local model error: {message}"
              failedAttempts := execution.failedAttempts + 1 }
      | .ok answer =>
          let verification ← verify answer
          if verification.passed then
            pure { execution with answer := answer, verification := verification }
          else
            Coroutine.modify fun session =>
              { session with
                usage := { session.usage with retries := session.usage.retries + 1 } }
            attemptLocally base remaining (attempt + 1)
              { answer := answer
                verification := verification
                failedAttempts := execution.failedAttempts + 1 }

def executeCloud (base : List (Message Char)) : Run Execution := do
  let answer ← sifter.callTier .expert base .cloudExecute
  let verification ← verify answer
  pure { answer := answer, verification := verification }

/-- The expert's review appended to an answer, which stays as it is if the budget does
not allow the review. -/
def reviewed (plan answer : String) : Run String :=
  Coroutine.catching
    (do
      let review ← sifter.callTier .expert
        [Message.system
          "Review the implementation against the plan. Point out concrete issues only.",
        Message.user (s!"Plan:\n{plan}\n\nImplementation:\n{answer}")] .cloudReview
      pure (s!"{answer}\n\n---\nExpert review:\n{review}"))
    fun raised =>
      match raised with
      | .budgetExceeded _ => pure answer
      | raised => Coroutine.raise raised

def executeHybrid (task : Task) (humanConstraints approvedDecisions : List String) :
    Run Execution := do
  let plan ← sifter.callTier .expert
    [Message.system <|
      "Produce a concise implementation plan with acceptance criteria and " ++
      "likely files. Do NOT write the final answer yet. Respect human constraints.",
    Message.user task.prompt] .cloudPlan
  let answer ← sifter.callTier .local
    (executionMessages task humanConstraints (approvedDecisions ++ [s!"Plan: {plan}"]))
    .localExecute
  let verification ← verify answer
  if verification.passed then
    let reviewedAnswer ← sifter.reviewed plan answer
    pure { answer := reviewedAnswer, verification := verification }
  else pure { answer := answer, verification := verification, failedAttempts := 1 }

def executeRoute (task : Task) (route : RouteDecision)
    (humanConstraints approvedDecisions : List String) : Run Execution :=
  let base := executionMessages task humanConstraints approvedDecisions
  match route.kind with
  | .cloud => sifter.executeCloud base
  | .hybrid => sifter.executeHybrid task humanConstraints approvedDecisions
  | .local => sifter.attemptLocally base (sifter.config.localMaxRetries + 1).toNat 1 {}

/-! ## Escalation -/

def escalationRequest : ApprovalRequest where
  category := .major
  issue :=
    "The local model failed repeatedly and the failure appears to imply " ++
    "an architectural change."
  whyItMatters := "This exceeds routine debugging and may change project direction."
  options := majorOptions
  recommendedAction :=
    "Ask DeepSeek to diagnose, but do not implement architectural changes " ++
    "without a separate approval."
  cloudReasoningInvoked := false
  stage := .escalation

@[simp]
theorem escalationRequest_stage : escalationRequest.stage = .escalation := rfl

@[simp]
theorem escalationRequest_category : escalationRequest.category = .major := rfl

/-- Whether an escalation may go to the cloud: `none` if the human blocked it. -/
def escalationAllowed (outcome : EscalationOutcome) (autonomyGrant allowed : Bool) :
    Run (Option Bool) := do
  if outcome.requiresHumanApproval && !autonomyGrant then
    let decision ← sifter.requireApproval escalationRequest
    noteApproval
      { stage := .escalation
        action := decision.action
        selectedOptions := decision.selectedOptions }
      fun usage => { usage with humanApprovalRequests := usage.humanApprovalRequests + 1 }
    if !decision.authorized then pure none
    else pure (some (decision.action = .allowExpertAnalysis))
  else pure (some allowed)

/-- The expert's diagnosis appended to an answer, with the flag that it was obtained. -/
def diagnosed (packet : EscalationPacket) (answer : String) : Run (String × Bool) :=
  let redacted := String.ofList (sifter.redactor.redact packet.toPrompt.toList).text
  Coroutine.catching
    (do
      let diagnosis ← sifter.callTier .expert
        [Message.system <|
          "You are a senior engineer diagnosing a failed attempt. Identify the concrete " ++
          "root cause and provide corrected complete work. Respect authoritative constraints.",
        Message.user redacted] .cloudEscalation
      pure (s!"{answer}\n\n---\nExpert escalation:\n{diagnosis}", true))
    fun raised =>
      match raised with
      | .budgetExceeded exceeded =>
          pure (answer ++ s!"\n\n[Escalation skipped: {exceeded.reason}]", false)
      | raised => Coroutine.raise raised

def escalateAfterFailure (task : Task) (execution : Execution)
    (classification : DecisionClassification) (humanConstraints approvedDecisions : List String)
    (allowed autonomyGrant : Bool) : Run (String × Bool) := do
  let architectureLike := EscalationPolicy.isArchitectureLike sifter.unicode task.prompt
  let request : EscalationRequest :=
    { reason := s!"local verification failed: {execution.verification.summary}"
      failedAttempts := execution.failedAttempts
      recommendedAction := if architectureLike then .cloudPlan else .cloudDebug
      potentialMajorDecision := architectureLike && classification.isMajor }
  let outcome := EscalationPolicy.evaluate request
  Coroutine.modify fun session =>
    { session with
      usage := { session.usage with escalations := session.usage.escalations + 1 } }
  match ← sifter.escalationAllowed outcome autonomyGrant allowed with
  | none =>
      pure (execution.answer ++
        "\n\n[Blocked: architectural escalation requires human approval.]", false)
  | some false =>
      pure (execution.answer ++ "\n\n[Local-only policy: cloud escalation not permitted.]", false)
  | some true =>
      sifter.diagnosed
        { originalTask := task.prompt
          currentPlan := "Local execution attempted and failed verification."
          completedWork := execution.answer
          failedAttempts :=
            (List.range execution.failedAttempts).map fun i => s!"attempt {i + 1} failed"
          testResults := execution.verification.summary
          reasonForEscalation := request.reason
          humanConstraints := humanConstraints
          approvedDecisions := approvedDecisions }
        execution.answer

/-! ## A run -/

/-- Builds the result of a run from what it has kept. -/
def finish (status answer : String) (classification : DecisionClassification)
    (assessment : PreflightAssessment) (blockedReason : Option String)
    (route : Option String := none) (direction : Direction := {}) : Run SifterResult := do
  let session ← Coroutine.read
  pure
    { status := status
      answer := answer
      route := route.getD assessment.recommendedRoute
      decisionLevel := classification.level
      requiresHumanApproval := classification.requiresHumanApproval
      blockedReason := blockedReason
      assessment := assessment
      usage := session.usage
      approvals := session.approvals
      approvedDecisions := direction.approvedDecisions
      humanConstraints := direction.constraints }

def classification (task : Task) : DecisionClassification :=
  sifter.gate.classify task.prompt

def assessment (task : Task) : PreflightAssessment :=
  sifter.assessor.assess task.prompt task.context (sifter.classification task)

def autonomyGrant : Bool :=
  sifter.rules.hasGrant "cloud_auto_escalation" || sifter.rules.hasGrant "cloud_debug_failed_tests"

/-- The policy that the routing is told. -/
def effectivePolicy (task : Task) (direction : Direction) : Option String :=
  if !sifter.config.cloudAllowed then some "local_only"
  else if direction.forceLocal then some "local_only"
  else task.policy

def cloudPermitted (policy : Option String) : Bool :=
  (orElse policy (some sifter.config.routingPolicy)).getD "" != "local_only"

/-- The answer of an execution, escalated if it failed verification, and whether it
counts as completed. -/
def resolved (task : Task) (direction : Direction) (execution : Execution) :
    Run (String × Bool) :=
  if execution.verification.passed then pure (execution.answer, true)
  else
    sifter.escalateAfterFailure task execution (sifter.classification task) direction.constraints
      direction.approvedDecisions
      (sifter.cloudPermitted (sifter.effectivePolicy task direction) &&
        (direction.allowCloudAnalysis || !(sifter.classification task).isMajor ||
          sifter.autonomyGrant))
      sifter.autonomyGrant

/-- The part of a run after the approval path. -/
def carryOut (task : Task) (direction : Direction) : Run SifterResult := do
  let classification := sifter.classification task
  let assessment := sifter.assessment task
  let policy := sifter.effectivePolicy task direction
  let session ← Coroutine.read
  let route := sifter.policyEngine.decide assessment policy
    (0 < session.budget.remainingCalls && !session.budget.exhausted)
  let execution ← sifter.executeRoute task route direction.constraints direction.approvedDecisions
  let (answer, completed) ← sifter.resolved task direction execution
  finish (if completed then "completed" else "failed") answer classification assessment none
    (some route.kind.value) direction

/-- The body of a run, without the handlers of its exceptions. -/
def runBody (task : Task) : Run SifterResult := do
  let classification := sifter.classification task
  if classification.requiresHumanApproval then
    match ← sifter.handleMajorDecision task classification with
    | none =>
        finish "stopped" "No action taken. The decision requires human authorization."
          classification (sifter.assessment task) (some "awaiting human decision")
    | some direction => sifter.carryOut task direction
  else sifter.carryOut task {}

def run (task : Task) : Run SifterResult :=
  Coroutine.catching (sifter.runBody task) fun raised =>
    match raised with
    | .budgetExceeded exceeded =>
        finish "blocked" s!"Cloud budget limit reached: {exceeded.reason}"
          (sifter.classification task) (sifter.assessment task) (some exceeded.reason)
    | .providerError message =>
        finish "error" s!"Model provider error: {message}"
          (sifter.classification task) (sifter.assessment task) (some message)
    | raised => Coroutine.raise raised

/-- The state a run starts from. -/
def newSession (task : Task) : Session where
  budget := BudgetTracker.new sifter.config task.maxCloudCost
    (if task.maxCloudCost.isSome then none else sifter.rules.costWaiverThreshold)

/-- The low-level entry point: one request to the tier that is asked for. -/
def generate (tierName : String) (messages : List (Message Char)) : Run GenerationResult :=
  let lowered := sifter.unicode.lowered tierName
  let tier : Tier := if lowered = "expert" || lowered = "cloud" then .expert else .local
  let model := sifter.modelConfig tier
  match sifter.registry.providerFor model.name model.provider with
  | .error message => Coroutine.raise (.providerError message)
  | .ok provider =>
      if isCloudBound tier model && !sifter.config.cloudAllowed then
        Coroutine.raise (.providerError cloudDisabledMessage)
      else
        Coroutine.perform
          (Op.generate
            { tier := tier
              purpose := .inference
              provider := provider
              model := model.name
              messages :=
                if isCloudBound tier model then (sifter.redactor.redactModelMessages messages).1
                else messages
              temperature := 2 / 10
              maxTokens := none
              timeout := model.timeoutSeconds })
          id

end ComputeSifter

end Aa.Sifter
