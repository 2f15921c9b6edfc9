import Aa.Sifter.Trace

/-!
# The messages of a run

What each call of a run is given before it is fitted and redacted, and the human constraints it
is built from. One lemma for each function of the run says that its calls are of these.
-/

namespace Aa.Sifter

open Aa.Library

namespace ComputeSifter

variable {sifter : ComputeSifter} {task : Task} {constraints : List String}

def planMessages (task : Task) : List (Message Char) :=
  [Message.system <|
    "Produce a concise implementation plan with acceptance criteria and " ++
    "likely files. Do NOT write the final answer yet. Respect human constraints.",
  Message.user task.prompt]

def reviewMessages (plan answer : String) : List (Message Char) :=
  [Message.system
    "Review the implementation against the plan. Point out concrete issues only.",
  Message.user (s!"Plan:\n{plan}\n\nImplementation:\n{answer}")]

def escalationMessages (sifter : ComputeSifter) (packet : EscalationPacket) : List (Message Char) :=
  [Message.system <|
    "You are a senior engineer diagnosing a failed attempt. Identify the concrete " ++
    "root cause and provide corrected complete work. Respect authoritative constraints.",
  Message.user (String.ofList (sifter.redactor.redact packet.toPrompt.toList).text)]

/-- What the expert is told of a major decision. -/
def analysisPacket (task : Task) (constraints : List String) : EscalationPacket where
  originalTask := task.prompt
  currentPlan := "Human has permitted expert analysis of major options."
  reasonForEscalation := "Major decision requires expert comparison of approved options."
  humanConstraints := constraints
  openQuestions := ["Which option best fits the stated constraints?"]

/-- What a call is given: its tier, what it is for, the prompts that were redacted for it and the
messages, built from the task and from human constraints. -/
inductive Outgoing (sifter : ComputeSifter) (task : Task) (constraints : List String) :
    Tier → Purpose → List String → List (Message Char) → Prop
  | analysis :
      Outgoing sifter task constraints .expert .expertAnalysis
        [(analysisPacket task constraints).toPrompt] (sifter.analysisMessages task constraints)
  | planned : Outgoing sifter task constraints .expert .cloudPlan [] (planMessages task)
  | executed (approvedDecisions : List String) :
      Outgoing sifter task constraints .expert .cloudExecute []
        (executionMessages task constraints approvedDecisions)
  | attempted (approvedDecisions : List String) (attempt : ℕ) (answer : String) :
      Outgoing sifter task constraints .local .localExecute []
        (attemptMessages (executionMessages task constraints approvedDecisions) attempt answer)
  | reviewed (plan answer : String) :
      Outgoing sifter task constraints .expert .cloudReview [] (reviewMessages plan answer)
  | escalated (packet : EscalationPacket) (ofConstraints : packet.humanConstraints = constraints) :
      Outgoing sifter task constraints .expert .cloudEscalation [packet.toPrompt]
        (sifter.escalationMessages packet)

/-- The first attempt is given the messages of the execution. -/
theorem Outgoing.firstAttempt (approvedDecisions : List String) :
    sifter.Outgoing task constraints .local .localExecute []
      (executionMessages task constraints approvedDecisions) := by
  have outgoing : sifter.Outgoing task constraints .local .localExecute []
      (attemptMessages (executionMessages task constraints approvedDecisions) 1 "") :=
    .attempted approvedDecisions 1 ""
  rwa [attemptMessages, if_neg (by omega)] at outgoing

/-- The event is no call but one with outgoing messages, and no request to the human but one of
the given stage. -/
structure Delivers (sifter : ComputeSifter) (task : Task) (constraints : List String)
    (stage : Stage) (event : Event Op Op.Answer) : Prop where
  sends : ∀ call answer, event = ⟨.generate call, answer⟩ →
    ∃ tier purpose prompts messages, sifter.Outgoing task constraints tier purpose prompts messages ∧
      sifter.Sends tier messages purpose call
  asks : ∀ request answer, event = ⟨.approval request, answer⟩ → request.stage = stage

variable {stage : Stage}

theorem delivers_of_silent {event : Event Op Op.Answer} (isNone : momentOf event = none) :
    sifter.Delivers task constraints stage event := by
  refine ⟨?_, ?_⟩
  · rintro call answer rfl
    cases isNone
  · rintro request answer rfl
    cases answer <;> cases isNone

theorem callTier_delivers {tier : Tier} {purpose : Purpose} {prompts : List String}
    {messages : List (Message Char)}
    (outgoing : sifter.Outgoing task constraints tier purpose prompts messages) :
    (sifter.callTier tier messages purpose).Only (sifter.Delivers task constraints stage) := by
  intro before events outcome after does event isThere
  rcases callTier_events does with ⟨call, reply, checks, sends, silent, rfl⟩ | ⟨_, _, silent⟩
  · rcases List.mem_append.mp isThere with isCheck | isCall
    · exact delivers_of_silent (silent event isCheck).1
    · rw [List.mem_singleton.mp isCall]
      refine ⟨?_, ?_⟩
      · rintro _ _ ⟨⟩
        exact ⟨tier, purpose, prompts, messages, outgoing, sends⟩
      · rintro request answer ⟨⟩
  · exact delivers_of_silent (silent event isThere).1

theorem verify_delivers (answer : String) :
    (verify answer).Only (sifter.Delivers task constraints stage) :=
  .perform fun _ => delivers_of_silent rfl

theorem requireApproval_delivers {request : ApprovalRequest} (isStage : request.stage = stage) :
    (sifter.requireApproval request).Only (sifter.Delivers task constraints stage) := by
  refine requireApproval_only (fun reply => ⟨?_, ?_⟩) fun _ _ => delivers_of_silent rfl
  · rintro call answer ⟨⟩
  · rintro other answer ⟨⟩
    exact isStage

section Calling

variable {holds : Event Op Op.Answer → Prop}

theorem reviewed_only {plan answer : String}
    (calls : (sifter.callTier .expert (reviewMessages plan answer) .cloudReview).Only holds) :
    (sifter.reviewed plan answer).Only holds := by
  refine .catching (.bind calls fun _ => .pure _) fun raised => ?_
  cases raised with
  | budgetExceeded exceeded => exact .pure _
  | providerError message => exact .raise _
  | other message => exact .raise _

/-- The calls of an execution are outgoing, and none of them is to escalate. -/
theorem executeRoute_only
    (calls : ∀ {tier purpose prompts messages},
      sifter.Outgoing task constraints tier purpose prompts messages → purpose ≠ .cloudEscalation →
        (sifter.callTier tier messages purpose).Only holds)
    (verifies : ∀ answer, (verify answer).Only holds) (route : RouteDecision)
    (approvedDecisions : List String) :
    (sifter.executeRoute task route constraints approvedDecisions).Only holds := by
  unfold executeRoute
  dsimp only
  split
  · refine .bind (calls (.executed _) (by decide)) fun answer => ?_
    exact .bind (verifies answer) fun _ => .pure _
  · unfold executeHybrid
    refine .bind (calls (show sifter.Outgoing task constraints .expert .cloudPlan []
      (planMessages task) from .planned) (by decide)) fun plan => ?_
    refine .bind (calls (.firstAttempt _) (by decide)) fun answer => ?_
    refine .bind (verifies answer) fun verification => ?_
    split
    · exact .bind (reviewed_only (calls (.reviewed plan answer) (by decide))) fun _ => .pure _
    · exact .pure _
  · exact only_follows.attemptLocally (fun _ _ => calls (.attempted _ _ _) (by decide)) verifies _ _ _

end Calling

theorem executeRoute_delivers (route : RouteDecision) (approvedDecisions : List String) :
    (sifter.executeRoute task route constraints approvedDecisions).Only
      (sifter.Delivers task constraints stage) :=
  executeRoute_only (fun outgoing _ => callTier_delivers outgoing) verify_delivers _ _

theorem diagnosed_delivers {packet : EscalationPacket} (answer : String)
    (ofConstraints : packet.humanConstraints = constraints) :
    (sifter.diagnosed packet answer).Only (sifter.Delivers task constraints stage) := by
  have escalates : (sifter.callTier .expert (sifter.escalationMessages packet)
      .cloudEscalation).Only (sifter.Delivers task constraints stage) :=
    callTier_delivers (.escalated packet ofConstraints)
  refine .catching (.bind escalates fun _ => .pure _) fun raised => ?_
  cases raised with
  | budgetExceeded exceeded => exact .pure _
  | providerError message => exact .raise _
  | other message => exact .raise _

theorem escalateAfterFailure_delivers (execution : Execution)
    (classification : DecisionClassification) (approvedDecisions : List String)
    (allowed autonomyGrant : Bool) :
    (sifter.escalateAfterFailure task execution classification constraints approvedDecisions allowed
      autonomyGrant).Only (sifter.Delivers task constraints .escalation) := by
  refine .bind (.modify _) fun _ => .bind ?_ fun verdict => ?_
  · exact only_follows.escalationAllowed (requireApproval_delivers rfl) _ _ _
  split
  · exact .pure _
  · exact .pure _
  · exact diagnosed_delivers _ rfl

/-- The work of a run uses the constraints of its direction, and asks only to escalate. -/
theorem carryOut_delivers (direction : Direction) :
    (sifter.carryOut task direction).Only
      (sifter.Delivers task direction.constraints .escalation) := by
  refine .bind .read fun session => .bind (executeRoute_delivers _ _) fun execution => ?_
  refine .bind ?_ fun resolved => .bind .read fun _ => .pure _
  unfold resolved
  split
  · exact .pure _
  · exact escalateAfterFailure_delivers _ _ _ _ _

theorem expertAnalysis_delivers :
    (sifter.expertAnalysis task constraints).Only (sifter.Delivers task constraints stage) :=
  .bind (callTier_delivers .analysis) fun _ => .pure _

theorem analysed_delivers (decision : HumanDecision) :
    (sifter.analysed task decision).Only
      (sifter.Delivers task decision.constraints .implementation) :=
  only_follows.analysed (callTier_delivers .analysis) fun _ _ => requireApproval_delivers rfl

/-- Every call of a run is given outgoing messages. -/
theorem run_delivers (sifter : ComputeSifter) (task : Task) :
    (sifter.run task).Only fun event => ∃ constraints stage,
      sifter.Delivers task constraints stage event := by
  have carried (direction : Direction) : (sifter.carryOut task direction).Only fun event =>
      ∃ constraints stage, sifter.Delivers task constraints stage event :=
    (carryOut_delivers direction).mono fun _ delivers => ⟨_, _, delivers⟩
  have finished {status answer : String} {classification : DecisionClassification}
      {assessment : PreflightAssessment} {blockedReason : Option String} :
      (finish status answer classification assessment blockedReason).Only fun event =>
        ∃ constraints stage, sifter.Delivers task constraints stage event :=
    .bind .read fun _ => .pure _
  refine .catching ?_ fun raised => ?_
  · unfold runBody
    dsimp only
    split
    · refine .bind (.bind ?_ fun decision => .bind (.modify _) fun _ => ?_) fun decided => ?_
      · exact (requireApproval_delivers rfl).mono fun _ delivers => ⟨[], _, delivers⟩
      · split
        all_goals first
          | exact .pure _
          | exact (analysed_delivers decision).mono fun _ delivers => ⟨_, _, delivers⟩
      · split
        · exact finished
        · exact carried _
    · exact carried _
  · cases raised with
    | budgetExceeded exceeded => exact finished
    | providerError message => exact finished
    | other message => exact .raise _

/-- No call is given more than five messages. -/
theorem Outgoing.length_le {tier : Tier} {purpose : Purpose} {prompts : List String}
    {messages : List (Message Char)}
    (outgoing : sifter.Outgoing task constraints tier purpose prompts messages) : messages.length ≤ 5 := by
  have execution (approvedDecisions : List String) :
      (executionMessages task constraints approvedDecisions).length ≤ 3 := by
    simp only [executionMessages, List.length_append, List.length_cons, List.length_nil]
    cases orElse task.context none with
    | none => exact (by decide : 0 + 1 + 0 + (0 + 1) ≤ 3)
    | some context => exact (by decide : 0 + 1 + (0 + 1) + (0 + 1) ≤ 3)
  cases outgoing with
  | analysis => exact (le_of_eq rfl : 2 ≤ 2).trans (by decide)
  | planned => exact (le_of_eq rfl : 2 ≤ 2).trans (by decide)
  | executed approvedDecisions => exact (execution approvedDecisions).trans (by decide)
  | attempted approvedDecisions attempt answer =>
      have few := execution approvedDecisions
      unfold attemptMessages
      split
      · simpa using few
      · omega
  | reviewed plan answer => exact (le_of_eq rfl : 2 ≤ 2).trans (by decide)
  | escalated packet _ => exact (le_of_eq rfl : 2 ≤ 2).trans (by decide)

/-! ## Calls that are answered -/

/-- An environment that answers every operation with an exception. -/
def raising (message : String) : (op : Op) → op.Answer
  | .approval _ => .error (.other message)
  | .recordApproval _ _ => .error (.other message)
  | .budgetCheck _ _ _ => ()
  | .generate _ => .error (.other message)
  | .verify _ => .error (.other message)

/-- The call that `_call_tier` sends to a provider. -/
def callOf (sifter : ComputeSifter) (tier : Tier) (purpose : Purpose) (provider : Provider)
    (messages : List (Message Char)) : Call where
  tier := tier
  purpose := purpose
  provider := provider
  model := (sifter.modelConfig tier).name
  messages := sifter.prepared tier messages
  temperature := sifter.temperature tier
  maxTokens := some (sifter.maxOutput tier)
  timeout := (sifter.modelConfig tier).timeoutSeconds

/-- A call that has a provider and passes its check is sent, and its answer is recorded. -/
theorem callTier_answers {tier : Tier} {provider : Provider} {messages : List (Message Char)}
    {before middle : Session} {checks : List (Event Op Op.Answer)}
    (isProvider : sifter.registry.providerFor (sifter.modelConfig tier).name
      (sifter.modelConfig tier).provider = .ok provider)
    (isAllowed : sifter.config.cloudAllowed = true)
    (passes : (sifter.checkBudget tier (sifter.prepared tier messages)).Does before checks (.ok ())
      middle) (purpose : Purpose) (result : GenerationResult) :
    (sifter.callTier tier messages purpose).Does before
      (checks ++ [⟨.generate (sifter.callOf tier purpose provider messages), .ok result⟩])
      (.ok result.text) (sifter.recordGeneration tier result middle) := by
  have isSent : (Coroutine.perform (Op.generate (sifter.callOf tier purpose provider messages)) id :
      Run GenerationResult).Does middle
      [⟨.generate (sifter.callOf tier purpose provider messages), .ok result⟩] (.ok result) middle :=
    Coroutine.does_perform_answer rfl
  have isCounted : (do
      Coroutine.modify (sifter.recordGeneration tier result)
      pure result.text : Run String).Does middle [] (.ok result.text)
        (sifter.recordGeneration tier result middle) :=
    Coroutine.does_bind_ok (Coroutine.does_modify.mpr ⟨rfl, rfl, rfl⟩)
      (Coroutine.does_pure.mpr ⟨rfl, rfl, rfl⟩)
  simp only [callTier, isProvider, isAllowed, Bool.not_true, Bool.and_false, Bool.false_eq_true,
    if_false]
  exact Coroutine.does_bind_ok passes (Coroutine.does_bind_ok isSent isCounted)

theorem callTier_local_answers {provider : Provider}
    (isProvider : sifter.registry.providerFor (sifter.modelConfig .local).name
      (sifter.modelConfig .local).provider = .ok provider)
    (isAllowed : sifter.config.cloudAllowed = true) (messages : List (Message Char))
    (purpose : Purpose) (result : GenerationResult) (before : Session) :
    (sifter.callTier .local messages purpose).Does before
      [⟨.generate (sifter.callOf .local purpose provider messages), .ok result⟩] (.ok result.text)
      (sifter.recordGeneration .local result before) :=
  callTier_answers isProvider isAllowed (checkBudget_local.mpr ⟨rfl, rfl, rfl⟩) purpose result

theorem callTier_expert_answers {provider : Provider} {messages : List (Message Char)}
    {before : Session}
    (isProvider : sifter.registry.providerFor (sifter.modelConfig .expert).name
      (sifter.modelConfig .expert).provider = .ok provider)
    (isAllowed : sifter.config.cloudAllowed = true)
    (isAffordable : (sifter.checked before.budget (sifter.prepared .expert messages)).1 = none)
    (purpose : Purpose) (result : GenerationResult) :
    (sifter.callTier .expert messages purpose).Does before
      [sifter.checkEvent before.budget (sifter.prepared .expert messages),
        ⟨.generate (sifter.callOf .expert purpose provider messages), .ok result⟩]
      (.ok result.text) (sifter.recordGeneration .expert result before) := by
  refine callTier_answers isProvider isAllowed (checkBudget_expert.mpr ⟨rfl, ?_, ?_⟩) purpose result
  · rw [isAffordable]
    rfl
  · rw [checked_passed isAffordable]

end ComputeSifter

end Aa.Sifter
