import Aa.Sifter.Authority
import Aa.Sifter.Outgoing

/-!
# How far an answer reaches

Two limits of a run and the answers that break them. Under a local-only policy the
route and the escalation keep away from the expert, but an answer that allows an
expert analysis is carried out without looking at the policy. A request of a critical
run is critical at the analysis stage only: the implementation and the escalation
stage raise major requests, which a provider that answers by category answers as
major ones.
-/

namespace Aa.Sifter

open Aa.Library

namespace ComputeSifter

variable {sifter : ComputeSifter} {task : Task} {budget : BudgetTracker} {verified : Prop}
  {events : List (Event Op Op.Answer)} {outcome : Except Raised SifterResult} {after : Session}

/-- An answer that sends a request to the expert besides those of the route. -/
def LetsThrough (sifter : ComputeSifter) (task : Task) (request : ApprovalRequest)
    (decision : HumanDecision) : Prop :=
  decision.action = .allowExpertAnalysis ∧
    match request.stage with
    | .analysis =>
        ¬ sifter.ExpertRefused (sifter.newSession task).budget
          (sifter.analysisMessages task decision.constraints)
    | .implementation => False
    | .escalation =>
        sifter.config.cloudAllowed = true ∧
          ∃ provider, sifter.registry.providerFor (sifter.modelConfig .expert).name
            (sifter.modelConfig .expert).provider = .ok provider

theorem letsThrough_of_analyzes {decision : HumanDecision} {call : Call}
    (analyzes : sifter.Analyzes task (sifter.newSession task).budget decision call) :
    sifter.LetsThrough task (buildApprovalRequest task (sifter.classification task)) decision :=
  ⟨analyzes.allows, by simpa only [buildApprovalRequest_stage] using analyzes.notRefused⟩

theorem letsThrough_of_consulted {decision : HumanDecision} {call : Call}
    (allows : decision.action = .allowExpertAnalysis) (governed : sifter.Governed .expert call) :
    sifter.LetsThrough task escalationRequest decision := by
  refine ⟨allows, ?_⟩
  simp only [escalationRequest_stage]
  exact ⟨governed.allowed rfl, call.provider, governed.provider⟩

/-! ## Local-only runs -/

/-- The effective policy of every run of the task is local-only. -/
def LocalOnly (sifter : ComputeSifter) (task : Task) : Prop :=
  sifter.config.cloudAllowed = false ∨
    (orElse task.policy (some sifter.config.routingPolicy)).getD "" = "local_only"

theorem effectivePolicy_of_localOnly (isLocalOnly : sifter.LocalOnly task)
    (direction : Direction) :
    (orElse (sifter.effectivePolicy task direction)
      (some sifter.config.routingPolicy)).getD "" = "local_only" := by
  unfold effectivePolicy
  split
  · rfl
  · split
    · rfl
    · rename_i isAllowed _
      rcases isLocalOnly with notAllowed | isPolicy
      · simp [notAllowed] at isAllowed
      · exact isPolicy

theorem approvalPath_noExpert {path : List Moment} {ended : Except Raised (Option Direction)}
    (approval : sifter.ApprovalPath task (sifter.newSession task).budget
      (sifter.classification task) path ended)
    (notLet : ∀ request decision, .asked request decision ∈ path →
      ¬ sifter.LetsThrough task request decision) (call : Call) : .called call ∉ path := by
  have notMade {decision : HumanDecision} {made : Call} {rest : List Moment}
      (isPath : path = .asked (buildApprovalRequest task (sifter.classification task)) decision ::
        rest)
      (analyzes : sifter.Analyzes task (sifter.newSession task).budget decision made) : False := by
    refine notLet _ decision ?_ (letsThrough_of_analyzes analyzes)
    rw [isPath]
    exact List.mem_cons_self
  cases approval with
  | unanswered raised => simp
  | answerLost decision raised => simp
  | halted decision halts => simp
  | kept decision direction keeps staysLocal => simp
  | approved decision direction approves notForced => simp
  | analysisLost decision made raised analyzes => exact (notMade rfl analyzes).elim
  | implementationUnanswered decision made analysis raised analyzes =>
      exact (notMade rfl analyzes).elim
  | implementationLost decision second made analysis raised analyzes =>
      exact (notMade rfl analyzes).elim
  | implementationDeclined decision second made analysis analyzes =>
      exact (notMade rfl analyzes).elim
  | implementationApproved decision second made analysis direction analyzes approves notForced =>
      exact (notMade rfl analyzes).elim

theorem workPath_noExpert {direction : Direction} {work : List Moment}
    (isLocalOnly : sifter.LocalOnly task)
    (works : sifter.WorkPath task direction verified work)
    (notLet : ∀ request decision, .asked request decision ∈ work →
      ¬ sifter.LetsThrough task request decision) :
    ∀ call, .called call ∈ work → call.tier ≠ .expert := by
  have isPolicy := effectivePolicy_of_localOnly isLocalOnly direction
  rcases works with ⟨kind, calls, escalation, isRouted, areCalls, escalates, _⟩
  intro call isThere isExpert
  rcases List.mem_append.mp isThere with isWork | isEscalation
  · rcases areCalls _ isWork with ⟨_, ⟨⟩, onRoute⟩
    exact (onRoute isExpert).1 (routed_local isPolicy isRouted)
  · cases escalates with
    | silent => cases isEscalation
    | direct made isAllowed governed =>
        rw [escalationAllowedBy_local isPolicy] at isAllowed
        cases isAllowed
    | unanswered asks => simp at isEscalation
    | answered decision asks => simp at isEscalation
    | consulted decision made asks allows governed =>
        exact notLet escalationRequest decision (by simp) (letsThrough_of_consulted allows governed)

/-- A local-only run calls no expert if no answer of it lets a request through. -/
theorem no_expert_traffic (isLocalOnly : sifter.LocalOnly task)
    (does : (sifter.run task).Does (sifter.newSession task) events outcome after)
    (notLet : ∀ request decision, .asked request decision ∈ moments events →
      ¬ sifter.LetsThrough task request decision) :
    ∀ call, .called call ∈ moments events → call.tier ≠ .expert := by
  have isPath := run_moments does
  generalize moments events = trace, Verified events = verified at isPath notLet ⊢
  cases isPath with
  | ended path ended needed approval =>
      intro call isThere
      exact absurd isThere (approvalPath_noExpert approval notLet call)
  | directed path work direction needed approval works =>
      intro call isThere
      rcases List.mem_append.mp isThere with isPath | isWork
      · refine absurd isPath (approvalPath_noExpert approval ?_ call)
        exact fun request decision isAsked => notLet request decision (List.mem_append_left _ isAsked)
      · refine workPath_noExpert isLocalOnly works ?_ call isWork
        exact fun request decision isAsked => notLet request decision (List.mem_append_right _ isAsked)
  | undirected work notNeeded works => exact workPath_noExpert isLocalOnly works notLet

def ExpertFree (trace : List Moment) : Prop :=
  ∀ call, .called call ∈ trace → call.tier ≠ .expert

theorem stoppedTask_no_expert_traffic : ExpertFree (moments stoppedEvents) := by
  rcases stoppedTask_does with ⟨outcome, after, does⟩
  refine no_expert_traffic (.inr rfl) does ?_
  rintro request decision isAsked ⟨allows, _⟩
  rw [moments_stoppedEvents, List.mem_singleton] at isAsked
  cases isAsked
  cases allows

/-! ## The category of a request -/

/-- The request was raised, answered or not. -/
def Raises (trace : List Moment) (request : ApprovalRequest) : Prop :=
  .unanswered request ∈ trace ∨ ∃ decision, .asked request decision ∈ trace

/-- No request is less severe than the level of the run, so that no provider that
answers by category answers a request of a critical run as a lesser one. -/
def KeepsSeverity (level : DecisionLevel) (trace : List Moment) : Prop :=
  ∀ request, Raises trace request → request.category.atLeast level = true ∧
    (level = .critical → ∀ provider : AutoApprovalProvider,
      provider.request request = provider.criticalAnswer)

theorem keepsSeverity_of_atLeast {level : DecisionLevel} {trace : List Moment}
    (areSevere : ∀ request, Raises trace request → request.category.atLeast level = true) :
    KeepsSeverity level trace := by
  intro request isRaised
  refine ⟨areSevere request isRaised, ?_⟩
  rintro rfl provider
  have isCritical : request.category = .critical := by
    have isSevere := areSevere request isRaised
    revert isSevere
    cases request.category <;> decide
  rw [AutoApprovalProvider.request, if_pos isCritical]

theorem atLeast_refl (level : DecisionLevel) : level.atLeast level = true := by
  cases level <;> rfl

theorem major_atLeast {level : DecisionLevel} (notCritical : level ≠ .critical) :
    DecisionLevel.major.atLeast level = true := by
  cases level with
  | routine => rfl
  | significant => rfl
  | major => rfl
  | critical => exact absurd rfl notCritical

theorem raises_append {first second : List Moment} {request : ApprovalRequest} :
    Raises (first ++ second) request ↔ Raises first request ∨ Raises second request := by
  simp only [Raises, List.mem_append, exists_or]
  tauto

theorem CallsOnly.not_raises {holds : Call → Prop} {calls : List Moment}
    (areCalls : CallsOnly holds calls) {request : ApprovalRequest} : ¬ Raises calls request := by
  rintro (isThere | ⟨decision, isThere⟩)
  · rcases areCalls _ isThere with ⟨_, ⟨⟩, _⟩
  · rcases areCalls _ isThere with ⟨_, ⟨⟩, _⟩

/-- The approval path raises the analysis request, and another one only after an answer
that lets a request through. -/
theorem approvalPath_raises {path : List Moment} {ended : Except Raised (Option Direction)}
    (approval : sifter.ApprovalPath task (sifter.newSession task).budget
      (sifter.classification task) path ended)
    {request : ApprovalRequest} (isRaised : Raises path request) :
    request = buildApprovalRequest task (sifter.classification task) ∨
      (∃ analysis, request = implementRequest .major analysis) ∧
        ∃ decision, .asked (buildApprovalRequest task (sifter.classification task)) decision ∈ path ∧
          sifter.LetsThrough task (buildApprovalRequest task (sifter.classification task))
            decision := by
  have single {decision : HumanDecision}
      (isRaised : Raises [.asked (buildApprovalRequest task (sifter.classification task)) decision]
        request) :
      request = buildApprovalRequest task (sifter.classification task) := by
    simpa [Raises] using isRaised
  cases approval with
  | unanswered raised => exact .inl (by simpa [Raises] using isRaised)
  | answerLost decision raised => exact .inl (single isRaised)
  | halted decision halts => exact .inl (single isRaised)
  | kept decision direction keeps staysLocal => exact .inl (single isRaised)
  | approved decision direction approves notForced => exact .inl (single isRaised)
  | analysisLost decision made raised analyzes => exact .inl (by simpa [Raises] using isRaised)
  | implementationUnanswered decision made analysis raised analyzes =>
      have isEither : request = implementRequest .major analysis ∨
          request = buildApprovalRequest task (sifter.classification task) := by
        simpa [Raises] using isRaised
      rcases isEither with isImplement | isAnalysis
      · exact .inr ⟨⟨analysis, isImplement⟩, decision, by simp, letsThrough_of_analyzes analyzes⟩
      · exact .inl isAnalysis
  | implementationLost decision second made analysis raised analyzes =>
      have isEither : request = buildApprovalRequest task (sifter.classification task) ∨
          request = implementRequest .major analysis := by
        simpa [Raises, exists_or] using isRaised
      rcases isEither with isAnalysis | isImplement
      · exact .inl isAnalysis
      · exact .inr ⟨⟨analysis, isImplement⟩, decision, by simp, letsThrough_of_analyzes analyzes⟩
  | implementationDeclined decision second made analysis analyzes =>
      have isEither : request = buildApprovalRequest task (sifter.classification task) ∨
          request = implementRequest .major analysis := by
        simpa [Raises, exists_or] using isRaised
      rcases isEither with isAnalysis | isImplement
      · exact .inl isAnalysis
      · exact .inr ⟨⟨analysis, isImplement⟩, decision, by simp, letsThrough_of_analyzes analyzes⟩
  | implementationApproved decision second made analysis direction analyzes approves notForced =>
      have isEither : request = buildApprovalRequest task (sifter.classification task) ∨
          request = implementRequest .major analysis := by
        simpa [Raises, exists_or] using isRaised
      rcases isEither with isAnalysis | isImplement
      · exact .inl isAnalysis
      · exact .inr ⟨⟨analysis, isImplement⟩, decision, by simp, letsThrough_of_analyzes analyzes⟩

/-- Work raises only the escalation request, and only where an escalation asks and no
verification has passed. -/
theorem workPath_raises {direction : Direction} {work : List Moment}
    (works : sifter.WorkPath task direction verified work) {request : ApprovalRequest}
    (isRaised : Raises work request) :
    request = escalationRequest ∧ ¬ verified ∧
      sifter.escalationAsks task (sifter.classification task) sifter.autonomyGrant = true := by
  rcases works with ⟨kind, calls, escalation, isRouted, areCalls, escalates, passed⟩
  rcases raises_append.mp isRaised with isWork | isEscalation
  · exact absurd isWork (CallsOnly.not_raises areCalls)
  · have notVerified : ¬ verified := by
      intro isVerified
      rw [passed isVerified] at isEscalation
      simp [Raises] at isEscalation
    cases escalates with
    | silent => simp [Raises] at isEscalation
    | direct made isAllowed governed => simp [Raises] at isEscalation
    | unanswered asks => exact ⟨by simpa [Raises] using isEscalation, notVerified, asks⟩
    | answered decision asks => exact ⟨by simpa [Raises] using isEscalation, notVerified, asks⟩
    | consulted decision made asks allows governed =>
        exact ⟨by simpa [Raises] using isEscalation, notVerified, asks⟩

theorem approvalPath_asks {classification : DecisionClassification} {path : List Moment}
    {direction : Direction}
    (approval : sifter.ApprovalPath task budget classification path (.ok (some direction))) :
    ∃ decision, .asked (buildApprovalRequest task classification) decision ∈ path := by
  cases approval with
  | kept decision direction keeps staysLocal => exact ⟨decision, List.mem_cons_self⟩
  | approved decision direction approves notForced => exact ⟨decision, List.mem_cons_self⟩
  | implementationApproved decision second made analysis direction analyzes approves notForced =>
      exact ⟨decision, List.mem_cons_self⟩

/-- The three requests a run can raise, and what each of them needs. -/
theorem runPath_raises {trace : List Moment}
    (isPath : sifter.RunPath task (sifter.newSession task).budget verified trace)
    {request : ApprovalRequest} (isRaised : Raises trace request) :
    request = buildApprovalRequest task (sifter.classification task) ∨
      ((∃ analysis, request = implementRequest .major analysis) ∧
        ∃ decision, .asked (buildApprovalRequest task (sifter.classification task)) decision ∈ trace ∧
          sifter.LetsThrough task (buildApprovalRequest task (sifter.classification task))
            decision) ∨
      (request = escalationRequest ∧ ¬ verified ∧
        sifter.escalationAsks task (sifter.classification task) sifter.autonomyGrant = true ∧
        ((sifter.classification task).requiresHumanApproval = true →
          ∃ decision, .asked (buildApprovalRequest task (sifter.classification task)) decision ∈ trace ∧
            ¬ decision.Halts)) := by
  cases isPath with
  | ended path ended needed approval =>
      rcases approvalPath_raises approval isRaised with isAnalysis | isImplement
      · exact .inl isAnalysis
      · exact .inr (.inl isImplement)
  | directed path work direction needed approval works =>
      rcases raises_append.mp isRaised with isPath | isWork
      · rcases approvalPath_raises approval isPath with
          isAnalysis | ⟨isImplement, decision, isAsked, lets⟩
        · exact .inl isAnalysis
        · exact .inr (.inl ⟨isImplement, decision, List.mem_append_left _ isAsked, lets⟩)
      · rcases workPath_raises works isWork with ⟨isEscalation, notVerified, asks⟩
        rcases approvalPath_asks approval with ⟨decision, isAsked⟩
        refine .inr (.inr ⟨isEscalation, notVerified, asks, fun _ => ⟨decision, ?_, ?_⟩⟩)
        · exact List.mem_append_left _ isAsked
        · exact (approvalPath_cleared approval).notHalted _ decision isAsked
  | undirected work notNeeded works =>
      rcases workPath_raises works isRaised with ⟨isEscalation, notVerified, asks⟩
      refine .inr (.inr ⟨isEscalation, notVerified, asks, fun needed => ?_⟩)
      rw [notNeeded] at needed
      cases needed

/-- Every request of a run keeps the severity of its level, unless the run is critical
and an analysis answer lets a request through, or an escalation asks after work that
no verification has passed. -/
theorem requests_keep_severity (validated : sifter.config.Safe)
    (does : (sifter.run task).Does (sifter.newSession task) events outcome after)
    (limited : (sifter.classification task).level ≠ .critical ∨
      (∀ request decision, .asked request decision ∈ moments events → request.stage = .analysis →
        ¬ sifter.LetsThrough task request decision) ∧
      (sifter.escalationAsks task (sifter.classification task) sifter.autonomyGrant = false ∨
        Verified events ∨
        ∀ request decision, .asked request decision ∈ moments events →
          request.stage = .analysis → decision.Halts)) :
    KeepsSeverity (sifter.classification task).level (moments events) := by
  refine keepsSeverity_of_atLeast fun request isRaised => ?_
  rcases runPath_raises (run_moments does) isRaised with
    rfl | ⟨⟨analysis, rfl⟩, decision, isAsked, lets⟩ | ⟨rfl, notVerified, asks, goesOn⟩
  · exact atLeast_refl _
  · rcases limited with notCritical | ⟨notLet, _⟩
    · exact major_atLeast notCritical
    · exact absurd lets (notLet _ decision isAsked rfl)
  · rcases limited with notCritical | ⟨_, noEscalation | isVerified | allHalt⟩
    · exact major_atLeast notCritical
    · rw [noEscalation] at asks
      cases asks
    · exact absurd isVerified notVerified
    · by_contra notSevere
      have isCritical : (sifter.classification task).level = .critical := by
        by_contra notCritical
        exact notSevere (major_atLeast notCritical)
      have isMajor : (sifter.classification task).isMajor = true := by
        change (sifter.classification task).level.atLeast .major = true
        rw [isCritical]
        rfl
      rcases goesOn (DecisionGate.requiresHumanApproval_of_isMajor validated isMajor) with
        ⟨decision, isAsked, notHalted⟩
      exact notHalted (allHalt _ decision isAsked rfl)

theorem stoppedTask_keeps_severity :
    KeepsSeverity (localSifter.classification truncateTask).level (moments stoppedEvents) := by
  rcases stoppedTask_does with ⟨outcome, after, does⟩
  refine requests_keep_severity localConfig_safe does (.inr ⟨?_, .inr (.inr ?_)⟩)
  · rintro request decision isAsked _ ⟨allows, _⟩
    rw [moments_stoppedEvents, List.mem_singleton] at isAsked
    cases isAsked
    cases allows
  · intro request decision isAsked _
    rw [moments_stoppedEvents, List.mem_singleton] at isAsked
    cases isAsked
    exact .inl rfl

/-! ## Where the limits break -/

/-- An expert call that is not refused is made. -/
theorem callTier_does {messages : List (Message Char)} {before : Session}
    (notRefused : ¬ sifter.ExpertRefused before.budget messages) (purpose : Purpose)
    (result : GenerationResult) :
    ∃ call after, call.tier = .expert ∧
      (sifter.callTier .expert messages purpose).Does before
        [sifter.checkEvent before.budget (sifter.prepared .expert messages),
          ⟨.generate call, .ok result⟩] (.ok result.text) after := by
  simp only [ExpertRefused, not_or, Bool.not_eq_false, Bool.not_eq_true,
    Option.isSome_eq_false_iff, Option.isNone_iff_eq_none] at notRefused
  rcases notRefused with ⟨isFound, isAllowed, isAffordable⟩
  cases isProvider : sifter.registry.providerFor (sifter.modelConfig .expert).name
      (sifter.modelConfig .expert).provider with
  | error message => exact absurd ⟨message, isProvider⟩ isFound
  | ok provider =>
      exact ⟨_, _, rfl, callTier_expert_answers isProvider isAllowed isAffordable purpose result⟩

/-- An analysis answer that lets a request through is followed by an expert call and, if
that is answered, by a major request. -/
theorem analysis_reached (noHistory : sifter.hasHistory = false)
    (needed : (sifter.classification task).requiresHumanApproval = true)
    {decision : HumanDecision}
    (lets : sifter.LetsThrough task (buildApprovalRequest task (sifter.classification task))
      decision) (result : GenerationResult) (second : HumanDecision) :
    ∃ messages call rest outcome after, call.tier = .expert ∧
      (sifter.run task).Does (sifter.newSession task)
        (⟨.approval (buildApprovalRequest task (sifter.classification task)), .ok decision⟩ ::
          sifter.checkEvent (sifter.newSession task).budget messages ::
          ⟨.generate call, .ok result⟩ ::
          ⟨.approval (implementRequest .major result.text), .ok second⟩ :: rest) outcome after := by
  rcases lets with ⟨allows, notRefused⟩
  simp only [buildApprovalRequest_stage] at notRefused
  let environment := raising "no answer"
  have startsAnalysed (session : Session)
      (sameBudget : session.budget = (sifter.newSession task).budget) :
      ∃ messages call, call.tier = .expert ∧ (sifter.analysed task decision).Starts session
        [sifter.checkEvent session.budget messages, ⟨.generate call, .ok result⟩,
          ⟨.approval (implementRequest .major result.text), .ok second⟩] := by
    rw [← sameBudget] at notRefused
    rcases callTier_does notRefused .expertAnalysis result with ⟨call, after, onTier, called⟩
    refine ⟨sifter.prepared .expert (sifter.analysisMessages task decision.constraints), call,
      onTier, ?_⟩
    have analysing : (sifter.expertAnalysis task decision.constraints).Does session
        [sifter.checkEvent session.budget
          (sifter.prepared .expert (sifter.analysisMessages task decision.constraints)),
          ⟨.generate call, .ok result⟩] (.ok (result.text, .major)) after :=
      Coroutine.does_bind.mpr
        (.inl ⟨result.text, after, _, [], called, Coroutine.does_pure.mpr ⟨rfl, rfl, rfl⟩, rfl⟩)
    let counted : Session :=
      { after with
        usage :=
          { after.usage with
            humanApprovedCloudAnalyses := after.usage.humanApprovedCloudAnalyses + 1 } }
    have asking : (sifter.requireApproval (implementRequest .major result.text)).Does counted
        [⟨.approval (implementRequest .major result.text), .ok second⟩] (.ok second) counted :=
      requireApproval_does noHistory _ second _
    refine Coroutine.starts_bind analysing ?_
    refine Coroutine.starts_bind (Coroutine.does_modify.mpr ⟨rfl, rfl, rfl⟩) ?_
    exact Coroutine.starts_bind_left environment (Coroutine.starts_of_does asking)
  have asking : (sifter.requireApproval
      (buildApprovalRequest task (sifter.classification task))).Does (sifter.newSession task)
      [⟨.approval (buildApprovalRequest task (sifter.classification task)), .ok decision⟩]
      (.ok decision) (sifter.newSession task) :=
    requireApproval_does noHistory _ decision _
  let noted : Session :=
    { sifter.newSession task with
      approvals :=
        [{ stage := .analysis
           action := .allowExpertAnalysis
           selectedOptions := decision.selectedOptions
           constraints := decision.constraints }]
      usage := { humanApprovalRequests := 1, majorDecisions := 1 } }
  rcases startsAnalysed noted rfl with ⟨messages, call, onTier, analysed⟩
  have deciding : (sifter.handleMajorDecision task (sifter.classification task)).Starts
      (sifter.newSession task)
      [⟨.approval (buildApprovalRequest task (sifter.classification task)), .ok decision⟩,
        sifter.checkEvent (sifter.newSession task).budget messages, ⟨.generate call, .ok result⟩,
        ⟨.approval (implementRequest .major result.text), .ok second⟩] := by
    refine Coroutine.starts_bind asking ?_
    refine Coroutine.starts_bind (Coroutine.does_modify.mpr ⟨rfl, rfl, rfl⟩) ?_
    rw [allows]
    exact analysed
  have running : (sifter.run task).Starts (sifter.newSession task)
      [⟨.approval (buildApprovalRequest task (sifter.classification task)), .ok decision⟩,
        sifter.checkEvent (sifter.newSession task).budget messages, ⟨.generate call, .ok result⟩,
        ⟨.approval (implementRequest .major result.text), .ok second⟩] := by
    refine Coroutine.starts_catching environment ?_
    rw [runBody, if_pos needed]
    exact Coroutine.starts_bind_left environment deciding
  rcases running with ⟨rest, outcome, after, does⟩
  exact ⟨messages, call, rest, outcome, after, onTier, does⟩

set_option maxRecDepth 4000 in
theorem totalTokens_analysisMessages_le :
    totalTokens (localSifter.analysisMessages truncateTask []) ≤ 2000 := by
  have planned : textSection "Current plan" "Human has permitted expert analysis of major options." =
      ["Current plan" ++ ":\n" ++ "Human has permitted expert analysis of major options."] :=
    if_neg Py.ofList_ne_empty
  have reasoned : textSection "Reason for escalation"
      "Major decision requires expert comparison of approved options." =
      ["Reason for escalation" ++ ":\n" ++
        "Major decision requires expert comparison of approved options."] :=
    if_neg Py.ofList_ne_empty
  have completed : textSection "Completed work" "" = [] := rfl
  have tested : textSection "Test results" "" = [] := rfl
  have isDisabled : localSifter.redactor.enabled = false := rfl
  have literal {text : List Char} (isShort : text.length ≤ 100) :
      (String.ofList text).toList.length ≤ 100 := Py.length_ofList isShort
  have two {first second : String} {firstBound secondBound : ℕ} :=
    @Py.length_append_le first second firstBound secondBound
  have byText {message : Message Char} {text : String} {bound : ℕ}
      (isContent : message.content = text.toList) (isShort : text.toList.length ≤ bound) :
      message.content.length ≤ bound := by
    rwa [isContent]
  refine (totalTokens_pair_le (byText rfl ?_) (byText rfl ?_)).trans
    (by decide : 300 + 1600 + 2 ≤ 2000)
  · refine (two (two ?_ ?_) ?_).trans (by decide : 100 + 100 + 100 ≤ 300)
    · exact literal (by decide +kernel)
    · exact literal (by decide +kernel)
    · exact literal (by decide +kernel)
  · simp only [SecretRedactor.redact_disabled isDisabled, String.ofList_toList,
      EscalationPacket.toPrompt, planned, reasoned, completed, tested, listSection, bullets, Py.join,
      authoritativeSections, truncateTask, List.map, List.isEmpty, if_true, if_false,
      List.append_nil, List.nil_append, List.cons_append, Bool.false_eq_true, orElse]
    refine (two (two (two (two ?_ ?_) ?_) (two (two (two (two ?_ ?_) ?_) ?_)
      (two (two (two (two ?_ ?_) (two ?_ ?_)) ?_) (two (two ?_ ?_) ?_)))) ?_).trans
      (by decide : 100 + 100 + 100 + (100 + 100 + 100 + 100 + (100 + 100 + (100 + 100) + 100 +
        (100 + 100 + 100))) + 100 ≤ 1600)
    all_goals exact literal (by decide +kernel)

/-- The critical task with a ceiling of its own for the cost. -/
def truncateUnder (ceiling : Option ℚ) : Task :=
  { truncateTask with maxCloudCost := ceiling }

theorem localSifter_affords {ceiling : Option ℚ} (isRoom : 1 / 1000 ≤ ceiling.getD 2)
    {tokens : ℕ} (isFew : tokens ≤ 2000) :
    ((localSifter.newSession (truncateUnder ceiling)).budget.check (tokens : ℤ)
      ((localSifter.modelConfig .expert).estimateCost (tokens : ℤ) 0)).1 = none := by
  have isBudget : (localSifter.newSession (truncateUnder ceiling)).budget =
      { budget :=
          { maxCalls := 5, maxTokens := 200000, maxCost := ceiling.getD 2, maxParallel := 2 } } := by
    cases ceiling <;> rfl
  have isCost : (localSifter.modelConfig .expert).estimateCost (tokens : ℤ) 0 =
      (tokens : ℚ) / 1000000 * (14 / 100) := by
    simp [ModelConfig.estimateCost, modelConfig, SifterConfig.cloudModelConfig, localSifter,
      localConfig]
  have isCheap : (tokens : ℚ) / 1000000 * (14 / 100) ≤ ceiling.getD 2 := by
    have isSmall : (tokens : ℚ) ≤ 2000 := by exact_mod_cast isFew
    linarith
  have inLimit : ¬ 200000 < tokens := by omega
  rw [isBudget, isCost]
  simp [BudgetTracker.check, Budget.wouldExceed, inLimit, not_lt.mpr isCheap]

/-- The analysis is sent as it is: it fits, and nothing is redacted. -/
theorem localSifter_prepared :
    localSifter.prepared .expert (localSifter.analysisMessages truncateTask []) =
      localSifter.analysisMessages truncateTask [] := by
  have isFitted : fitToContext (localSifter.analysisMessages truncateTask [])
      (localSifter.modelConfig .expert) (localSifter.maxOutput .expert) =
      localSifter.analysisMessages truncateTask [] := by
    have isLimit : (localSifter.modelConfig .expert).contextLimit = 64000 := rfl
    have isOutput : localSifter.maxOutput .expert = 8192 := rfl
    rw [fitToContext, isLimit, isOutput, if_neg (by decide)]
    exact fitMessages_of_total_le (totalTokens_analysisMessages_le.trans (by decide))
  have isBound : isCloudBound .expert (localSifter.modelConfig .expert) = true := rfl
  simp only [prepared, isFitted, isBound, if_true]
  exact SecretRedactor.redactModelMessages_disabled rfl _

theorem truncateUnder_letsThrough {ceiling : Option ℚ} (isRoom : 1 / 1000 ≤ ceiling.getD 2) :
    localSifter.LetsThrough (truncateUnder ceiling)
      (buildApprovalRequest (truncateUnder ceiling)
        (localSifter.classification (truncateUnder ceiling)))
      { action := .allowExpertAnalysis } := by
  have sameMessages : localSifter.analysisMessages (truncateUnder ceiling) [] =
      localSifter.analysisMessages truncateTask [] := rfl
  have isAffordable := localSifter_affords isRoom totalTokens_analysisMessages_le
  refine ⟨rfl, ?_⟩
  simp only [buildApprovalRequest_stage, ExpertRefused, sameMessages, localSifter_prepared,
    isAffordable, not_or]
  exact ⟨by rintro ⟨message, ⟨⟩⟩, by decide, by simp⟩

theorem localSifter_letsThrough :
    localSifter.LetsThrough truncateTask
      (buildApprovalRequest truncateTask (localSifter.classification truncateTask))
      { action := .allowExpertAnalysis } :=
  truncateUnder_letsThrough (by norm_num : (1 : ℚ) / 1000 ≤ (none : Option ℚ).getD 2)

/-- The human's answer that allows the analysis is followed by an expert call although
the policy is local-only. -/
theorem allowedAnalysis_breaks_localOnly :
    localSifter.LocalOnly truncateTask ∧
      ∃ events outcome after call,
        (localSifter.run truncateTask).Does (localSifter.newSession truncateTask) events outcome
          after ∧
        .called call ∈ moments events ∧ call.tier = .expert := by
  refine ⟨.inr rfl, ?_⟩
  rcases analysis_reached rfl truncateTask_needed localSifter_letsThrough
    { text := "", model := "deepseek-chat", tier := .expert } { action := .stop } with
    ⟨messages, call, rest, outcome, after, onTier, does⟩
  exact ⟨_, outcome, after, call, does, by simp [moments, momentOf], onTier⟩

/-- A provider that stops whatever is critical, but for the analysis it allows, and
approves what is major. -/
def allowingProvider : AutoApprovalProvider where
  critical := some { action := .allowExpertAnalysis }
  major := some { action := .approve }

/-- In a critical run the implementation request is answered as a major one. -/
theorem implementation_answered_as_major :
    (localSifter.classification truncateTask).level = .critical ∧
      ∃ events outcome after request,
        (localSifter.run truncateTask).Does (localSifter.newSession truncateTask) events outcome
          after ∧
        .asked request (allowingProvider.request request) ∈ moments events ∧
        request.category.atLeast (localSifter.classification truncateTask).level = false ∧
        allowingProvider.request request = allowingProvider.majorAnswer ∧
        allowingProvider.majorAnswer ≠ allowingProvider.criticalAnswer ∧
        ¬ KeepsSeverity (localSifter.classification truncateTask).level (moments events) := by
  refine ⟨truncateTask_level, ?_⟩
  rcases analysis_reached rfl truncateTask_needed localSifter_letsThrough
    { text := "", model := "deepseek-chat", tier := .expert } { action := .approve } with
    ⟨messages, call, rest, outcome, after, onTier, does⟩
  have isMajor (analysis : String) :
      allowingProvider.request (implementRequest .major analysis) = { action := .approve } := rfl
  have isLess : (implementRequest .major "").category.atLeast
      (localSifter.classification truncateTask).level = false := by
    rw [truncateTask_level]
    rfl
  refine ⟨_, outcome, after, implementRequest .major "", does, ?_, isLess, rfl, by decide, ?_⟩
  · rw [isMajor]
    simp [moments, momentOf]
  · intro keeps
    have isSevere := (keeps (implementRequest .major "") (.inr ⟨{ action := .approve }, by
      simp [moments, momentOf]⟩)).1
    rw [isLess] at isSevere
    cases isSevere

end ComputeSifter

end Aa.Sifter
