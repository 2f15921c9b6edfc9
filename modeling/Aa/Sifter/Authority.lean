import Aa.Sifter.Trace

/-!
# Human authority over major decisions

A major or critical decision is in the hands of the human: no model is called before
the human has answered, none after an answer that halts the work, the expert only
after an answer that lets it be asked, and a permission to analyze is not a
permission to go on. The proof goes along the paths of a run: the approval path
leaves a `Cleared` past, which the work and the escalation keep.
-/

namespace Aa.Sifter

open Aa.Library

namespace HumanDecision

/-- The answers that stop the work. -/
def Halts (decision : HumanDecision) : Prop :=
  decision.action = .stop ∨ decision.action = .reject ∨ decision.action = .modify

/-- The answers that approve the work itself. -/
def Approves (decision : HumanDecision) : Prop :=
  decision.action = .approve ∨ decision.action = .chooseOption

/-- The answers after which the expert may be asked. -/
def LetsExpert (decision : HumanDecision) : Prop :=
  decision.Approves ∨ decision.action = .allowExpertAnalysis

theorem Approves.not_halts {decision : HumanDecision} (approves : decision.Approves) :
    ¬ decision.Halts := by
  rcases approves with isApprove | isChoose
  · simp [Halts, isApprove]
  · simp [Halts, isChoose]

theorem not_halts_of_allows {decision : HumanDecision}
    (allows : decision.action = .allowExpertAnalysis) : ¬ decision.Halts := by
  simp [Halts, allows]

end HumanDecision

/-- The human's authority over one call, given what came before it. -/
structure AuthorizedCall (before : List Moment) (call : Call) : Prop where
  answered : ∃ request decision, .asked request decision ∈ before
  notHalted : ∀ request decision, .asked request decision ∈ before → ¬ decision.Halts
  expert : call.tier = .expert →
    ∃ request decision, .asked request decision ∈ before ∧ decision.LetsExpert
  analysis : ∀ request decision, .asked request decision ∈ before → request.stage = .analysis →
    decision.action = .allowExpertAnalysis →
    (call.tier = .expert ∧ (∀ other, .called other ∉ before) ∧
      ∀ request decision, .asked request decision ∈ before → request.stage ≠ .implementation) ∨
    ∃ request second, .asked request second ∈ before ∧ request.stage = .implementation ∧
      second.Approves

/-- Every call of a trace is authorized by what came before it. -/
def HumanAuthority (trace : List Moment) : Prop :=
  ∀ before call after, trace = before ++ .called call :: after → AuthorizedCall before call

/-- What a moment needs of the moments before it. -/
def Authorized (before : List Moment) (moment : Moment) : Prop :=
  ∀ call, moment = .called call → AuthorizedCall before call

theorem humanAuthority_of_guarded {trace : List Moment} (guarded : Guarded Authorized [] trace) :
    HumanAuthority trace := by
  intro before call after isSplit
  have authorized := guarded_iff_split.mp guarded before (.called call) after isSplit call rfl
  rwa [List.nil_append] at authorized

theorem authorized_asked (before : List Moment) (request : ApprovalRequest)
    (decision : HumanDecision) : Authorized before (.asked request decision) :=
  fun _ isCall => nomatch isCall

theorem authorized_unanswered (before : List Moment) (request : ApprovalRequest) :
    Authorized before (.unanswered request) :=
  fun _ isCall => nomatch isCall

/-- A past after which the human's answers let work go on. -/
structure Cleared (past : List Moment) : Prop where
  answered : ∃ request decision, .asked request decision ∈ past
  notHalted : ∀ request decision, .asked request decision ∈ past → ¬ decision.Halts
  analysis : ∀ request decision, .asked request decision ∈ past → request.stage = .analysis →
    decision.action = .allowExpertAnalysis →
    ∃ request second, .asked request second ∈ past ∧ request.stage = .implementation ∧
      second.Approves

namespace Cleared

variable {past : List Moment}

theorem append_calls {holds : Call → Prop} {calls : List Moment} (cleared : Cleared past)
    (areCalls : CallsOnly holds calls) : Cleared (past ++ calls) := by
  have asked_iff {request : ApprovalRequest} {decision : HumanDecision} :
      .asked request decision ∈ past ++ calls ↔ .asked request decision ∈ past := by
    simp [areCalls.not_asked]
  refine ⟨?_, ?_, ?_⟩
  · simpa only [asked_iff] using cleared.answered
  · simpa only [asked_iff] using cleared.notHalted
  · simpa only [asked_iff] using cleared.analysis

theorem append_asked {request : ApprovalRequest} {decision : HumanDecision}
    (cleared : Cleared past) (notAnalysis : request.stage ≠ .analysis)
    (goesOn : ¬ decision.Halts) : Cleared (past ++ [.asked request decision]) := by
  refine ⟨⟨request, decision, by simp⟩, ?_, ?_⟩
  · intro other answer isThere
    rcases List.mem_append.mp isThere with isPast | isNew
    · exact cleared.notHalted other answer isPast
    · cases List.mem_singleton.mp isNew
      exact goesOn
  · intro other answer isThere isAnalysis allows
    rcases List.mem_append.mp isThere with isPast | isNew
    · rcases cleared.analysis other answer isPast isAnalysis allows with
        ⟨later, second, isSecond, isImplementation, approves⟩
      exact ⟨later, second, List.mem_append_left _ isSecond, isImplementation, approves⟩
    · cases List.mem_singleton.mp isNew
      exact absurd isAnalysis notAnalysis

/-- After a cleared past a call is authorized if it is local or the expert was let. -/
theorem authorizedCall {call : Call} (cleared : Cleared past)
    (expert : call.tier = .expert →
      ∃ request decision, .asked request decision ∈ past ∧ decision.LetsExpert) :
    AuthorizedCall past call :=
  ⟨cleared.answered, cleared.notHalted, expert, fun request decision isThere isAnalysis allows =>
    .inr (cleared.analysis request decision isThere isAnalysis allows)⟩

end Cleared

namespace ComputeSifter

variable {sifter : ComputeSifter} {task : Task} {budget : BudgetTracker}

/-! ## The approval path -/

/-- The expert's analysis itself is authorized by the answer that allowed it. -/
theorem authorizedCall_analysis {classification : DecisionClassification}
    {decision : HumanDecision} {call : Call}
    (analyzes : sifter.Analyzes task budget decision call) :
    AuthorizedCall [.asked (buildApprovalRequest task classification) decision] call := by
  refine ⟨⟨_, decision, List.mem_singleton.mpr rfl⟩, ?_, ?_, ?_⟩
  · intro request answer isThere
    cases List.mem_singleton.mp isThere
    exact HumanDecision.not_halts_of_allows analyzes.allows
  · intro _
    exact ⟨_, decision, List.mem_singleton.mpr rfl, .inr analyzes.allows⟩
  · intro request answer isThere _ _
    refine .inl ⟨analyzes.governed.onTier, by simp, ?_⟩
    intro other second isOther
    cases List.mem_singleton.mp isOther
    simp

theorem approvalPath_guarded {classification : DecisionClassification} {path : List Moment}
    {outcome : Except Raised (Option Direction)}
    (approval : sifter.ApprovalPath task budget classification path outcome) :
    Guarded Authorized [] path := by
  have analysed {decision : HumanDecision} {call : Call}
      (analyzes : sifter.Analyzes task budget decision call) :
      Authorized [.asked (buildApprovalRequest task classification) decision] (.called call) := by
    rintro _ ⟨⟩
    exact authorizedCall_analysis analyzes
  cases approval with
  | unanswered raised => exact ⟨authorized_unanswered _ _, trivial⟩
  | answerLost decision raised => exact ⟨authorized_asked _ _ _, trivial⟩
  | halted decision halts => exact ⟨authorized_asked _ _ _, trivial⟩
  | kept decision direction keeps staysLocal => exact ⟨authorized_asked _ _ _, trivial⟩
  | approved decision direction approves notForced => exact ⟨authorized_asked _ _ _, trivial⟩
  | analysisLost decision call raised analyzes =>
      exact ⟨authorized_asked _ _ _, analysed analyzes, trivial⟩
  | implementationUnanswered decision call analysis raised analyzes =>
      exact ⟨authorized_asked _ _ _, analysed analyzes, authorized_unanswered _ _, trivial⟩
  | implementationLost decision second call analysis raised analyzes =>
      exact ⟨authorized_asked _ _ _, analysed analyzes, authorized_asked _ _ _, trivial⟩
  | implementationDeclined decision second call analysis analyzes =>
      exact ⟨authorized_asked _ _ _, analysed analyzes, authorized_asked _ _ _, trivial⟩
  | implementationApproved decision second call analysis direction analyzes approves _ =>
      exact ⟨authorized_asked _ _ _, analysed analyzes, authorized_asked _ _ _, trivial⟩

/-- The approval path leaves a cleared past if it gives a direction. -/
theorem approvalPath_cleared {classification : DecisionClassification} {path : List Moment}
    {direction : Direction}
    (approval : sifter.ApprovalPath task budget classification path (.ok (some direction))) :
    Cleared path := by
  have single {decision : HumanDecision} (goesOn : ¬ decision.Halts)
      (notAllowed : decision.action ≠ .allowExpertAnalysis) :
      Cleared [.asked (buildApprovalRequest task classification) decision] := by
    refine ⟨⟨_, decision, List.mem_singleton.mpr rfl⟩, ?_, ?_⟩
    · intro request answer isThere
      cases List.mem_singleton.mp isThere
      exact goesOn
    · intro request answer isThere _ allows
      cases List.mem_singleton.mp isThere
      exact absurd allows notAllowed
  cases approval with
  | kept decision direction keeps staysLocal =>
      rcases keeps with isMore | isContinue
      · exact single (by simp [HumanDecision.Halts, isMore]) (by simp [isMore])
      · exact single (by simp [HumanDecision.Halts, isContinue]) (by simp [isContinue])
  | approved decision direction approves notForced =>
      refine single (HumanDecision.Approves.not_halts approves) ?_
      rcases approves with isApprove | isChoose
      · simp [isApprove]
      · simp [isChoose]
  | implementationApproved decision second call analysis direction analyzes approves _ =>
      have isSecond : Moment.asked (implementRequest .major analysis) second ∈
          [.asked (buildApprovalRequest task classification) decision, .called call,
            .asked (implementRequest .major analysis) second] := by simp
      refine ⟨⟨_, second, isSecond⟩, ?_, fun _ _ _ _ _ => ⟨_, second, isSecond, rfl, approves⟩⟩
      intro request answer isThere
      simp only [List.mem_cons, List.not_mem_nil, or_false, Moment.asked.injEq, reduceCtorEq,
        false_or] at isThere
      rcases isThere with ⟨_, rfl⟩ | ⟨_, rfl⟩
      · exact HumanDecision.not_halts_of_allows analyzes.allows
      · exact HumanDecision.Approves.not_halts approves

/-- The approval path keeps the work local or contains an answer that lets the expert. -/
theorem approvalPath_local_or_lets {classification : DecisionClassification} {path : List Moment}
    {direction : Direction}
    (approval : sifter.ApprovalPath task budget classification path (.ok (some direction))) :
    direction.forceLocal = true ∨
      ∃ request decision, .asked request decision ∈ path ∧ decision.LetsExpert := by
  cases approval with
  | kept decision direction keeps staysLocal => exact .inl staysLocal
  | approved decision direction approves notForced =>
      exact .inr ⟨_, decision, List.mem_singleton.mpr rfl, .inl approves⟩
  | implementationApproved decision second call analysis direction analyzes approves _ =>
      exact .inr ⟨implementRequest .major analysis, second, by simp, .inl approves⟩

/-! ## Work and escalation under a direction -/

/-- A forced direction is local: its route is, and it permits no escalation by itself. -/
theorem effectivePolicy_of_forceLocal {direction : Direction}
    (staysLocal : direction.forceLocal = true) :
    sifter.effectivePolicy task direction = some "local_only" := by
  simp [effectivePolicy, staysLocal]

theorem routed_local {direction : Direction} {kind : RouteKind}
    (isLocalOnly : (orElse (sifter.effectivePolicy task direction)
      (some sifter.config.routingPolicy)).getD "" = "local_only")
    (isRouted : sifter.Routed task direction kind) : kind = .local := by
  rcases isRouted with ⟨budgetLeft, rfl⟩
  refine PolicyEngine.decide_localOnly ?_ _ _ _
  rw [PolicyEngine.selected, policyEngine, isLocalOnly]
  rfl

theorem escalationAllowedBy_local {direction : Direction}
    (isLocalOnly : (orElse (sifter.effectivePolicy task direction)
      (some sifter.config.routingPolicy)).getD "" = "local_only") :
    sifter.escalationAllowedBy task direction = false := by
  simp [escalationAllowedBy, cloudPermitted, isLocalOnly]

theorem escalationPath_guarded {asks allowed : Bool} {past escalation : List Moment}
    (cleared : Cleared past)
    (lets : allowed = true →
      ∃ request decision, .asked request decision ∈ past ∧ decision.LetsExpert)
    (escalates : sifter.EscalationPath asks allowed escalation) :
    Guarded Authorized past escalation := by
  cases escalates with
  | silent => trivial
  | direct call isAllowed governed =>
      refine ⟨?_, trivial⟩
      rintro _ ⟨⟩
      exact cleared.authorizedCall fun _ => lets isAllowed
  | unanswered isAsked => exact ⟨authorized_unanswered _ _, trivial⟩
  | answered decision isAsked => exact ⟨authorized_asked _ _ _, trivial⟩
  | consulted decision call isAsked allows governed =>
      refine ⟨authorized_asked _ _ _, ?_, trivial⟩
      rintro _ ⟨⟩
      have consulted : Cleared (past ++ [.asked escalationRequest decision]) :=
        cleared.append_asked (by simp)
          (HumanDecision.not_halts_of_allows allows)
      exact consulted.authorizedCall fun _ => ⟨escalationRequest, decision, by simp, .inr allows⟩

theorem workPath_guarded {direction : Direction} {past work : List Moment} {verified : Prop}
    (cleared : Cleared past)
    (localOrLets : direction.forceLocal = true ∨
      ∃ request decision, .asked request decision ∈ past ∧ decision.LetsExpert)
    (works : sifter.WorkPath task direction verified work) : Guarded Authorized past work := by
  rcases works with ⟨kind, calls, escalation, isRouted, areCalls, escalates, _⟩
  have isLocalOnly (staysLocal : direction.forceLocal = true) :
      (orElse (sifter.effectivePolicy task direction)
        (some sifter.config.routingPolicy)).getD "" = "local_only" := by
    rw [effectivePolicy_of_forceLocal staysLocal]
    rfl
  refine guarded_append.mpr ⟨?_, ?_⟩
  · refine areCalls.guarded fun before call beforeCalls onRoute => ?_
    rintro _ ⟨⟩
    refine (cleared.append_calls beforeCalls).authorizedCall fun isExpert => ?_
    rcases localOrLets with staysLocal | ⟨request, decision, isThere, letsExpert⟩
    · exact absurd (routed_local (isLocalOnly staysLocal) isRouted) (onRoute isExpert).1
    · exact ⟨request, decision, List.mem_append_left _ isThere, letsExpert⟩
  · refine escalationPath_guarded (cleared.append_calls areCalls) (fun isAllowed => ?_) escalates
    rcases localOrLets with staysLocal | ⟨request, decision, isThere, letsExpert⟩
    · rw [escalationAllowedBy_local (isLocalOnly staysLocal)] at isAllowed
      cases isAllowed
    · exact ⟨request, decision, List.mem_append_left _ isThere, letsExpert⟩

/-! ## A critical task of a local-only sifter that the human stops -/

def localConfig : SifterConfig where
  routingPolicy := "local_only"
  redactSecrets := false

def localSifter : ComputeSifter where
  config := localConfig
  registry := buildRegistry localConfig
  rules := { unicode := PyUnicode.ascii }

def truncateTask : Task where
  prompt := "truncate the audit table"

theorem localConfig_safe : localConfig.Safe :=
  ⟨rfl, rfl, by decide, by norm_num [localConfig]⟩

theorem truncateTask_level : (localSifter.classification truncateTask).level = .critical := by
  decide +kernel

theorem truncateTask_needed :
    (localSifter.classification truncateTask).requiresHumanApproval = true := by
  refine DecisionGate.requiresHumanApproval_of_isMajor localConfig_safe ?_
  change (localSifter.classification truncateTask).level.atLeast .major = true
  rw [truncateTask_level]
  rfl

theorem requireApproval_does (noHistory : sifter.hasHistory = false) (request : ApprovalRequest)
    (decision : HumanDecision) (before : Session) :
    (sifter.requireApproval request).Does before [⟨.approval request, .ok decision⟩]
      (.ok decision) before := by
  have asks : (Coroutine.perform (Op.approval request) id : Run HumanDecision).Does before
      [⟨.approval request, .ok decision⟩] (.ok decision) before :=
    Coroutine.does_perform_answer rfl
  refine Coroutine.does_bind.mpr (.inl ⟨decision, before, _, [], asks, ?_, rfl⟩)
  rw [noHistory]
  exact Coroutine.does_pure.mpr ⟨rfl, rfl, rfl⟩

def stoppedEvents : List (Event Op Op.Answer) :=
  [⟨.approval (buildApprovalRequest truncateTask (localSifter.classification truncateTask)),
    .ok { action := .stop }⟩]

theorem moments_stoppedEvents : moments stoppedEvents =
    [.asked (buildApprovalRequest truncateTask (localSifter.classification truncateTask))
      { action := .stop }] := rfl

theorem stoppedTask_does : ∃ outcome after,
    (localSifter.run truncateTask).Does (localSifter.newSession truncateTask) stoppedEvents outcome
      after := by
  let noted : Session :=
    { localSifter.newSession truncateTask with
      approvals := [{ stage := .analysis, action := .stop, selectedOptions := [] }]
      usage := { humanApprovalRequests := 1, majorDecisions := 1 } }
  have deciding : (localSifter.handleMajorDecision truncateTask
      (localSifter.classification truncateTask)).Does (localSifter.newSession truncateTask)
      stoppedEvents (.ok none) noted := by
    refine Coroutine.does_bind_ok (requireApproval_does rfl _ { action := .stop } _) ?_
    refine Coroutine.does_bind_ok (Coroutine.does_modify.mpr ⟨rfl, rfl, rfl⟩) ?_
    exact Coroutine.does_pure.mpr ⟨rfl, rfl, rfl⟩
  have finishing : ∃ result, (finish "stopped"
      "No action taken. The decision requires human authorization."
      (localSifter.classification truncateTask) (localSifter.assessment truncateTask)
      (some "awaiting human decision")).Does noted [] (.ok result) noted :=
    ⟨_, Coroutine.does_bind_ok (Coroutine.does_read.mpr ⟨rfl, rfl, rfl⟩)
      (Coroutine.does_pure.mpr ⟨rfl, rfl, rfl⟩)⟩
  rcases finishing with ⟨result, finishing⟩
  refine ⟨.ok result, noted, Coroutine.does_catching.mpr (.inl ⟨result, ?_, rfl⟩)⟩
  rw [runBody, if_pos truncateTask_needed]
  exact Coroutine.does_bind_ok deciding finishing

/-! ## The authority of the human -/

/-- The human has authority over every run whose prompt is classified major or
critical, under a validated configuration. -/
theorem human_authority (validated : sifter.config.Safe)
    (isMajor : (sifter.classification task).level = .major ∨
      (sifter.classification task).level = .critical)
    {events : List (Event Op Op.Answer)} {outcome : Except Raised SifterResult} {after : Session}
    (does : (sifter.run task).Does (sifter.newSession task) events outcome after) :
    HumanAuthority (moments events) := by
  have isNeeded : (sifter.classification task).requiresHumanApproval = true := by
    refine DecisionGate.requiresHumanApproval_of_isMajor validated ?_
    change (sifter.classification task).level.atLeast .major = true
    rcases isMajor with level | level
    · rw [level]
      rfl
    · rw [level]
      rfl
  refine humanAuthority_of_guarded ?_
  have isPath := run_moments does
  generalize moments events = trace, Verified events = verified,
    (sifter.newSession task).budget = budget at isPath ⊢
  cases isPath with
  | ended path outcome needed approval => exact approvalPath_guarded approval
  | directed path work direction needed approval works =>
      refine guarded_append.mpr ⟨approvalPath_guarded approval, ?_⟩
      exact workPath_guarded (approvalPath_cleared approval)
        (approvalPath_local_or_lets approval) works
  | undirected work notNeeded works =>
      rw [isNeeded] at notNeeded
      cases notNeeded

theorem stoppedTask_human_authority : HumanAuthority (moments stoppedEvents) := by
  rcases stoppedTask_does with ⟨outcome, after, does⟩
  exact human_authority localConfig_safe (.inr truncateTask_level) does

end ComputeSifter

end Aa.Sifter
