import Aa.Sifter.ApprovedRun
import Aa.Sifter.ContextWindow

/-!
# Human constraints in the calls of a run

A constraint attached to an answer stands in the messages of every later call that compares,
executes or diagnoses the work. The messages for a plan are built from the prompt alone, and an
answer that allows an escalation does not hand its constraints on.
-/

namespace Aa.Sifter

open Aa.Library

/-- Redacting a content leaves the text where it stands in it. -/
def SecretRedactor.Spares (redactor : SecretRedactor) (text : String) (content : List Char) : Prop :=
  text.toList <:+: content → text.toList <:+: (redactor.redact content).text

/-- The text stands in one of the messages. -/
def Stands (text : String) (messages : List (Message Char)) : Prop :=
  ∃ message ∈ messages, text.toList <:+: message.content

/-! ## The built messages -/

theorem stands_in_bullets {item : String} {items : List String} (isItem : item ∈ items) :
    item.toList <:+: (bullets items).toList := by
  have isBullet : ("- " ++ item) ∈ items.map ("- " ++ ·) := List.mem_map_of_mem isItem
  have standing := Py.infix_join "\n" isBullet
  rw [String.toList_append] at standing
  exact (List.suffix_append _ _).isInfix.trans standing

theorem stands_in_sections {constraint : String} {constraints : List String}
    (isConstraint : constraint ∈ constraints) (approvedDecisions : List String) :
    ∃ part ∈ authoritativeSections constraints approvedDecisions,
      constraint.toList <:+: part.toList := by
  have notEmpty : constraints.isEmpty = false := by
    cases constraints with
    | nil => cases isConstraint
    | cons first rest => rfl
  refine ⟨"HUMAN CONSTRAINTS (authoritative, must not be reinterpreted as optional):\n" ++
    bullets constraints, ?_, ?_⟩
  · simp [authoritativeSections, notEmpty]
  · rw [String.toList_append]
    exact (stands_in_bullets isConstraint).trans (List.suffix_append _ _).isInfix

theorem stands_in_prompt {constraint : String} (packet : EscalationPacket)
    (isConstraint : constraint ∈ packet.humanConstraints) :
    constraint.toList <:+: packet.toPrompt.toList := by
  rcases stands_in_sections isConstraint packet.approvedDecisions with
    ⟨part, isPart, standing⟩
  refine standing.trans (Py.infix_join _ ?_)
  exact List.mem_append_right _ isPart

namespace ComputeSifter

variable {sifter : ComputeSifter} {task : Task} {constraint : String} {constraints : List String}

theorem executionMessages_stands {approvedDecisions : List String}
    (isConstraint : constraint ∈ constraints) :
    Stands constraint (executionMessages task constraints approvedDecisions) := by
  rcases stands_in_sections isConstraint approvedDecisions with
    ⟨part, isPart, standing⟩
  have notEmpty : (authoritativeSections constraints approvedDecisions).isEmpty = false := by
    cases isSections : authoritativeSections constraints approvedDecisions with
    | nil =>
        rw [isSections] at isPart
        cases isPart
    | cons first rest => rfl
  refine ⟨_, List.mem_append_left _ (List.mem_append_left _ (List.mem_singleton_self _)), ?_⟩
  simp only [notEmpty, Message.system, Bool.false_eq_true, if_false, String.toList_append]
  exact (standing.trans (Py.infix_join _ isPart)).trans (List.suffix_append _ _).isInfix

/-- The messages of every call but the planning and the reviewing ones hold the constraints they
are built from. -/
theorem Outgoing.stands {tier : Tier} {purpose : Purpose} {prompts : List String}
    {messages : List (Message Char)}
    (outgoing : sifter.Outgoing task constraints tier purpose prompts messages)
    (isConstraint : constraint ∈ constraints) (notPlan : purpose ≠ .cloudPlan)
    (notReview : purpose ≠ .cloudReview)
    (spares : ∀ prompt ∈ prompts, sifter.redactor.Spares constraint prompt.toList) :
    Stands constraint messages := by
  cases outgoing with
  | analysis =>
      have standing := spares _ (List.mem_singleton_self _)
        (stands_in_prompt (analysisPacket task constraints) isConstraint)
      refine ⟨_, List.mem_cons_of_mem _ (List.mem_singleton_self _), ?_⟩
      simp only [Message.user, String.toList_append, String.toList_ofList]
      exact standing.trans (List.prefix_append _ _).isInfix
  | planned => exact absurd rfl notPlan
  | executed approvedDecisions => exact executionMessages_stands isConstraint
  | attempted approvedDecisions attempt answer =>
      unfold attemptMessages
      split
      · rcases executionMessages_stands isConstraint with ⟨message, isMessage, standing⟩
        exact ⟨message, List.mem_append_left _ isMessage, standing⟩
      · exact executionMessages_stands isConstraint
  | reviewed plan answer => exact absurd rfl notReview
  | escalated packet ofConstraints =>
      have standing := spares _ (List.mem_singleton_self _)
        (stands_in_prompt packet (ofConstraints.symm ▸ isConstraint))
      refine ⟨_, List.mem_cons_of_mem _ (List.mem_singleton_self _), ?_⟩
      simpa only [Message.user, String.toList_ofList] using standing

/-- The messages are within the budget that they would be fitted to. -/
def Fits (sifter : ComputeSifter) (tier : Tier) (messages : List (Message Char)) : Prop :=
  0 < (sifter.modelConfig tier).contextLimit →
    (totalTokens messages : ℤ) ≤
      max 1024 ((sifter.modelConfig tier).contextLimit - max 0 (sifter.maxOutput tier))

theorem fitted_of_fits {tier : Tier} {messages : List (Message Char)}
    (fits : sifter.Fits tier messages) : sifter.fitted tier messages = messages := by
  rw [fitted, fitToContext]
  split
  · rfl
  · rename_i isLimited
    have within := fits (by omega)
    exact fitMessages_of_total_le (by omega)

/-- Preparing messages that fit loses nothing that the redactor spares. -/
theorem prepared_stands {tier : Tier} {messages : List (Message Char)}
    (fits : sifter.Fits tier messages)
    (spares : ∀ message ∈ messages, sifter.redactor.Spares constraint message.content)
    (stands : Stands constraint messages) : Stands constraint (sifter.prepared tier messages) := by
  have isPrepared : sifter.prepared tier messages =
      if isCloudBound tier (sifter.modelConfig tier) then
        (sifter.redactor.redactModelMessages (sifter.fitted tier messages)).1
      else sifter.fitted tier messages := rfl
  rw [isPrepared, fitted_of_fits fits]
  split
  · rcases stands with ⟨message, isMessage, standing⟩
    exact ⟨_, List.mem_map_of_mem isMessage, spares message isMessage standing⟩
  · exact stands

/-! ## The answers of a run -/

/-- The constraint is attached to an answer, other than one that allows an escalation. -/
def Attached (constraint : String) (events : List (Event Op Op.Answer)) : Prop :=
  ∃ (request : ApprovalRequest) (decision : HumanDecision),
    ⟨.approval request, .ok decision⟩ ∈ events ∧ request.stage ≠ .escalation ∧
      constraint ∈ decision.constraints

/-- The messages of the event, if it is a call, are built from the constraint among others. -/
def Writes (sifter : ComputeSifter) (task : Task) (constraint : String)
    (event : Event Op Op.Answer) : Prop :=
  ∃ constraints stage, constraint ∈ constraints ∧ sifter.Delivers task constraints stage event

/-- The event is built from every constraint attached before it. -/
def Remembers (sifter : ComputeSifter) (task : Task) (past : List (Event Op Op.Answer))
    (event : Event Op Op.Answer) : Prop :=
  ∀ constraint, Attached constraint past → sifter.Writes task constraint event

variable {before after : Session} {past events first second : List (Event Op Op.Answer)}
  {stage : Stage}

theorem attached_append :
    Attached constraint (first ++ second) ↔ Attached constraint first ∨ Attached constraint second := by
  simp only [Attached, List.mem_append, or_and_right, exists_or]

/-- Nothing is attached where only an escalation is asked for. -/
theorem not_attached_of_delivers
    (delivers : ∀ event ∈ events, sifter.Delivers task constraints .escalation event) :
    ¬ Attached constraint events := by
  rintro ⟨request, decision, isThere, notEscalation, _⟩
  exact notEscalation ((delivers _ isThere).asks request _ rfl)

/-- Events built from constraints that include all that are attached. -/
theorem guarded_of_delivers
    (delivers : ∀ event ∈ events, sifter.Delivers task constraints stage event)
    (included : ∀ constraint, Attached constraint (past ++ events) → constraint ∈ constraints) :
    Guarded (sifter.Remembers task) past events := by
  refine guarded_iff_split.mpr ?_
  rintro earlier event later rfl constraint attached
  refine ⟨constraints, stage, included constraint ?_, delivers event (by simp)⟩
  rw [← List.append_assoc]
  exact attached_append.mpr (.inl attached)

/-- Events that are no calls. -/
theorem guarded_of_quiet
    (quiet : ∀ constraints, ∀ event ∈ events, sifter.Delivers task constraints stage event) :
    Guarded (sifter.Remembers task) past events := by
  refine guarded_iff_split.mpr ?_
  rintro earlier event later rfl constraint _
  exact ⟨[constraint], stage, List.mem_singleton_self _, quiet _ event (by simp)⟩

theorem requireApproval_guarded {request : ApprovalRequest}
    {outcome : Except Raised HumanDecision}
    (does : (sifter.requireApproval request).Does before events outcome after) :
    Guarded (sifter.Remembers task) past events :=
  guarded_of_quiet fun _ => requireApproval_delivers rfl _ _ _ _ does

theorem requireApproval_attached {request : ApprovalRequest} {decision : HumanDecision}
    (does : (sifter.requireApproval request).Does before events (.ok decision) after)
    (attached : Attached constraint events) : constraint ∈ decision.constraints := by
  rcases attached with ⟨other, answered, isThere, _, isConstraint⟩
  rcases Coroutine.does_bind.mp does with ⟨_, _, _, _, asking, rest, rfl⟩ | ⟨_, _, no⟩
  · rcases Coroutine.does_perform.mp asking with ⟨reply, rfl, isReply, _⟩
    have isAnswered (recorded : (⟨.approval other, .ok answered⟩ : Event Op Op.Answer) ∉ _) :=
      (List.mem_append.mp isThere).resolve_right recorded
    split at rest
    · rcases Coroutine.does_bind.mp rest with ⟨_, _, _, _, recording, returning, rfl⟩ | ⟨_, _, no⟩
      · rcases Coroutine.does_perform.mp recording with ⟨_, rfl, _, _⟩
        rcases Coroutine.does_pure.mp returning with ⟨rfl, isDecision, _⟩
        cases isDecision
        have isAsked := isAnswered (by simp)
        cases List.mem_singleton.mp isAsked
        cases isReply
        exact isConstraint
      · cases no
    · rcases Coroutine.does_pure.mp rest with ⟨rfl, isDecision, _⟩
      cases isDecision
      have isAsked := isAnswered (by simp)
      cases List.mem_singleton.mp isAsked
      cases isReply
      exact isConstraint
  · cases no

theorem directed_of_returns {isApproved : Prop} [Decidable isApproved] {given : Direction}
    {outcome : Except Raised (Option Direction)}
    (deciding : (if isApproved then pure (some given) else pure none :
      Run (Option Direction)).Does before events outcome after) :
    events = [] ∧ ∀ direction, outcome = .ok (some direction) → direction = given := by
  split at deciding
  · rcases Coroutine.does_pure.mp deciding with ⟨noEvents, rfl, _⟩
    refine ⟨noEvents, ?_⟩
    rintro direction ⟨⟩
    rfl
  · rcases Coroutine.does_pure.mp deciding with ⟨noEvents, rfl, _⟩
    refine ⟨noEvents, ?_⟩
    rintro direction ⟨⟩

/-- The analysis is asked for with the constraints of the first answer, and the direction has
those of both. -/
theorem analysed_remembers {decision : HumanDecision} {outcome : Except Raised (Option Direction)}
    (does : (sifter.analysed task decision).Does before events outcome after)
    (included : ∀ constraint, Attached constraint past → constraint ∈ decision.constraints) :
    Guarded (sifter.Remembers task) past events ∧
      ∀ direction, outcome = .ok (some direction) → ∀ constraint,
        Attached constraint (past ++ events) → constraint ∈ direction.constraints := by
  have analysisGuarded {early : List (Event Op Op.Answer)}
      {ended : Except Raised (String × DecisionLevel)} {middle : Session}
      (analysing : (sifter.expertAnalysis task decision.constraints).Does before early ended middle) :
      Guarded (sifter.Remembers task) past early ∧ ∀ constraint, ¬ Attached constraint early := by
    have delivers : ∀ event ∈ early,
        sifter.Delivers task decision.constraints .escalation event :=
      expertAnalysis_delivers _ _ _ _ analysing
    refine ⟨guarded_of_delivers delivers fun constraint attached => ?_, fun constraint => ?_⟩
    · exact included constraint ((attached_append.mp attached).resolve_right
        (not_attached_of_delivers delivers))
    · exact not_attached_of_delivers delivers
  rcases Coroutine.does_bind.mp does with ⟨analysis, _, early, _, analysing, rest, rfl⟩ |
      ⟨_, analysing, rfl⟩
  · rcases analysisGuarded analysing with ⟨guarded, notEarly⟩
    rcases Coroutine.does_bind.mp rest with ⟨_, _, _, _, counting, approving, rfl⟩ | ⟨_, counting, _⟩
    · rcases Coroutine.does_modify.mp counting with ⟨rfl, _, _⟩
      rw [List.nil_append]
      rcases Coroutine.does_bind.mp approving with ⟨second, _, _, _, asking, answered, rfl⟩ |
          ⟨_, asking, rfl⟩
      · rcases Coroutine.does_bind.mp answered with ⟨_, _, _, _, noting, deciding, rfl⟩ |
            ⟨_, noting, _⟩
        · rcases Coroutine.does_modify.mp noting with ⟨rfl, _, _⟩
          rcases directed_of_returns deciding with ⟨rfl, isDirection⟩
          rw [List.nil_append, List.append_nil]
          refine ⟨guarded_append.mpr ⟨guarded, requireApproval_guarded asking⟩, ?_⟩
          intro direction isDirected constraint attached
          obtain rfl := isDirection direction isDirected
          refine List.mem_append.mpr ?_
          rcases attached_append.mp attached with isPast | isHere
          · exact .inl (included constraint isPast)
          · rcases attached_append.mp isHere with isEarly | isSecond
            · exact absurd isEarly (notEarly constraint)
            · exact .inr (requireApproval_attached asking isSecond)
        · cases (Coroutine.does_modify.mp noting).2.1
      · refine ⟨guarded_append.mpr ⟨guarded, requireApproval_guarded asking⟩, ?_⟩
        rintro direction ⟨⟩
    · cases (Coroutine.does_modify.mp counting).2.1
  · refine ⟨(analysisGuarded analysing).1, ?_⟩
    rintro direction ⟨⟩

/-- A first answer that is all the human is asked for. -/
theorem returned_remembers {decision : HumanDecision} {given : Option Direction}
    {outcome : Except Raised (Option Direction)}
    (guarded : Guarded (sifter.Remembers task) [] first)
    (attaches : ∀ constraint, Attached constraint first → constraint ∈ decision.constraints)
    (includes : ∀ direction, given = some direction → ∀ constraint ∈ decision.constraints,
      constraint ∈ direction.constraints)
    (returning : (pure given : Run (Option Direction)).Does before second outcome after) :
    Guarded (sifter.Remembers task) [] (first ++ second) ∧
      ∀ direction, outcome = .ok (some direction) → ∀ constraint,
        Attached constraint (first ++ second) → constraint ∈ direction.constraints := by
  rcases Coroutine.does_pure.mp returning with ⟨rfl, rfl, _⟩
  rw [List.append_nil]
  refine ⟨guarded, fun direction isDirected constraint attached => ?_⟩
  exact includes direction (Except.ok.inj isDirected) constraint (attaches constraint attached)

theorem handleMajorDecision_remembers {classification : DecisionClassification}
    {outcome : Except Raised (Option Direction)}
    (does : (sifter.handleMajorDecision task classification).Does before events outcome after) :
    Guarded (sifter.Remembers task) [] events ∧
      ∀ direction, outcome = .ok (some direction) → ∀ constraint,
        Attached constraint events → constraint ∈ direction.constraints := by
  rcases Coroutine.does_bind.mp does with ⟨decision, _, early, _, asking, rest, rfl⟩ |
      ⟨_, asking, rfl⟩
  · have guarded : Guarded (sifter.Remembers task) [] early := requireApproval_guarded asking
    rcases Coroutine.does_bind.mp rest with ⟨_, _, _, _, noting, deciding, rfl⟩ | ⟨_, noting, _⟩
    · rcases Coroutine.does_modify.mp noting with ⟨rfl, _, _⟩
      rw [List.nil_append]
      have attaches (constraint : String) (attached : Attached constraint early) :
          constraint ∈ decision.constraints := requireApproval_attached asking attached
      split at deciding
      · exact returned_remembers guarded attaches (by simp) deciding
      · exact returned_remembers guarded attaches (by simp) deciding
      · exact returned_remembers guarded attaches (by simp) deciding
      · exact returned_remembers guarded attaches (by simp) deciding
      · exact returned_remembers guarded attaches (by simp) deciding
      · refine returned_remembers guarded attaches ?_ deciding
        rintro _ ⟨⟩ constraint isThere
        exact List.mem_append_left _ isThere
      · refine returned_remembers guarded attaches ?_ deciding
        rintro _ ⟨⟩ constraint isThere
        exact List.mem_append_left _ isThere
      · rcases analysed_remembers deciding attaches with ⟨laterGuarded, includes⟩
        exact ⟨guarded_append.mpr ⟨guarded, laterGuarded⟩, includes⟩
    · cases (Coroutine.does_modify.mp noting).2.1
  · refine ⟨requireApproval_guarded asking, ?_⟩
    rintro direction ⟨⟩

theorem finish_guarded {status answer : String} {classification : DecisionClassification}
    {assessment : PreflightAssessment} {blockedReason route : Option String}
    {direction : Direction} {outcome : Except Raised SifterResult}
    (does : (finish status answer classification assessment blockedReason route direction).Does
      before events outcome after) : Guarded (sifter.Remembers task) past events := by
  rw [finish_events does]
  trivial

theorem runBody_remembers {outcome : Except Raised SifterResult}
    (does : (sifter.runBody task).Does before events outcome after) :
    Guarded (sifter.Remembers task) [] events := by
  simp only [runBody] at does
  split at does
  · rcases Coroutine.does_bind.mp does with ⟨direction, _, early, _, deciding, rest, rfl⟩ |
        ⟨_, deciding, rfl⟩
    · rcases handleMajorDecision_remembers deciding with ⟨guarded, includes⟩
      refine guarded_append.mpr ⟨guarded, ?_⟩
      cases direction with
      | none => exact finish_guarded rest
      | some direction =>
          have delivers := carryOut_delivers direction _ _ _ _ rest
          refine guarded_of_delivers delivers fun constraint attached => ?_
          have isEarly : Attached constraint early :=
            (attached_append.mp attached).resolve_right (not_attached_of_delivers delivers)
          exact includes direction rfl constraint isEarly
    · exact (handleMajorDecision_remembers deciding).1
  · have delivers := carryOut_delivers {} _ _ _ _ does
    refine guarded_of_delivers delivers fun constraint attached => ?_
    exact absurd attached (not_attached_of_delivers delivers)

theorem run_remembers {outcome : Except Raised SifterResult}
    (does : (sifter.run task).Does before events outcome after) :
    Guarded (sifter.Remembers task) [] events := by
  rcases Coroutine.does_catching.mp does with ⟨_, running, _⟩ |
      ⟨raised, _, _, _, running, handling, rfl⟩
  · exact runBody_remembers running
  · refine guarded_append.mpr ⟨runBody_remembers running, ?_⟩
    cases raised with
    | budgetExceeded exceeded => exact finish_guarded handling
    | providerError message => exact finish_guarded handling
    | other message =>
        rw [(Coroutine.does_raise.mp handling).1]
        trivial

theorem approved_spares (text : String) (content : List Char) :
    approvedSifter.redactor.Spares text content := by
  intro standing
  rwa [SecretRedactor.redact_disabled rfl]

theorem approved_plan_fits : approvedSifter.Fits .expert (planMessages truncateTask) := by
  have few : totalTokens (planMessages truncateTask) ≤ 1024 := by decide +kernel
  intro _
  exact (Int.ofNat_le.mpr few).trans (le_max_left _ _)

theorem planCall_messages : planCall.messages = planMessages truncateTask := by
  have isFitted := fitted_of_fits approved_plan_fits
  exact (prepared_eq_fitted (.inr rfl)).trans isFitted

end ComputeSifter

end Aa.Sifter
