import Aa.Sifter.ApprovedRun

/-!
# Verified work

A run that completes without an escalation ends with work that was verified and passed. A
diagnosis obtained by an escalation completes the run as well, and is never verified.
-/

namespace Aa.Sifter

open Aa.Library

/-- Calls whose text is work for the answer. -/
def Purpose.isWork : Purpose → Bool
  | .localExecute | .cloudExecute | .cloudEscalation => true
  | .expertAnalysis | .cloudPlan | .cloudReview | .inference => false

namespace ComputeSifter

variable {sifter : ComputeSifter} {task : Task} {before after : Session}
  {events first second : List (Event Op Op.Answer)}

/-- The text of a call that produced work. -/
def workOf (event : Event Op Op.Answer) : Option String :=
  match event with
  | ⟨.generate call, .ok result⟩ => if call.purpose.isWork then some result.text else none
  | _ => none

/-- A verification of the text that passed. -/
def Accepts (text : String) (event : Event Op Op.Answer) : Prop :=
  ∃ verification : VerificationResult,
    event = ⟨.verify text, .ok verification⟩ ∧ verification.passed = true

/-- The last work was followed by a verification of it that passed. -/
def WorkAccepted (events : List (Event Op Op.Answer)) : Prop :=
  ∃ earlier work text later, events = earlier ++ work :: later ∧ workOf work = some text ∧
    (∀ event ∈ later, workOf event = none) ∧ ∃ event ∈ later, Accepts text event

/-- Every call is for one of the purposes. -/
def Purposed (allowed : Purpose → Prop) (event : Event Op Op.Answer) : Prop :=
  ∀ call answer, event = ⟨.generate call, answer⟩ → allowed call.purpose

/-! ## Accepted work -/

theorem workOf_of_purposed {event : Event Op Op.Answer}
    (purposed : Purposed (fun purpose => purpose.isWork = false) event) : workOf event = none := by
  rcases event with ⟨op, answer⟩
  cases op with
  | generate call =>
      cases answer with
      | ok result => simp [workOf, purposed call _ rfl]
      | error raised => rfl
  | approval request => rfl
  | recordApproval stage decision => rfl
  | budgetCheck tokens cost exceeded => rfl
  | verify text => rfl

theorem WorkAccepted.append_left (accepted : WorkAccepted second) :
    WorkAccepted (first ++ second) := by
  rcases accepted with ⟨earlier, work, text, later, rfl, isWork, noWork, isAccepted⟩
  exact ⟨first ++ earlier, work, text, later, by simp, isWork, noWork, isAccepted⟩

theorem WorkAccepted.append_right (accepted : WorkAccepted first)
    (noWork : ∀ event ∈ second, workOf event = none) : WorkAccepted (first ++ second) := by
  rcases accepted with ⟨earlier, work, text, later, rfl, isWork, noLater, event, isThere, accepts⟩
  refine ⟨earlier, work, text, later ++ second, by simp, isWork, ?_, event, ?_, accepts⟩
  · intro other isOther
    rcases List.mem_append.mp isOther with isLater | isSecond
    · exact noLater other isLater
    · exact noWork other isSecond
  · exact List.mem_append_left _ isThere

/-- Work at the end is not accepted. -/
theorem not_workAccepted {work : Event Op Op.Answer} {text : String}
    (isWork : workOf work = some text) : ¬ WorkAccepted (events ++ [work]) := by
  rintro ⟨earlier, other, _, later, isSplit, _, noWork, event, isThere, _⟩
  rcases List.eq_nil_or_concat later with rfl | ⟨between, last, rfl⟩
  · cases isThere
  · have isEnd : events ++ [work] = (earlier ++ other :: between) ++ [last] := by
      simpa using isSplit
    have isLast : work = last := List.singleton_injective (List.append_inj' isEnd rfl).2
    have isNone := noWork last (by simp)
    rw [← isLast, isWork] at isNone
    cases isNone

/-- A call for work and a verification of what it returned, which passed. -/
theorem workAccepted_of_returned {tier : Tier} {messages : List (Message Char)} {purpose : Purpose}
    {answer : String} {middle final : Session} {verification : VerificationResult}
    (isWork : purpose.isWork = true)
    (calling : (sifter.callTier tier messages purpose).Does before first (.ok answer) middle)
    (verifying : (verify answer).Does after second (.ok verification) final)
    (passed : verification.passed = true) : WorkAccepted (first ++ second) := by
  rcases callTier_returned calling with ⟨call, result, checks, sends, _, rfl, rfl⟩
  rcases Coroutine.does_perform.mp verifying with ⟨reply, rfl, isReply, _⟩
  cases isReply
  refine ⟨checks, ⟨.generate call, .ok result⟩, result.text, _, List.append_assoc _ _ _, ?_, ?_, ?_⟩
  · simp [workOf, sends.purpose, isWork]
  · simp [workOf]
  · exact ⟨_, List.mem_singleton_self _, verification, rfl, passed⟩

/-! ## The work on the route -/

theorem tryLocally_returned {messages : List (Message Char)} {answer : String}
    (does : (sifter.tryLocally messages).Does before events (.ok (.ok answer)) after) :
    (sifter.callTier .local messages .localExecute).Does before events (.ok answer) after := by
  rcases Coroutine.does_catching.mp does with ⟨_, body, isAnswer⟩ | ⟨raised, _, _, _, _, handling, _⟩
  · cases isAnswer
    rcases Coroutine.does_bind.mp body with ⟨text, _, _, _, calling, returning, rfl⟩ | ⟨_, _, no⟩
    · rcases Coroutine.does_pure.mp returning with ⟨rfl, isAnswer, rfl⟩
      cases isAnswer
      rwa [List.append_nil]
    · cases no
  · cases raised with
    | providerError message => cases (Coroutine.does_pure.mp handling).2.1
    | budgetExceeded exceeded => cases (Coroutine.does_raise.mp handling).2.1
    | other message => cases (Coroutine.does_raise.mp handling).2.1

/-- The induction is on the attempts that remain; until one passes, the execution has not. -/
theorem attemptLocally_accepted {base : List (Message Char)} {remaining attempt : ℕ}
    {execution result : Execution} (notYet : execution.verification.passed = false)
    (does : (sifter.attemptLocally base remaining attempt execution).Does before events
      (.ok result) after) (passed : result.verification.passed = true) : WorkAccepted events := by
  induction remaining generalizing before events attempt execution with
  | zero =>
      cases (Coroutine.does_pure.mp does).2.1
      rw [notYet] at passed
      cases passed
  | succ remaining ih =>
      simp only [attemptLocally] at does
      rcases Coroutine.does_bind.mp does with ⟨tried, _, _, _, trying, rest, rfl⟩ | ⟨_, _, no⟩
      · cases tried with
        | error message =>
            apply WorkAccepted.append_left
            refine ih ?_ rest
            exact notYet
        | ok answer =>
            rcases Coroutine.does_bind.mp rest with ⟨checked, _, _, _, verifying, going, rfl⟩ |
                ⟨_, _, no⟩
            · split at going
              · rename_i isPass
                rcases Coroutine.does_pure.mp going with ⟨rfl, _, _⟩
                rw [List.append_nil]
                exact workAccepted_of_returned rfl (tryLocally_returned trying) verifying isPass
              · rename_i isFailure
                rcases Coroutine.does_bind.mp going with ⟨_, _, _, _, _, again, rfl⟩ | ⟨_, _, no⟩
                · apply WorkAccepted.append_left
                  apply WorkAccepted.append_left
                  apply WorkAccepted.append_left
                  exact ih (by simpa using isFailure) again
                · cases no
            · cases no
      · cases no

theorem executeCloud_accepted {base : List (Message Char)} {result : Execution}
    (does : (sifter.executeCloud base).Does before events (.ok result) after)
    (passed : result.verification.passed = true) : WorkAccepted events := by
  rcases Coroutine.does_bind.mp does with ⟨answer, _, _, _, calling, rest, rfl⟩ | ⟨_, _, no⟩
  · rcases Coroutine.does_bind.mp rest with ⟨_, _, _, _, verifying, returning, rfl⟩ | ⟨_, _, no⟩
    · rcases Coroutine.does_pure.mp returning with ⟨rfl, isResult, _⟩
      cases isResult
      rw [List.append_nil]
      exact workAccepted_of_returned rfl calling verifying passed
    · cases no
  · cases no

theorem verify_purposed {allowed : Purpose → Prop} (answer : String) :
    (verify answer).Only (Purposed allowed) := by
  refine .perform fun reply call other isCall => ?_
  cases isCall

theorem callTier_purposed {allowed : Purpose → Prop} {tier : Tier} {messages : List (Message Char)}
    {purpose : Purpose} (isAllowed : allowed purpose) :
    (sifter.callTier tier messages purpose).Only (Purposed allowed) := by
  have checkPurposed {checks : List (Event Op Op.Answer)} (silent : Silent checks) :
      ∀ event ∈ checks, Purposed allowed event := by
    rintro event isThere call answer rfl
    cases (silent _ isThere).1
  intro before events outcome after does event isThere
  rcases callTier_events does with ⟨call, reply, checks, sends, silent, rfl⟩ | ⟨_, _, silent⟩
  · rcases List.mem_append.mp isThere with isCheck | isCall
    · exact checkPurposed silent event isCheck
    · rw [List.mem_singleton.mp isCall]
      rintro _ _ ⟨⟩
      rwa [sends.purpose]
  · exact checkPurposed silent event isThere

theorem executeHybrid_accepted {humanConstraints approvedDecisions : List String}
    {result : Execution}
    (does : (sifter.executeHybrid task humanConstraints approvedDecisions).Does before events
      (.ok result) after) (passed : result.verification.passed = true) : WorkAccepted events := by
  simp only [executeHybrid] at does
  rcases Coroutine.does_bind.mp does with ⟨plan, _, _, _, _, executing, rfl⟩ | ⟨_, _, no⟩
  · apply WorkAccepted.append_left
    rcases Coroutine.does_bind.mp executing with ⟨answer, _, _, _, calling, rest, rfl⟩ | ⟨_, _, no⟩
    · rcases Coroutine.does_bind.mp rest with ⟨checked, _, _, _, verifying, ending, rfl⟩ | ⟨_, _, no⟩
      · rw [← List.append_assoc]
        split at ending
        · rename_i isPass
          have accepted := workAccepted_of_returned rfl calling verifying isPass
          -- a review is not work, so that the work before it stays the last
          have isReview : (sifter.reviewed plan answer).Only
              (Purposed fun purpose => purpose.isWork = false) := reviewed_only (callTier_purposed rfl)
          refine accepted.append_right fun event isThere => workOf_of_purposed ?_
          exact Coroutine.Only.bind isReview (fun _ => .pure _) _ _ _ _ ending _ isThere
        · rename_i isFailure
          cases (Coroutine.does_pure.mp ending).2.1
          exact absurd passed isFailure
      · cases no
    · cases no
  · cases no

/-- An execution that ends verified ends with accepted work. -/
theorem executeRoute_accepted {route : RouteDecision} {humanConstraints approvedDecisions : List String}
    {result : Execution}
    (does : (sifter.executeRoute task route humanConstraints approvedDecisions).Does before events
      (.ok result) after) (passed : result.verification.passed = true) : WorkAccepted events := by
  simp only [executeRoute] at does
  split at does
  · exact executeCloud_accepted does passed
  · exact executeHybrid_accepted does passed
  · exact attemptLocally_accepted rfl does passed

/-! ## Escalations -/

/-- No call of an escalation. -/
abbrev Unescalated : Event Op Op.Answer → Prop := Purposed (· ≠ .cloudEscalation)

theorem executeRoute_unescalated (route : RouteDecision)
    (humanConstraints approvedDecisions : List String) :
    (sifter.executeRoute task route humanConstraints approvedDecisions).Only Unescalated :=
  executeRoute_only (fun _ notEscalation => callTier_purposed notEscalation) verify_purposed _ _

theorem requireApproval_unescalated (request : ApprovalRequest) :
    (sifter.requireApproval request).Only Unescalated := by
  refine requireApproval_only ?_ ?_
  · rintro answer call other ⟨⟩
  · rintro decision answer call other ⟨⟩

theorem handleMajorDecision_unescalated (classification : DecisionClassification) :
    (sifter.handleMajorDecision task classification).Only Unescalated :=
  only_follows.handleMajorDecision (fun _ => callTier_purposed (by decide))
    requireApproval_unescalated _

/-- A diagnosis that was obtained is the last event. -/
theorem diagnosed_returned {packet : EscalationPacket} {answer diagnosis : String}
    (does : (sifter.diagnosed packet answer).Does before events (.ok (diagnosis, true)) after) :
    ∃ checks call result, events = checks ++ [⟨.generate call, .ok result⟩] ∧
      call.purpose = .cloudEscalation := by
  rcases Coroutine.does_catching.mp does with ⟨_, body, isAnswer⟩ | ⟨raised, _, _, _, _, handling, _⟩
  · cases isAnswer
    rcases Coroutine.does_bind.mp body with ⟨text, _, _, _, calling, returning, rfl⟩ | ⟨_, _, no⟩
    · rcases Coroutine.does_pure.mp returning with ⟨rfl, _, _⟩
      rcases callTier_returned calling with ⟨call, result, checks, sends, _, rfl, _⟩
      exact ⟨checks, call, result, List.append_nil _, sends.purpose⟩
    · cases no
  · cases raised with
    | budgetExceeded exceeded => cases (Coroutine.does_pure.mp handling).2.1
    | providerError message => cases (Coroutine.does_raise.mp handling).2.1
    | other message => cases (Coroutine.does_raise.mp handling).2.1

/-- Work counts as completed if it passed, or if a diagnosis of it was obtained. -/
theorem resolved_completed {direction : Direction} {execution : Execution} {answer : String}
    (does : (sifter.resolved task direction execution).Does before events (.ok (answer, true)) after) :
    execution.verification.passed = true ∧ events = [] ∨
      ∃ earlier call result, events = earlier ++ [⟨.generate call, .ok result⟩] ∧
        call.purpose = .cloudEscalation := by
  unfold resolved at does
  split at does
  · rename_i passed
    exact .inl ⟨passed, (Coroutine.does_pure.mp does).1⟩
  · refine .inr ?_
    rcases Coroutine.does_bind.mp does with ⟨_, _, _, _, _, asking, rfl⟩ | ⟨_, _, no⟩
    · rcases Coroutine.does_bind.mp asking with ⟨verdict, _, _, _, _, ending, rfl⟩ | ⟨_, _, no⟩
      · split at ending
        · cases (Coroutine.does_pure.mp ending).2.1
        · cases (Coroutine.does_pure.mp ending).2.1
        · rcases diagnosed_returned ending with ⟨checks, call, result, rfl, isEscalation⟩
          exact ⟨_, call, result, by rw [← List.append_assoc, ← List.append_assoc], isEscalation⟩
      · cases no
    · cases no

/-! ## A whole run -/

theorem carryOut_completed {direction : Direction} {result : SifterResult}
    (does : (sifter.carryOut task direction).Does before events (.ok result) after)
    (isCompleted : result.status = "completed") :
    WorkAccepted events ∧ (∀ event ∈ events, Unescalated event) ∨
      ∃ earlier call result, events = earlier ++ [⟨.generate call, .ok result⟩] ∧
        call.purpose = .cloudEscalation := by
  simp only [carryOut] at does
  rcases Coroutine.does_bind.mp does with ⟨_, _, _, _, reading, rest, rfl⟩ | ⟨_, _, no⟩
  · rw [(Coroutine.does_read.mp reading).1, List.nil_append]
    rcases Coroutine.does_bind.mp rest with ⟨execution, _, _, _, executing, ending, rfl⟩ | ⟨_, _, no⟩
    · rcases Coroutine.does_bind.mp ending with ⟨⟨answer, completed⟩, _, _, _, resolving, finishing, rfl⟩ |
          ⟨_, _, no⟩
      · rw [finish_events finishing, List.append_nil]
        rw [(finish_reports finishing).1] at isCompleted
        cases completed with
        | false => simp at isCompleted
        | true =>
            rcases resolved_completed resolving with ⟨passed, rfl⟩ | ⟨earlier, call, result, rfl, isEscalation⟩
            · rw [List.append_nil]
              exact .inl ⟨executeRoute_accepted executing passed,
                executeRoute_unescalated _ _ _ _ _ _ _ executing⟩
            · exact .inr ⟨_, call, result, (List.append_assoc _ _ _).symm, isEscalation⟩
      · cases no
    · cases no
  · cases no

theorem runBody_completed {result : SifterResult}
    (does : (sifter.runBody task).Does before events (.ok result) after)
    (isCompleted : result.status = "completed") :
    WorkAccepted events ∧ (∀ event ∈ events, Unescalated event) ∨
      ∃ earlier call result, events = earlier ++ [⟨.generate call, .ok result⟩] ∧
        call.purpose = .cloudEscalation := by
  simp only [runBody] at does
  split at does
  · rcases Coroutine.does_bind.mp does with ⟨direction, _, _, _, deciding, rest, rfl⟩ | ⟨_, _, no⟩
    · cases direction with
      | none =>
          rw [(finish_reports rest).1] at isCompleted
          simp at isCompleted
      | some direction =>
          have decided := handleMajorDecision_unescalated _ _ _ _ _ deciding
          rcases carryOut_completed rest isCompleted with ⟨accepted, unescalated⟩ |
              ⟨earlier, call, result, rfl, isEscalation⟩
          · refine .inl ⟨accepted.append_left, fun event isThere => ?_⟩
            rcases List.mem_append.mp isThere with isDecided | isCarried
            · exact decided event isDecided
            · exact unescalated event isCarried
          · exact .inr ⟨_, call, result, (List.append_assoc _ _ _).symm, isEscalation⟩
    · cases no
  · exact carryOut_completed does isCompleted

/-- The last work of a run that completes was verified and passed exactly if the run makes no
call to escalate. -/
theorem completed_accepted_iff {result : SifterResult}
    (does : (sifter.run task).Does (sifter.newSession task) events (.ok result) after)
    (isCompleted : result.status = "completed") :
    WorkAccepted events ↔ ∀ event ∈ events, Unescalated event := by
  have completed : WorkAccepted events ∧ (∀ event ∈ events, Unescalated event) ∨
      ∃ earlier call result, events = earlier ++ [⟨.generate call, .ok result⟩] ∧
        call.purpose = .cloudEscalation := by
    rcases Coroutine.does_catching.mp does with ⟨_, running, isResult⟩ |
        ⟨raised, _, _, _, _, handling, _⟩
    · cases isResult
      exact runBody_completed running isCompleted
    · cases raised with
      | budgetExceeded exceeded =>
          rw [(finish_reports handling).1] at isCompleted
          simp at isCompleted
      | providerError message =>
          rw [(finish_reports handling).1] at isCompleted
          simp at isCompleted
      | other message => cases (Coroutine.does_raise.mp handling).2.1
  rcases completed with ⟨accepted, unescalated⟩ | ⟨earlier, call, answer, rfl, isEscalation⟩
  · exact ⟨fun _ => unescalated, fun _ => accepted⟩
  · have isWork : workOf ⟨.generate call, .ok answer⟩ = some answer.text := by
      simp [workOf, isEscalation, Purpose.isWork]
    constructor
    · intro accepted
      exact absurd accepted (not_workAccepted isWork)
    · intro unescalated
      exact absurd isEscalation (unescalated ⟨.generate call, .ok answer⟩ (by simp) call _ rfl)

/-! ## The approved run -/

/-- Its work failed its verification, and the diagnosis that completes it has none. -/
theorem approved_unaccepted : ∃ events result after, (approvedSifter.run truncateTask).Does
    (approvedSifter.newSession truncateTask) events (.ok result) after ∧
      result.status = "completed" ∧ ¬ WorkAccepted events := by
  rcases approved_does with ⟨result, after, does, isCompleted⟩
  refine ⟨approvedEvents, result, after, does, isCompleted, ?_⟩
  have isLast : approvedEvents = approvedEvents.dropLast ++ [⟨.generate diagnosisCall, .ok silence⟩] :=
    rfl
  rw [isLast]
  exact not_workAccepted (show workOf ⟨.generate diagnosisCall, .ok silence⟩ = some "" from rfl)

theorem approved_accepted_iff : WorkAccepted approvedEvents ↔
    ∀ event ∈ approvedEvents, Unescalated event := by
  rcases approved_does with ⟨result, after, does, isCompleted⟩
  exact completed_accepted_iff does isCompleted

end ComputeSifter

end Aa.Sifter
