import Aa.Library.Course
import Aa.Sifter.ApprovalScope

/-!
# What a run spends

The checks and the calls to the expert in the trace of a run, kept as a ledger: each call
comes right after a check that passed, each recorded result changes the tracker, and
after a denied check or a failed call nothing more is entered. The ledger of a run has
no more calls than the budget allows. Its tokens and its cost stay within their limits
where each check leaves room for the largest answer.
-/

namespace Aa.Sifter

open Aa.Library

/-- A call to the expert. -/
def isExpertCall (event : Event Op Op.Answer) : Bool :=
  match event with
  | ⟨.generate call, _⟩ => call.tier = .expert
  | _ => false

/-- A check of the budget. -/
def isCheck (event : Event Op Op.Answer) : Bool :=
  match event with
  | ⟨.budgetCheck _ _ _, _⟩ => true
  | _ => false

/-- A check that was denied. -/
def isDenial (event : Event Op Op.Answer) : Bool :=
  match event with
  | ⟨.budgetCheck _ _ denied, _⟩ => denied.isSome
  | _ => false

/-- The budget of a run with the mark that expert calls may still come. -/
structure Account where
  tracker : BudgetTracker
  isOpen : Bool

namespace ComputeSifter

variable {sifter : ComputeSifter} {before after : Session} {events : List (Event Op Op.Answer)}

/-- A call that the ledger may enter for some messages. -/
structure Entered (sifter : ComputeSifter) (tracker : BudgetTracker) (call : Call) : Prop where
  onTier : call.tier = .expert
  limit : call.maxTokens = some (sifter.maxOutput .expert)
  passed : (sifter.checked tracker call.messages).1 = none

/-- The entries between two states of the account. -/
inductive Ledger (sifter : ComputeSifter) : Account → List (Event Op Op.Answer) → Account → Prop
  | nil (account : Account) : Ledger sifter account [] account
  | other {account last : Account} {events : List (Event Op Op.Answer)}
      (event : Event Op Op.Answer) (notCheck : isCheck event = false)
      (notCall : isExpertCall event = false) (rest : Ledger sifter account events last) :
      Ledger sifter account (event :: events) last
  | spent {tracker : BudgetTracker} {last : Account} {events : List (Event Op Op.Answer)}
      (call : Call) (result : GenerationResult) (entered : sifter.Entered tracker call)
      (rest : Ledger sifter ⟨tracker.record result (sifter.modelConfig .expert), true⟩ events last) :
      Ledger sifter ⟨tracker, true⟩
        (sifter.checkEvent tracker call.messages :: ⟨.generate call, .ok result⟩ :: events) last
  | failed {tracker : BudgetTracker} {last : Account} {events : List (Event Op Op.Answer)}
      (call : Call) (raised : Raised) (entered : sifter.Entered tracker call)
      (rest : Ledger sifter ⟨tracker, false⟩ events last) :
      Ledger sifter ⟨tracker, true⟩
        (sifter.checkEvent tracker call.messages :: ⟨.generate call, .error raised⟩ :: events) last
  | denied {tracker : BudgetTracker} {last : Account} {events : List (Event Op Op.Answer)}
      (messages : List (Message Char)) (isDenied : (sifter.checked tracker messages).1.isSome = true)
      (rest : Ledger sifter ⟨(sifter.checked tracker messages).2, false⟩ events last) :
      Ledger sifter ⟨tracker, true⟩ (sifter.checkEvent tracker messages :: events) last

namespace Ledger

variable {first middle last : Account} {later : List (Event Op Op.Answer)}

theorem append (ledger : sifter.Ledger first events middle)
    (rest : sifter.Ledger middle later last) : sifter.Ledger first (events ++ later) last := by
  induction ledger with
  | nil account => exact rest
  | other event notCheck notCall _ ih => exact .other event notCheck notCall (ih rest)
  | spent call result entered _ ih => exact .spent call result entered (ih rest)
  | failed call raised entered _ ih => exact .failed call raised entered (ih rest)
  | denied messages isDenied _ ih => exact .denied messages isDenied (ih rest)

/-- Events that are no entries. -/
theorem others (account : Account)
    (areOther : ∀ event ∈ events, isCheck event = false ∧ isExpertCall event = false) :
    sifter.Ledger account events account := by
  induction events with
  | nil => exact .nil account
  | cons event rest ih =>
      have isOther := areOther event (by simp)
      refine .other event isOther.1 isOther.2 (ih fun later isLater => areOther later ?_)
      exact List.mem_cons_of_mem _ isLater

/-- A closed account has no entries any more. -/
theorem closed {tracker : BudgetTracker} (ledger : sifter.Ledger ⟨tracker, false⟩ events last) :
    last = ⟨tracker, false⟩ ∧
      ∀ event ∈ events, isCheck event = false ∧ isExpertCall event = false := by
  generalize isFirst : (⟨tracker, false⟩ : Account) = first at ledger
  induction ledger with
  | nil account => simp
  | other event notCheck notCall _ ih =>
      rcases ih isFirst with ⟨isLast, areOther⟩
      refine ⟨isLast, ?_⟩
      simpa [notCheck, notCall] using areOther
  | spent call result entered _ _ => cases isFirst
  | failed call raised entered _ _ => cases isFirst
  | denied messages isDenied _ _ => cases isFirst

end Ledger

/-- The ledger as the course of an execution: one that may go on leaves the account open. -/
def spending (sifter : ComputeSifter) : Course Op Op.Answer Session where
  goes before events after :=
    sifter.Ledger ⟨before.budget, true⟩ events ⟨after.budget, true⟩
  closes before events after :=
    ∃ isOpen, sifter.Ledger ⟨before.budget, true⟩ events ⟨after.budget, isOpen⟩
  nil state := .nil _
  closes_of_goes goes := ⟨true, goes⟩
  append goes rest := goes.append rest
  append_closes := by
    rintro before middle after first second goes ⟨isOpen, rest⟩
    exact ⟨isOpen, goes.append rest⟩

/-! ## The functions of a run -/

/-- Events that are no entries and leave the budget as it is. -/
theorem steady_of_others {α : Type} {coroutine : Run α}
    (areOther : ∀ before events outcome after, coroutine.Does before events outcome after →
      after.budget = before.budget ∧
        ∀ event ∈ events, isCheck event = false ∧ isExpertCall event = false) :
    Coroutine.Steady sifter.spending coroutine := by
  intro before events outcome after does
  rcases areOther _ _ _ _ does with ⟨sameBudget, areOther⟩
  change sifter.Ledger ⟨before.budget, true⟩ events ⟨after.budget, true⟩
  rw [sameBudget]
  exact Ledger.others _ areOther

theorem modify_steady {change : Session → Session}
    (keepsBudget : ∀ session, (change session).budget = session.budget) :
    Coroutine.Steady sifter.spending (Coroutine.modify change : Run PUnit) := by
  refine steady_of_others fun before events outcome after does => ?_
  rcases Coroutine.does_modify.mp does with ⟨rfl, _, rfl⟩
  exact ⟨keepsBudget before, by simp⟩

theorem perform_steady {α : Type} {op : Op} {reply : op.Answer → Except Raised α}
    (isOther : ∀ answer, isCheck ⟨op, answer⟩ = false ∧ isExpertCall ⟨op, answer⟩ = false) :
    Coroutine.Steady sifter.spending (Coroutine.perform op reply : Run α) := by
  refine steady_of_others fun before events outcome after does => ?_
  rcases Coroutine.does_perform.mp does with ⟨answer, rfl, _, rfl⟩
  exact ⟨rfl, by simpa using isOther answer⟩

theorem requireApproval_steady (request : ApprovalRequest) :
    Coroutine.Steady sifter.spending (sifter.requireApproval request) := by
  refine .bind (perform_steady fun _ => ⟨rfl, rfl⟩) fun decision => ?_
  dsimp only
  split
  · exact .bind (perform_steady fun _ => ⟨rfl, rfl⟩) fun _ => .of_idle (.pure _)
  · exact .of_idle (.pure _)

theorem verify_steady (answer : String) : Coroutine.Steady sifter.spending (verify answer) :=
  perform_steady fun _ => ⟨rfl, rfl⟩

theorem noteApproval_steady (record : ApprovalRecord) (usage : UsageMetrics → UsageMetrics) :
    Coroutine.Steady sifter.spending (noteApproval record usage) :=
  modify_steady fun _ => rfl

/-- A local call has no entries. -/
theorem callTier_local_steady (messages : List (Message Char)) (purpose : Purpose) :
    Coroutine.Steady sifter.spending (sifter.callTier .local messages purpose) := by
  unfold callTier
  dsimp only
  split
  · exact .of_idle (.raise _)
  · split
    · exact .of_idle (.raise _)
    · refine .bind (.of_idle (.pure _)) fun _ => ?_
      refine .bind (perform_steady fun _ => ⟨rfl, rfl⟩) fun result => ?_
      exact .bind (modify_steady fun _ => rfl) fun _ => .of_idle (.pure _)

/-- The check of a call and, if it passes, the call are one entry. -/
theorem entry_ends {messages : List (Message Char)} {call : Call} {outcome : Except Raised String}
    (onTier : call.tier = .expert) (limit : call.maxTokens = some (sifter.maxOutput .expert))
    (sends : call.messages = messages)
    (does : (do
      sifter.checkBudget .expert messages
      let result ← Coroutine.perform (Op.generate call) id
      Coroutine.modify (sifter.recordGeneration .expert result)
      pure result.text : Run String).Does before events outcome after) :
    sifter.spending.closes before events after ∧
      ∀ text, outcome = .ok text → True → sifter.spending.goes before events after := by
  subst sends
  rcases Coroutine.does_bind.mp does with ⟨_, _, _, _, checking, rest, rfl⟩ |
      ⟨raised, checking, rfl⟩
  · rcases checkBudget_expert.mp checking with ⟨rfl, isPassed, rfl⟩
    have passed : (sifter.checked before.budget call.messages).1 = none := by
      cases isChecked : (sifter.checked before.budget call.messages).1 with
      | none => rfl
      | some exceeded =>
          rw [isChecked] at isPassed
          cases isPassed
    rw [checked_passed passed] at rest
    have entered : sifter.Entered before.budget call := ⟨onTier, limit, passed⟩
    rcases Coroutine.does_bind.mp rest with ⟨result, _, _, _, calling, counting, rfl⟩ |
        ⟨raised, calling, rfl⟩
    · rcases Coroutine.does_perform.mp calling with ⟨_, rfl, isReply, rfl⟩
      cases isReply
      rcases Coroutine.does_bind.mp counting with ⟨_, _, _, _, recording, returning, rfl⟩ |
          ⟨raised, recording, _⟩
      · rcases Coroutine.does_modify.mp recording with ⟨rfl, _, rfl⟩
        rcases Coroutine.does_pure.mp returning with ⟨rfl, _, rfl⟩
        have goes := Ledger.spent call result entered (.nil _)
        exact ⟨⟨true, goes⟩, fun _ _ _ => goes⟩
      · cases (Coroutine.does_modify.mp recording).2.1
    · rcases Coroutine.does_perform.mp calling with ⟨_, rfl, isReply, rfl⟩
      cases isReply
      exact ⟨⟨false, Ledger.failed call raised entered (.nil _)⟩, by simp⟩
  · rcases checkBudget_expert.mp checking with ⟨rfl, isDenied, rfl⟩
    refine ⟨⟨false, Ledger.denied _ ?_ (.nil _)⟩, by simp⟩
    cases isChecked : (sifter.checked before.budget call.messages).1 with
    | none =>
        rw [isChecked] at isDenied
        cases isDenied
    | some exceeded => rfl

/-- A call to the expert is one entry, or none if it is refused before the check. -/
theorem callTier_expert_keeps (messages : List (Message Char)) (purpose : Purpose) :
    Coroutine.Keeps sifter.spending (sifter.callTier .expert messages purpose) fun _ => True := by
  intro before events outcome after does
  simp only [callTier] at does
  split at does
  · rcases Coroutine.does_raise.mp does with ⟨rfl, rfl, rfl⟩
    exact ⟨⟨true, .nil _⟩, by simp⟩
  · split at does
    · rcases Coroutine.does_raise.mp does with ⟨rfl, rfl, rfl⟩
      exact ⟨⟨true, .nil _⟩, by simp⟩
    · generalize sifter.prepared .expert messages = sent at does
      refine entry_ends ?_ ?_ ?_ does
      · rfl
      · rfl
      · rfl

theorem analysed_keeps (task : Task) (decision : HumanDecision) :
    Coroutine.Keeps sifter.spending (sifter.analysed task decision) fun _ => True := by
  refine .bind (.map (callTier_expert_keeps _ _)) fun analysis => .of_steady ?_
  refine .bind (modify_steady fun _ => rfl) fun _ => ?_
  refine .bind (requireApproval_steady _) fun second => ?_
  refine .bind (noteApproval_steady _ _) fun _ => ?_
  split
  · exact .of_idle (.pure _)
  · exact .of_idle (.pure _)

theorem handleMajorDecision_keeps (task : Task) (classification : DecisionClassification) :
    Coroutine.Keeps sifter.spending (sifter.handleMajorDecision task classification)
      fun _ => True := by
  refine .bind (.of_steady (requireApproval_steady _)) fun decision => ?_
  refine .bind (.of_steady (noteApproval_steady _ _)) fun _ => ?_
  split
  · exact .of_steady (.of_idle (.pure _))
  · exact .of_steady (.of_idle (.pure _))
  · exact .of_steady (.of_idle (.pure _))
  · exact .of_steady (.of_idle (.pure _))
  · exact .of_steady (.of_idle (.pure _))
  · exact .of_steady (.of_idle (.pure _))
  · exact .of_steady (.of_idle (.pure _))
  · exact analysed_keeps task decision

theorem spending_follows :
    FollowsFromParts fun {_} coroutine => Coroutine.Steady sifter.spending coroutine :=
  steady_follows fun _ keeps => modify_steady fun session => (keeps session).1

/-- A guarded call to the expert may close the account and still return. -/
theorem handledCall_keeps {α : Type} {messages : List (Message Char)} {purpose : Purpose}
    {wrap : String → α} {handler : Raised → Run α} (idle : ∀ raised, Coroutine.Idle (handler raised)) :
    Coroutine.Keeps sifter.spending
      (Coroutine.catching
        (do
          let answer ← sifter.callTier .expert messages purpose
          pure (wrap answer)) handler) fun _ => False := by
  have called : Coroutine.Keeps sifter.spending
      (do
        let answer ← sifter.callTier .expert messages purpose
        pure (wrap answer)) fun _ => True := .map (callTier_expert_keeps messages purpose)
  exact .catching called idle

theorem reviewed_keeps (plan answer : String) :
    Coroutine.Keeps sifter.spending (sifter.reviewed plan answer) fun _ => False := by
  refine handledCall_keeps fun raised => ?_
  cases raised with
  | budgetExceeded exceeded => exact .pure _
  | providerError message => exact .raise _
  | other message => exact .raise _

theorem diagnosed_keeps (packet : EscalationPacket) (answer : String) :
    Coroutine.Keeps sifter.spending (sifter.diagnosed packet answer) fun _ => False := by
  refine handledCall_keeps fun raised => ?_
  cases raised with
  | budgetExceeded exceeded => exact .pure _
  | providerError message => exact .raise _
  | other message => exact .raise _

/-- An execution that fails verification leaves the account open: the review, which may
close it, comes only after a verification that passed. -/
theorem executeRoute_keeps (task : Task) (route : RouteDecision)
    (humanConstraints approvedDecisions : List String) :
    Coroutine.Keeps sifter.spending
      (sifter.executeRoute task route humanConstraints approvedDecisions)
      fun execution => execution.verification.passed = false := by
  unfold executeRoute
  dsimp only
  split
  · refine .bind (callTier_expert_keeps _ _) fun answer => .of_steady ?_
    exact .bind (verify_steady answer) fun _ => .of_idle (.pure _)
  · refine .bind (callTier_expert_keeps _ _) fun plan => ?_
    refine .bind (.of_steady (callTier_local_steady _ _)) fun answer => ?_
    refine .bind (.of_steady (verify_steady answer)) fun verification => ?_
    split
    · rename_i passed
      refine .map ?_
      simpa only [passed, Bool.true_eq_false] using reviewed_keeps plan answer
    · exact .of_steady (.of_idle (.pure _))
  · refine .of_steady (spending_follows.attemptLocally (fun _ _ => ?_) verify_steady _ _ _)
    exact callTier_local_steady _ _

theorem escalateAfterFailure_keeps (task : Task) (execution : Execution)
    (classification : DecisionClassification) (humanConstraints approvedDecisions : List String)
    (allowed autonomyGrant : Bool) :
    Coroutine.Keeps sifter.spending
      (sifter.escalateAfterFailure task execution classification humanConstraints approvedDecisions
        allowed autonomyGrant) fun _ => False := by
  refine .bind (.of_steady (modify_steady fun _ => rfl)) fun _ => ?_
  refine .bind (.of_steady ?_) fun verdict => ?_
  · exact spending_follows.escalationAllowed (requireApproval_steady _) _ _ _
  split
  · exact .of_steady (.of_idle (.pure _))
  · exact .of_steady (.of_idle (.pure _))
  · exact diagnosed_keeps _ _

theorem finish_idle (status answer : String) (classification : DecisionClassification)
    (assessment : PreflightAssessment) (blockedReason route : Option String)
    (direction : Direction) :
    Coroutine.Idle (finish status answer classification assessment blockedReason route direction) :=
  .bind .read fun _ => .pure _

theorem carryOut_keeps (task : Task) (direction : Direction) :
    Coroutine.Keeps sifter.spending (sifter.carryOut task direction) fun _ => False := by
  refine .bind (.of_steady (.of_idle .read)) fun session => ?_
  refine .bind_last (executeRoute_keeps _ _ _ _) (fun execution failed => ?_)
    fun execution notFailed => ?_
  · refine .bind_idle ?_ fun resolved => finish_idle _ _ _ _ _ _ _
    rw [resolved, if_neg (by simp [failed])]
    exact escalateAfterFailure_keeps _ _ _ _ _ _ _
  · rw [resolved, if_pos (by simpa using notFailed)]
    exact .bind (.pure _) fun _ => finish_idle _ _ _ _ _ _ _

theorem runBody_keeps (task : Task) :
    Coroutine.Keeps sifter.spending (sifter.runBody task) fun _ => False := by
  unfold runBody
  dsimp only
  split
  · refine .bind (handleMajorDecision_keeps _ _) fun direction => ?_
    split
    · exact .of_steady (.of_idle (finish_idle _ _ _ _ _ _ _))
    · exact carryOut_keeps _ _
  · exact carryOut_keeps _ _

/-- The ledger of a run. -/
theorem run_ledger {task : Task} {outcome : Except Raised SifterResult}
    (does : (sifter.run task).Does before events outcome after) :
    ∃ isOpen, sifter.Ledger ⟨before.budget, true⟩ events ⟨after.budget, isOpen⟩ := by
  have keeps : Coroutine.Keeps sifter.spending (sifter.run task) fun _ => False := by
    refine .catching (runBody_keeps task) fun raised => ?_
    cases raised with
    | budgetExceeded exceeded => exact finish_idle _ _ _ _ _ _ _
    | providerError message => exact finish_idle _ _ _ _ _ _ _
    | other message => exact .raise _
  exact (keeps _ _ _ _ does).1

/-! ## The number of calls -/

/-- A check that passes: one more call, the tokens and the estimated cost are within their
limits. -/
theorem checked_eq_none {tracker : BudgetTracker} {messages : List (Message Char)} :
    (sifter.checked tracker messages).1 = none ↔
      tracker.budget.calls + 1 ≤ tracker.budget.maxCalls ∧
        tracker.budget.tokens + totalTokens messages ≤ tracker.budget.maxTokens ∧
        tracker.budget.cost +
          (sifter.modelConfig .expert).estimateCost (totalTokens messages : ℤ) 0 ≤
            tracker.budget.maxCost := by
  simp only [checked, BudgetTracker.check, Budget.wouldExceed]
  split <;> rename_i isExceeded <;> split_ifs at isExceeded <;> simp_all

@[simp]
theorem isExpertCall_checkEvent (tracker : BudgetTracker) (messages : List (Message Char)) :
    isExpertCall (sifter.checkEvent tracker messages) = false := rfl

theorem isDenial_checkEvent (tracker : BudgetTracker) (messages : List (Message Char)) :
    isDenial (sifter.checkEvent tracker messages) = (sifter.checked tracker messages).1.isSome :=
  rfl

theorem countP_of_closed {tracker : BudgetTracker} {last : Account}
    (ledger : sifter.Ledger ⟨tracker, false⟩ events last) : events.countP isExpertCall = 0 := by
  refine List.countP_eq_zero.mpr fun event isThere => ?_
  simp [(ledger.closed.2 event isThere).2]

/-- Every call takes one of those the budget has left. -/
theorem Ledger.countP_le {first last : Account} (ledger : sifter.Ledger first events last) :
    (events.countP isExpertCall : ℤ) ≤
      max 0 (first.tracker.budget.maxCalls - first.tracker.budget.calls) := by
  induction ledger with
  | nil account => simp
  | other event notCheck notCall _ ih => simpa [notCall] using ih
  | @spent tracker last events call result entered _ ih =>
      have isCall : isExpertCall ⟨.generate call, .ok result⟩ = true := by
        simp [isExpertCall, entered.onTier]
      have hasCall := (checked_eq_none.mp entered.passed).1
      simp only [BudgetTracker.record] at ih
      simp only [List.countP_cons, isExpertCall_checkEvent, isCall, Bool.false_eq_true, if_false,
        if_true, Nat.cast_add, Nat.cast_one, Nat.cast_zero]
      omega
  | @failed tracker last events call raised entered rest ih =>
      have isCall : isExpertCall ⟨.generate call, .error raised⟩ = true := by
        simp [isExpertCall, entered.onTier]
      have hasCall := (checked_eq_none.mp entered.passed).1
      simp only [List.countP_cons, isExpertCall_checkEvent, isCall, countP_of_closed rest,
        Bool.false_eq_true, if_false, if_true]
      omega
  | denied messages isDenied rest ih => simp [countP_of_closed rest]

/-- The check of an expert call that let it pass. -/
def passedCheck (sifter : ComputeSifter) (messages : List (Message Char)) :
    Event Op Op.Answer :=
  ⟨.budgetCheck (totalTokens messages)
    ((sifter.modelConfig .expert).estimateCost (totalTokens messages : ℤ) 0) none, ()⟩

/-- A call to the expert comes right after its own check, which passed, and after no
check that was denied. -/
def CheckedFirst (sifter : ComputeSifter) (past : List (Event Op Op.Answer))
    (event : Event Op Op.Answer) : Prop :=
  match event with
  | ⟨.generate call, _⟩ =>
      call.tier = .expert →
        (∃ earlier, past = earlier ++ [sifter.passedCheck call.messages]) ∧
          ∀ earlier ∈ past, isDenial earlier = false
  | _ => True

theorem checkedFirst_of_other {past : List (Event Op Op.Answer)} {event : Event Op Op.Answer}
    (notCall : isExpertCall event = false) : sifter.CheckedFirst past event := by
  rcases event with ⟨op, answer⟩
  cases op with
  | generate call =>
      intro isExpert
      simp [isExpertCall, isExpert] at notCall
  | approval request => trivial
  | recordApproval request decision => trivial
  | budgetCheck tokens cost denied => trivial
  | verify answer => trivial

theorem checkEvent_passed {tracker : BudgetTracker} {messages : List (Message Char)}
    (passed : (sifter.checked tracker messages).1 = none) :
    sifter.checkEvent tracker messages = sifter.passedCheck messages := by
  rw [checkEvent, passed, passedCheck]

theorem Entered.checkedFirst {tracker : BudgetTracker} {call : Call}
    (entered : sifter.Entered tracker call) {past : List (Event Op Op.Answer)}
    (noDenial : ∀ event ∈ past, isDenial event = false)
    (answer : Op.Answer (.generate call)) :
    sifter.CheckedFirst (past ++ [sifter.checkEvent tracker call.messages])
      ⟨.generate call, answer⟩ := by
  intro _
  refine ⟨⟨past, by rw [checkEvent_passed entered.passed]⟩, ?_⟩
  intro event isThere
  rcases List.mem_append.mp isThere with isPast | isCheck
  · exact noDenial event isPast
  · rw [List.mem_singleton.mp isCheck, isDenial_checkEvent, entered.passed]
    rfl

theorem guarded_of_closed {tracker : BudgetTracker} {last : Account}
    (ledger : sifter.Ledger ⟨tracker, false⟩ events last) (past : List (Event Op Op.Answer)) :
    Guarded sifter.CheckedFirst past events := by
  refine guarded_iff_split.mpr ?_
  rintro earlier event later rfl
  exact checkedFirst_of_other (ledger.closed.2 event (by simp)).2

/-- As long as no check has been denied, the calls of a ledger come after their checks. -/
theorem Ledger.guarded {tracker : BudgetTracker} {first last : Account}
    (ledger : sifter.Ledger first events last) (isFirst : first = ⟨tracker, true⟩)
    {past : List (Event Op Op.Answer)} (noDenial : ∀ event ∈ past, isDenial event = false) :
    Guarded sifter.CheckedFirst past events := by
  have still {event : Event Op Op.Answer} {past : List (Event Op Op.Answer)}
      (noDenial : ∀ event ∈ past, isDenial event = false) (notDenial : isDenial event = false) :
      ∀ later ∈ past ++ [event], isDenial later = false := by
    intro later isThere
    rcases List.mem_append.mp isThere with isPast | isNew
    · exact noDenial later isPast
    · rw [List.mem_singleton.mp isNew, notDenial]
  induction ledger generalizing tracker past with
  | nil account => trivial
  | @other account last events event notCheck notCall _ ih =>
      refine ⟨checkedFirst_of_other notCall, ih isFirst (still noDenial ?_)⟩
      rcases event with ⟨op, answer⟩
      cases op with
      | budgetCheck tokens cost denied => cases notCheck
      | approval request => rfl
      | recordApproval request decision => rfl
      | generate call => rfl
      | verify answer => rfl
  | @spent tracker last events call result entered _ ih =>
      refine ⟨trivial, entered.checkedFirst noDenial _, ih rfl (still (still noDenial ?_) rfl)⟩
      rw [isDenial_checkEvent, entered.passed]
      rfl
  | failed call raised entered rest ih =>
      exact ⟨trivial, entered.checkedFirst noDenial _, guarded_of_closed rest _⟩
  | denied messages isDenied rest ih => exact ⟨trivial, guarded_of_closed rest _⟩

/-- No run calls the expert more often than the budget allows, none of its calls is
unchecked, and none follows a check that was denied. -/
theorem expert_calls_capped {task : Task} {outcome : Except Raised SifterResult}
    (does : (sifter.run task).Does (sifter.newSession task) events outcome after) :
    (events.countP isExpertCall : ℤ) ≤ max 0 sifter.config.maxCloudCallsPerTask ∧
      Guarded sifter.CheckedFirst [] events := by
  rcases run_ledger does with ⟨isOpen, ledger⟩
  refine ⟨?_, ledger.guarded rfl (by simp)⟩
  simpa [newSession, BudgetTracker.new] using ledger.countP_le

theorem truncateTask_calls_capped :
    ∃ events, (∃ outcome after, (localSifter.run truncateTask).Does
        (localSifter.newSession truncateTask) events outcome after) ∧
      events.any isExpertCall = true ∧
      (events.countP isExpertCall : ℤ) ≤ max 0 localSifter.config.maxCloudCallsPerTask ∧
      Guarded localSifter.CheckedFirst [] events := by
  rcases analysis_reached rfl truncateTask_needed localSifter_letsThrough
    { text := "", model := "deepseek-chat", tier := .expert } { action := .stop } with
    ⟨messages, call, rest, outcome, after, onTier, does⟩
  refine ⟨_, ⟨outcome, after, does⟩, ?_, expert_calls_capped does⟩
  simp [isExpertCall, onTier]

/-! ## Tokens and cost -/

/-- What an event adds to the tokens spent. -/
def tokensOf (event : Event Op Op.Answer) : ℤ :=
  match event with
  | ⟨.generate call, .ok result⟩ =>
      if call.tier = .expert then result.inputTokens + result.outputTokens else 0
  | _ => 0

/-- What an event adds to the cost. -/
def costOf (sifter : ComputeSifter) (event : Event Op Op.Answer) : ℚ :=
  match event with
  | ⟨.generate call, .ok result⟩ =>
      if call.tier = .expert then
        (sifter.modelConfig .expert).estimateCost result.inputTokens result.outputTokens
      else 0
  | _ => 0

def spentTokens (events : List (Event Op Op.Answer)) : ℤ :=
  (events.map tokensOf).sum

def spentCost (sifter : ComputeSifter) (events : List (Event Op Op.Answer)) : ℚ :=
  (events.map sifter.costOf).sum

theorem spentTokens_append (first second : List (Event Op Op.Answer)) :
    spentTokens (first ++ second) = spentTokens first + spentTokens second := by
  simp [spentTokens]

theorem spentCost_append (first second : List (Event Op Op.Answer)) :
    sifter.spentCost (first ++ second) = sifter.spentCost first + sifter.spentCost second := by
  simp [spentCost]

theorem spends_of_other (sifter : ComputeSifter) {event : Event Op Op.Answer} (notCall : isExpertCall event = false) :
    tokensOf event = 0 ∧ sifter.costOf event = 0 := by
  rcases event with ⟨op, answer⟩
  cases op with
  | generate call =>
      have notExpert : call.tier ≠ .expert := by simpa [isExpertCall] using notCall
      cases answer with
      | ok result => simp [tokensOf, costOf, notExpert]
      | error raised => exact ⟨rfl, rfl⟩
  | approval request => exact ⟨rfl, rfl⟩
  | recordApproval request decision => exact ⟨rfl, rfl⟩
  | budgetCheck tokens cost denied => exact ⟨rfl, rfl⟩
  | verify answer => exact ⟨rfl, rfl⟩

@[simp]
theorem tokensOf_checkEvent (tracker : BudgetTracker) (messages : List (Message Char)) :
    tokensOf (sifter.checkEvent tracker messages) = 0 := rfl

@[simp]
theorem costOf_checkEvent (tracker : BudgetTracker) (messages : List (Message Char)) :
    sifter.costOf (sifter.checkEvent tracker messages) = 0 := rfl

theorem check_budget (tracker : BudgetTracker) (messages : List (Message Char)) :
    (sifter.checked tracker messages).2.budget = tracker.budget := by
  simp only [checked, BudgetTracker.check]
  split <;> rfl

/-- The tracker holds the sums of the ledger. -/
theorem Ledger.spends {first last : Account} (ledger : sifter.Ledger first events last) :
    last.tracker.budget.tokens = first.tracker.budget.tokens + spentTokens events ∧
      last.tracker.budget.cost = first.tracker.budget.cost + sifter.spentCost events := by
  induction ledger with
  | nil account => simp [spentTokens, spentCost]
  | other event notCheck notCall _ ih =>
      have spendsNothing := spends_of_other sifter notCall
      simpa [spentTokens, spentCost, spendsNothing] using ih
  | @spent tracker last events call result entered _ ih =>
      simp only [BudgetTracker.record] at ih
      simp only [spentTokens, spentCost, List.map_cons, List.sum_cons, tokensOf_checkEvent,
        costOf_checkEvent] at ih ⊢
      simp only [tokensOf, costOf, entered.onTier, if_true, zero_add, ih]
      exact ⟨by ring, by ring⟩
  | @failed tracker last events call raised entered _ ih =>
      simp only [spentTokens, spentCost, List.map_cons, List.sum_cons, tokensOf_checkEvent,
        costOf_checkEvent] at ih ⊢
      simpa [tokensOf, costOf] using ih
  | @denied tracker last events messages isDenied _ ih =>
      simp only [check_budget] at ih
      simpa [spentTokens, spentCost] using ih

/-- Every call asks for at most the output it may have. -/
theorem Ledger.limits {first last : Account} (ledger : sifter.Ledger first events last)
    {call : Call} (answer : Op.Answer (.generate call))
    (isThere : ⟨.generate call, answer⟩ ∈ events) (isExpert : call.tier = .expert) :
    call.maxTokens = some (sifter.maxOutput .expert) := by
  have isCall : isExpertCall ⟨.generate call, answer⟩ = true := by simp [isExpertCall, isExpert]
  have closed {tracker : BudgetTracker} {rest : List (Event Op Op.Answer)} {last : Account}
      (ledger : sifter.Ledger ⟨tracker, false⟩ rest last) :
      (⟨.generate call, answer⟩ : Event Op Op.Answer) ∉ rest := by
    intro isThere
    rw [(ledger.closed.2 _ isThere).2] at isCall
    cases isCall
  induction ledger with
  | nil account => cases isThere
  | other event notCheck notCall _ ih =>
      rcases List.mem_cons.mp isThere with rfl | isLater
      · rw [notCall] at isCall
        cases isCall
      · exact ih isLater
  | spent sent result entered _ ih =>
      rcases List.mem_cons.mp isThere with no | isLater
      · cases no
      · rcases List.mem_cons.mp isLater with isSent | isLater
        · cases isSent
          exact entered.limit
        · exact ih isLater
  | failed sent raised entered rest _ =>
      rcases List.mem_cons.mp isThere with no | isLater
      · cases no
      · rcases List.mem_cons.mp isLater with isSent | isLater
        · cases isSent
          exact entered.limit
        · exact absurd isLater (closed rest)
  | denied messages isDenied rest _ =>
      rcases List.mem_cons.mp isThere with no | isLater
      · cases no
      · exact absurd isLater (closed rest)

/-- Token counts within the messages that were sent and the output that was asked for. -/
def Reported (event : Event Op Op.Answer) : Prop :=
  match event with
  | ⟨.generate call, .ok result⟩ =>
      call.tier = .expert →
        0 ≤ result.inputTokens ∧ result.inputTokens ≤ totalTokens call.messages ∧
          0 ≤ result.outputTokens ∧ ∀ limit ∈ call.maxTokens, result.outputTokens ≤ limit
  | _ => True

/-- The ceiling of the cost: the one given for the task, or the larger of the configured
one and the waiver of the standing rules. -/
def ceiling (sifter : ComputeSifter) (task : Task) : ℚ :=
  match task.maxCloudCost, sifter.rules.costWaiverThreshold with
  | some explicit, _ => explicit
  | none, some waiver => max sifter.config.maxCloudCostPerTask waiver
  | none, none => sifter.config.maxCloudCostPerTask

/-- What a run has recorded is within its limits. -/
structure Capped (sifter : ComputeSifter) (task : Task) (after : Session) : Prop where
  tokens : after.budget.budget.tokens ≤ sifter.config.maxCloudTokensPerTask
  cost : after.budget.budget.cost ≤ sifter.ceiling task

/-- The cost of an answer as long as it may be. -/
def largestCost (sifter : ComputeSifter) (messages : List (Message Char)) : ℚ :=
  (totalTokens messages : ℤ) / 1000000 * max 0 (sifter.modelConfig .expert).inputCostPerMtok +
    sifter.maxOutput .expert / 1000000 * max 0 (sifter.modelConfig .expert).outputCostPerMtok

/-- The limits leave room for the largest answer to each call. -/
structure Covered (sifter : ComputeSifter) (task : Task) (events : List (Event Op Op.Answer)) :
    Prop where
  tokens : 0 ≤ sifter.config.maxCloudTokensPerTask
  cost : 0 ≤ sifter.ceiling task
  room : ∀ past call answer later, events = past ++ ⟨.generate call, answer⟩ :: later →
    call.tier = .expert → 0 ≤ sifter.maxOutput .expert →
      spentTokens past + (totalTokens call.messages + sifter.maxOutput .expert) ≤
          sifter.config.maxCloudTokensPerTask ∧
        sifter.spentCost past + sifter.largestCost call.messages ≤ sifter.ceiling task

theorem newSession_limits (task : Task) :
    (sifter.newSession task).budget.budget.tokens = 0 ∧
      (sifter.newSession task).budget.budget.cost = 0 := ⟨rfl, rfl⟩

theorem capped_iff {task : Task} {outcome : Except Raised SifterResult}
    (does : (sifter.run task).Does (sifter.newSession task) events outcome after) :
    sifter.Capped task after ↔
      spentTokens events ≤ sifter.config.maxCloudTokensPerTask ∧
        sifter.spentCost events ≤ sifter.ceiling task := by
  rcases run_ledger does with ⟨isOpen, ledger⟩
  rcases ledger.spends with ⟨isTokens, isCost⟩
  simp only [newSession_limits, zero_add] at isTokens isCost
  rw [← isTokens, ← isCost]
  exact ⟨fun capped => ⟨capped.tokens, capped.cost⟩, fun ⟨tokens, cost⟩ => ⟨tokens, cost⟩⟩

theorem price_le {count bound : ℤ} (notNegative : 0 ≤ count) (isBounded : count ≤ bound)
    (price : ℚ) : (count : ℚ) / 1000000 * price ≤ bound / 1000000 * max 0 price := by
  have isCount : (0 : ℚ) ≤ count := by exact_mod_cast notNegative
  have isBound : (count : ℚ) ≤ bound := by exact_mod_cast isBounded
  calc (count : ℚ) / 1000000 * price ≤ count / 1000000 * max 0 price := by
        gcongr
        exact le_max_right 0 price
    _ ≤ bound / 1000000 * max 0 price := by gcongr

/-- A call that is covered and answered as reported stays within the limits. -/
theorem call_capped {past : List (Event Op Op.Answer)} {call : Call} {result : GenerationResult}
    {maxTokens : ℤ} {maxCost : ℚ} (isExpert : call.tier = .expert)
    (limit : call.maxTokens = some (sifter.maxOutput .expert))
    (reported : Reported ⟨.generate call, .ok result⟩)
    (room : 0 ≤ sifter.maxOutput .expert →
      spentTokens past + (totalTokens call.messages + sifter.maxOutput .expert) ≤ maxTokens ∧
        sifter.spentCost past + sifter.largestCost call.messages ≤ maxCost) :
    spentTokens (past ++ [⟨.generate call, .ok result⟩]) ≤ maxTokens ∧
      sifter.spentCost (past ++ [⟨.generate call, .ok result⟩]) ≤ maxCost := by
  rcases reported isExpert with ⟨inputNonneg, inputLe, outputNonneg, outputLe⟩
  have outputMax := outputLe _ limit
  rcases room (outputNonneg.trans outputMax) with ⟨hasTokens, hasCost⟩
  have inputCost := price_le inputNonneg inputLe (sifter.modelConfig .expert).inputCostPerMtok
  have outputCost := price_le outputNonneg outputMax (sifter.modelConfig .expert).outputCostPerMtok
  rw [largestCost] at hasCost
  rw [spentTokens_append, spentCost_append]
  simp only [spentTokens, spentCost, List.map_cons, List.map_nil, List.sum_cons, List.sum_nil,
    tokensOf, costOf, isExpert, if_true, ModelConfig.estimateCost] at hasTokens hasCost ⊢
  exact ⟨by omega, by linarith⟩

/-- The events of a run in which each call is covered and answered as reported. -/
theorem spent_le {maxTokens : ℤ} {maxCost : ℚ} (tokens : 0 ≤ maxTokens) (cost : 0 ≤ maxCost)
    (limits : ∀ call answer, (⟨.generate call, answer⟩ : Event Op Op.Answer) ∈ events →
      call.tier = .expert → call.maxTokens = some (sifter.maxOutput .expert))
    (reported : ∀ event ∈ events, Reported event)
    (room : ∀ past call answer later, events = past ++ ⟨.generate call, answer⟩ :: later →
      call.tier = .expert → 0 ≤ sifter.maxOutput .expert →
        spentTokens past + (totalTokens call.messages + sifter.maxOutput .expert) ≤ maxTokens ∧
          sifter.spentCost past + sifter.largestCost call.messages ≤ maxCost) :
    spentTokens events ≤ maxTokens ∧ sifter.spentCost events ≤ maxCost := by
  induction events using List.reverseRecOn with
  | nil => exact ⟨tokens, cost⟩
  | append_singleton past event ih =>
      have before := ih (fun call answer isThere => limits call answer (by simp [isThere]))
        (fun earlier isThere => reported earlier (by simp [isThere]))
        (fun earlier call answer later isPast =>
          room earlier call answer (later ++ [event]) (by simp [isPast]))
      have unchanged (notSpent : tokensOf event = 0 ∧ sifter.costOf event = 0) :
          spentTokens (past ++ [event]) ≤ maxTokens ∧
            sifter.spentCost (past ++ [event]) ≤ maxCost := by
        simpa [spentTokens, spentCost, notSpent] using before
      cases isCall : isExpertCall event with
      | false => exact unchanged (spends_of_other sifter isCall)
      | true =>
          rcases event with ⟨op, answer⟩
          cases op with
          | generate call =>
              have isExpert : call.tier = .expert := by simpa [isExpertCall] using isCall
              cases answer with
              | error raised => exact unchanged ⟨rfl, rfl⟩
              | ok result =>
                  exact call_capped isExpert (limits call (.ok result) (by simp) isExpert)
                    (reported _ (by simp)) (room past call _ [] rfl isExpert)
          | approval request => cases isCall
          | recordApproval request decision => cases isCall
          | budgetCheck tokens cost denied => cases isCall
          | verify answer => cases isCall

/-- Where every answer is an exception, nothing is spent. -/
theorem nothing_spent (sifter : ComputeSifter) (message : String)
    (areRaised : ∀ event ∈ events, event.answer = raising message event.op) :
    spentTokens events = 0 ∧ sifter.spentCost events = 0 ∧ ∀ event ∈ events, Reported event := by
  have spendsNothing (event : Event Op Op.Answer) (isThere : event ∈ events) :
      tokensOf event = 0 ∧ sifter.costOf event = 0 ∧ Reported event := by
    have isRaised := areRaised event isThere
    rcases event with ⟨op, answer⟩
    cases op with
    | generate call =>
        change answer = .error _ at isRaised
        subst isRaised
        exact ⟨rfl, rfl, trivial⟩
    | approval request => exact ⟨rfl, rfl, trivial⟩
    | recordApproval request decision => exact ⟨rfl, rfl, trivial⟩
    | budgetCheck tokens cost denied => exact ⟨rfl, rfl, trivial⟩
    | verify answer => exact ⟨rfl, rfl, trivial⟩
  refine ⟨List.sum_eq_zero ?_, List.sum_eq_zero ?_, fun event isThere => (spendsNothing event isThere).2.2⟩
  · intro amount isAmount
    rcases List.mem_map.mp isAmount with ⟨event, isThere, rfl⟩
    exact (spendsNothing event isThere).1
  · intro amount isAmount
    rcases List.mem_map.mp isAmount with ⟨event, isThere, rfl⟩
    exact (spendsNothing event isThere).2.1

/-- Any call of a run may be answered as reported, and nothing be spent after it. -/
theorem answered_otherwise {task : Task} {outcome : Except Raised SifterResult}
    {past later : List (Event Op Op.Answer)} {call : Call} {answer : Op.Answer (.generate call)}
    (does : (sifter.run task).Does (sifter.newSession task)
      (past ++ ⟨.generate call, answer⟩ :: later) outcome after)
    (areReported : ∀ event ∈ past, Reported event) {result : GenerationResult}
    (isReported : Reported ⟨.generate call, .ok result⟩) :
    ∃ events ended final, (sifter.run task).Does (sifter.newSession task) events ended final ∧
      (∀ event ∈ events, Reported event) ∧
      spentTokens events = spentTokens (past ++ [⟨.generate call, .ok result⟩]) ∧
      sifter.spentCost events = sifter.spentCost (past ++ [⟨.generate call, .ok result⟩]) := by
  rcases Coroutine.does_switch (raising "no answer") does (.ok result) with
    ⟨rest, ended, final, does, areRaised⟩
  rcases nothing_spent sifter "no answer" areRaised with ⟨noTokens, noCost, restReported⟩
  have isSplit : past ++ (⟨.generate call, .ok result⟩ : Event Op Op.Answer) :: rest =
      (past ++ [⟨.generate call, .ok result⟩]) ++ rest := by simp
  refine ⟨_, ended, final, does, ?_, ?_, ?_⟩
  · intro event isThere
    rcases List.mem_append.mp isThere with isPast | isLater
    · exact areReported event isPast
    · rcases List.mem_cons.mp isLater with rfl | isRest
      · exact isReported
      · exact restReported event isRest
  · rw [isSplit, spentTokens_append, noTokens, add_zero]
  · rw [isSplit, spentCost_append, noCost, add_zero]

/-- The largest answer that may be reported to a call, its input as large as `input`. -/
theorem largest_reported {call : Call} {input : ℤ} (inputNonneg : 0 ≤ input)
    (inputLe : input ≤ totalTokens call.messages)
    (limit : call.maxTokens = some (sifter.maxOutput .expert)) {output : ℤ}
    (outputNonneg : 0 ≤ output) (outputLe : output ≤ sifter.maxOutput .expert) :
    Reported ⟨.generate call, .ok
      { text := "", model := "", tier := .expert, inputTokens := input, outputTokens := output }⟩ := by
  intro _
  refine ⟨inputNonneg, inputLe, outputNonneg, fun given isGiven => ?_⟩
  rw [limit] at isGiven
  cases isGiven
  exact outputLe

theorem price_attained (bound : ℤ) (price : ℚ) :
    ((if 0 ≤ price then bound else 0 : ℤ) : ℚ) / 1000000 * price =
      bound / 1000000 * max 0 price := by
  split
  · rename_i notNegative
    rw [max_eq_right notNegative]
  · rename_i isNegative
    simp [max_eq_left (not_le.mp isNegative).le]

/-- The recorded spending stays within the limits in each run whose calls are covered; and if
it stays within them in every run, the calls of every run are covered. -/
theorem spending_capped_iff (sifter : ComputeSifter) (task : Task) :
    (∀ events outcome after,
      (sifter.run task).Does (sifter.newSession task) events outcome after →
        (∀ event ∈ events, Reported event) → sifter.Covered task events →
          sifter.Capped task after) ∧
    ((∀ events outcome after,
      (sifter.run task).Does (sifter.newSession task) events outcome after →
        (∀ event ∈ events, Reported event) → sifter.Capped task after) →
      ∀ events outcome after,
        (sifter.run task).Does (sifter.newSession task) events outcome after →
          (∀ event ∈ events, Reported event) → sifter.Covered task events) := by
  constructor
  · intro events outcome after does reported covered
    rcases run_ledger does with ⟨isOpen, ledger⟩
    exact (capped_iff does).mpr (spent_le covered.tokens covered.cost
      (fun _ answer => ledger.limits answer) reported covered.room)
  · intro allCapped events outcome after does reported
    have isIdle : 0 ≤ sifter.config.maxCloudTokensPerTask ∧ 0 ≤ sifter.ceiling task := by
      have played := Coroutine.does_play (fun _ => raising "no answer") (sifter.run task)
        (sifter.newSession task)
      rcases nothing_spent sifter "no answer"
        (fun event isThere => Program.answer_of_play isThere) with ⟨noTokens, noCost, areReported⟩
      have capped := (capped_iff played).mp (allCapped _ _ _ played areReported)
      rwa [noTokens, noCost] at capped
    refine ⟨isIdle.1, isIdle.2, ?_⟩
    rintro past call answer later rfl isExpert outputNonneg
    rcases run_ledger does with ⟨isOpen, ledger⟩
    have limit := ledger.limits answer (by simp) isExpert
    have areReported (event : Event Op Op.Answer) (isThere : event ∈ past) : Reported event :=
      reported event (by simp [isThere])
    have within {input output : ℤ} (inputNonneg : 0 ≤ input)
        (inputLe : input ≤ totalTokens call.messages) (outputNonneg : 0 ≤ output)
        (outputLe : output ≤ sifter.maxOutput .expert) :
        spentTokens past + (input + output) ≤ sifter.config.maxCloudTokensPerTask ∧
          sifter.spentCost past + (sifter.modelConfig .expert).estimateCost input output ≤
            sifter.ceiling task := by
      rcases answered_otherwise does areReported
        (largest_reported inputNonneg inputLe limit outputNonneg outputLe) with
        ⟨events, ended, final, does, areReported, isTokens, isCost⟩
      have capped := (capped_iff does).mp (allCapped _ _ _ does areReported)
      rw [isTokens, isCost, spentTokens_append, spentCost_append] at capped
      simpa [spentTokens, spentCost, tokensOf, costOf, isExpert] using capped
    refine ⟨(within (Int.natCast_nonneg _) le_rfl outputNonneg le_rfl).1, ?_⟩
    have inputPrice := price_attained (totalTokens call.messages)
      (sifter.modelConfig .expert).inputCostPerMtok
    have outputPrice := price_attained (sifter.maxOutput .expert)
      (sifter.modelConfig .expert).outputCostPerMtok
    rw [largestCost, ← inputPrice, ← outputPrice]
    refine (within ?_ ?_ ?_ ?_).2
    · split <;> omega
    · split <;> omega
    · split <;> omega
    · split <;> omega

/-! ## Where the cap breaks -/

/-- A task that may cost a tenth of a cent: enough for the estimate of its analysis, which
counts no output. -/
def cheapTask : Task :=
  truncateUnder (some (1 / 1000))

theorem cheapTask_needed :
    (localSifter.classification cheapTask).requiresHumanApproval = true :=
  truncateTask_needed

/-- The answer to the analysis is as long as it may be, and costs twice the ceiling. -/
theorem cheapTask_overspends :
    ∃ events outcome after, (localSifter.run cheapTask).Does (localSifter.newSession cheapTask)
        events outcome after ∧
      (∀ event ∈ events, Reported event) ∧ ¬ localSifter.Capped cheapTask after := by
  rcases analysis_reached rfl cheapTask_needed (truncateUnder_letsThrough (by simp))
    { text := "", model := "deepseek-chat", tier := .expert } { action := .stop } with
    ⟨messages, call, rest, _, _, isExpert, does⟩
  let request := buildApprovalRequest cheapTask (localSifter.classification cheapTask)
  let past : List (Event Op Op.Answer) :=
    [⟨.approval request, .ok { action := .allowExpertAnalysis }⟩,
      localSifter.checkEvent (localSifter.newSession cheapTask).budget messages]
  have pastReported : ∀ event ∈ past, Reported event := by simp [past, Reported, checkEvent]
  rcases run_ledger does with ⟨isOpen, ledger⟩
  have limit := ledger.limits (.ok { text := "", model := "deepseek-chat", tier := .expert })
    (by simp) isExpert
  rcases answered_otherwise does pastReported
    (largest_reported (le_refl 0) (Int.natCast_nonneg _) limit (by decide : (0 : ℤ) ≤ 8192)
      (by decide)) with ⟨events, outcome, after, does, areReported, _, isCost⟩
  refine ⟨events, outcome, after, does, areReported, fun capped => ?_⟩
  have tooMuch := ((capped_iff does).mp capped).2
  have isCeiling : localSifter.ceiling cheapTask = 1 / 1000 := rfl
  have isPrice : (localSifter.modelConfig .expert).estimateCost 0 8192 = 8192 / 1000000 * (28 / 100) := by
    simp [ModelConfig.estimateCost, modelConfig, SifterConfig.cloudModelConfig, localSifter,
      localConfig]
  rw [isCost, isCeiling] at tooMuch
  simp only [past, spentCost, checkEvent, List.cons_append, List.nil_append, List.map_cons,
    List.map_nil, List.sum_cons, List.sum_nil, costOf, isExpert, if_true, isPrice] at tooMuch
  norm_num at tooMuch

end ComputeSifter

end Aa.Sifter
