import Aa.Sifter.Parts

/-!
# What a run does, in order

The moments of a run that matter for authority over it: the requests to the human,
answered or not, and the calls made to providers. One lemma for each function of the run says
which moments it adds; `run_moments` assembles them into the only three parts a run
can have: the approval path, the work on the route, and the escalation.
-/

namespace Aa.Sifter

open Aa.Library

inductive Moment
  | asked (request : ApprovalRequest) (decision : HumanDecision)
  | unanswered (request : ApprovalRequest)
  | called (call : Call)

/-- The moment an event is, if it is one. -/
def momentOf (event : Event Op Op.Answer) : Option Moment :=
  match event with
  | ⟨.approval request, .ok decision⟩ => some (.asked request decision)
  | ⟨.approval request, .error _⟩ => some (.unanswered request)
  | ⟨.generate call, _⟩ => some (.called call)
  | _ => none

def moments (events : List (Event Op Op.Answer)) : List Moment :=
  events.filterMap momentOf

@[simp]
theorem moments_nil : moments [] = [] := rfl

@[simp]
theorem moments_append (first second : List (Event Op Op.Answer)) :
    moments (first ++ second) = moments first ++ moments second :=
  List.filterMap_append

/-- Whether an event is a verification that passed. -/
def passes (event : Event Op Op.Answer) : Bool :=
  match event with
  | ⟨.verify _, .ok result⟩ => result.passed
  | _ => false

/-- Some verification has passed. -/
def Verified (events : List (Event Op Op.Answer)) : Prop :=
  ∃ event ∈ events, passes event = true

theorem not_verified_nil : ¬ Verified [] := by
  simp [Verified]

theorem verified_append {first second : List (Event Op Op.Answer)} :
    Verified (first ++ second) ↔ Verified first ∨ Verified second := by
  simp only [Verified, List.mem_append, or_and_right, exists_or]

/-- Every moment is a call that satisfies `holds`. -/
def CallsOnly (holds : Call → Prop) (trace : List Moment) : Prop :=
  ∀ moment ∈ trace, ∃ call, moment = .called call ∧ holds call

namespace CallsOnly

variable {holds weaker : Call → Prop} {first second : List Moment}

theorem nil : CallsOnly holds [] := by
  intro moment isThere
  simp at isThere

theorem append (firstCalls : CallsOnly holds first) (secondCalls : CallsOnly holds second) :
    CallsOnly holds (first ++ second) := by
  intro moment isThere
  rcases List.mem_append.mp isThere with isFirst | isSecond
  · exact firstCalls moment isFirst
  · exact secondCalls moment isSecond

theorem single {call : Call} (isHeld : holds call) : CallsOnly holds [.called call] := by
  intro moment isThere
  rw [List.mem_singleton] at isThere
  exact ⟨call, isThere, isHeld⟩

theorem mono (isWeaker : ∀ call, holds call → weaker call) (calls : CallsOnly holds first) :
    CallsOnly weaker first := by
  intro moment isThere
  rcases calls moment isThere with ⟨call, isCall, isHeld⟩
  exact ⟨call, isCall, isWeaker call isHeld⟩

theorem not_asked (calls : CallsOnly holds first) {request : ApprovalRequest}
    {decision : HumanDecision} : .asked request decision ∉ first := by
  intro isThere
  rcases calls _ isThere with ⟨call, isCall, _⟩
  cases isCall

/-- A stretch of calls is guarded if each call is permitted after the calls before it. -/
theorem guarded {permits : List Moment → Moment → Prop} {past : List Moment}
    (calls : CallsOnly holds first)
    (permitted : ∀ before call, CallsOnly holds before → holds call →
      permits (past ++ before) (.called call)) :
    Guarded permits past first := by
  refine guarded_iff_split.mpr ?_
  rintro before moment after rfl
  rcases calls moment (by simp) with ⟨call, rfl, isHeld⟩
  refine permitted before call ?_ isHeld
  intro earlier isEarlier
  exact calls earlier (List.mem_append_left _ isEarlier)

end CallsOnly

namespace ComputeSifter

variable {sifter : ComputeSifter} {before after : Session}
  {events : List (Event Op Op.Answer)}

/-! ## Single operations -/

theorem requireApproval_moments {request : ApprovalRequest}
    {outcome : Except Raised HumanDecision}
    (does : (sifter.requireApproval request).Does before events outcome after) :
    (∃ decision, outcome = .ok decision ∧ moments events = [.asked request decision] ∧
        after = before) ∨
      ∃ raised, outcome = .error raised ∧
        (moments events = [.unanswered request] ∨
          ∃ decision, moments events = [.asked request decision]) := by
  simp only [requireApproval, Coroutine.does_bind, Coroutine.does_perform] at does
  rcases does with ⟨decision, middle, asking, recording, ⟨answer, rfl, answered, rfl⟩, rest, rfl⟩ |
      ⟨raised, ⟨answer, rfl, answered, rfl⟩, rfl⟩
  · cases answered
    have isAsked : moments [⟨Op.approval request, Except.ok decision⟩] =
        [.asked request decision] := rfl
    split at rest
    · simp only [Coroutine.does_bind, Coroutine.does_perform, Coroutine.does_pure] at rest
      rcases rest with ⟨_, _, _, _, ⟨reply, rfl, _, rfl⟩, ⟨rfl, rfl, rfl⟩, rfl⟩ |
          ⟨raised, ⟨reply, rfl, _, rfl⟩, rfl⟩
      · exact .inl ⟨decision, rfl, by simp [moments, momentOf], rfl⟩
      · exact .inr ⟨raised, rfl, .inr ⟨decision, by simp [moments, momentOf]⟩⟩
    · simp only [Coroutine.does_pure] at rest
      rcases rest with ⟨rfl, rfl, rfl⟩
      exact .inl ⟨decision, rfl, by simp [isAsked], rfl⟩
  · cases answered
    exact .inr ⟨raised, rfl, .inl rfl⟩

/-- A call that `_call_tier` makes for a tier, a purpose and messages. -/
structure Sends (sifter : ComputeSifter) (tier : Tier) (messages : List (Message Char))
    (purpose : Purpose) (call : Call) : Prop where
  onTier : call.tier = tier
  purpose : call.purpose = purpose
  model : call.model = (sifter.modelConfig tier).name
  provider : sifter.registry.providerFor (sifter.modelConfig tier).name
    (sifter.modelConfig tier).provider = .ok call.provider
  messages : call.messages = sifter.prepared tier messages
  allowed : isCloudBound tier (sifter.modelConfig tier) → sifter.config.cloudAllowed

/-- No moments and no verifications that passed. -/
def Silent (events : List (Event Op Op.Answer)) : Prop :=
  ∀ event ∈ events, momentOf event = none ∧ passes event = false

theorem silent_nil : Silent [] := by
  simp [Silent]

theorem Silent.moments_eq (silent : Silent events) : moments events = [] :=
  List.filterMap_eq_nil_iff.mpr fun event isThere => (silent event isThere).1

/-- The check of an expert call: its outcome and the tracker after it. -/
def checked (sifter : ComputeSifter) (budget : BudgetTracker) (messages : List (Message Char)) :
    Option BudgetExceeded × BudgetTracker :=
  budget.check (totalTokens messages)
    ((sifter.modelConfig .expert).estimateCost (totalTokens messages : ℤ) 0)

/-- A check that passes leaves the tracker as it is. -/
theorem checked_passed {tracker : BudgetTracker} {messages : List (Message Char)}
    (passed : (sifter.checked tracker messages).1 = none) :
    (sifter.checked tracker messages).2 = tracker := by
  simp only [checked, BudgetTracker.check] at passed ⊢
  split at passed
  · rfl
  · cases passed

/-- The check of an expert call in the trace. -/
def checkEvent (sifter : ComputeSifter) (budget : BudgetTracker) (messages : List (Message Char)) :
    Event Op Op.Answer :=
  ⟨.budgetCheck (totalTokens messages)
    ((sifter.modelConfig .expert).estimateCost (totalTokens messages : ℤ) 0)
    (sifter.checked budget messages).1, ()⟩

@[simp]
theorem momentOf_checkEvent (budget : BudgetTracker) (messages : List (Message Char)) :
    momentOf (sifter.checkEvent budget messages) = none := rfl

/-- How a check ends. -/
def verdict : Option BudgetExceeded → Except Raised Unit
  | some exceeded => .error (.budgetExceeded exceeded)
  | none => .ok ()

theorem checkBudget_local {messages : List (Message Char)} {outcome : Except Raised Unit} :
    (sifter.checkBudget .local messages).Does before events outcome after ↔
      events = [] ∧ outcome = .ok () ∧ after = before := Coroutine.does_pure

theorem checkBudget_expert {messages : List (Message Char)} {outcome : Except Raised Unit} :
    (sifter.checkBudget .expert messages).Does before events outcome after ↔
      events = [sifter.checkEvent before.budget messages] ∧
        outcome = verdict (sifter.checked before.budget messages).1 ∧
        after = { before with budget := (sifter.checked before.budget messages).2 } := by
  constructor
  · intro does
    simp only [checkBudget, if_true, Coroutine.does_bind, Coroutine.does_read,
      Coroutine.does_write, Coroutine.does_perform] at does
    rcases does with ⟨_, _, _, _, ⟨rfl, isSession, rfl⟩, rest, rfl⟩ | ⟨_, ⟨_, no, _⟩, _⟩
    · cases isSession
      rcases rest with ⟨_, _, _, _, ⟨rfl, _, rfl⟩, rest, rfl⟩ | ⟨_, ⟨_, no, _⟩, _⟩
      · rcases rest with ⟨_, _, _, _, ⟨_, rfl, _, rfl⟩, rest, rfl⟩ | ⟨_, ⟨_, _, no, _⟩, _⟩
        · split at rest
          · rename_i exceeded isDenied
            rcases Coroutine.does_raise.mp rest with ⟨rfl, rfl, rfl⟩
            refine ⟨rfl, ?_, rfl⟩
            rw [checked, isDenied]
            rfl
          · rename_i isPassed
            rcases Coroutine.does_pure.mp rest with ⟨rfl, rfl, rfl⟩
            refine ⟨rfl, ?_, rfl⟩
            rw [checked, isPassed]
            rfl
        · cases no
      · cases no
    · cases no
  · rintro ⟨rfl, rfl, rfl⟩
    refine Coroutine.does_bind_ok (Coroutine.does_read.mpr ⟨rfl, rfl, rfl⟩)
      (Coroutine.does_bind_ok (Coroutine.does_write.mpr ⟨rfl, rfl, rfl⟩)
        (Coroutine.does_bind_ok (Coroutine.does_perform_answer rfl) ?_))
    cases isChecked : (sifter.checked before.budget messages).1 with
    | none =>
        rw [checked] at isChecked
        simp only [isChecked]
        exact Coroutine.does_pure.mpr ⟨rfl, rfl, rfl⟩
    | some exceeded =>
        rw [checked] at isChecked
        simp only [isChecked]
        exact Coroutine.does_raise.mpr ⟨rfl, rfl, rfl⟩

theorem checkBudget_silent {tier : Tier} {messages : List (Message Char)}
    {outcome : Except Raised Unit}
    (does : (sifter.checkBudget tier messages).Does before events outcome after) :
    Silent events := by
  cases tier with
  | «local» =>
      rw [(checkBudget_local.mp does).1]
      exact silent_nil
  | expert =>
      rw [(checkBudget_expert.mp does).1]
      intro event isThere
      rw [List.mem_singleton.mp isThere]
      exact ⟨rfl, rfl⟩

/-- A call to a tier sends at most one request, and ends as that is answered. -/
theorem callTier_answered {tier : Tier} {messages : List (Message Char)} {purpose : Purpose}
    {outcome : Except Raised String}
    (does : (sifter.callTier tier messages purpose).Does before events outcome after) :
    (∃ call reply checks, sifter.Sends tier messages purpose call ∧ Silent checks ∧
        events = checks ++ [⟨.generate call, reply⟩] ∧
        outcome = Except.map GenerationResult.text reply) ∨
      (∃ raised, outcome = .error raised ∧ Silent events) := by
  simp only [callTier] at does
  split at does
  · rcases Coroutine.does_raise.mp does with ⟨rfl, rfl, _⟩
    exact .inr ⟨_, rfl, silent_nil⟩
  · rename_i provider isProvider
    split at does
    · rcases Coroutine.does_raise.mp does with ⟨rfl, rfl, _⟩
      exact .inr ⟨_, rfl, silent_nil⟩
    · rename_i notRefused
      have allowed (bound : isCloudBound tier (sifter.modelConfig tier)) :
          sifter.config.cloudAllowed := by
        simpa [bound] using notRefused
      simp only [Coroutine.does_bind, Coroutine.does_perform, Coroutine.does_modify,
        Coroutine.does_pure] at does
      rcases does with ⟨_, _, checks, _, checked, rest, rfl⟩ | ⟨raised, checked, rfl⟩
      · have isSilent := checkBudget_silent checked
        rcases rest with
          ⟨result, _, _, _, ⟨reply, rfl, isReply, _⟩,
              ⟨_, _, _, _, ⟨rfl, _⟩, ⟨rfl, isText, _⟩, rfl⟩ | ⟨_, ⟨_, no, _⟩, _⟩, rfl⟩ |
            ⟨raised, ⟨reply, rfl, isReply, _⟩, isRaised⟩
        · cases isReply
          exact .inl ⟨_, _, checks, ⟨rfl, rfl, rfl, isProvider, rfl, allowed⟩, isSilent, rfl, isText⟩
        · cases no
        · cases isReply
          exact .inl
            ⟨_, _, checks, ⟨rfl, rfl, rfl, isProvider, rfl, allowed⟩, isSilent, rfl, isRaised⟩
      · exact .inr ⟨raised, rfl, checkBudget_silent checked⟩

/-- A call to a tier sends at most one request, and returns only if it sent one. -/
theorem callTier_events {tier : Tier} {messages : List (Message Char)} {purpose : Purpose}
    {outcome : Except Raised String}
    (does : (sifter.callTier tier messages purpose).Does before events outcome after) :
    (∃ call reply checks, sifter.Sends tier messages purpose call ∧ Silent checks ∧
        events = checks ++ [⟨.generate call, reply⟩]) ∨
      (∃ raised, outcome = .error raised ∧ Silent events) := by
  rcases callTier_answered does with ⟨call, reply, checks, sends, silent, isCall, _⟩ | silent
  · exact .inl ⟨call, reply, checks, sends, silent, isCall⟩
  · exact .inr silent

/-- A call that returns was answered with the text that it returns. -/
theorem callTier_returned {tier : Tier} {messages : List (Message Char)} {purpose : Purpose}
    {text : String}
    (does : (sifter.callTier tier messages purpose).Does before events (.ok text) after) :
    ∃ call result checks, sifter.Sends tier messages purpose call ∧ Silent checks ∧
      events = checks ++ [⟨.generate call, .ok result⟩] ∧ result.text = text := by
  rcases callTier_answered does with ⟨call, reply, checks, sends, silent, isCall, isText⟩ | ⟨_, no, _⟩
  · cases reply with
    | ok result => exact ⟨call, result, checks, sends, silent, isCall, (Except.ok.inj isText).symm⟩
    | error raised => cases isText
  · cases no

/-- At most one request to a tier. -/
def CallsOnce (sifter : ComputeSifter) (tier : Tier) (events : List (Event Op Op.Answer)) : Prop :=
  (∃ messages purpose call reply checks, sifter.Sends tier messages purpose call ∧ Silent checks ∧
    events = checks ++ [⟨.generate call, reply⟩]) ∨ Silent events

theorem callTier_once {tier : Tier} {messages : List (Message Char)} {purpose : Purpose}
    {outcome : Except Raised String}
    (does : (sifter.callTier tier messages purpose).Does before events outcome after) :
    sifter.CallsOnce tier events := by
  rcases callTier_events does with ⟨call, reply, checks, sends, silent, isCall⟩ | ⟨_, _, silent⟩
  · exact .inl ⟨messages, purpose, call, reply, checks, sends, silent, isCall⟩
  · exact .inr silent

/-- A call whose exceptions are handled without further operations. -/
theorem handledCall_once {α : Type} {tier : Tier} {messages : List (Message Char)}
    {purpose : Purpose} {wrap : String → α} {handler : Raised → Run α}
    (quiet : ∀ raised before events outcome after,
      (handler raised).Does before events outcome after → events = [])
    {outcome : Except Raised α}
    (does : (Coroutine.catching
      (do
        let answer ← sifter.callTier tier messages purpose
        pure (wrap answer)) handler).Does before events outcome after) :
    sifter.CallsOnce tier events := by
  simp only [Coroutine.does_catching, Coroutine.does_bind, Coroutine.does_pure] at does
  rcases does with
    ⟨_, ⟨_, _, _, _, calling, ⟨rfl, _⟩, rfl⟩ | ⟨_, _, no⟩, _⟩ |
      ⟨raised, _, _, later, ⟨_, _, _, _, _, ⟨_, no, _⟩, _⟩ | ⟨_, calling, _⟩, handling, rfl⟩
  · rw [List.append_nil]
    exact callTier_once calling
  · cases no
  · cases no
  · have noEvents := quiet raised _ _ _ _ handling
    subst noEvents
    rw [List.append_nil]
    exact callTier_once calling

theorem tryLocally_once {messages : List (Message Char)}
    {outcome : Except Raised (Except String String)}
    (does : (sifter.tryLocally messages).Does before events outcome after) :
    sifter.CallsOnce .local events := by
  refine handledCall_once ?_ does
  intro raised _ _ _ _ handling
  cases raised with
  | providerError message => exact (Coroutine.does_pure.mp handling).1
  | budgetExceeded exceeded => exact (Coroutine.does_raise.mp handling).1
  | other message => exact (Coroutine.does_raise.mp handling).1

theorem diagnosed_once {packet : EscalationPacket} {answer : String}
    {outcome : Except Raised (String × Bool)}
    (does : (sifter.diagnosed packet answer).Does before events outcome after) :
    sifter.CallsOnce .expert events := by
  refine handledCall_once ?_ does
  intro raised _ _ _ _ handling
  cases raised with
  | budgetExceeded exceeded => exact (Coroutine.does_pure.mp handling).1
  | providerError message => exact (Coroutine.does_raise.mp handling).1
  | other message => exact (Coroutine.does_raise.mp handling).1

/-- What authority is about in a call: whether it goes to the expert, and that no
expert is called where cloud is disabled. -/
structure Governed (sifter : ComputeSifter) (tier : Tier) (call : Call) : Prop where
  onTier : call.tier = tier
  provider : sifter.registry.providerFor (sifter.modelConfig tier).name
    (sifter.modelConfig tier).provider = .ok call.provider
  allowed : tier = .expert → sifter.config.cloudAllowed

theorem Sends.governed {tier : Tier} {messages : List (Message Char)} {purpose : Purpose}
    {call : Call} (sends : sifter.Sends tier messages purpose call) :
    sifter.Governed tier call :=
  ⟨sends.onTier, sends.provider, fun isExpert => sends.allowed (by simp [isCloudBound, isExpert])⟩

theorem callTier_moments {tier : Tier} {messages : List (Message Char)} {purpose : Purpose}
    {outcome : Except Raised String}
    (does : (sifter.callTier tier messages purpose).Does before events outcome after) :
    (∃ call, sifter.Governed tier call ∧ moments events = [.called call]) ∨
      (∃ raised, outcome = .error raised ∧ moments events = []) := by
  rcases callTier_events does with ⟨call, reply, checks, sends, silent, rfl⟩ | ⟨raised, rfl, silent⟩
  · refine .inl ⟨call, sends.governed, ?_⟩
    rw [moments_append, silent.moments_eq]
    rfl
  · exact .inr ⟨raised, rfl, silent.moments_eq⟩

/-- An expert call that raises before it reaches the provider: there is none, cloud is
disabled, or the budget does not allow the call. -/
def ExpertRefused (sifter : ComputeSifter) (budget : BudgetTracker)
    (messages : List (Message Char)) : Prop :=
  (∃ message, sifter.registry.providerFor (sifter.modelConfig .expert).name
    (sifter.modelConfig .expert).provider = .error message) ∨
  sifter.config.cloudAllowed = false ∨
  (budget.check (totalTokens (sifter.prepared .expert messages))
    ((sifter.modelConfig .expert).estimateCost
      (totalTokens (sifter.prepared .expert messages) : ℤ) 0)).1.isSome = true

theorem callTier_refused {messages : List (Message Char)} {purpose : Purpose}
    {outcome : Except Raised String} (isRefused : sifter.ExpertRefused before.budget messages)
    (does : (sifter.callTier .expert messages purpose).Does before events outcome after) :
    Silent events ∧ ∃ raised, outcome = .error raised := by
  simp only [callTier] at does
  split at does
  · rcases Coroutine.does_raise.mp does with ⟨rfl, rfl, _⟩
    exact ⟨silent_nil, _, rfl⟩
  · rename_i provider isProvider
    split at does
    · rcases Coroutine.does_raise.mp does with ⟨rfl, rfl, _⟩
      exact ⟨silent_nil, _, rfl⟩
    · rename_i notForbidden
      have isDenied : (sifter.checked before.budget
          (sifter.prepared .expert messages)).1.isSome = true := by
        rcases isRefused with ⟨message, isError⟩ | isDisabled | isDenied
        · rw [isProvider] at isError
          cases isError
        · simp [isCloudBound, isDisabled] at notForbidden
        · exact isDenied
      rcases Option.isSome_iff_exists.mp isDenied with ⟨exceeded, isExceeded⟩
      simp only [Coroutine.does_bind] at does
      rcases does with ⟨_, _, _, _, checking, _⟩ | ⟨raised, checking, rfl⟩
      · have isVerdict := (checkBudget_expert.mp checking).2.1
        rw [isExceeded] at isVerdict
        cases isVerdict
      · exact ⟨checkBudget_silent checking, raised, rfl⟩

/-! ## Work: stretches of a run that only call -/

/-- Not a request to the human, and if a call then one that satisfies `holds`. -/
def WorkEvent (holds : Call → Prop) (event : Event Op Op.Answer) : Prop :=
  ∀ moment, momentOf event = some moment → ∃ call, moment = .called call ∧ holds call

theorem callsOnly_of_workEvents {holds : Call → Prop}
    (areWork : ∀ event ∈ events, WorkEvent holds event) : CallsOnly holds (moments events) := by
  intro moment isThere
  rcases List.mem_filterMap.mp isThere with ⟨event, isEvent, isMoment⟩
  exact areWork event isEvent moment isMoment

theorem WorkEvent.mono {holds weaker : Call → Prop} (isWeaker : ∀ call, holds call → weaker call)
    (event : Event Op Op.Answer) (isWork : WorkEvent holds event) : WorkEvent weaker event := by
  intro moment isMoment
  rcases isWork moment isMoment with ⟨call, isCall, isHeld⟩
  exact ⟨call, isCall, isWeaker call isHeld⟩

theorem CallsOnce.workEvents {tier : Tier} (calls : sifter.CallsOnce tier events) :
    ∀ event ∈ events, WorkEvent (sifter.Governed tier) event := by
  have silentWork {quiet : List (Event Op Op.Answer)} (silent : Silent quiet) :
      ∀ event ∈ quiet, WorkEvent (sifter.Governed tier) event := by
    intro event isThere moment isMoment
    rw [(silent event isThere).1] at isMoment
    cases isMoment
  rcases calls with ⟨_, _, call, reply, checks, sends, silent, rfl⟩ | silent
  · intro event isThere moment isMoment
    rcases List.mem_append.mp isThere with isCheck | isCall
    · exact silentWork silent event isCheck moment isMoment
    · rw [List.mem_singleton.mp isCall] at isMoment
      cases isMoment
      exact ⟨call, rfl, sends.governed⟩
  · exact silentWork silent

theorem callTier_work (tier : Tier) (messages : List (Message Char)) (purpose : Purpose) :
    (sifter.callTier tier messages purpose).Only (WorkEvent (sifter.Governed tier)) :=
  fun _ _ _ _ does => (callTier_once does).workEvents

theorem verify_work (holds : Call → Prop) (answer : String) :
    (verify answer).Only (WorkEvent holds) := by
  refine .perform fun reply moment isMoment => ?_
  cases isMoment

/-- A call on the route: local, or to the expert where cloud is allowed. -/
def OnRoute (sifter : ComputeSifter) (kind : RouteKind) (call : Call) : Prop :=
  call.tier = .expert → kind ≠ .local ∧ sifter.config.cloudAllowed

theorem onRoute_of_local {kind : RouteKind} (call : Call)
    (governed : sifter.Governed .local call) : sifter.OnRoute kind call := by
  intro isExpert
  rw [governed.onTier] at isExpert
  cases isExpert

theorem onRoute_of_expert {kind : RouteKind} (notLocal : kind ≠ .local) (call : Call)
    (governed : sifter.Governed .expert call) : sifter.OnRoute kind call :=
  fun _ => ⟨notLocal, governed.allowed rfl⟩

theorem executeRoute_work (task : Task) (route : RouteDecision)
    (humanConstraints approvedDecisions : List String) :
    (sifter.executeRoute task route humanConstraints approvedDecisions).Only
      (WorkEvent (sifter.OnRoute route.kind)) := by
  refine only_follows.executeRoute (fun notLocal messages purpose => ?_) (fun messages => ?_)
    (verify_work _) _ _
  · exact (callTier_work _ _ _).mono (WorkEvent.mono (onRoute_of_expert notLocal))
  · exact (callTier_work _ _ _).mono (WorkEvent.mono onRoute_of_local)

/-! ## Verification -/

/-- Not a verification that passed. -/
def Unverifying (event : Event Op Op.Answer) : Prop := passes event = false

theorem not_verified_of_unverifying (areUnverifying : ∀ event ∈ events, Unverifying event) :
    ¬ Verified events := by
  rintro ⟨event, isThere, isPass⟩
  rw [areUnverifying event isThere] at isPass
  cases isPass

theorem CallsOnce.unverifying {tier : Tier} (calls : sifter.CallsOnce tier events) :
    ∀ event ∈ events, Unverifying event := by
  rcases calls with ⟨_, _, call, reply, checks, _, silent, rfl⟩ | silent
  · intro event isThere
    rcases List.mem_append.mp isThere with isCheck | isCall
    · exact (silent event isCheck).2
    · rw [List.mem_singleton.mp isCall]
      rfl
  · exact fun event isThere => (silent event isThere).2

theorem callTier_unverifying (tier : Tier) (messages : List (Message Char)) (purpose : Purpose) :
    (sifter.callTier tier messages purpose).Only Unverifying :=
  fun _ _ _ _ does => (callTier_once does).unverifying

theorem callTier_not_verified {tier : Tier} {messages : List (Message Char)} {purpose : Purpose}
    {outcome : Except Raised String}
    (does : (sifter.callTier tier messages purpose).Does before events outcome after) :
    ¬ Verified events :=
  not_verified_of_unverifying (callTier_unverifying _ _ _ _ _ _ _ does)

theorem verify_verified {answer : String} {result : VerificationResult}
    (does : (verify answer).Does before events (.ok result) after) :
    Verified events → result.passed = true := by
  rcases Coroutine.does_perform.mp does with ⟨reply, rfl, isReply, _⟩
  cases isReply
  simp [Verified, passes]

theorem attemptLocally_verified {base : List (Message Char)} {remaining attempt : ℕ}
    {execution result : Execution}
    (does : (sifter.attemptLocally base remaining attempt execution).Does before events
      (.ok result) after) : Verified events → result.verification.passed = true := by
  induction remaining generalizing before events attempt execution with
  | zero =>
      rcases Coroutine.does_pure.mp does with ⟨rfl, _⟩
      exact fun isVerified => absurd isVerified not_verified_nil
  | succ remaining ih =>
      simp only [attemptLocally] at does
      rcases Coroutine.does_bind.mp does with ⟨tried, _, _, _, trying, rest, rfl⟩ | ⟨_, _, no⟩
      · have notTried := not_verified_of_unverifying (tryLocally_once trying).unverifying
        rw [verified_append, or_iff_right notTried]
        cases tried with
        | error message => exact ih rest
        | ok answer =>
            rcases Coroutine.does_bind.mp rest with ⟨checked, _, _, _, verifying, going, rfl⟩ |
                ⟨_, _, no⟩
            · split at going
              · rename_i passed
                rcases Coroutine.does_pure.mp going with ⟨rfl, isResult, _⟩
                cases isResult
                exact fun _ => passed
              · rename_i failed
                rcases Coroutine.does_bind.mp going with ⟨_, _, _, _, counting, again, rfl⟩ |
                    ⟨_, _, no⟩
                · rcases Coroutine.does_modify.mp counting with ⟨rfl, _⟩
                  rw [verified_append, or_iff_right fun isVerified =>
                    failed (verify_verified verifying isVerified)]
                  exact ih again
                · cases no
            · cases no
      · cases no

theorem executeCloud_verified {base : List (Message Char)} {result : Execution}
    (does : (sifter.executeCloud base).Does before events (.ok result) after) :
    Verified events → result.verification.passed = true := by
  simp only [executeCloud, Coroutine.does_bind, Coroutine.does_pure] at does
  rcases does with ⟨answer, _, _, _, calling, rest, rfl⟩ | ⟨_, _, no⟩
  · rw [verified_append, or_iff_right (callTier_not_verified calling)]
    rcases rest with ⟨verification, _, _, _, verifying, ⟨rfl, isResult, _⟩, rfl⟩ | ⟨_, _, no⟩
    · cases isResult
      rw [List.append_nil]
      exact verify_verified verifying
    · cases no
  · cases no

theorem executeHybrid_verified {task : Task} {humanConstraints approvedDecisions : List String}
    {result : Execution}
    (does : (sifter.executeHybrid task humanConstraints approvedDecisions).Does before events
      (.ok result) after) : Verified events → result.verification.passed = true := by
  simp only [executeHybrid] at does
  rcases Coroutine.does_bind.mp does with ⟨plan, _, _, _, planning, executing, rfl⟩ | ⟨_, _, no⟩
  · rw [verified_append, or_iff_right (callTier_not_verified planning)]
    rcases Coroutine.does_bind.mp executing with ⟨answer, _, _, _, calling, rest, rfl⟩ | ⟨_, _, no⟩
    · rw [verified_append, or_iff_right (callTier_not_verified calling)]
      rcases Coroutine.does_bind.mp rest with ⟨checked, _, _, _, verifying, ending, rfl⟩ | ⟨_, _, no⟩
      · split at ending
        · rename_i passed
          rcases Coroutine.does_bind.mp ending with ⟨_, _, _, _, _, returning, rfl⟩ | ⟨_, _, no⟩
          · rcases Coroutine.does_pure.mp returning with ⟨rfl, isResult, _⟩
            cases isResult
            exact fun _ => passed
          · cases no
        · rcases Coroutine.does_pure.mp ending with ⟨rfl, isResult, _⟩
          cases isResult
          rw [List.append_nil]
          exact verify_verified verifying
      · cases no
    · cases no
  · cases no

/-- An execution in which some verification has passed ends with one that passed. -/
theorem executeRoute_verified {task : Task} {route : RouteDecision}
    {humanConstraints approvedDecisions : List String} {result : Execution}
    (does : (sifter.executeRoute task route humanConstraints approvedDecisions).Does before events
      (.ok result) after) : Verified events → result.verification.passed = true := by
  simp only [executeRoute] at does
  split at does
  · exact executeCloud_verified does
  · exact executeHybrid_verified does
  · exact attemptLocally_verified does

theorem requireApproval_only {holds : Event Op Op.Answer → Prop} {request : ApprovalRequest}
    (asks : ∀ answer, holds ⟨.approval request, answer⟩)
    (records : ∀ decision answer, holds ⟨.recordApproval request decision, answer⟩) :
    (sifter.requireApproval request).Only holds := by
  refine .bind (.perform asks) fun decision => ?_
  dsimp only
  split
  · exact .bind (.perform (records decision)) fun _ => .pure _
  · exact .pure _

theorem requireApproval_unverifying (request : ApprovalRequest) :
    (sifter.requireApproval request).Only Unverifying := by
  refine requireApproval_only ?_ ?_
  · intro answer
    cases answer <;> rfl
  · intro decision answer
    cases answer <;> rfl

theorem handleMajorDecision_unverifying (task : Task) (classification : DecisionClassification) :
    (sifter.handleMajorDecision task classification).Only Unverifying :=
  only_follows.handleMajorDecision (fun _ => callTier_unverifying _ _ _)
    requireApproval_unverifying _

/-- No verification passes during an escalation. -/
theorem resolved_not_verified {task : Task} {direction : Direction} {execution : Execution}
    {outcome : Except Raised (String × Bool)}
    (does : (sifter.resolved task direction execution).Does before events outcome after) :
    ¬ Verified events := by
  have unverifying : (sifter.resolved task direction execution).Only Unverifying :=
    only_follows.resolved (requireApproval_unverifying _) fun _ => callTier_unverifying _ _ _
  exact not_verified_of_unverifying (unverifying _ _ _ _ does)

/-! ## The approval path -/

/-- The call an answer at the analysis stage leads to: it lets the expert be asked, and
the call is not refused. -/
structure Analyzes (sifter : ComputeSifter) (task : Task) (budget : BudgetTracker)
    (decision : HumanDecision) (call : Call) : Prop where
  allows : decision.action = .allowExpertAnalysis
  governed : sifter.Governed .expert call
  notRefused : ¬ sifter.ExpertRefused budget (sifter.analysisMessages task decision.constraints)

/-- What the approval path adds, by how it ends. -/
inductive ApprovalPath (sifter : ComputeSifter) (task : Task) (budget : BudgetTracker)
    (classification : DecisionClassification) :
    List Moment → Except Raised (Option Direction) → Prop
  | unanswered (raised : Raised) :
      ApprovalPath sifter task budget classification
        [.unanswered (buildApprovalRequest task classification)] (.error raised)
  | answerLost (decision : HumanDecision) (raised : Raised) :
      ApprovalPath sifter task budget classification
        [.asked (buildApprovalRequest task classification) decision] (.error raised)
  | halted (decision : HumanDecision)
      (halts : decision.action = .stop ∨ decision.action = .reject ∨ decision.action = .modify) :
      ApprovalPath sifter task budget classification
        [.asked (buildApprovalRequest task classification) decision] (.ok none)
  | kept (decision : HumanDecision) (direction : Direction)
      (keeps : decision.action = .moreLocalAnalysis ∨ decision.action = .continueCurrent)
      (staysLocal : direction.forceLocal = true) :
      ApprovalPath sifter task budget classification
        [.asked (buildApprovalRequest task classification) decision] (.ok (some direction))
  | approved (decision : HumanDecision) (direction : Direction)
      (approves : decision.action = .approve ∨ decision.action = .chooseOption)
      (notForced : direction.forceLocal = false) :
      ApprovalPath sifter task budget classification
        [.asked (buildApprovalRequest task classification) decision] (.ok (some direction))
  | analysisLost (decision : HumanDecision) (call : Call) (raised : Raised)
      (analyzes : sifter.Analyzes task budget decision call) :
      ApprovalPath sifter task budget classification
        [.asked (buildApprovalRequest task classification) decision, .called call]
        (.error raised)
  | implementationUnanswered (decision : HumanDecision) (call : Call) (analysis : String)
      (raised : Raised) (analyzes : sifter.Analyzes task budget decision call) :
      ApprovalPath sifter task budget classification
        [.asked (buildApprovalRequest task classification) decision, .called call,
          .unanswered (implementRequest .major analysis)]
        (.error raised)
  | implementationLost (decision second : HumanDecision) (call : Call) (analysis : String)
      (raised : Raised) (analyzes : sifter.Analyzes task budget decision call) :
      ApprovalPath sifter task budget classification
        [.asked (buildApprovalRequest task classification) decision, .called call,
          .asked (implementRequest .major analysis) second]
        (.error raised)
  | implementationDeclined (decision second : HumanDecision) (call : Call) (analysis : String)
      (analyzes : sifter.Analyzes task budget decision call) :
      ApprovalPath sifter task budget classification
        [.asked (buildApprovalRequest task classification) decision, .called call,
          .asked (implementRequest .major analysis) second]
        (.ok none)
  | implementationApproved (decision second : HumanDecision) (call : Call) (analysis : String)
      (direction : Direction) (analyzes : sifter.Analyzes task budget decision call)
      (approves : second.action = .approve ∨ second.action = .chooseOption)
      (notForced : direction.forceLocal = false) :
      ApprovalPath sifter task budget classification
        [.asked (buildApprovalRequest task classification) decision, .called call,
          .asked (implementRequest .major analysis) second]
        (.ok (some direction))

theorem noteApproval_events {record : ApprovalRecord} {usage : UsageMetrics → UsageMetrics}
    {outcome : Except Raised Unit}
    (does : (noteApproval record usage).Does before events outcome after) :
    events = [] ∧ outcome = .ok () ∧ after.budget = before.budget := by
  rcases Coroutine.does_modify.mp does with ⟨rfl, rfl, rfl⟩
  exact ⟨rfl, rfl, rfl⟩

/-- The expert's analysis is one call, or none if the call is not made; its level is
always major. -/
theorem expertAnalysis_moments {task : Task} {constraints : List String}
    {outcome : Except Raised (String × DecisionLevel)}
    (does : (sifter.expertAnalysis task constraints).Does before events outcome after) :
    (∃ call, sifter.Governed .expert call ∧
        ¬ sifter.ExpertRefused before.budget (sifter.analysisMessages task constraints) ∧
        moments events = [.called call] ∧
        ((∃ analysis, outcome = .ok (analysis, .major)) ∨ ∃ raised, outcome = .error raised)) ∨
      (∃ raised, outcome = .error raised ∧ moments events = []) := by
  have isMade {answer : Except Raised String} {callEvents : List (Event Op Op.Answer)}
      {middle : Session} {call : Call} (isCall : moments callEvents = [.called call])
      (calling : (sifter.callTier .expert (sifter.analysisMessages task constraints)
        .expertAnalysis).Does before callEvents answer middle) :
      ¬ sifter.ExpertRefused before.budget (sifter.analysisMessages task constraints) := by
    intro isRefused
    rw [(callTier_refused isRefused calling).1.moments_eq] at isCall
    cases isCall
  simp only [expertAnalysis, Coroutine.does_bind, Coroutine.does_pure] at does
  rcases does with ⟨analysis, _, _, _, calling, ⟨rfl, rfl, rfl⟩, rfl⟩ | ⟨raised, calling, rfl⟩
  · rcases callTier_moments calling with ⟨call, governed, isCall⟩ | ⟨raised, no, _⟩
    · exact .inl ⟨call, governed, isMade isCall calling, by simpa using isCall, .inl ⟨analysis, rfl⟩⟩
    · cases no
  · rcases callTier_moments calling with ⟨call, governed, isCall⟩ | ⟨_, _, isEmpty⟩
    · exact .inl ⟨call, governed, isMade isCall calling, isCall, .inr ⟨raised, rfl⟩⟩
    · exact .inr ⟨raised, rfl, isEmpty⟩

/-- The second half of the approval path, after the human has allowed an analysis. -/
theorem analysed_moments {task : Task} {classification : DecisionClassification}
    {decision : HumanDecision} (allows : decision.action = .allowExpertAnalysis)
    {outcome : Except Raised (Option Direction)}
    (does : (sifter.analysed task decision).Does before events outcome after) :
    sifter.ApprovalPath task before.budget classification
      (.asked (buildApprovalRequest task classification) decision :: moments events) outcome := by
  simp only [analysed, Coroutine.does_bind, Coroutine.does_modify] at does
  rcases does with ⟨⟨analysis, level⟩, _, _, _, analysing, rest, rfl⟩ | ⟨raised, analysing, rfl⟩
  · rcases expertAnalysis_moments analysing with
      ⟨call, governed, notRefused, isCall, ⟨_, returned⟩ | ⟨_, no⟩⟩ | ⟨_, no, _⟩
    · cases returned
      rcases rest with ⟨_, _, _, _, ⟨rfl, _⟩, rest, rfl⟩ | ⟨_, ⟨_, no, _⟩, _⟩
      · rcases rest with ⟨second, _, _, _, asking, rest, rfl⟩ | ⟨raised, asking, rfl⟩
        · rcases requireApproval_moments asking with ⟨_, isOk, isAsked, isSame⟩ | ⟨_, no, _⟩
          · cases isOk
            rcases rest with ⟨_, _, _, _, noting, rest, rfl⟩ | ⟨_, noting, _⟩
            · have noEvents := (noteApproval_events noting).1
              subst noEvents
              split at rest
              · rename_i approves
                rcases Coroutine.does_pure.mp rest with ⟨rfl, rfl, _⟩
                simp only [moments_append, isCall, isAsked, moments_nil]
                refine .implementationApproved decision second call analysis _ ⟨allows, governed, notRefused⟩ ?_ rfl
                simpa using approves
              · rcases Coroutine.does_pure.mp rest with ⟨rfl, rfl, _⟩
                simp only [moments_append, isCall, isAsked, moments_nil]
                exact .implementationDeclined decision second call analysis ⟨allows, governed, notRefused⟩
            · cases (noteApproval_events noting).2.1
          · cases no
        · rcases requireApproval_moments asking with
            ⟨_, no, _⟩ | ⟨_, _, isUnanswered | ⟨second, isAsked⟩⟩
          · cases no
          · simp only [moments_append, isCall, isUnanswered]
            exact .implementationUnanswered decision call analysis raised ⟨allows, governed, notRefused⟩
          · simp only [moments_append, isCall, isAsked]
            exact .implementationLost decision second call analysis raised ⟨allows, governed, notRefused⟩
      · cases no
    · cases no
    · cases no
  · rcases expertAnalysis_moments analysing with
      ⟨call, governed, notRefused, isCall, ⟨_, no⟩ | _⟩ | ⟨_, _, isEmpty⟩
    · cases no
    · rw [isCall]
      exact .analysisLost decision call raised ⟨allows, governed, notRefused⟩
    · rw [isEmpty]
      exact .answerLost decision raised

theorem handleMajorDecision_moments {task : Task} {classification : DecisionClassification}
    {outcome : Except Raised (Option Direction)}
    (does : (sifter.handleMajorDecision task classification).Does before events outcome after) :
    sifter.ApprovalPath task before.budget classification (moments events) outcome := by
  simp only [handleMajorDecision, Coroutine.does_bind] at does
  rcases does with ⟨decision, _, _, _, asking, rest, rfl⟩ | ⟨raised, asking, rfl⟩
  · rcases requireApproval_moments asking with ⟨_, isOk, isAsked, isSame⟩ | ⟨_, no, _⟩
    · cases isOk
      rcases rest with ⟨_, _, _, _, noting, rest, rfl⟩ | ⟨_, noting, _⟩
      · have noEvents := (noteApproval_events noting).1
        subst noEvents
        simp only [moments_append, isAsked, List.nil_append, List.singleton_append]
        split at rest
        · rename_i isStop
          rcases Coroutine.does_pure.mp rest with ⟨rfl, rfl, _⟩
          exact .halted decision (.inl isStop)
        · rename_i isReject
          rcases Coroutine.does_pure.mp rest with ⟨rfl, rfl, _⟩
          exact .halted decision (.inr (.inl isReject))
        · rename_i isModify
          rcases Coroutine.does_pure.mp rest with ⟨rfl, rfl, _⟩
          exact .halted decision (.inr (.inr isModify))
        · rename_i isMore
          rcases Coroutine.does_pure.mp rest with ⟨rfl, rfl, _⟩
          exact .kept decision _ (.inl isMore) rfl
        · rename_i isContinue
          rcases Coroutine.does_pure.mp rest with ⟨rfl, rfl, _⟩
          exact .kept decision _ (.inr isContinue) rfl
        · rename_i isApprove
          rcases Coroutine.does_pure.mp rest with ⟨rfl, rfl, _⟩
          exact .approved decision _ (.inl isApprove) rfl
        · rename_i isChoose
          rcases Coroutine.does_pure.mp rest with ⟨rfl, rfl, _⟩
          exact .approved decision _ (.inr isChoose) rfl
        · rename_i allows
          have isBudget := (noteApproval_events noting).2.2
          rw [isSame] at isBudget
          rw [← isBudget]
          exact analysed_moments allows rest
      · cases (noteApproval_events noting).2.1
    · cases no
  · rcases requireApproval_moments asking with
      ⟨_, no, _⟩ | ⟨_, _, isUnanswered | ⟨decision, isAsked⟩⟩
    · cases no
    · rw [isUnanswered]
      exact .unanswered raised
    · rw [isAsked]
      exact .answerLost decision raised

/-! ## The escalation -/

/-- What the escalation adds: `asks` if it has to ask the human, `allowed` if it may go
to the expert without asking. -/
inductive EscalationPath (sifter : ComputeSifter) (asks allowed : Bool) : List Moment → Prop
  | silent : EscalationPath sifter asks allowed []
  | direct (call : Call) (isAllowed : allowed = true) (governed : sifter.Governed .expert call) :
      EscalationPath sifter asks allowed [.called call]
  | unanswered (isAsked : asks = true) :
      EscalationPath sifter asks allowed [.unanswered escalationRequest]
  | answered (decision : HumanDecision) (isAsked : asks = true) :
      EscalationPath sifter asks allowed [.asked escalationRequest decision]
  | consulted (decision : HumanDecision) (call : Call) (isAsked : asks = true)
      (allows : decision.action = .allowExpertAnalysis) (governed : sifter.Governed .expert call) :
      EscalationPath sifter asks allowed [.asked escalationRequest decision, .called call]

theorem diagnosed_moments {packet : EscalationPacket} {answer : String}
    {outcome : Except Raised (String × Bool)}
    (does : (sifter.diagnosed packet answer).Does before events outcome after) :
    (∃ call, sifter.Governed .expert call ∧ moments events = [.called call]) ∨
      moments events = [] := by
  rcases diagnosed_once does with ⟨_, _, call, reply, checks, sends, silent, rfl⟩ | silent
  · refine .inl ⟨call, sends.governed, ?_⟩
    rw [moments_append, silent.moments_eq]
    rfl
  · exact .inr silent.moments_eq

theorem escalationAllowed_moments {outcome : EscalationOutcome} {autonomyGrant allowed : Bool}
    {ended : Except Raised (Option Bool)}
    (does : (sifter.escalationAllowed outcome autonomyGrant allowed).Does before events ended after) :
    (moments events = [] ∧ ended = .ok (some allowed)) ∨
      ((outcome.requiresHumanApproval && !autonomyGrant) = true ∧
        moments events = [.unanswered escalationRequest] ∧ ∃ raised, ended = .error raised) ∨
      ∃ decision, (outcome.requiresHumanApproval && !autonomyGrant) = true ∧
        moments events = [.asked escalationRequest decision] ∧
        (ended = .ok (some true) → decision.action = .allowExpertAnalysis) := by
  unfold escalationAllowed at does
  split at does
  · rename_i asks
    simp only [Coroutine.does_bind] at does
    rcases does with ⟨decision, _, _, _, asking, rest, rfl⟩ | ⟨raised, asking, rfl⟩
    · rcases requireApproval_moments asking with ⟨_, isOk, isAsked, isSame⟩ | ⟨_, no, _⟩
      · cases isOk
        rcases rest with ⟨_, _, _, _, noting, rest, rfl⟩ | ⟨_, noting, _⟩
        · have noEvents := (noteApproval_events noting).1
          subst noEvents
          refine .inr (.inr ⟨decision, asks, ?_⟩)
          split at rest
          · rcases Coroutine.does_pure.mp rest with ⟨rfl, rfl, _⟩
            exact ⟨by simpa using isAsked, by simp⟩
          · rcases Coroutine.does_pure.mp rest with ⟨rfl, rfl, _⟩
            exact ⟨by simpa using isAsked, by simp⟩
        · cases (noteApproval_events noting).2.1
      · cases no
    · rcases requireApproval_moments asking with
        ⟨_, no, _⟩ | ⟨_, _, isUnanswered | ⟨decision, isAsked⟩⟩
      · cases no
      · exact .inr (.inl ⟨asks, isUnanswered, raised, rfl⟩)
      · exact .inr (.inr ⟨decision, asks, isAsked, by simp⟩)
  · rcases Coroutine.does_pure.mp does with ⟨rfl, rfl, _⟩
    exact .inl ⟨rfl, rfl⟩

/-- Whether an escalation of this task has to ask the human. -/
def escalationAsks (sifter : ComputeSifter) (task : Task)
    (classification : DecisionClassification) (autonomyGrant : Bool) : Bool :=
  EscalationPolicy.isArchitectureLike sifter.unicode task.prompt && classification.isMajor &&
    !autonomyGrant

theorem escalateAfterFailure_moments {task : Task} {execution : Execution}
    {classification : DecisionClassification} {humanConstraints approvedDecisions : List String}
    {allowed autonomyGrant : Bool} {outcome : Except Raised (String × Bool)}
    (does : (sifter.escalateAfterFailure task execution classification humanConstraints
      approvedDecisions allowed autonomyGrant).Does before events outcome after) :
    sifter.EscalationPath (sifter.escalationAsks task classification autonomyGrant) allowed
      (moments events) := by
  have isAsking {outcome : EscalationOutcome}
      (isOutcome : outcome.requiresHumanApproval =
        (EscalationPolicy.isArchitectureLike sifter.unicode task.prompt && classification.isMajor))
      (asks : (outcome.requiresHumanApproval && !autonomyGrant) = true) :
      sifter.escalationAsks task classification autonomyGrant = true := by
    rwa [isOutcome] at asks
  simp only [escalateAfterFailure, Coroutine.does_bind, Coroutine.does_modify] at does
  rcases does with ⟨_, _, _, _, ⟨rfl, _⟩, does, rfl⟩ | ⟨_, ⟨_, no, _⟩, _⟩
  · rcases does with ⟨verdict, _, _, _, asking, rest, rfl⟩ | ⟨raised, asking, rfl⟩
    · rcases escalationAllowed_moments asking with
        ⟨isEmpty, isAllowed⟩ | ⟨_, _, _, no⟩ | ⟨decision, asks, isAsked, allows⟩
      · cases isAllowed
        rw [moments_append, isEmpty, List.nil_append]
        cases allowed with
        | false =>
            rcases Coroutine.does_pure.mp rest with ⟨rfl, _⟩
            exact .silent
        | true =>
            rcases diagnosed_moments rest with ⟨call, governed, isCall⟩ | isEmpty
            · rw [isCall]
              exact .direct call rfl governed
            · rw [isEmpty]
              exact .silent
      · cases no
      · have mustAsk := isAsking (by simp [EscalationPolicy.evaluate]) asks
        rw [moments_append, isAsked, List.singleton_append]
        split at rest
        · rcases Coroutine.does_pure.mp rest with ⟨rfl, _⟩
          exact .answered decision mustAsk
        · rcases Coroutine.does_pure.mp rest with ⟨rfl, _⟩
          exact .answered decision mustAsk
        · rcases diagnosed_moments rest with ⟨call, governed, isCall⟩ | isEmpty
          · rw [isCall]
            exact .consulted decision call mustAsk (allows rfl) governed
          · rw [isEmpty]
            exact .answered decision mustAsk
    · rcases escalationAllowed_moments asking with
        ⟨_, no⟩ | ⟨asks, isUnanswered, _⟩ | ⟨decision, asks, isAsked, _⟩
      · cases no
      · rw [isUnanswered]
        exact .unanswered (isAsking (by simp [EscalationPolicy.evaluate]) asks)
      · rw [isAsked]
        exact .answered decision (isAsking (by simp [EscalationPolicy.evaluate]) asks)
  · cases no

/-! ## A whole run -/

/-- The route of the work that follows a direction. -/
def Routed (sifter : ComputeSifter) (task : Task) (direction : Direction) (kind : RouteKind) :
    Prop :=
  ∃ budgetLeft, kind = (sifter.policyEngine.decide (sifter.assessment task)
    (sifter.effectivePolicy task direction) budgetLeft).kind

/-- Whether an escalation may go to the expert without asking. -/
def escalationAllowedBy (sifter : ComputeSifter) (task : Task) (direction : Direction) : Bool :=
  sifter.cloudPermitted (sifter.effectivePolicy task direction) &&
    (direction.allowCloudAnalysis || !(sifter.classification task).isMajor || sifter.autonomyGrant)

/-- The work of a run that goes on in a direction, and its escalation, which comes only
if no verification has passed. -/
inductive WorkPath (sifter : ComputeSifter) (task : Task) (direction : Direction)
    (verified : Prop) : List Moment → Prop
  | worked (kind : RouteKind) (work escalation : List Moment)
      (isRouted : sifter.Routed task direction kind) (works : CallsOnly (sifter.OnRoute kind) work)
      (escalates : sifter.EscalationPath
        (sifter.escalationAsks task (sifter.classification task) sifter.autonomyGrant)
        (sifter.escalationAllowedBy task direction) escalation)
      (passed : verified → escalation = []) :
      WorkPath sifter task direction verified (work ++ escalation)

theorem WorkPath.mono {task : Task} {direction : Direction} {verified stronger : Prop}
    {trace : List Moment} (implied : stronger → verified)
    (works : sifter.WorkPath task direction verified trace) :
    sifter.WorkPath task direction stronger trace := by
  rcases works with ⟨kind, work, escalation, isRouted, works, escalates, passed⟩
  exact .worked kind work escalation isRouted works escalates fun isStronger =>
    passed (implied isStronger)

theorem finish_events {status answer : String} {classification : DecisionClassification}
    {assessment : PreflightAssessment} {blockedReason route : Option String}
    {direction : Direction} {outcome : Except Raised SifterResult}
    (does : (finish status answer classification assessment blockedReason route direction).Does
      before events outcome after) : events = [] := by
  simp only [finish, Coroutine.does_bind, Coroutine.does_read, Coroutine.does_pure] at does
  rcases does with ⟨_, _, _, _, ⟨rfl, _⟩, ⟨rfl, _⟩, rfl⟩ | ⟨_, ⟨rfl, _⟩, _⟩
  · rfl
  · rfl

theorem finish_reports {status answer : String} {classification : DecisionClassification}
    {assessment : PreflightAssessment} {blockedReason route : Option String}
    {direction : Direction} {result : SifterResult}
    (does : (finish status answer classification assessment blockedReason route direction).Does
      before events (.ok result) after) :
    result.status = status ∧ result.route = route.getD assessment.recommendedRoute := by
  simp only [finish, Coroutine.does_bind, Coroutine.does_read, Coroutine.does_pure] at does
  rcases does with ⟨_, _, _, _, _, ⟨_, isResult, _⟩, _⟩ | ⟨_, _, no⟩
  · cases isResult
    exact ⟨rfl, rfl⟩
  · cases no

theorem resolved_moments {task : Task} {direction : Direction} {execution : Execution}
    {outcome : Except Raised (String × Bool)}
    (does : (sifter.resolved task direction execution).Does before events outcome after) :
    sifter.EscalationPath
      (sifter.escalationAsks task (sifter.classification task) sifter.autonomyGrant)
      (sifter.escalationAllowedBy task direction) (moments events) := by
  unfold resolved at does
  split at does
  · rcases Coroutine.does_pure.mp does with ⟨rfl, _⟩
    exact .silent
  · exact escalateAfterFailure_moments does

theorem resolved_of_passed {task : Task} {direction : Direction} {execution : Execution}
    {outcome : Except Raised (String × Bool)} (passed : execution.verification.passed = true)
    (does : (sifter.resolved task direction execution).Does before events outcome after) :
    moments events = [] := by
  rw [resolved, if_pos passed] at does
  rw [(Coroutine.does_pure.mp does).1, moments_nil]

theorem carryOut_moments {task : Task} {direction : Direction}
    {outcome : Except Raised SifterResult}
    (does : (sifter.carryOut task direction).Does before events outcome after) :
    sifter.WorkPath task direction (Verified events) (moments events) := by
  simp only [carryOut, Coroutine.does_bind, Coroutine.does_read] at does
  rcases does with ⟨session, _, _, _, ⟨rfl, _, _⟩, does, rfl⟩ | ⟨_, ⟨_, no, _⟩, _⟩
  · have isRouted : sifter.Routed task direction (sifter.policyEngine.decide
        (sifter.assessment task) (sifter.effectivePolicy task direction)
        (0 < session.budget.remainingCalls && !session.budget.exhausted)).kind := ⟨_, rfl⟩
    rcases does with ⟨execution, _, workEvents, _, executing, rest, rfl⟩ | ⟨_, executing, rfl⟩
    · have works := callsOnly_of_workEvents (executeRoute_work _ _ _ _ _ _ _ _ executing)
      have escalated {laterEvents : List (Event Op Op.Answer)}
          {ended : Except Raised (String × Bool)} {middle final : Session}
          (resolving : (sifter.resolved task direction execution).Does middle laterEvents ended
            final) :
          sifter.WorkPath task direction (Verified (workEvents ++ laterEvents))
            (moments workEvents ++ moments laterEvents) := by
        refine .worked _ _ _ isRouted works (resolved_moments resolving) fun isVerified => ?_
        rw [verified_append, or_iff_left (resolved_not_verified resolving)] at isVerified
        exact resolved_of_passed (executeRoute_verified executing isVerified) resolving
      rw [moments_append]
      rcases rest with ⟨⟨answer, completed⟩, _, _, _, resolving, finishing, rfl⟩ |
          ⟨_, resolving, rfl⟩
      · have noEvents := finish_events finishing
        subst noEvents
        rw [List.append_nil]
        exact escalated resolving
      · exact escalated resolving
    · have works := callsOnly_of_workEvents (executeRoute_work _ _ _ _ _ _ _ _ executing)
      have path : sifter.WorkPath task direction (Verified events) (moments events ++ []) :=
        .worked _ _ _ isRouted works .silent fun _ => rfl
      rwa [List.append_nil] at path
  · cases no

/-- The parts of a run: an approval path that ends it, or a direction that is carried
out, after the approval path or without one. -/
inductive RunPath (sifter : ComputeSifter) (task : Task) (budget : BudgetTracker)
    (verified : Prop) : List Moment → Prop
  | ended (path : List Moment) (outcome : Except Raised (Option Direction))
      (needed : (sifter.classification task).requiresHumanApproval = true)
      (approval : sifter.ApprovalPath task budget (sifter.classification task) path outcome) :
      RunPath sifter task budget verified path
  | directed (path work : List Moment) (direction : Direction)
      (needed : (sifter.classification task).requiresHumanApproval = true)
      (approval : sifter.ApprovalPath task budget (sifter.classification task) path
        (.ok (some direction)))
      (works : sifter.WorkPath task direction verified work) :
      RunPath sifter task budget verified (path ++ work)
  | undirected (work : List Moment)
      (notNeeded : (sifter.classification task).requiresHumanApproval = false)
      (works : sifter.WorkPath task {} verified work) : RunPath sifter task budget verified work

theorem runBody_moments {task : Task} {outcome : Except Raised SifterResult}
    (does : (sifter.runBody task).Does before events outcome after) :
    sifter.RunPath task before.budget (Verified events) (moments events) := by
  simp only [runBody] at does
  split at does
  · rename_i needed
    rcases Coroutine.does_bind.mp does with ⟨direction, _, _, _, deciding, rest, rfl⟩ |
        ⟨_, deciding, rfl⟩
    · have approval := handleMajorDecision_moments deciding
      have notVerified := not_verified_of_unverifying
        (handleMajorDecision_unverifying _ _ _ _ _ _ deciding)
      cases direction with
      | none =>
          have noEvents := finish_events rest
          subst noEvents
          rw [List.append_nil]
          exact .ended _ _ needed approval
      | some direction =>
          rw [moments_append]
          refine .directed _ _ direction needed approval ((carryOut_moments rest).mono ?_)
          exact fun isVerified => (verified_append.mp isVerified).resolve_left notVerified
    · exact .ended _ _ needed (handleMajorDecision_moments deciding)
  · rename_i notNeeded
    exact .undirected _ (by simpa using notNeeded) (carryOut_moments does)

/-- Every run has one of the paths. -/
theorem run_moments {task : Task} {outcome : Except Raised SifterResult}
    (does : (sifter.run task).Does before events outcome after) :
    sifter.RunPath task before.budget (Verified events) (moments events) := by
  rcases Coroutine.does_catching.mp does with ⟨_, running, _⟩ |
      ⟨raised, _, _, _, running, handling, rfl⟩
  · exact runBody_moments running
  · have path := runBody_moments running
    cases raised with
    | budgetExceeded exceeded =>
        have noEvents := finish_events handling
        subst noEvents
        rwa [List.append_nil]
    | providerError message =>
        have noEvents := finish_events handling
        subst noEvents
        rwa [List.append_nil]
    | other message =>
        rcases Coroutine.does_raise.mp handling with ⟨rfl, _⟩
        rwa [List.append_nil]

end ComputeSifter

end Aa.Sifter
