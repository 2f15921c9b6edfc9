import Aa.Library.Escapes
import Aa.Sifter.Providers
import Aa.Sifter.Routing.Merge
import Aa.Sifter.Trace

/-!
# Runs over failing servers

A run handles the errors of providers, and nothing else that a call raises. What the servers send
therefore decides whether the run returns: it does exactly if each of its calls ends as a provider
should, and the tokens of its answers can be counted.
-/

namespace Aa.Sifter

open Aa.Library Binary64

/-! ## The answers to the calls of a run -/

/-- A number of tokens whose millionth is too large for a float. -/
def overlong (tokens : ℤ) : Bool :=
  (nearest ((tokens.natAbs : ℚ) / 1000000)).isNone

/-- An answer whose tokens are counted, with a cost if it is one of the expert's. -/
def counted (tier : Tier) (result : ProviderResult) : Except PyException ProviderResult :=
  if (result.tier = .expert || tier = .expert) &&
      (overlong result.inputTokens || overlong result.outputTokens) then
    .error (.conversion .overflowError)
  else .ok result

/-- The duration in milliseconds; one that is not finite counts as none. -/
def ProviderResult.durationMs (result : ProviderResult) : ℚ :=
  match result.totalDuration with
  | .finite double => double.value / 1000000
  | _ => 0

def ProviderResult.generation (result : ProviderResult) : GenerationResult where
  text := result.text
  model := result.model
  tier := result.tier
  inputTokens := result.inputTokens
  outputTokens := result.outputTokens
  durationMs := result.durationMs

/-- An interpreter, and the texts of the exceptions that are no provider errors. -/
structure HttpEnvironment where
  interpreter : PyInterpreter
  describe : HttpRaised → String

namespace HttpEnvironment

variable (environment : HttpEnvironment)

/-- How a run goes on after a call. -/
def reply (ended : Except HttpRaised ProviderResult) : Except Raised GenerationResult :=
  match ended with
  | .ok result => .ok result.generation
  | .error (.providerError error) => .error (.providerError error.message)
  | .error raised => .error (.other (environment.describe raised))

/-- The retries of a provider that the factory builds. -/
def maxRetries : ℤ := 2

/-- What a call to an HTTP provider is answered, with its tokens counted. -/
def answered (call : Call) (outcomes : ℕ → HttpOutcome) : Option (Except Raised GenerationResult) :=
  let finished (ended : Except HttpRaised ProviderResult) :=
    environment.reply (ended >>= fun result => (counted call.tier result).mapError .python)
  match call.provider with
  | .ollama _ =>
      some (finished
        (OllamaProvider.generate environment.interpreter maxRetries call.model outcomes).1)
  | .deepSeek _ _ =>
      some (finished (OpenAICompatibleProvider.generate environment.interpreter maxRetries
        call.model outcomes).1)
  | .openAICompatible _ _ =>
      some (finished (OpenAICompatibleProvider.generate environment.interpreter maxRetries
        call.model outcomes).1)
  | .injected _ => none

end HttpEnvironment

/-- The exception that an operation was answered with. -/
def raisedBy : Event Op Op.Answer → Option Raised
  | ⟨.approval _, .error raised⟩ => some raised
  | ⟨.recordApproval _ _, .error raised⟩ => some raised
  | ⟨.generate _, .error raised⟩ => some raised
  | ⟨.verify _, .error raised⟩ => some raised
  | _ => none

/-- An exception that is neither a provider error nor about the budget. -/
def Raised.IsOther (raised : Raised) : Prop :=
  ∃ message, raised = .other message

/-- An operation was answered with an exception that no handler is for. -/
def Unexpected (event : Event Op Op.Answer) : Prop :=
  ∃ raised, raisedBy event = some raised ∧ raised.IsOther

namespace ComputeSifter

variable {sifter : ComputeSifter} {before after : Session} {events : List (Event Op Op.Answer)}

/-! ## Exceptions that leave a run -/

/-- The exceptions that are not handled leave a coroutine exactly as they come. -/
abbrev Passes {α : Type} (coroutine : Run α) : Prop :=
  Coroutine.Escapes Raised.IsOther Unexpected coroutine

theorem not_isOther_budgetExceeded {exceeded : BudgetExceeded} :
    ¬ (Raised.budgetExceeded exceeded).IsOther := by
  rintro ⟨_, ⟨⟩⟩

theorem not_isOther_providerError {message : String} : ¬ (Raised.providerError message).IsOther := by
  rintro ⟨_, ⟨⟩⟩

theorem requireApproval_passes (request : ApprovalRequest) :
    Passes (sifter.requireApproval request) := by
  refine .bind (.perform fun answer => ?_) fun decision => ?_
  · cases answer <;> simp [Unexpected, raisedBy]
  · dsimp only
    split
    · refine .bind (.perform fun answer => ?_) fun _ => .pure _
      cases answer <;> simp [Unexpected, raisedBy]
    · exact .pure _

theorem verify_passes (answer : String) : Passes (verify answer) := by
  refine .perform fun verified => ?_
  cases verified <;> simp [Unexpected, raisedBy]

theorem checkBudget_passes (tier : Tier) (messages : List (Message Char)) :
    Passes (sifter.checkBudget tier messages) := by
  unfold checkBudget
  split
  · refine .bind .read fun session => .bind (.write _) fun _ => ?_
    refine .bind (.perform fun answer => by simp [Unexpected, raisedBy]) fun _ => ?_
    split
    · exact .raise not_isOther_budgetExceeded
    · exact .pure _
  · exact .pure _

theorem callTier_passes (tier : Tier) (messages : List (Message Char)) (purpose : Purpose) :
    Passes (sifter.callTier tier messages purpose) := by
  unfold callTier
  dsimp only
  split
  · exact .raise not_isOther_providerError
  · split
    · exact .raise not_isOther_providerError
    · refine .bind (checkBudget_passes _ _) fun _ => ?_
      refine .bind (.perform fun answer => ?_) fun result => .bind (.modify _) fun _ => .pure _
      cases answer <;> simp [Unexpected, raisedBy]

theorem passes_follows : FollowsFromParts fun {_} coroutine => Passes coroutine where
  pure := .pure
  read := .read
  note _ := .modify _
  exceeded _ := .raise not_isOther_budgetExceeded
  failed _ := .raise not_isOther_providerError
  bind := .bind
  catching body exceeded failed others := by
    refine .catching body ?_ ?_
    · rintro (reason | message | message) notOther
      · exact exceeded reason
      · exact failed message
      · exact absurd ⟨message, rfl⟩ notOther
    · rintro _ ⟨message, rfl⟩
      exact others message

/-- A run ends with an exception that it has no handler for exactly if an operation was answered
with one. -/
theorem run_passes (task : Task) : Passes (sifter.run task) :=
  passes_follows.run callTier_passes verify_passes requireApproval_passes

theorem finish_returns {status answer : String} {classification : DecisionClassification}
    {assessment : PreflightAssessment} {blockedReason route : Option String}
    {direction : Direction} {outcome : Except Raised SifterResult}
    (does : (finish status answer classification assessment blockedReason route direction).Does
      before events outcome after) : ∃ result, outcome = .ok result := by
  simp only [finish, Coroutine.does_bind, Coroutine.does_read, Coroutine.does_pure] at does
  rcases does with ⟨_, _, _, _, _, ⟨_, isResult, _⟩, _⟩ | ⟨_, ⟨_, no, _⟩, _⟩
  · exact ⟨_, isResult⟩
  · cases no

/-- A run raises nothing else. -/
theorem run_returns_iff {task : Task} {outcome : Except Raised SifterResult}
    (does : (sifter.run task).Does before events outcome after) :
    (∃ result, outcome = .ok result) ↔ ¬ ∃ event ∈ events, Unexpected event := by
  rw [← run_passes task _ _ _ _ does]
  cases outcome with
  | ok result => simp
  | error raised =>
      rw [Coroutine.isFatal_error]
      rcases Coroutine.does_catching.mp does with ⟨_, _, no⟩ | ⟨caught, _, _, _, _, handling, _⟩
      · cases no
      · cases caught with
        | budgetExceeded exceeded =>
            rcases finish_returns handling with ⟨_, no⟩
            cases no
        | providerError message =>
            rcases finish_returns handling with ⟨_, no⟩
            cases no
        | other message =>
            rcases Coroutine.does_raise.mp handling with ⟨_, isRaised, _⟩
            cases isRaised
            simp [Raised.IsOther]

end ComputeSifter

/-! ## Answers that can be read and counted -/

/-- The tokens that are read of a value are not too many to be counted with a cost. -/
def Countable (interpreter : PyInterpreter) (value : PyValue) : Prop :=
  ∀ tokens, tokenCount interpreter value = .ok tokens → overlong tokens = false

/-- An answer of Ollama that can be read, and counted on a tier. -/
def OllamaProvider.Billable (interpreter : PyInterpreter) (model : String) (tier : Tier)
    (data : PyValue) : Prop :=
  ∃ members message, data = .obj members ∧ Fields interpreter model members message ∧
    (Py.endsWith model ":cloud" = true ∨ tier = .expert →
      Countable interpreter (PyValue.member members "prompt_eval_count" .null) ∧
        Countable interpreter (PyValue.member members "eval_count" .null))

/-- An OpenAI-compatible answer that can be read and counted. -/
def OpenAICompatibleProvider.Billable (interpreter : PyInterpreter) (model : String)
    (data : PyValue) : Prop :=
  ∃ members choice message usage, data = .obj members ∧
    Fields interpreter model members choice message usage ∧
    Countable interpreter (PyValue.member usage "prompt_tokens" .null) ∧
    Countable interpreter (PyValue.member usage "completion_tokens" .null)

section Counted

variable {interpreter : PyInterpreter} {model : String} {tier : Tier}
  {members : List (String × PyValue)} {data : PyValue} {result : ProviderResult}

theorem counted_ok_iff : (∃ billed, counted tier result = .ok billed) ↔
    (result.tier = .expert ∨ tier = .expert →
      overlong result.inputTokens = false ∧ overlong result.outputTokens = false) := by
  simp only [counted]
  split_ifs with isOverlong
  · simp only [Bool.and_eq_true, Bool.or_eq_true, decide_eq_true_eq] at isOverlong
    constructor
    · rintro ⟨_, ⟨⟩⟩
    · intro isCountable
      have isShort := isCountable isOverlong.1
      simp [isShort] at isOverlong
  · simp only [Bool.and_eq_true, Bool.or_eq_true, decide_eq_true_eq, not_and, not_or] at isOverlong
    simpa using isOverlong

/-- What is read of Ollama's tokens. -/
theorem OllamaProvider.parseResponse_tokens
    (isRead : parseResponse interpreter model (.obj members) = .ok result) :
    result.tier = (if Py.endsWith model ":cloud" then .expert else .local) ∧
      tokenCount interpreter (PyValue.member members "prompt_eval_count" .null) =
        .ok result.inputTokens ∧
      tokenCount interpreter (PyValue.member members "eval_count" .null) =
        .ok result.outputTokens := by
  simp only [parseResponse, PyValue.bind_eq_ok_iff, PyValue.getOr_obj, Except.ok.injEq,
    exists_eq_left', pure, Except.pure] at isRead
  rcases isRead with ⟨_, _, _, isInput, _, isOutput, _, _, _, _, _, _, rfl⟩
  exact ⟨rfl, isInput, isOutput⟩

/-- What is read of OpenAI-compatible tokens. -/
theorem OpenAICompatibleProvider.parseResponse_tokens {usage : List (String × PyValue)}
    (isUsage : (PyValue.member members "usage" .null).orElse (.obj []) = .obj usage)
    (isRead : parseResponse interpreter model (.obj members) = .ok result) :
    result.tier = .expert ∧
      tokenCount interpreter (PyValue.member usage "prompt_tokens" .null) =
        .ok result.inputTokens ∧
      tokenCount interpreter (PyValue.member usage "completion_tokens" .null) =
        .ok result.outputTokens := by
  simp only [parseResponse, PyValue.bind_eq_ok_iff, PyValue.getOr_obj, Except.ok.injEq,
    exists_eq_left', isUsage, pure, Except.pure] at isRead
  rcases isRead with ⟨_, _, _, _, _, _, _, isInput, _, isOutput, _, _, _, _, _, _, rfl⟩
  exact ⟨rfl, isInput, isOutput⟩

/-- Ollama's answers are read and counted exactly if they are billable. -/
theorem OllamaProvider.billed_ok_iff :
    (∃ billed, (parseResponse interpreter model data >>= counted tier) = .ok billed) ↔
      Billable interpreter model tier data := by
  rw [PyValue.bind_ok_iff]
  constructor
  · rintro ⟨result, isRead, isCounted⟩
    rcases parseResponse_ok_iff.mp ⟨result, isRead⟩ with ⟨members, message, rfl, fields⟩
    rcases parseResponse_tokens isRead with ⟨isTier, isInput, isOutput⟩
    refine ⟨members, message, rfl, fields, fun isCosted => ?_⟩
    have isShort := counted_ok_iff.mp isCounted (by simpa [isTier] using isCosted)
    simpa [Countable, isInput, isOutput] using isShort
  · rintro ⟨members, message, rfl, fields, isCountable⟩
    rcases parseResponse_ok_iff.mpr ⟨members, message, rfl, fields⟩ with ⟨result, isRead⟩
    rcases parseResponse_tokens isRead with ⟨isTier, isInput, isOutput⟩
    refine ⟨result, isRead, counted_ok_iff.mpr fun isCosted => ?_⟩
    have isShort := isCountable (by simpa [isTier] using isCosted)
    simpa [Countable, isInput, isOutput] using isShort

/-- OpenAI-compatible answers are read and counted exactly if they are billable. -/
theorem OpenAICompatibleProvider.billed_ok_iff :
    (∃ billed, (parseResponse interpreter model data >>= counted tier) = .ok billed) ↔
      Billable interpreter model data := by
  rw [PyValue.bind_ok_iff]
  constructor
  · rintro ⟨result, isRead, isCounted⟩
    rcases parseResponse_ok_iff.mp ⟨result, isRead⟩ with ⟨members, choice, message, usage, rfl, fields⟩
    rcases parseResponse_tokens fields.isUsage isRead with ⟨isTier, isInput, isOutput⟩
    have isShort := counted_ok_iff.mp isCounted (.inl isTier)
    refine ⟨members, choice, message, usage, rfl, fields, ?_⟩
    simpa [Countable, isInput, isOutput] using isShort
  · rintro ⟨members, choice, message, usage, rfl, fields, isCountable⟩
    rcases parseResponse_ok_iff.mpr ⟨members, choice, message, usage, rfl, fields⟩ with
      ⟨result, isRead⟩
    rcases parseResponse_tokens fields.isUsage isRead with ⟨isTier, isInput, isOutput⟩
    refine ⟨result, isRead, counted_ok_iff.mpr fun _ => ?_⟩
    simpa [Countable, isInput, isOutput] using isCountable

end Counted

/-- Reading an answer and counting it are one reading of it. -/
theorem HttpWording.generate_counted {wording : HttpWording}
    {parse : PyValue → Except PyException ProviderResult} {tier : Tier} {maxRetries : ℤ}
    {outcomes : ℕ → HttpOutcome} :
    ((wording.generate parse maxRetries outcomes).1 >>= fun result =>
      (counted tier result).mapError .python) =
    (wording.generate (fun data => parse data >>= counted tier) maxRetries outcomes).1 := by
  simp only [generate]
  cases (wording.post maxRetries outcomes).1 with
  | error raised => rfl
  | ok data =>
      change ((parse data).mapError HttpRaised.python >>= _) =
        (parse data >>= counted tier).mapError HttpRaised.python
      cases parse data with
      | error raised => rfl
      | ok result => rfl

/-- The outcomes of a call with which the run goes on. -/
def CallServed (interpreter : PyInterpreter) (call : Call) (outcomes : ℕ → HttpOutcome) : Prop :=
  match call.provider with
  | .ollama _ => Served (OllamaProvider.Billable interpreter call.model call.tier) 3 outcomes
  | .deepSeek _ _ => Served (OpenAICompatibleProvider.Billable interpreter call.model) 3 outcomes
  | .openAICompatible _ _ =>
      Served (OpenAICompatibleProvider.Billable interpreter call.model) 3 outcomes
  | .injected _ => True

namespace HttpEnvironment

variable {environment : HttpEnvironment}

/-- A reply is unexpected exactly if the call neither returned nor raised a provider error. -/
theorem reply_isOther_iff {ended : Except HttpRaised ProviderResult} :
    (∃ raised, environment.reply ended = .error raised ∧ raised.IsOther) ↔
      ¬ ((∃ result, ended = .ok result) ∨ ∃ error, ended = .error (.providerError error)) := by
  cases ended with
  | ok result => simp [reply]
  | error raised =>
      cases raised <;> simp [reply, Raised.IsOther]

theorem finished_isOther_iff {wording : HttpWording}
    {parse : PyValue → Except PyException ProviderResult} {tier : Tier} {readable : PyValue → Prop}
    (reads : ∀ data, (∃ billed, (parse data >>= counted tier) = .ok billed) ↔ readable data)
    {outcomes : ℕ → HttpOutcome} :
    (∃ raised, environment.reply ((wording.generate parse maxRetries outcomes).1 >>= fun result =>
      (counted tier result).mapError .python) = .error raised ∧ raised.IsOther) ↔
      ¬ Served readable 3 outcomes := by
  have reports : HttpWording.Reports maxRetries (wording.generate
      (fun data => parse data >>= counted tier) maxRetries outcomes) ↔ _ :=
    HttpWording.generate_reports_iff reads maxRetries
  have isThree : (maxRetries + 1).toNat = 3 := rfl
  have isNatural : 0 ≤ maxRetries := by decide
  have few : (wording.attempts 3 outcomes none).2 ≤ 3 := HttpWording.attempts_requests 3 none
  rw [isThree] at reports
  rw [reply_isOther_iff, HttpWording.generate_counted, not_iff_not]
  simp only [isNatural, true_and] at reports
  refine ⟨fun ends => reports.mp ⟨?_, ends⟩, fun served => (reports.mpr served).2⟩
  change ((wording.attempts 3 outcomes none).2 : ℤ) ≤ 3
  omega

/-- What a run is answered for a call is unexpected exactly if the outcomes do not serve it. -/
theorem answered_isOther_iff {call : Call} {outcomes : ℕ → HttpOutcome}
    {answer : Except Raised GenerationResult}
    (isAnswered : environment.answered call outcomes = some answer) :
    (∃ raised, answer = .error raised ∧ raised.IsOther) ↔
      ¬ CallServed environment.interpreter call outcomes := by
  simp only [answered] at isAnswered
  simp only [CallServed]
  split at isAnswered
  · cases isAnswered
    exact finished_isOther_iff fun _ => OllamaProvider.billed_ok_iff
  · cases isAnswered
    exact finished_isOther_iff fun _ => OpenAICompatibleProvider.billed_ok_iff
  · cases isAnswered
    exact finished_isOther_iff fun _ => OpenAICompatibleProvider.billed_ok_iff
  · cases isAnswered

/-- A call to an HTTP provider is answered as the provider ends with the outcomes of its requests.
Whatever else a run asks for, the answer is no exception that nothing handles. -/
def EventServed (environment : HttpEnvironment) (outcomes : ℕ → HttpOutcome) :
    Event Op Op.Answer → Prop
  | ⟨.generate call, answer⟩ =>
      match environment.answered call outcomes with
      | some expected => answer = expected
      | none => ¬ Unexpected ⟨.generate call, answer⟩
  | event => ¬ Unexpected event

/-- The outcomes of the requests of an event, if it is a call, serve it. -/
def EventSound (environment : HttpEnvironment) (outcomes : ℕ → HttpOutcome) :
    Event Op Op.Answer → Prop
  | ⟨.generate call, _⟩ => CallServed environment.interpreter call outcomes
  | _ => True

theorem callServed_of_injected {call : Call} {outcomes : ℕ → HttpOutcome}
    (isInjected : environment.answered call outcomes = none) :
    CallServed environment.interpreter call outcomes := by
  simp only [answered] at isInjected
  simp only [CallServed]
  split at isInjected
  · cases isInjected
  · cases isInjected
  · cases isInjected
  · trivial

theorem unexpected_iff {outcomes : ℕ → HttpOutcome} {event : Event Op Op.Answer}
    (isServed : environment.EventServed outcomes event) :
    Unexpected event ↔ ¬ environment.EventSound outcomes event := by
  rcases event with ⟨op, answer⟩
  cases op with
  | generate call =>
      simp only [EventServed] at isServed
      simp only [EventSound]
      cases isAnswered : environment.answered call outcomes with
      | none =>
          rw [isAnswered] at isServed
          exact iff_of_false isServed fun unserved => unserved (callServed_of_injected isAnswered)
      | some expected =>
          rw [isAnswered] at isServed
          rw [← answered_isOther_iff isAnswered, ← isServed]
          cases answer <;> simp [Unexpected, raisedBy]
  | approval request => exact iff_of_false isServed fun unsound => unsound trivial
  | recordApproval request decision => exact iff_of_false isServed fun unsound => unsound trivial
  | budgetCheck tokens cost denied => exact iff_of_false isServed fun unsound => unsound trivial
  | verify verified => exact iff_of_false isServed fun unsound => unsound trivial

end HttpEnvironment

/-! ## Runs whose calls are all refused -/

/-- The call that an event is, if it is one. -/
def callOf? : Event Op Op.Answer → Option Call
  | ⟨.generate call, _⟩ => some call
  | _ => none

/-- A call that raised a provider error, or an operation that is no call and raised nothing. -/
def Refused : Event Op Op.Answer → Prop
  | ⟨.generate _, answer⟩ => ∃ message, answer = .error (.providerError message)
  | event => raisedBy event = none

def Uncalled (events : List (Event Op Op.Answer)) : Prop :=
  ∀ event ∈ events, callOf? event = none

/-- How a coroutine ends: with a value, with a provider error, or stopped by the budget. -/
def Ends {α : Type} (returned : List (Event Op Op.Answer) → α → Prop)
    (denied : List (Event Op Op.Answer) → Prop) (events : List (Event Op Op.Answer)) :
    Except Raised α → Prop
  | .ok value => returned events value
  | .error (.providerError _) => True
  | .error (.budgetExceeded _) => denied events
  | .error (.other _) => False

/-- So a coroutine ends if all of its calls are refused. -/
def Refuses {α : Type} (returned : List (Event Op Op.Answer) → α → Prop)
    (denied : List (Event Op Op.Answer) → Prop) (coroutine : Run α) : Prop :=
  ∀ before events outcome after, coroutine.Does before events outcome after →
    (∀ event ∈ events, Refused event) → Ends returned denied events outcome

theorem uncalled_append {first second : List (Event Op Op.Answer)} (firstUncalled : Uncalled first)
    (secondUncalled : Uncalled second) : Uncalled (first ++ second) := by
  intro event isThere
  rcases List.mem_append.mp isThere with isFirst | isSecond
  · exact firstUncalled event isFirst
  · exact secondUncalled event isSecond

namespace Refuses

variable {α β : Type} {returned weaker : List (Event Op Op.Answer) → α → Prop}
  {denied weakerDenied : List (Event Op Op.Answer) → Prop}

theorem pure {value : α} (isReturned : returned [] value) :
    Refuses returned denied (Pure.pure value) := by
  intro before events outcome after does _
  rcases Coroutine.does_pure.mp does with ⟨rfl, rfl, _⟩
  exact isReturned

theorem raise {raised : Raised} (ends : Ends returned denied [] (.error raised)) :
    Refuses returned denied (Coroutine.raise raised) := by
  intro before events outcome after does _
  rcases Coroutine.does_raise.mp does with ⟨rfl, rfl, _⟩
  exact ends

theorem read (returned : List (Event Op Op.Answer) → Session → Prop)
    (isReturned : ∀ session, returned [] session) : Refuses returned denied Coroutine.read := by
  intro before events outcome after does _
  rcases Coroutine.does_read.mp does with ⟨rfl, rfl, _⟩
  exact isReturned before

theorem modify (returned : List (Event Op Op.Answer) → PUnit → Prop)
    {change : Session → Session} (isReturned : returned [] ⟨⟩) :
    Refuses returned denied (Coroutine.modify change) := by
  intro before events outcome after does _
  rcases Coroutine.does_modify.mp does with ⟨rfl, rfl, _⟩
  exact isReturned

theorem mono {coroutine : Run α} (refuses : Refuses returned denied coroutine)
    (isWeaker : ∀ events value, returned events value → weaker events value)
    (isDenied : ∀ events, denied events → weakerDenied events) :
    Refuses weaker weakerDenied coroutine := by
  intro before events outcome after does refused
  have ends := refuses _ _ _ _ does refused
  cases outcome with
  | ok value => exact isWeaker events value ends
  | error raised =>
      cases raised with
      | budgetExceeded exceeded => exact isDenied events ends
      | providerError message => trivial
      | other message => exact ends

theorem bind (found : List (Event Op Op.Answer) → β → Prop)
    (denied : List (Event Op Op.Answer) → Prop) {first : Run β} {rest : β → Run α}
    (firstRefuses : Refuses found denied first)
    (isDenied : ∀ events, denied events → weakerDenied events)
    (restRefuses : ∀ events value, found events value →
      Refuses (fun later => returned (events ++ later))
        (fun later => weakerDenied (events ++ later)) (rest value)) :
    Refuses returned weakerDenied (first >>= rest) := by
  intro before events outcome after does refused
  rcases Coroutine.does_bind.mp does with
    ⟨value, middle, firstEvents, restEvents, firstDoes, restDoes, rfl⟩ | ⟨raised, firstDoes, rfl⟩
  · have isFound := firstRefuses _ _ _ _ firstDoes fun event isThere =>
      refused event (List.mem_append_left _ isThere)
    have ends := restRefuses firstEvents value isFound _ _ _ _ restDoes fun event isThere =>
      refused event (List.mem_append_right _ isThere)
    cases outcome with
    | ok result => exact ends
    | error raised =>
        cases raised with
        | budgetExceeded exceeded => exact ends
        | providerError message => trivial
        | other message => exact ends
  · have ends := firstRefuses _ _ _ _ firstDoes refused
    cases raised with
    | budgetExceeded exceeded => exact isDenied events ends
    | providerError message => trivial
    | other message => exact ends

theorem catching {body : Run α} {handler : Raised → Run α}
    (bodyRefuses : Refuses returned denied body)
    (isReturned : ∀ events value, returned events value → weaker events value)
    (handles : ∀ events raised, Ends returned denied events (.error raised) →
      Refuses (fun later => weaker (events ++ later)) (fun later => weakerDenied (events ++ later))
        (handler raised)) :
    Refuses weaker weakerDenied (Coroutine.catching body handler) := by
  intro before events outcome after does refused
  rcases Coroutine.does_catching.mp does with ⟨value, bodyDoes, rfl⟩ |
      ⟨raised, middle, bodyEvents, handlerEvents, bodyDoes, handlerDoes, rfl⟩
  · exact isReturned events value (bodyRefuses _ _ _ _ bodyDoes refused)
  · have ends := bodyRefuses _ _ _ _ bodyDoes fun event isThere =>
      refused event (List.mem_append_left _ isThere)
    have handled := handles bodyEvents raised ends _ _ _ _ handlerDoes fun event isThere =>
      refused event (List.mem_append_right _ isThere)
    cases outcome with
    | ok value => exact handled
    | error raised =>
        cases raised with
        | budgetExceeded exceeded => exact handled
        | providerError message => trivial
        | other message => exact handled

end Refuses

namespace ComputeSifter

variable {sifter : ComputeSifter}

/-- The human answers, and no call is made. -/
theorem requireApproval_refuses (request : ApprovalRequest) :
    Refuses (fun events _ => Uncalled events) (fun _ => False)
      (sifter.requireApproval request) := by
  have performed {α : Type} {op : Op} {reply : op.Answer → Except Raised α}
      (answers : ∀ answer, Refused ⟨op, answer⟩ → ∃ value, reply answer = .ok value)
      (isFree : ∀ answer, callOf? ⟨op, answer⟩ = none) :
      Refuses (fun events _ => Uncalled events) (fun _ => False)
        (Coroutine.perform op reply : Run α) := by
    intro before events outcome after does refused
    rcases Coroutine.does_perform.mp does with ⟨answer, rfl, rfl, _⟩
    rcases answers answer (refused _ (List.mem_singleton_self _)) with ⟨value, isValue⟩
    rw [isValue]
    simpa [Ends, Uncalled] using isFree answer
  refine .bind _ (fun _ => False) (performed ?_ fun _ => rfl) (fun _ => id) ?_
  · rintro (raised | decision) isRefused
    · cases isRefused
    · exact ⟨decision, rfl⟩
  · intro events decision uncalled
    dsimp only
    split
    · refine .bind _ (fun _ => False) (performed ?_ fun _ => rfl) (fun _ => False.elim) ?_
      · rintro (raised | recorded) isRefused
        · cases isRefused
        · exact ⟨recorded, rfl⟩
      · intro later _ laterUncalled
        refine .pure ?_
        rw [List.append_nil]
        exact uncalled_append uncalled laterUncalled
    · refine .pure ?_
      rwa [List.append_nil]

theorem checkBudget_refuses (tier : Tier) (messages : List (Message Char)) :
    Refuses (fun _ _ => True) (fun events => tier = .expert ∧ Uncalled events)
      (sifter.checkBudget tier messages) := by
  intro before events outcome after does _
  cases tier with
  | «local» =>
      rcases checkBudget_local.mp does with ⟨_, rfl, _⟩
      trivial
  | expert =>
      rcases checkBudget_expert.mp does with ⟨rfl, rfl, _⟩
      cases (sifter.checked before.budget messages).1 with
      | none => trivial
      | some exceeded =>
          refine ⟨rfl, fun event isThere => ?_⟩
          rw [List.mem_singleton.mp isThere]
          rfl

/-- A call that is refused does not return, and only one of the expert is stopped by the budget,
before it is sent. -/
theorem callTier_refuses (tier : Tier) (messages : List (Message Char)) (purpose : Purpose) :
    Refuses (fun _ _ => False) (fun events => tier = .expert ∧ Uncalled events)
      (sifter.callTier tier messages purpose) := by
  unfold callTier
  dsimp only
  split
  · exact .raise trivial
  · split
    · exact .raise trivial
    · refine .bind _ _ (checkBudget_refuses _ _) (fun _ => id) fun checks _ _ => ?_
      refine .bind (fun _ _ => False) (fun _ => False) ?_ (fun _ => False.elim)
        fun _ _ => False.elim
      intro before events outcome after does refused
      rcases Coroutine.does_perform.mp does with ⟨answer, rfl, rfl, _⟩
      rcases refused _ (List.mem_singleton_self _) with ⟨message, rfl⟩
      trivial

/-- A direction is given before any call that returned. -/
theorem handleMajorDecision_refuses (task : Task) (classification : DecisionClassification) :
    Refuses (fun events _ => Uncalled events) Uncalled
      (sifter.handleMajorDecision task classification) := by
  refine .bind _ _ (requireApproval_refuses _) (fun _ => False.elim) fun events decision uncalled => ?_
  refine .bind _ (fun _ => False) (.modify (fun events _ => events = []) rfl)
    (fun _ => False.elim) ?_
  rintro _ _ rfl
  simp only [List.nil_append]
  have alone : Uncalled (events ++ []) := by rwa [List.append_nil]
  split
  · exact .pure alone
  · exact .pure alone
  · exact .pure alone
  · exact .pure alone
  · exact .pure alone
  · exact .pure alone
  · exact .pure alone
  · refine .bind (fun _ _ => False) Uncalled ?_
      (fun _ laterUncalled => uncalled_append uncalled laterUncalled) fun _ _ => False.elim
    refine .bind _ _ (callTier_refuses _ _ _) (fun _ isDenied => isDenied.2) fun _ _ => False.elim

/-- A call that is the first of some work keeps the work from returning. -/
theorem calling_refuses {α : Type} (returned : List (Event Op Op.Answer) → α → Prop) (tier : Tier)
    (messages : List (Message Char)) (purpose : Purpose) (rest : String → Run α) :
    Refuses returned (fun events => tier = .expert ∧ Uncalled events)
      (sifter.callTier tier messages purpose >>= rest) :=
  .bind _ _ (callTier_refuses _ _ _) (fun _ => id) fun _ _ => False.elim

/-- The local attempts all fail, and they are not stopped. -/
theorem attemptLocally_refuses (base : List (Message Char)) (remaining attempt : ℕ)
    {execution : Execution} (notPassed : execution.verification.passed = false) :
    Refuses (fun _ execution => execution.verification.passed = false) (fun _ => False)
      (sifter.attemptLocally base remaining attempt execution) := by
  induction remaining generalizing attempt execution with
  | zero => exact .pure notPassed
  | succ remaining ih =>
      refine .bind (fun _ tried => ∃ message, tried = .error message) (fun _ => False) ?_
        (fun _ => id) ?_
      · have calling := sifter.calling_refuses
          (fun _ (tried : Except String String) => ∃ message, tried = .error message) .local
          (attemptMessages base attempt execution.answer) .localExecute fun answer => pure (.ok answer)
        refine .catching calling (fun _ _ => id) fun events raised ends => ?_
        cases raised with
        | budgetExceeded exceeded => cases ends.1
        | providerError message => exact .pure ⟨message, rfl⟩
        | other message => exact ends.elim
      · rintro events _ ⟨message, rfl⟩
        exact ih (attempt + 1) notPassed

theorem diagnosed_refuses (packet : EscalationPacket) (answer : String) :
    Refuses (fun _ diagnosed => diagnosed.2 = false) (fun _ => False)
      (sifter.diagnosed packet answer) := by
  refine .catching (calling_refuses _ _ _ _ _) (fun _ _ => id) fun events raised ends => ?_
  cases raised with
  | budgetExceeded exceeded => exact .pure rfl
  | providerError message => exact .raise trivial
  | other message => exact ends.elim

theorem executeRoute_refuses (task : Task) (route : RouteDecision)
    (humanConstraints approvedDecisions : List String) :
    Refuses (fun _ execution => execution.verification.passed = false) Uncalled
      (sifter.executeRoute task route humanConstraints approvedDecisions) := by
  unfold executeRoute
  dsimp only
  split
  · exact (calling_refuses _ _ _ _ _).mono (fun _ _ => id) fun _ isDenied => isDenied.2
  · exact (calling_refuses _ _ _ _ _).mono (fun _ _ => id) fun _ isDenied => isDenied.2
  · exact (attemptLocally_refuses _ _ _ rfl).mono (fun _ _ => id) fun _ => False.elim

theorem escalationAllowed_refuses (outcome : EscalationOutcome) (autonomyGrant allowed : Bool) :
    Refuses (fun _ _ => True) (fun _ => False)
      (sifter.escalationAllowed outcome autonomyGrant allowed) := by
  unfold escalationAllowed
  split
  · refine .bind _ _ (requireApproval_refuses _) (fun _ => id) fun _ decision _ => ?_
    refine .bind _ (fun _ => False) (.modify (fun _ _ => True) trivial)
      (fun _ => id) fun _ _ _ => ?_
    split
    · exact .pure trivial
    · exact .pure trivial
  · exact .pure trivial

/-- What follows an execution that failed is not completed. -/
theorem resolved_refuses (task : Task) (direction : Direction) {execution : Execution}
    (notPassed : execution.verification.passed = false) :
    Refuses (fun _ resolved => resolved.2 = false) (fun _ => False)
      (sifter.resolved task direction execution) := by
  unfold resolved
  rw [if_neg (by simp [notPassed])]
  refine .bind _ (fun _ => False) (.modify (fun _ _ => True) trivial)
    (fun _ => id) fun _ _ _ => ?_
  refine .bind _ _ (escalationAllowed_refuses _ _ _) (fun _ => id) fun _ verdict _ => ?_
  split
  · exact .pure rfl
  · exact .pure rfl
  · exact diagnosed_refuses _ _

theorem finish_refuses {status answer : String} {classification : DecisionClassification}
    {assessment : PreflightAssessment} {blockedReason route : Option String}
    {direction : Direction} :
    Refuses (fun events result => events = [] ∧ result.status = status) (fun _ => False)
      (finish status answer classification assessment blockedReason route direction) := by
  intro before events outcome after does _
  rcases finish_returns does with ⟨result, rfl⟩
  exact ⟨finish_events does, (finish_reports does).1⟩

theorem carryOut_refuses (task : Task) (direction : Direction) :
    Refuses (fun _ result => result.status = "failed") Uncalled
      (sifter.carryOut task direction) := by
  refine .bind _ (fun _ => False) (.read (fun events _ => events = []) fun _ => rfl) (fun _ => False.elim) ?_
  rintro _ session rfl
  simp only [List.nil_append]
  refine .bind _ _ (executeRoute_refuses _ _ _ _) (fun _ => id) fun _ execution notPassed => ?_
  refine .bind _ _ (resolved_refuses _ _ notPassed) (fun _ => False.elim) ?_
  rintro _ ⟨answer, completed⟩ notCompleted
  refine finish_refuses.mono ?_ fun _ => False.elim
  rintro _ result ⟨_, isStatus⟩
  rw [isStatus, if_neg (by simpa using notCompleted)]

/-- The body of a run ends as failed, unless it has made no call. -/
theorem runBody_refuses (task : Task) :
    Refuses (fun events result => result.status = "failed" ∨ Uncalled events) Uncalled
      (sifter.runBody task) := by
  unfold runBody
  dsimp only
  split
  · refine .bind _ _ (handleMajorDecision_refuses _ _) (fun _ => id) fun events decided uncalled => ?_
    split
    · refine finish_refuses.mono ?_ fun _ => False.elim
      rintro _ result ⟨rfl, _⟩
      right
      rwa [List.append_nil]
    · exact (carryOut_refuses _ _).mono (fun _ _ isFailed => .inl isFailed)
        fun _ laterUncalled => uncalled_append uncalled laterUncalled
  · exact (carryOut_refuses _ _).mono (fun _ _ isFailed => .inl isFailed) fun _ => id

/-- A run ends as failed or with an error, unless it has made no call. -/
theorem run_refuses (task : Task) :
    Refuses (fun events result => result.status = "failed" ∨ result.status = "error" ∨
      Uncalled events) (fun _ => False) (sifter.run task) := by
  refine .catching (runBody_refuses task) ?_ fun events raised ends => ?_
  · rintro events result (isFailed | uncalled)
    · exact .inl isFailed
    · exact .inr (.inr uncalled)
  · cases raised with
    | budgetExceeded exceeded =>
        refine finish_refuses.mono ?_ fun _ => id
        rintro _ result ⟨rfl, _⟩
        right
        right
        rw [List.append_nil]
        exact ends
    | providerError message =>
        refine finish_refuses.mono ?_ fun _ => id
        rintro _ result ⟨_, isStatus⟩
        exact .inr (.inl isStatus)
    | other message => exact ends.elim

end ComputeSifter

/-! ## Whole runs -/

namespace HttpEnvironment

/-- Every call of a run is answered as the provider ends, with the outcomes at its place. -/
def AllServed (environment : HttpEnvironment) (served : ℕ → ℕ → HttpOutcome)
    (events : List (Event Op Op.Answer)) : Prop :=
  ∀ i event, events[i]? = some event → environment.EventServed (served i) event

/-- The outcomes of the requests serve every call of a run. -/
def AllSound (environment : HttpEnvironment) (served : ℕ → ℕ → HttpOutcome)
    (events : List (Event Op Op.Answer)) : Prop :=
  ∀ i event, events[i]? = some event → environment.EventSound (served i) event

variable {environment : HttpEnvironment} {sifter : ComputeSifter} {task : Task}
  {events : List (Event Op Op.Answer)} {outcome : Except Raised SifterResult}
  {after : Session} {served : ℕ → ℕ → HttpOutcome}

/-- A run returns exactly if the outcomes serve all of its calls. -/
theorem run_returns_iff
    (does : (sifter.run task).Does (sifter.newSession task) events outcome after)
    (isServed : environment.AllServed served events) :
    (∃ result, outcome = .ok result) ↔ environment.AllSound served events := by
  rw [ComputeSifter.run_returns_iff does]
  constructor
  · intro expected i event isThere
    by_contra unsound
    refine expected ⟨event, List.mem_of_getElem? isThere, ?_⟩
    exact (unexpected_iff (isServed i event isThere)).mpr unsound
  · rintro isSound ⟨event, isThere, isUnexpected⟩
    rcases List.mem_iff_getElem?.mp isThere with ⟨i, isAt⟩
    exact (unexpected_iff (isServed i event isAt)).mp isUnexpected (isSound i event isAt)

/-- Where every call is refused, and there is one, the result says so. -/
theorem run_reports_refused
    (does : (sifter.run task).Does (sifter.newSession task) events outcome after)
    (refused : ∀ event ∈ events, Refused event) (isCalled : ¬ Uncalled events) :
    ∃ result, outcome = .ok result ∧ (result.status = "error" ∨ result.status = "failed") := by
  have ends := ComputeSifter.run_refuses task _ _ _ _ does refused
  have isExpected : ¬ ∃ event ∈ events, Unexpected event := by
    rintro ⟨⟨op, answer⟩, isThere, raised, isRaised, isOther⟩
    have isRefused := refused _ isThere
    cases op with
    | generate call =>
        rcases isRefused with ⟨message, rfl⟩
        cases isRaised
        exact ComputeSifter.not_isOther_providerError isOther
    | approval request => cases isRefused.symm.trans isRaised
    | recordApproval request decision => cases isRefused.symm.trans isRaised
    | budgetCheck tokens cost denied => cases isRaised
    | verify verified => cases isRefused.symm.trans isRaised
  rcases (ComputeSifter.run_returns_iff does).mpr isExpected with ⟨result, rfl⟩
  refine ⟨result, rfl, ?_⟩
  rcases ends with isFailed | isError | uncalled
  · exact .inr isFailed
  · exact .inl isError
  · exact absurd uncalled isCalled

end HttpEnvironment

/-- The providers return a result or raise a provider error, within their requests, exactly if the
answers that they accept can be decoded and read. A run returns exactly if those of its calls
can be read and counted; and if all of its calls are refused it ends as failed or with an error. -/
theorem providerFailures_reported_iff (environment : HttpEnvironment) :
    (∀ maxRetries model outcomes,
      HttpWording.Reports maxRetries
          (OllamaProvider.generate environment.interpreter maxRetries model outcomes) ↔
        0 ≤ maxRetries ∧ Served (OllamaProvider.Readable environment.interpreter model)
          (maxRetries + 1).toNat outcomes) ∧
    (∀ maxRetries model outcomes,
      HttpWording.Reports maxRetries
          (OpenAICompatibleProvider.generate environment.interpreter maxRetries model outcomes) ↔
        0 ≤ maxRetries ∧ Served (OpenAICompatibleProvider.Readable environment.interpreter model)
          (maxRetries + 1).toNat outcomes) ∧
    ∀ (sifter : ComputeSifter) task events outcome after served,
      (sifter.run task).Does (sifter.newSession task) events outcome after →
      environment.AllServed served events →
      ((∃ result, outcome = .ok result) ↔ environment.AllSound served events) ∧
      ((∀ event ∈ events, Refused event) → ¬ Uncalled events →
        ∃ result, outcome = .ok result ∧
          (result.status = "error" ∨ result.status = "failed")) :=
  ⟨OllamaProvider.generate_reports_iff environment.interpreter,
    OpenAICompatibleProvider.generate_reports_iff environment.interpreter,
    fun _ _ _ _ _ _ does isServed =>
      ⟨HttpEnvironment.run_returns_iff does isServed, HttpEnvironment.run_reports_refused does⟩⟩

/-! ## Servers -/

def plainHttp : HttpEnvironment where
  interpreter := roomyInterpreter
  describe _ := ""

/-- A server that answers no request in time. -/
def silentServer : ℕ → HttpOutcome :=
  fun _ => .timeout ""

/-- What a run is answered if no server answers and the human stops every work. -/
def unanswered : (op : Op) → op.Answer
  | .approval _ => .ok { action := .stop }
  | .recordApproval _ _ => .ok ()
  | .budgetCheck _ _ _ => ()
  | .generate call => (plainHttp.answered call silentServer).getD (.error (.providerError ""))
  | .verify _ => .ok { passed := false }

theorem unanswered_served (op : Op) :
    plainHttp.EventServed silentServer ⟨op, unanswered op⟩ := by
  cases op with
  | generate call =>
      simp only [HttpEnvironment.EventServed, unanswered]
      cases plainHttp.answered call silentServer with
      | some expected => rfl
      | none => simp [Unexpected, raisedBy, Raised.IsOther]
  | approval request => simp [HttpEnvironment.EventServed, unanswered, Unexpected, raisedBy]
  | recordApproval request decision =>
      simp [HttpEnvironment.EventServed, unanswered, Unexpected, raisedBy]
  | budgetCheck tokens cost denied =>
      simp [HttpEnvironment.EventServed, Unexpected, raisedBy]
  | verify verified => simp [HttpEnvironment.EventServed, unanswered, Unexpected, raisedBy]

def plainSifter : ComputeSifter where
  config := {}
  registry := buildRegistry {}
  rules := { unicode := .ascii }

def helperTask : Task where
  prompt := "Add a helper function."

theorem silentServer_reported : ∃ result,
    (((plainSifter.run helperTask) (plainSifter.newSession helperTask)).play
      (fun _ => unanswered) []).2.1 = .ok result := by
  have does := Coroutine.does_play (fun _ => unanswered) (plainSifter.run helperTask)
    (plainSifter.newSession helperTask)
  refine ((providerFailures_reported_iff plainHttp).2.2 plainSifter helperTask _ _ _
    (fun _ => silentServer) does ?_).1.mpr ?_
  · rintro i ⟨op, answer⟩ isThere
    have isAnswer : answer = unanswered op :=
      Program.answer_of_play (List.mem_of_getElem? isThere)
    rw [isAnswer]
    exact unanswered_served op
  · rintro i ⟨op, answer⟩ _
    cases op with
    | generate call =>
        simp only [HttpEnvironment.EventSound, CallServed]
        split
        · exact fun _ _ _ => trivial
        · exact fun _ _ _ => trivial
        · exact fun _ _ _ => trivial
        · trivial
    | approval request => trivial
    | recordApproval request decision => trivial
    | budgetCheck tokens cost denied => trivial
    | verify verified => trivial

/-- A server that answers with an empty list. -/
def listServer : ℕ → HttpOutcome :=
  fun _ => .response 200 { text := "[]", json := .ok (.arr []) }

/-- That answer makes a provider raise something else. -/
theorem listServer_unreported : ¬ HttpWording.Reports 2
    (OllamaProvider.generate roomyInterpreter 2 "qwen3:32b" listServer) := by
  rintro ⟨_, ends⟩
  have isRaised : (OllamaProvider.generate roomyInterpreter 2 "qwen3:32b" listServer).1 =
      .error (.python .attributeError) := rfl
  rw [isRaised] at ends
  rcases ends with ⟨_, ⟨⟩⟩ | ⟨_, ⟨⟩⟩

end Aa.Sifter
