import Aa.Library.PyObject
import Aa.Sifter.Models

/-!
# The HTTP providers

A provider posts its request until it is answered: after a timeout, a transport error or a server
error it tries again, as often as it may. The answer to a request that was accepted is decoded and
read outside of all exception handlers, and it is read without looking at its shape.
-/

namespace Aa.Sifter

open Aa.Library

structure ProviderError where
  message : String
  statusCode : Option ℕ := none
  retryable : Bool := false

/-- The body of a response: its text, and what is decoded from it. -/
structure HttpBody where
  text : String
  json : Except PyError PyValue

/-- How one request ends. A body that is not encoded as its header claims raises a decoding error,
which is no transport error. -/
inductive HttpOutcome
  | timeout (text : String)
  | transportError (text : String)
  | decodingError (text : String)
  | response (status : ℕ) (body : HttpBody)

/-- What a provider raises. -/
inductive HttpRaised
  | providerError (error : ProviderError)
  | decodingError (text : String)
  | assertionError
  | python (raised : PyException)

/-- The answer of a model. The duration is in nanoseconds. -/
structure ProviderResult where
  text : String
  model : String
  tier : Tier
  inputTokens : ℤ
  outputTokens : ℤ
  totalDuration : PyFloat
  providerRaw : List (String × PyValue)

/-! ## Requests -/

/-- The messages of the errors of a provider. -/
structure HttpWording where
  timedOut : String
  transport : String
  server : String
  client : String

namespace HttpWording

variable (wording : HttpWording)

/-- What an attempt comes to: the end of the loop, or the error that the loop keeps. -/
def attempted : HttpOutcome → Except ProviderError (Except HttpRaised PyValue)
  | .timeout text => .error { message := wording.timedOut ++ text, retryable := true }
  | .transportError text => .error { message := wording.transport ++ text, retryable := true }
  | .decodingError text => .ok (.error (.decodingError text))
  | .response status body =>
      if status ≥ 500 then
        .error
          { message := wording.server ++ toString status
            statusCode := some status
            retryable := true }
      else if status ≥ 400 then
        .ok (.error (.providerError
          { message := wording.client ++ toString status ++ ": " ++ Py.takeText body.text 500
            statusCode := some status }))
      else .ok (body.json.mapError fun error => .python (.conversion error))

/-- The attempts that are left, and how many requests they make. -/
def attempts : ℕ → (ℕ → HttpOutcome) → Option ProviderError → Except HttpRaised PyValue × ℕ
  | 0, _, some error => (.error (.providerError error), 0)
  | 0, _, none => (.error .assertionError, 0)
  | remaining + 1, outcomes, _ =>
      match wording.attempted (outcomes 0) with
      | .ok ended => (ended, 1)
      | .error error =>
          let rest := attempts remaining (fun attempt => outcomes (attempt + 1)) (some error)
          (rest.1, rest.2 + 1)

def post (maxRetries : ℤ) (outcomes : ℕ → HttpOutcome) : Except HttpRaised PyValue × ℕ :=
  wording.attempts (maxRetries + 1).toNat outcomes none

/-- A request whose answer is read, and how many requests were made. -/
def generate (parse : PyValue → Except PyException ProviderResult) (maxRetries : ℤ)
    (outcomes : ℕ → HttpOutcome) : Except HttpRaised ProviderResult × ℕ :=
  let posted := wording.post maxRetries outcomes
  (posted.1 >>= fun data => (parse data).mapError .python, posted.2)

end HttpWording

/-- `int(value or 0)`. -/
def tokenCount (interpreter : PyInterpreter) (value : PyValue) : Except PyException ℤ :=
  ((value.orElse (.num (.int 0))).int interpreter).mapError .conversion

namespace OllamaProvider

variable (interpreter : PyInterpreter)

def wording : HttpWording where
  timedOut := "Ollama request timed out: "
  transport := "Ollama transport error: "
  server := "Ollama server error "
  client := "Ollama error "

def parseResponse (model : String) (data : PyValue) : Except PyException ProviderResult := do
  let message := (← data.getOr "message" (.obj [])).orElse (.obj [])
  let content ← message.getOr "content" (.str "")
  let text := content.orElse (← data.getOr "response" (.str ""))
  let tier : Tier := if Py.endsWith model ":cloud" then .expert else .local
  let name ← data.getOr "model" (.str model)
  let inputTokens ← tokenCount interpreter (← data.getOr "prompt_eval_count" .null)
  let outputTokens ← tokenCount interpreter (← data.getOr "eval_count" .null)
  let duration := (← data.getOr "total_duration" .null).orElse (.num (.int 0))
  let totalDuration ← (duration.float interpreter).mapError .conversion
  let doneReason ← data.getOr "done_reason" .null
  let loadDuration ← data.getOr "load_duration" .null
  -- the fields of the result are checked when it is built
  let text ← text.asText
  let name ← name.asText
  pure
    { text := text
      model := name
      tier := tier
      inputTokens := inputTokens
      outputTokens := outputTokens
      totalDuration := totalDuration
      providerRaw := [("done_reason", doneReason), ("load_duration", loadDuration)] }

def generate (maxRetries : ℤ) (model : String) (outcomes : ℕ → HttpOutcome) :
    Except HttpRaised ProviderResult × ℕ :=
  wording.generate (parseResponse interpreter model) maxRetries outcomes

end OllamaProvider

namespace OpenAICompatibleProvider

variable (interpreter : PyInterpreter)

def wording : HttpWording where
  timedOut := "request timed out: "
  transport := "transport error: "
  server := "server error "
  client := "API error "

def parseResponse (model : String) (data : PyValue) : Except PyException ProviderResult := do
  let choices := (← data.getOr "choices" .null).orElse (.arr [.obj []])
  let choice ← choices.first
  let message ← choice.getOr "message" (.obj [])
  let content ← message.getOr "content" (.str "")
  let usage := (← data.getOr "usage" .null).orElse (.obj [])
  let name ← data.getOr "model" (.str model)
  let inputTokens ← tokenCount interpreter (← usage.getOr "prompt_tokens" .null)
  let outputTokens ← tokenCount interpreter (← usage.getOr "completion_tokens" .null)
  let finishReason ← choice.getOr "finish_reason" .null
  -- the fields of the result are checked when it is built
  let text ← (content.orElse (.str "")).asText
  let name ← name.asText
  pure
    { text := text
      model := name
      tier := .expert
      inputTokens := inputTokens
      outputTokens := outputTokens
      totalDuration := .zero
      providerRaw := [("finish_reason", finishReason)] }

def generate (maxRetries : ℤ) (model : String) (outcomes : ℕ → HttpOutcome) :
    Except HttpRaised ProviderResult × ℕ :=
  wording.generate (parseResponse interpreter model) maxRetries outcomes

end OpenAICompatibleProvider

/-! ## Requests that are answered -/

/-- An attempt after which the loop goes on. -/
def HttpOutcome.IsRetried : HttpOutcome → Prop
  | .timeout _ => True
  | .transportError _ => True
  | .decodingError _ => False
  | .response status _ => 500 ≤ status

/-- A response that was accepted has a body that can be decoded and read, and the body of no
response fails to be decompressed. -/
def HttpOutcome.IsSound (readable : PyValue → Prop) : HttpOutcome → Prop
  | .timeout _ => True
  | .transportError _ => True
  | .decodingError _ => False
  | .response status body => status < 400 → ∃ data, body.json = .ok data ∧ readable data

/-- The requests that are made, up to the first that is not tried again, have sound outcomes. -/
def Served (readable : PyValue → Prop) (requests : ℕ) (outcomes : ℕ → HttpOutcome) : Prop :=
  ∀ n < requests, (∀ earlier < n, (outcomes earlier).IsRetried) → (outcomes n).IsSound readable

theorem served_zero {readable : PyValue → Prop} {outcomes : ℕ → HttpOutcome} :
    Served readable 0 outcomes := by
  intro n isBelow
  omega

/-- After a request that is tried again the others are to be sound. -/
theorem served_succ_of_retried {readable : PyValue → Prop} {requests : ℕ}
    {outcomes : ℕ → HttpOutcome} (isRetried : (outcomes 0).IsRetried)
    (isSound : (outcomes 0).IsSound readable) :
    Served readable (requests + 1) outcomes ↔
      Served readable requests fun attempt => outcomes (attempt + 1) := by
  constructor
  · intro served n isBelow retried
    refine served (n + 1) (by omega) fun earlier isEarlier => ?_
    cases earlier with
    | zero => exact isRetried
    | succ earlier => exact retried earlier (by omega)
  · intro served n isBelow retried
    cases n with
    | zero => exact isSound
    | succ n => exact served n (by omega) fun earlier isEarlier => retried (earlier + 1) (by omega)

/-- A request that is not tried again is the last. -/
theorem served_succ_of_ended {readable : PyValue → Prop} {requests : ℕ}
    {outcomes : ℕ → HttpOutcome} (isEnded : ¬ (outcomes 0).IsRetried) :
    Served readable (requests + 1) outcomes ↔ (outcomes 0).IsSound readable := by
  constructor
  · intro served
    exact served 0 (by omega) (by simp)
  · intro isSound n _ retried
    cases n with
    | zero => exact isSound
    | succ n => exact absurd (retried 0 (by omega)) isEnded

/-- The loop ended with data that can be read or with a provider error. -/
def EndsWell (readable : PyValue → Prop) (ended : Except HttpRaised PyValue) : Prop :=
  (∃ data, ended = .ok data ∧ readable data) ∨ ∃ error, ended = .error (.providerError error)

namespace HttpWording

variable {wording : HttpWording} {readable : PyValue → Prop} {outcomes : ℕ → HttpOutcome}

/-- The loop keeps an error exactly of an attempt that is tried again. -/
theorem attempted_retried {outcome : HttpOutcome} {error : ProviderError}
    (isKept : wording.attempted outcome = .error error) :
    outcome.IsRetried ∧ outcome.IsSound readable := by
  cases outcome with
  | timeout text => exact ⟨trivial, trivial⟩
  | transportError text => exact ⟨trivial, trivial⟩
  | decodingError text => cases isKept
  | response status body =>
      simp only [attempted] at isKept
      split_ifs at isKept with isServerError isClientError
      exact ⟨isServerError, fun isAccepted => by omega⟩

/-- The loop ends well with an attempt exactly if its outcome is sound. -/
theorem attempted_ended {outcome : HttpOutcome} {ended : Except HttpRaised PyValue}
    (isEnded : wording.attempted outcome = .ok ended) :
    ¬ outcome.IsRetried ∧ (EndsWell readable ended ↔ outcome.IsSound readable) := by
  cases outcome with
  | timeout text => cases isEnded
  | transportError text => cases isEnded
  | decodingError text =>
      cases isEnded
      simp [HttpOutcome.IsRetried, HttpOutcome.IsSound, EndsWell]
  | response status body =>
      simp only [attempted] at isEnded
      split_ifs at isEnded with isServerError isClientError
      · cases isEnded
        simp only [HttpOutcome.IsRetried, HttpOutcome.IsSound, EndsWell]
        refine ⟨by omega, fun _ isAccepted => by omega, fun _ => .inr ⟨_, rfl⟩⟩
      · have isAccepted : status < 400 := by omega
        cases isEnded
        simp only [HttpOutcome.IsRetried, HttpOutcome.IsSound, EndsWell, isAccepted, true_implies]
        refine ⟨by omega, ?_⟩
        cases body.json with
        | ok data => simp [Except.mapError]
        | error error => simp [Except.mapError]

/-- The loop makes no more requests than it may. -/
theorem attempts_requests (remaining : ℕ) (last : Option ProviderError) :
    (wording.attempts remaining outcomes last).2 ≤ remaining := by
  induction remaining generalizing outcomes last with
  | zero => cases last <;> simp [attempts]
  | succ remaining ih =>
      simp only [attempts]
      cases wording.attempted (outcomes 0) with
      | ok ended => simp
      | error error => simpa using ih (some error)

/-- The loop ends well exactly if the requests that it makes have sound outcomes, and it makes
one at least or has made one. -/
theorem attempts_iff (remaining : ℕ) (last : Option ProviderError) :
    EndsWell readable (wording.attempts remaining outcomes last).1 ↔
      (remaining = 0 → last ≠ none) ∧ Served readable remaining outcomes := by
  induction remaining generalizing outcomes last with
  | zero => cases last <;> simp [attempts, EndsWell, served_zero]
  | succ remaining ih =>
      simp only [attempts, Nat.add_one_ne_zero, false_implies, true_and]
      cases isAttempted : wording.attempted (outcomes 0) with
      | ok ended =>
          rcases attempted_ended isAttempted with ⟨isLast, endsWell_iff⟩
          rw [served_succ_of_ended isLast]
          exact endsWell_iff
      | error error =>
          rcases attempted_retried isAttempted with ⟨isRetried, isSound⟩
          rw [served_succ_of_retried isRetried isSound]
          simpa using ih (some error)

/-- A call of a provider makes no more requests than it may, and it returns a result or raises a
provider error. -/
def Reports (maxRetries : ℤ) (ended : Except HttpRaised ProviderResult × ℕ) : Prop :=
  (ended.2 : ℤ) ≤ maxRetries + 1 ∧
    ((∃ result, ended.1 = .ok result) ∨ ∃ error, ended.1 = .error (.providerError error))

/-- What the loop ended with is read without raising anything but a provider error exactly if it
ended well. -/
theorem parsed_iff {parse : PyValue → Except PyException ProviderResult}
    (reads : ∀ data, (∃ result, parse data = .ok result) ↔ readable data)
    {posted : Except HttpRaised PyValue} :
    ((∃ result, (posted >>= fun data => (parse data).mapError .python) = .ok result) ∨
      ∃ error, (posted >>= fun data => (parse data).mapError .python) =
        .error (.providerError error)) ↔ EndsWell readable posted := by
  cases posted with
  | error raised => simp [EndsWell, bind, Except.bind]
  | ok data =>
      have isRead := reads data
      change ((∃ result, (parse data).mapError HttpRaised.python = .ok result) ∨
        ∃ error, (parse data).mapError HttpRaised.python = .error (.providerError error)) ↔ _
      cases isParsed : parse data with
      | ok result =>
          rw [isParsed] at isRead
          simpa [EndsWell, Except.mapError] using isRead
      | error raised =>
          rw [isParsed] at isRead
          simpa [EndsWell, Except.mapError] using isRead

/-- That is so exactly if a request may be made and the outcomes of the requests that are made are
sound. -/
theorem generate_reports_iff {parse : PyValue → Except PyException ProviderResult}
    (reads : ∀ data, (∃ result, parse data = .ok result) ↔ readable data) (maxRetries : ℤ) :
    Reports maxRetries (wording.generate parse maxRetries outcomes) ↔
      0 ≤ maxRetries ∧ Served readable (maxRetries + 1).toNat outcomes := by
  have few : (wording.attempts (maxRetries + 1).toNat outcomes none).2 ≤ (maxRetries + 1).toNat :=
    attempts_requests _ none
  rw [Reports, generate, parsed_iff reads, post, attempts_iff]
  constructor
  · rintro ⟨_, isTried, served⟩
    exact ⟨by_contra fun isNegative => isTried (by omega) rfl, served⟩
  · rintro ⟨isNatural, served⟩
    refine ⟨?_, fun isZero => by omega, served⟩
    change ((wording.attempts (maxRetries + 1).toNat outcomes none).2 : ℤ) ≤ maxRetries + 1
    omega

end HttpWording

/-! ## Answers that can be read -/

section Readable

variable {interpreter : PyInterpreter} {model : String}
  {members : List (String × PyValue)} {data : PyValue}

theorem tokenCount_ok_iff {value : PyValue} :
    (∃ count, tokenCount interpreter value = .ok count) ↔
      (value.orElse (.num (.int 0))).IsInteger interpreter := by
  rw [← PyValue.int_ok_iff, tokenCount]
  cases (value.orElse (.num (.int 0))).int interpreter <;> simp [Except.mapError]

/-- The fields of an answer of Ollama that can be read. -/
structure OllamaProvider.Fields (interpreter : PyInterpreter) (model : String)
    (members message : List (String × PyValue)) : Prop where
  isMessage : (PyValue.member members "message" (.obj [])).orElse (.obj []) = .obj message
  text : ((PyValue.member message "content" (.str "")).orElse
    (PyValue.member members "response" (.str ""))).IsText
  model : (PyValue.member members "model" (.str model)).IsText
  inputTokens : ((PyValue.member members "prompt_eval_count" .null).orElse
    (.num (.int 0))).IsInteger interpreter
  outputTokens : ((PyValue.member members "eval_count" .null).orElse
    (.num (.int 0))).IsInteger interpreter
  duration : ((PyValue.member members "total_duration" .null).orElse
    (.num (.int 0))).IsNumber interpreter

/-- An answer of Ollama that can be read. -/
def OllamaProvider.Readable (interpreter : PyInterpreter) (model : String) (data : PyValue) :
    Prop :=
  ∃ members message, data = .obj members ∧ Fields interpreter model members message

/-- The fields of an OpenAI-compatible answer that can be read. -/
structure OpenAICompatibleProvider.Fields (interpreter : PyInterpreter) (model : String)
    (members choice message usage : List (String × PyValue)) : Prop where
  isChoice : ∃ rest, (PyValue.member members "choices" .null).orElse (.arr [.obj []]) =
    .arr (.obj choice :: rest)
  isMessage : PyValue.member choice "message" (.obj []) = .obj message
  text : ((PyValue.member message "content" (.str "")).orElse (.str "")).IsText
  model : (PyValue.member members "model" (.str model)).IsText
  isUsage : (PyValue.member members "usage" .null).orElse (.obj []) = .obj usage
  inputTokens : ((PyValue.member usage "prompt_tokens" .null).orElse
    (.num (.int 0))).IsInteger interpreter
  outputTokens : ((PyValue.member usage "completion_tokens" .null).orElse
    (.num (.int 0))).IsInteger interpreter

/-- An OpenAI-compatible answer that can be read. -/
def OpenAICompatibleProvider.Readable (interpreter : PyInterpreter) (model : String)
    (data : PyValue) : Prop :=
  ∃ members choice message usage, data = .obj members ∧
    Fields interpreter model members choice message usage

theorem duration_ok_iff {value : PyValue} :
    (∃ duration, (value.float interpreter).mapError PyException.conversion = .ok duration) ↔
      value.IsNumber interpreter := by
  rw [← PyValue.float_ok_iff]
  cases value.float interpreter <;> simp [Except.mapError]

theorem OllamaProvider.parseResponse_obj_iff :
    (∃ result, parseResponse interpreter model (.obj members) = .ok result) ↔
      ∃ message, Fields interpreter model members message := by
  simp only [parseResponse, PyValue.bind_ok_iff, PyValue.getOr_obj, Except.ok.injEq,
    exists_eq_left', PyValue.exists_getOr_iff, pure, Except.pure, exists_eq', and_true,
    exists_and_right, tokenCount_ok_iff, duration_ok_iff, PyValue.asText_ok_iff]
  constructor
  · rintro ⟨message, isMessage, inputTokens, outputTokens, duration, text, name⟩
    exact ⟨message, isMessage, text, name, inputTokens, outputTokens, duration⟩
  · rintro ⟨message, isMessage, text, name, inputTokens, outputTokens, duration⟩
    exact ⟨message, isMessage, inputTokens, outputTokens, duration, text, name⟩

/-- Ollama's answers are read exactly if they have the fields. -/
theorem OllamaProvider.parseResponse_ok_iff :
    (∃ result, parseResponse interpreter model data = .ok result) ↔
      Readable interpreter model data := by
  constructor
  · rintro ⟨result, isRead⟩
    have isParsed : ∃ result, parseResponse interpreter model data = .ok result := ⟨result, isRead⟩
    rw [parseResponse, PyValue.bind_ok_iff, PyValue.exists_getOr_iff] at isParsed
    rcases isParsed with ⟨members, rfl, _⟩
    rcases parseResponse_obj_iff.mp ⟨result, isRead⟩ with ⟨message, fields⟩
    exact ⟨members, message, rfl, fields⟩
  · rintro ⟨members, message, rfl, fields⟩
    exact parseResponse_obj_iff.mpr ⟨message, fields⟩

theorem OpenAICompatibleProvider.parseResponse_obj_iff :
    (∃ result, parseResponse interpreter model (.obj members) = .ok result) ↔
      ∃ choice message usage, Fields interpreter model members choice message usage := by
  simp only [parseResponse, PyValue.bind_ok_iff, PyValue.getOr_obj, Except.ok.injEq,
    exists_eq_left', PyValue.exists_getOr_iff, pure, Except.pure, exists_eq', and_true,
    exists_and_right, tokenCount_ok_iff, PyValue.asText_ok_iff]
  constructor
  · rintro ⟨_, isFirst, choice, rfl, message, isMessage, usage, isUsage, inputTokens, other, isOther,
      outputTokens, _, text, name⟩
    cases isUsage.symm.trans isOther
    exact ⟨choice, message, usage, PyValue.first_eq_obj_iff.mp isFirst, isMessage, text, name, isUsage,
      inputTokens, outputTokens⟩
  · rintro ⟨choice, message, usage, isFirst, isMessage, text, name, isUsage, inputTokens, outputTokens⟩
    exact ⟨_, PyValue.first_eq_obj_iff.mpr isFirst, choice, rfl, message, isMessage, usage, isUsage,
      inputTokens, usage, isUsage, outputTokens, ⟨_, rfl⟩, text, name⟩

/-- OpenAI-compatible answers are read exactly if they have the fields. -/
theorem OpenAICompatibleProvider.parseResponse_ok_iff :
    (∃ result, parseResponse interpreter model data = .ok result) ↔
      Readable interpreter model data := by
  constructor
  · rintro ⟨result, isRead⟩
    have isParsed : ∃ result, parseResponse interpreter model data = .ok result := ⟨result, isRead⟩
    rw [parseResponse, PyValue.bind_ok_iff, PyValue.exists_getOr_iff] at isParsed
    rcases isParsed with ⟨members, rfl, _⟩
    rcases parseResponse_obj_iff.mp ⟨result, isRead⟩ with ⟨choice, message, usage, fields⟩
    exact ⟨members, choice, message, usage, rfl, fields⟩
  · rintro ⟨members, choice, message, usage, rfl, fields⟩
    exact parseResponse_obj_iff.mpr ⟨choice, message, usage, fields⟩

end Readable

/-! ## The two providers -/

theorem OllamaProvider.generate_reports_iff (interpreter : PyInterpreter) (maxRetries : ℤ)
    (model : String) (outcomes : ℕ → HttpOutcome) :
    HttpWording.Reports maxRetries (generate interpreter maxRetries model outcomes) ↔
      0 ≤ maxRetries ∧
        Served (Readable interpreter model) (maxRetries + 1).toNat outcomes :=
  HttpWording.generate_reports_iff (fun _ => parseResponse_ok_iff) maxRetries

theorem OpenAICompatibleProvider.generate_reports_iff (interpreter : PyInterpreter)
    (maxRetries : ℤ) (model : String) (outcomes : ℕ → HttpOutcome) :
    HttpWording.Reports maxRetries (generate interpreter maxRetries model outcomes) ↔
      0 ≤ maxRetries ∧
        Served (Readable interpreter model) (maxRetries + 1).toNat outcomes :=
  HttpWording.generate_reports_iff (fun _ => parseResponse_ok_iff) maxRetries

end Aa.Sifter
