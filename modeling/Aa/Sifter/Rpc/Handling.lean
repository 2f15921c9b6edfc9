import Aa.Library.PyObject
import Aa.Sifter.Outgoing
import Aa.Sifter.Routing.Merge
import Aa.Sifter.Rpc.Service

/-!
# The RPC service

`handle` takes one message and returns one response. The methods run under an exception handler
that turns what they raise into error responses; the version check before them and the text of an
unknown method after them do not. A generation with an idempotency key is answered from the cache
if there is one with that key.
-/

namespace Aa.Sifter

open Aa.Library

/-! ## The envelope -/

namespace Rpc

def rpcVersion : String := "1.0"

def methodNotFound : PyValue := .num (.int (-32601))

def invalidParams : PyValue := .num (.int (-32602))

def internalError : PyValue := .num (.int (-32603))

def incompatible : PyValue := .str "aa.incompatible"

def unavailable : PyValue := .str "aa.unavailable"

def success (requestId result : PyValue) : PyValue :=
  .obj [("jsonrpc", .str "2.0"), ("id", requestId), ("result", result)]

def failure (requestId code : PyValue) (message : String) (data : Option PyValue := none) :
    PyValue :=
  .obj [("jsonrpc", .str "2.0"), ("id", requestId),
    ("error", .obj <| [("code", code), ("message", .str message)] ++
      match data with
      | some data => [("data", data)]
      | none => [])]

/-- What comes before the first dot of a version. -/
def major (version : String) : List Char :=
  version.toList.takeWhile (· ≠ '.')

/-- `str(value)`. -/
def text (interpreter : PyInterpreter) (value : PyValue) : Except PyException String :=
  (value.formatted interpreter).mapError .conversion

/-- A callee rejects an unsupported RPC major. -/
def isCompatible (interpreter : PyInterpreter) (aa : PyValue) : Except PyException Bool :=
  if aa.truthy then do
    let requested ← aa.getOr "rpcVersion" (.str rpcVersion)
    let version ← text interpreter requested
    pure (major version = major rpcVersion)
  else pure true

/-- The value of a key that is a number; `True` is the number 1. -/
def exact : PyValue → Option ℚ
  | .bool value => some (if value then 1 else 0)
  | .num (.int value) => some value
  | .num (.float (.finite double)) => some double.value
  | _ => none

/-- Whether two keys of a dict are the same; a NaN that was read is the same as no other. -/
def sameKey : PyValue → PyValue → Bool
  | .str first, .str second => first = second
  | .num (.float (.infinite first)), .num (.float (.infinite second)) => first = second
  | first, second =>
      match exact first, exact second with
      | some first, some second => first = second
      | _, _ => false

def hashable : PyValue → Bool
  | .arr _ => false
  | .obj _ => false
  | _ => true

end Rpc

/-- The payloads by idempotency key, in the order they came. -/
abbrev IdempotencyCache := List (PyValue × PyValue)

/-- What the methods of the service raise. -/
inductive RpcFailure
  | contract (message : String)
  | provider (message : String) (retryable : Bool)
  | other (message : String)

/-- What the service calls: the interpreter, with its wording of what an operation on a value
raises, the answers to the operations of the sifter, the validation of contracts, and the
recommendation. -/
structure RpcEnvironment where
  interpreter : PyInterpreter
  wording : PyException → PyValue → String
  answer : (op : Op) → op.Answer
  retryable : Op → Bool
  contractsAvailable : Bool
  contractVersion : String
  routeRequest : PyValue → Except RpcFailure RouteRequest
  routeResponse : RouteResponse → Except RpcFailure PyValue
  recommend : PyValue → Except RpcFailure PyValue

namespace RpcEnvironment

variable (environment : RpcEnvironment)

/-- An operation on a value, with what it raises in words. -/
def attempt {α : Type} (value : PyValue) (computed : Except PyException α) : Except RpcFailure α :=
  computed.mapError fun raised => .other (environment.wording raised value)

end RpcEnvironment

/-- `Role(value)`. -/
def Role.parse (value : String) : Option Role :=
  [Role.system, .user, .assistant, .tool].find? fun role => role.value = value

namespace SifterService

variable (service : SifterService) (environment : RpcEnvironment)

/-- One message of a generation. `str` of a content raises a `ValueError` for a number that is too
long, which is reported like a role that does not exist. -/
def message (item : PyValue) : Except RpcFailure (Message Char) := do
  match item with
  | .obj members =>
      match members.lookup "content" with
      | none => .error (.contract "messages: each message needs role and content")
      | some content => do
          let role := PyValue.member members "role" (.str "user")
          let role ← environment.attempt role (Rpc.text environment.interpreter role)
          let invalid : RpcFailure :=
            .contract ("messages: invalid role " ++ environment.interpreter.quoted role)
          match Role.parse role with
          | none => .error invalid
          | some role =>
              match Rpc.text environment.interpreter content with
              | .ok content => pure ⟨role, content.toList⟩
              | .error (.conversion .valueError) => .error invalid
              | .error raised => .error (.other (environment.wording raised content))
  | _ => .error (.contract "messages: each message needs role and content")

/-- `sifter.generate`, as the environment answers it. -/
def inferred (tier : String) (messages : List (Message Char)) :
    Except RpcFailure GenerationResult :=
  let played := (service.sifter.generate tier messages
    (service.sifter.newSession { prompt := "" })).play (fun _ => environment.answer) []
  match played.2.1 with
  | .ok result => .ok result
  | .error (.providerError message) =>
      .error (.provider message (played.1.any fun event => environment.retryable event.op))
  | .error (.budgetExceeded exceeded) => .error (.other exceeded.reason)
  | .error (.other message) => .error (.other message)

def payload (result : GenerationResult) : PyValue :=
  .obj
    [("text", .str result.text),
      ("usage", .obj
        [("model", .str result.model),
          ("tier", .str (tierName (some result.tier))),
          ("inputTokens", .num (.int result.inputTokens)),
          ("outputTokens", .num (.int result.outputTokens))])]

/-- The part of `generate` after the cache. -/
def generated (params : PyValue) : Except RpcFailure PyValue := do
  let rawMessages ← environment.attempt params (params.getOr "messages" .null)
  match rawMessages with
  | .arr (first :: rest) =>
      let messages ← (first :: rest).mapM (message environment)
      let tier ← environment.attempt params (params.getOr "tier" (.str "local"))
      let tier ← environment.attempt tier (Rpc.text environment.interpreter tier)
      let result ← service.inferred environment tier messages
      pure (payload result)
  | _ => .error (.contract "messages: at least one message is required")

def generate (cache : IdempotencyCache) (params : PyValue) :
    Except RpcFailure PyValue × IdempotencyCache :=
  match environment.attempt params (params.getOr "idempotencyKey" .null) with
  | .error raised => (.error raised, cache)
  | .ok .null => (service.generated environment params, cache)
  | .ok key =>
      if Rpc.hashable key then
        match cache.find? fun entry => Rpc.sameKey entry.1 key with
        | some entry => (.ok entry.2, cache)
        | none =>
            match service.generated environment params with
            | .ok payload => (.ok payload, cache ++ [(key, payload)])
            | .error raised => (.error raised, cache)
      else (.error (.other (environment.wording .typeError key)), cache)

def routed (params : PyValue) : Except RpcFailure PyValue := do
  let request ← environment.routeRequest params
  environment.routeResponse (service.route request)

/-- A text or `None`. -/
def optionalText : Option String → PyValue
  | some text => .str text
  | none => .null

def health : PyValue :=
  let config := service.sifter.config
  .obj
    [("available", .bool true),
      ("providers", .arr
        [.obj
          [("name", .str config.localProvider),
            ("tier", .str "local"),
            ("available", .bool true),
            ("endpoint", optionalText (orElse config.localEndpoint (some config.ollamaHost)))],
        .obj
          [("name", .str config.expertProvider),
            ("tier", .str "expert"),
            ("available", .bool config.cloudAllowed),
            ("keyEnv", optionalText config.expertApiKeyEnv)]]),
      ("rpcVersion", .str Rpc.rpcVersion),
      ("contractVersion", .str environment.contractVersion),
      ("contractsAvailable", .bool environment.contractsAvailable),
      ("capabilities", .arr
        [.str "route", .str "generate", .str "health", .str "recommend"])]

/-- The method that a message names, on its parameters; `none` if there is no such method. -/
def dispatch (cache : IdempotencyCache) (params : PyValue) :
    PyValue → Option (Except RpcFailure PyValue × IdempotencyCache)
  | .str "sifter.route" => some (service.routed environment params, cache)
  | .str "sifter.generate" => some (service.generate environment cache params)
  | .str "sifter.health" => some (.ok (service.health environment), cache)
  | .str "sifter.recommend" => some (environment.recommend params, cache)
  | _ => none

/-- The response to a method that has ended. -/
def respond (requestId : PyValue) : Except RpcFailure PyValue → PyValue
  | .ok result => Rpc.success requestId result
  | .error (.contract message) => Rpc.failure requestId Rpc.invalidParams message
  | .error (.provider message retryable) =>
      Rpc.failure requestId Rpc.unavailable message
        (some (.obj [("retryable", .bool retryable)]))
  | .error (.other message) => Rpc.failure requestId Rpc.internalError message

def handle (cache : IdempotencyCache) (message : List (String × PyValue)) :
    Except PyException PyValue × IdempotencyCache :=
  let requestId := PyValue.get message "id"
  let method := PyValue.get message "method"
  let params := (PyValue.get message "params").orElse (.obj [])
  let aa := (PyValue.get message "aa").orElse (.obj [])
  match Rpc.isCompatible environment.interpreter aa with
  | .error raised => (.error raised, cache)
  | .ok false =>
      ((aa.getOr "rpcVersion" .null).map fun requested =>
        Rpc.failure requestId Rpc.incompatible "unsupported RPC major"
          (some (.obj [("rpcVersion", requested)])), cache)
  | .ok true =>
      match service.dispatch environment cache params method with
      | some (outcome, cache) => (.ok (respond requestId outcome), cache)
      | none =>
          (((method.repr environment.interpreter environment.interpreter.depth).mapError
              PyException.conversion).map fun text =>
            Rpc.failure requestId Rpc.methodNotFound ("unknown method " ++ text), cache)

end SifterService

/-! ## Responses -/

namespace Rpc

/-- A JSON-RPC 2.0 response that reports a result. -/
def IsResult (requestId response : PyValue) : Prop :=
  ∃ result, response = .obj [("jsonrpc", .str "2.0"), ("id", requestId), ("result", result)]

/-- A JSON-RPC 2.0 response that reports an error. -/
def IsError (requestId response : PyValue) : Prop :=
  ∃ code message data, response = .obj [("jsonrpc", .str "2.0"), ("id", requestId),
    ("error", .obj ([("code", code), ("message", .str message)] ++ data))]

theorem failure_isError (requestId code : PyValue) (message : String) (data : Option PyValue) :
    IsError requestId (failure requestId code message data) :=
  ⟨code, message, _, rfl⟩

/-- A response reports a result or an error, not both. -/
theorem not_isError_of_isResult {requestId response : PyValue}
    (isResult : IsResult requestId response) : ¬ IsError requestId response := by
  rcases isResult with ⟨result, rfl⟩
  rintro ⟨code, message, data, isError⟩
  simp at isError

theorem text_ok_iff {interpreter : PyInterpreter} {value : PyValue} :
    (∃ written, text interpreter value = .ok written) ↔ value.Writable interpreter := by
  rw [← PyValue.formatted_ok_iff, text]
  cases value.formatted interpreter with
  | ok written => exact ⟨fun _ => ⟨written, rfl⟩, fun _ => ⟨written, rfl⟩⟩
  | error error =>
      constructor
      · rintro ⟨_, ⟨⟩⟩
      · rintro ⟨_, ⟨⟩⟩

/-- A member `aa` that is not false is a dict, and its version can be written. -/
def Versioned (interpreter : PyInterpreter) (aa : PyValue) : Prop :=
  aa.truthy = true → ∃ members, aa = .obj members ∧
    (PyValue.member members "rpcVersion" (.str rpcVersion)).Writable interpreter

/-- The version check ends exactly for a member of that form. -/
theorem isCompatible_ok_iff {interpreter : PyInterpreter} {aa : PyValue} :
    (∃ compatible, isCompatible interpreter aa = .ok compatible) ↔ Versioned interpreter aa := by
  rw [isCompatible]
  split
  · rename_i truthy
    constructor
    · rintro ⟨compatible, isOk⟩ _
      rcases PyValue.bind_eq_ok_iff.mp isOk with ⟨requested, isRequested, rest⟩
      rcases PyValue.bind_eq_ok_iff.mp rest with ⟨version, isVersion, _⟩
      cases aa with
      | obj members =>
          cases isRequested
          exact ⟨members, rfl, text_ok_iff.mp ⟨version, isVersion⟩⟩
      | null => cases isRequested
      | bool value => cases isRequested
      | num number => cases isRequested
      | str text => cases isRequested
      | arr items => cases isRequested
    · intro versioned
      rcases versioned truthy with ⟨members, rfl, writable⟩
      rcases text_ok_iff.mpr writable with ⟨version, isVersion⟩
      refine ⟨major version = major rpcVersion, PyValue.bind_eq_ok_iff.mpr ⟨_, rfl, ?_⟩⟩
      exact PyValue.bind_eq_ok_iff.mpr ⟨version, isVersion, rfl⟩
  · rename_i notTruthy
    exact ⟨fun _ truthy => absurd truthy notTruthy, fun _ => ⟨true, rfl⟩⟩

/-- Only a dict can be incompatible. -/
theorem isDict_of_incompatible {interpreter : PyInterpreter} {aa : PyValue}
    (isIncompatible : isCompatible interpreter aa = .ok false) : aa.IsDict := by
  by_cases truthy : aa.truthy = true
  · rcases isCompatible_ok_iff.mp ⟨false, isIncompatible⟩ truthy with ⟨members, rfl, _⟩
    trivial
  · rw [isCompatible, if_neg truthy] at isIncompatible
    cases isIncompatible

/-- A member that is false is checked like an empty dict. -/
theorem isCompatible_orElse {interpreter : PyInterpreter} {aa : PyValue} :
    isCompatible interpreter (aa.orElse (.obj [])) = isCompatible interpreter aa := by
  by_cases truthy : aa.truthy = true
  · rw [PyValue.orElse, if_pos truthy]
  · rw [PyValue.orElse, if_neg truthy, isCompatible, isCompatible, if_neg truthy]
    rfl

/-- What is not compatible is not replaced by an empty dict. -/
theorem orElse_of_incompatible {interpreter : PyInterpreter} {aa : PyValue}
    (isIncompatible : isCompatible interpreter aa = .ok false) : aa.orElse (.obj []) = aa := by
  by_cases truthy : aa.truthy = true
  · rw [PyValue.orElse, if_pos truthy]
  · rw [isCompatible, if_neg truthy] at isIncompatible
    cases isIncompatible

def methods : List String :=
  ["sifter.route", "sifter.generate", "sifter.health", "sifter.recommend"]

end Rpc

namespace SifterService

variable {service : SifterService} {environment : RpcEnvironment} {cache : IdempotencyCache}
  {params method : PyValue}

/-- A generation that fails leaves the cache as it is. -/
theorem generate_cache {raised : RpcFailure}
    (isRaised : (service.generate environment cache params).1 = .error raised) :
    (service.generate environment cache params).2 = cache := by
  simp only [generate] at isRaised ⊢
  split at isRaised
  · rfl
  · rfl
  · split_ifs at isRaised ⊢ with isHashable
    · split at isRaised
      · rfl
      · split at isRaised
        · cases isRaised
        · rfl
    · rfl

/-- The methods are those of the list. -/
theorem dispatch_eq_none_iff :
    service.dispatch environment cache params method = none ↔ ∀ name ∈ Rpc.methods, method ≠ .str name := by
  constructor
  · rintro isNone name isMethod rfl
    simp only [Rpc.methods, List.mem_cons, List.not_mem_nil, or_false] at isMethod
    rcases isMethod with rfl | rfl | rfl | rfl <;> cases isNone
  · intro unknown
    simp only [dispatch]
    split
    · exact absurd rfl (unknown "sifter.route" (by decide))
    · exact absurd rfl (unknown "sifter.generate" (by decide))
    · exact absurd rfl (unknown "sifter.health" (by decide))
    · exact absurd rfl (unknown "sifter.recommend" (by decide))
    · rfl

/-- A method that fails leaves the cache as it is. -/
theorem dispatch_cache {outcome : Except RpcFailure PyValue} {after : IdempotencyCache}
    (isOutcome : service.dispatch environment cache params method = some (outcome, after)) :
    (∃ result, outcome = .ok result) ∨ after = cache := by
  simp only [dispatch] at isOutcome
  split at isOutcome
  · cases isOutcome
    exact .inr rfl
  · have isGenerated := Option.some.inj isOutcome
    cases outcome with
    | ok result => exact .inl ⟨result, rfl⟩
    | error raised =>
        have unchanged := generate_cache (congrArg Prod.fst isGenerated)
        rw [isGenerated] at unchanged
        exact .inr unchanged
  · cases isOutcome
    exact .inr rfl
  · cases isOutcome
    exact .inr rfl
  · cases isOutcome

/-- The message is answered with one response, a result or an error with its id, and the cache
stays as it is if it is an error. -/
def Answers (service : SifterService) (environment : RpcEnvironment) (cache : IdempotencyCache)
    (message : List (String × PyValue)) : Prop :=
  ∃ response after, service.handle environment cache message = (.ok response, after) ∧
    (Rpc.IsResult (PyValue.get message "id") response ∨
      Rpc.IsError (PyValue.get message "id") response ∧ after = cache)

/-- The version of the message can be checked, and the name of a method that does not exist can
be written. -/
structure Answerable (environment : RpcEnvironment) (message : List (String × PyValue)) : Prop where
  version : Rpc.Versioned environment.interpreter (PyValue.get message "aa")
  method : Rpc.isCompatible environment.interpreter (PyValue.get message "aa") = .ok true →
    (∀ name ∈ Rpc.methods, PyValue.get message "method" ≠ .str name) →
      (PyValue.get message "method").nesting ≤ environment.interpreter.depth ∧
        (PyValue.get message "method").AllShort

/-- A response to a method that has ended reports its result, or an error. -/
theorem respond_answers {requestId : PyValue} {outcome : Except RpcFailure PyValue}
    {after : IdempotencyCache} (unchanged : (∃ result, outcome = .ok result) ∨ after = cache) :
    Rpc.IsResult requestId (respond requestId outcome) ∨
      Rpc.IsError requestId (respond requestId outcome) ∧ after = cache := by
  cases outcome with
  | ok result => exact .inl ⟨result, rfl⟩
  | error raised =>
      have isUnchanged : after = cache := by
        rcases unchanged with ⟨_, ⟨⟩⟩ | isUnchanged
        exact isUnchanged
      refine .inr ⟨?_, isUnchanged⟩
      cases raised with
      | contract message => exact Rpc.failure_isError requestId Rpc.invalidParams message none
      | provider message retryable =>
          exact Rpc.failure_isError requestId Rpc.unavailable message
            (some (.obj [("retryable", .bool retryable)]))
      | other message => exact Rpc.failure_isError requestId Rpc.internalError message none

section Handle

variable {message : List (String × PyValue)}

theorem handle_of_raised {raised : PyException}
    (isRaised : Rpc.isCompatible environment.interpreter (PyValue.get message "aa") =
      .error raised) :
    service.handle environment cache message = (.error raised, cache) := by
  simp only [handle, Rpc.isCompatible_orElse, isRaised]

theorem handle_of_incompatible
    (isIncompatible : Rpc.isCompatible environment.interpreter (PyValue.get message "aa") =
      .ok false) :
    ∃ requested, service.handle environment cache message =
      (.ok (Rpc.failure (PyValue.get message "id") Rpc.incompatible "unsupported RPC major"
        (some (.obj [("rpcVersion", requested)]))), cache) := by
  have isDict := Rpc.isDict_of_incompatible isIncompatible
  simp only [handle, isIncompatible, Rpc.orElse_of_incompatible isIncompatible]
  cases isAa : PyValue.get message "aa" with
  | obj members => exact ⟨_, rfl⟩
  | null => simp [isAa, PyValue.IsDict] at isDict
  | bool value => simp [isAa, PyValue.IsDict] at isDict
  | num number => simp [isAa, PyValue.IsDict] at isDict
  | str text => simp [isAa, PyValue.IsDict] at isDict
  | arr items => simp [isAa, PyValue.IsDict] at isDict

theorem handle_of_compatible
    (isCompatible : Rpc.isCompatible environment.interpreter (PyValue.get message "aa") =
      .ok true) {ended : Option (Except RpcFailure PyValue × IdempotencyCache)}
    (isEnded : service.dispatch environment cache
      ((PyValue.get message "params").orElse (.obj [])) (PyValue.get message "method") = ended) :
    service.handle environment cache message = ended.elim
      (((((PyValue.get message "method").repr environment.interpreter
          environment.interpreter.depth).mapError PyException.conversion).map fun text =>
        Rpc.failure (PyValue.get message "id") Rpc.methodNotFound ("unknown method " ++ text)),
        cache)
      fun ended => (.ok (respond (PyValue.get message "id") ended.1), ended.2) := by
  simp only [handle, Rpc.isCompatible_orElse, isCompatible, isEnded]
  cases ended with
  | none => rfl
  | some ended => rfl

end Handle

/-- The service answers a message exactly if it can check the version and can write the name of
a method that it does not have. -/
theorem handle_answers_iff (service : SifterService) (environment : RpcEnvironment)
    (cache : IdempotencyCache) (message : List (String × PyValue)) :
    service.Answers environment cache message ↔ Answerable environment message := by
  cases isChecked : Rpc.isCompatible environment.interpreter (PyValue.get message "aa") with
  | error raised =>
      constructor
      · rintro ⟨response, after, isHandled, _⟩
        rw [handle_of_raised isChecked] at isHandled
        cases isHandled
      · intro answerable
        rcases Rpc.isCompatible_ok_iff.mpr answerable.version with ⟨compatible, isOk⟩
        rw [isChecked] at isOk
        cases isOk
  | ok compatible =>
      have versioned := Rpc.isCompatible_ok_iff.mp ⟨compatible, isChecked⟩
      cases compatible with
      | false =>
          refine ⟨fun _ => ⟨versioned, ?_⟩, fun _ => ?_⟩
          · rw [isChecked]
            rintro ⟨⟩
          · rcases handle_of_incompatible isChecked with ⟨requested, isHandled⟩
            exact ⟨_, cache, isHandled, .inr ⟨Rpc.failure_isError _ _ _ _, rfl⟩⟩
      | true =>
          cases isEnded : service.dispatch environment cache
              ((PyValue.get message "params").orElse (.obj [])) (PyValue.get message "method") with
          | some ended =>
              refine ⟨fun _ => ⟨versioned, fun _ unknown => ?_⟩, fun _ => ?_⟩
              · rw [dispatch_eq_none_iff.mpr unknown] at isEnded
                cases isEnded
              · exact ⟨_, ended.2, handle_of_compatible isChecked isEnded,
                  respond_answers (dispatch_cache isEnded)⟩
          | none =>
              have isHandled := handle_of_compatible isChecked isEnded
              have unknown := dispatch_eq_none_iff.mp isEnded
              constructor
              · rintro ⟨response, after, isAnswer, _⟩
                rw [isHandled] at isAnswer
                cases isWritten : (PyValue.get message "method").repr environment.interpreter
                    environment.interpreter.depth with
                | ok text =>
                    exact ⟨versioned, fun _ _ => PyValue.repr_ok_iff.mp ⟨text, isWritten⟩⟩
                | error error =>
                    rw [isWritten] at isAnswer
                    cases isAnswer
              · intro answerable
                rcases PyValue.repr_ok_iff.mpr (answerable.method isChecked unknown) with
                  ⟨text, isWritten⟩
                rw [isWritten] at isHandled
                exact ⟨_, cache, isHandled, .inr ⟨Rpc.failure_isError _ _ _ none, rfl⟩⟩

/-- An environment whose operations all raise. -/
def idleEnvironment : RpcEnvironment where
  interpreter := roomyInterpreter
  wording _ _ := ""
  answer := ComputeSifter.raising "no answer"
  retryable _ := false
  contractsAvailable := false
  contractVersion := "1.0"
  routeRequest _ := .error (.contract "prompt: required")
  routeResponse _ := .error (.contract "route: required")
  recommend _ := .error (.other "no hardware")

/-- The version in the place of the object that should hold it. -/
def textVersion : List (String × PyValue) :=
  [("jsonrpc", .str "2.0"), ("id", .num (.int 1)), ("method", .str "sifter.health"),
    ("aa", .str "1.0")]

/-- That message is not answered. -/
theorem textVersion_unanswered :
    ¬ (SifterService.mk (ComputeSifter.ruledBy [])).Answers idleEnvironment [] textVersion := by
  rintro ⟨response, after, isHandled, _⟩
  have isRaised : ((SifterService.mk (ComputeSifter.ruledBy [])).handle idleEnvironment []
      textVersion).1 = .error .attributeError := rfl
  rw [isHandled] at isRaised
  cases isRaised

end SifterService

end Aa.Sifter
