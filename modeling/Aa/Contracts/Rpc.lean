import Aa.Library.GoJson

/-!
# Inter-module RPC, version 1

The Go adapters of the modules answer JSON-RPC 2.0 requests in the same way. The
envelope is checked; a request with an idempotency key that was answered before is
answered from the replay cache; any other request is dispatched, and its result enters
the cache under the method and the key. An adapter supplies its methods and the codes
of its errors.
-/

namespace Aa.Contracts.Rpc

open Aa.Library

/-- An error code: a JSON-RPC number or an `aa` name. -/
inductive Code where
  | number (value : ℤ)
  | name (value : String)
deriving DecidableEq

def codeInvalidRequest : Code := .number (-32600)
def codeMethodNotFound : Code := .number (-32601)
def codeInvalidParams : Code := .number (-32602)
def codeInternalError : Code := .number (-32603)
def codeIncompatible : Code := .name "aa.incompatible"
def codeUnauthorized : Code := .name "aa.unauthorized"
def codeNotFound : Code := .name "aa.not_found"
def codeUnavailable : Code := .name "aa.unavailable"

/-- The transport metadata of a request, as far as an adapter reads it. -/
structure AA where
  rpcVersion : String

structure Request where
  jsonrpc : String := "2.0"
  id : Json := .null
  method : String
  params : Option Json.Object := none
  aa : Option AA := none

structure RpcError where
  code : Code
  message : String
deriving DecidableEq

/-- A JSON-RPC 2.0 response; `jsonrpc` is always "2.0". -/
structure Response (Result : Type) where
  id : Json
  result : Option Result := none
  error : Option RpcError := none

def compatible (aa : Option AA) : Bool :=
  match aa with
  | none => true
  | some aa => aa.rpcVersion = "" || aa.rpcVersion.toList.takeWhile (· ≠ '.') = ['1']

def idempotencyKey (request : Request) : Option String :=
  match Json.stringAt request.params "idempotencyKey" with
  | some value => if value = "" then none else some value
  | none => none

/-- The methods of an adapter and the codes of its errors; none is an unknown method. -/
structure Adapter (State Error Result : Type) where
  dispatch : State → Request → Option (Except Error Result × State)
  errorFrom : Error → RpcError

/-- The state behind an adapter and its replay cache. -/
structure Service (State Result : Type) where
  state : State
  cache : GoMap String Result := ∅

variable {State Error Result : Type}

def cacheKey (method key : String) : String := method ++ "|" ++ key

/-- The cached result a request is answered with, if any. -/
def cached (service : Service State Result) (request : Request) : Option Result :=
  (idempotencyKey request).bind fun key => service.cache.lookup (cacheKey request.method key)

/-- Remembers a result under the request's key, when it has one. -/
def remember (cache : GoMap String Result) (request : Request) (result : Result) :
    GoMap String Result :=
  match idempotencyKey request with
  | none => cache
  | some key => cache.insert (cacheKey request.method key) result

/-- Whether the envelope checks let a request through. -/
def wellFormed (request : Request) : Bool :=
  (request.jsonrpc = "" || request.jsonrpc = "2.0") && compatible request.aa

/-- A request that reaches the methods of the adapter. -/
structure Dispatched (service : Service State Result) (request : Request) : Prop where
  formed : wellFormed request = true
  fresh : cached service request = none

/-- A required string parameter; `invalid` makes the error of the adapter. -/
def requiredString (invalid : String → Error) (params : Option Json.Object) (field : String) :
    Except Error String :=
  match Json.stringAt params field with
  | some value => if value = "" then .error (invalid (field ++ " is required")) else .ok value
  | none => .error (invalid (field ++ " is required"))

theorem requiredString_ok {invalid : String → Error} {params : Option Json.Object}
    {field value : String} (present : requiredString invalid params field = .ok value) :
    Json.stringAt params field = some value := by
  unfold requiredString at present
  split at present
  · split at present
    · simp at present
    · rename_i found _
      rw [found]
      simpa using present
  · simp at present

def errResponse (id : Json) (error : RpcError) : Response Result :=
  { id := id, error := some error }

namespace Adapter

variable (adapter : Adapter State Error Result)

/-- Validates the envelope and dispatches one request. -/
def handle (service : Service State Result) (request : Request) :
    Response Result × Service State Result :=
  if request.jsonrpc ≠ "" ∧ request.jsonrpc ≠ "2.0" then
    (errResponse request.id ⟨codeInvalidRequest, "jsonrpc must be \"2.0\""⟩, service)
  else if !compatible request.aa then
    (errResponse request.id ⟨codeIncompatible, "unsupported RPC major"⟩, service)
  else
    match cached service request with
    | some result => ({ id := request.id, result := some result }, service)
    | none =>
        match adapter.dispatch service.state request with
        | none =>
            (errResponse request.id
              ⟨codeMethodNotFound, "unknown method " ++ Go.quote request.method⟩, service)
        | some (.error error, state) =>
            (errResponse request.id (adapter.errorFrom error), { service with state := state })
        | some (.ok result, state) =>
            ({ id := request.id, result := some result },
              { state := state, cache := remember service.cache request result })

variable {adapter}

/-- What an adapter does with a request: it rejects the envelope, replays, does not know the
method, fails, or answers and remembers. -/
theorem handle_cases (adapter : Adapter State Error Result) (service : Service State Result) (request : Request) :
    (wellFormed request = false ∧ (adapter.handle service request).2 = service ∧
        (adapter.handle service request).1.result = none) ∨
      (∃ result, wellFormed request = true ∧ cached service request = some result ∧
        adapter.handle service request =
          ({ id := request.id, result := some result }, service)) ∨
      (Dispatched service request ∧ adapter.dispatch service.state request = none ∧
        (adapter.handle service request).2 = service ∧
        (adapter.handle service request).1.result = none) ∨
      (∃ error state, Dispatched service request ∧
        adapter.dispatch service.state request = some (.error error, state) ∧
        (adapter.handle service request).2 = { service with state := state } ∧
        (adapter.handle service request).1.result = none) ∨
      ∃ result state, Dispatched service request ∧
        adapter.dispatch service.state request = some (.ok result, state) ∧
        adapter.handle service request = ({ id := request.id, result := some result },
          { state := state, cache := remember service.cache request result }) := by
  unfold handle
  by_cases version : request.jsonrpc ≠ "" ∧ request.jsonrpc ≠ "2.0"
  · left
    rw [if_pos version]
    exact ⟨by simp [wellFormed, version.1, version.2], rfl, rfl⟩
  · rw [if_neg version]
    by_cases compat : compatible request.aa = true
    · have formed : wellFormed request = true := by
        have := Classical.not_and_iff_not_or_not.mp version
        simp only [ne_eq, not_not] at this
        simp only [wellFormed, compat, Bool.and_true, Bool.or_eq_true, decide_eq_true_eq]
        exact this
      simp only [compat, Bool.not_true, Bool.false_eq_true, if_false]
      right
      cases cachedEq : cached service request with
      | some result => exact Or.inl ⟨result, formed, rfl, rfl⟩
      | none =>
          right
          have dispatched : Dispatched service request := ⟨formed, cachedEq⟩
          cases adapter.dispatch service.state request with
          | none => exact Or.inl ⟨dispatched, rfl, rfl, rfl⟩
          | some outcome =>
              right
              rcases outcome with ⟨error | result, state⟩
              · exact Or.inl ⟨error, state, dispatched, rfl, rfl, rfl⟩
              · exact Or.inr ⟨result, state, dispatched, rfl, rfl⟩
    · left
      simp only [Bool.not_eq_true] at compat
      exact ⟨by simp [wellFormed, compat], by simp [compat], by simp [compat, errResponse]⟩

end Adapter

/-- A remembered result, or one that was in the cache before. -/
theorem lookup_remember {cache : GoMap String Result} {request : Request} {result : Result}
    {key : String} {found : Result}
    (lookupEq : (remember cache request result).lookup key = some found) :
    found = result ∨ cache.lookup key = some found := by
  unfold remember at lookupEq
  split at lookupEq
  · exact Or.inr lookupEq
  · rename_i own _
    by_cases sameKey : key = cacheKey request.method own
    · rw [sameKey, AList.lookup_insert] at lookupEq
      exact Or.inl (Option.some.inj lookupEq).symm
    · rw [AList.lookup_insert_ne sameKey] at lookupEq
      exact Or.inr lookupEq

theorem lookup_of_cached {service : Service State Result} {request : Request} {result : Result}
    (cachedEq : cached service request = some result) :
    ∃ key, service.cache.lookup key = some result := by
  rcases Option.bind_eq_some_iff.mp cachedEq with ⟨key, _, lookupEq⟩
  exact ⟨_, lookupEq⟩

end Aa.Contracts.Rpc
