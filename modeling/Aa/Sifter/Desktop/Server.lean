import Aa.Library.PyCase
import Aa.Library.PyValue
import Aa.Library.Secrecy
import Mathlib.Data.List.Infix
import Mathlib.Tactic.Ring

/-!
# The desktop server

The handler of the local HTTP server: the pages of the user interface for everyone, the calls of
the service for requests that show the token. A client that does not know the token and leaves the
page alone sees only refusals and static files, whatever it sends, unless it guesses the token; but
the page itself has the token in it, and is there for everyone.
-/

namespace Aa.Sifter.Desktop

open Aa.Library

inductive Method
  | get
  | post
  deriving DecidableEq

/-- A request: the path and the query of its target, the two headers that are read for the token,
and its JSON body. A body that raises when it is read is `none`. -/
structure Request where
  method : Method
  path : String
  query : List (String × List String) := []
  tokenHeader : Option String := none
  authorization : String := ""
  body : Option PyValue := some (.obj [])

/-- What goes back to the client. An exception that is not handled closes the connection. -/
inductive Response
  | json (status : ℕ) (payload : PyValue)
  | file (contentType : String) (content : List Char)
  | events (taskId : String)
  | closed

/-- The calls of the service that the handler makes. -/
inductive ServiceCall
  | health
  | status
  | profiles
  | models
  | system
  | doctor (live : Bool)
  | metrics
  | listTasks
  | submit (prompt : String) (context policy executionMode : PyValue)
  | resolveApproval (taskId action : String) (selectedOptions constraints : PyValue) (note : String)
  | cancel (taskId : String)
  | detectSystem (saveAs : PyValue)
  | activateProfile (name : String)
  | createProfile (name : String) (source : PyValue) (force : Bool)
  | setModel (tier provider model : String) (contextLimit endpoint apiKeyEnv : PyValue)

/-- The service behind the handler, the files of the user interface, and the interpreter. A call
returns a value or raises an exception with a text. -/
structure Server (State : Type) where
  perform : ServiceCall → State → Except String PyValue × State
  summary : String → State → Option PyValue
  files : String → Option (List Char)
  interpreter : PyInterpreter
  errorText : PyError → String

/-- The state of the server: that of the service, and whether a shutdown is requested. -/
structure Running (State : Type) where
  service : State
  shutdownRequested : Bool := false

/-! ## Requests -/

namespace Request

variable (request : Request)

/-- `(query.get(name) or [default])[0]`. -/
def firstOf (name default : String) : String :=
  match request.query.lookup name with
  | some (value :: _) => value
  | _ => default

/-- `path.strip("/").split("/")`. -/
def parts : List String :=
  let inner := ((request.path.toList.dropWhile (· = '/')).reverse.dropWhile (· = '/')).reverse
  (inner.splitOn '/').map String.ofList

def part (index : ℕ) : String := (request.parts[index]?).getD ""

def authorized (token : String) : Bool :=
  (match request.tokenHeader with
    | some header => header ≠ "" && header = token
    | none => false) ||
  (Py.startsWith request.authorization "Bearer " &&
    String.ofList (request.authorization.toList.drop 7) = token) ||
  request.firstOf "token" "" = token

/-- The texts that a request shows as the token. -/
def guesses : List String :=
  request.tokenHeader.toList ++ [String.ofList (request.authorization.toList.drop 7)] ++
    [request.firstOf "token" ""]

/-- Whether a request is for the page of the user interface. -/
def FetchesPage : Prop :=
  request.method = .get ∧ (request.path = "/" ∨ request.path = "/index.html")

/-- The name of the type of a value. -/
def typeName : PyValue → String
  | .null => "NoneType"
  | .bool _ => "bool"
  | .num (.int _) => "int"
  | .num (.float _) => "float"
  | .str _ => "str"
  | .arr _ => "list"
  | .obj _ => "dict"

/-- `body.get(name, default)`, which raises unless the body is a `dict`. -/
def member (body : PyValue) (name : String) (default : PyValue) : Except String PyValue :=
  match body with
  | .obj members => .ok ((members.lookup name).getD default)
  | other => .error ("'" ++ typeName other ++ "' object has no attribute 'get'")

end Request

/-! ## The handler -/

/-- `text.replace(old, new)`; `skip` characters belong to the last place that was replaced. -/
def replaceFrom (old new : List Char) : ℕ → List Char → List Char
  | _, [] => []
  | skip + 1, _ :: rest => replaceFrom old new skip rest
  | 0, c :: rest =>
      if old.isPrefixOf (c :: rest) then new ++ replaceFrom old new (old.length - 1) rest
      else c :: replaceFrom old new 0 rest

def tokenMarker : List Char := "__SIFTER_TOKEN__".toList

/-- The part of a name from its last point on. -/
def suffix (name : String) : String :=
  if '.' ∈ name.toList then "." ++ String.ofList (name.toList.reverse.takeWhile (· ≠ '.')).reverse
  else ""

def staticTypes : List (String × String) :=
  [(".html", "text/html; charset=utf-8"), (".js", "application/javascript; charset=utf-8"),
    (".css", "text/css; charset=utf-8"), (".svg", "image/svg+xml"), (".ico", "image/x-icon")]

def contentType (name : String) : String :=
  (staticTypes.lookup (suffix name)).getD "application/octet-stream"

namespace Server

variable {State : Type} (server : Server State)

def errorPayload (text : String) : PyValue := .obj [("error", .str text)]

def notFound : Response := .json 404 (errorPayload "not found")

def unauthorized : Response := .json 401 (errorPayload "unauthorized")

/-- A file of the user interface; the page has the token put in. -/
def serveStatic (token name : String) : Response :=
  match server.files name with
  | none => notFound
  | some content =>
      .file (contentType name)
        (if name = "index.html" then replaceFrom tokenMarker token.toList 0 content else content)

/-- Answers with the result of a call, whose exceptions are not handled. -/
def reply (status : ℕ) (wrap : PyValue → PyValue) (call : ServiceCall)
    (running : Running State) : Response × Running State :=
  match server.perform call running.service with
  | (.ok value, service) => (.json status (wrap value), { running with service := service })
  | (.error _, service) => (.closed, { running with service := service })

/-- Answers with the result of a call, or with the text of its exception. -/
def replyOrReport (status : ℕ) (call : ServiceCall) (running : Running State) :
    Response × Running State :=
  match server.perform call running.service with
  | (.ok value, service) => (.json status value, { running with service := service })
  | (.error text, service) => (.json 400 (errorPayload text), { running with service := service })

/-- `str(body.get(name, ""))`. -/
def textMember (body : PyValue) (name : String) : Except String String := do
  let value ← Request.member body name (.str "")
  (value.formatted server.interpreter).mapError server.errorText

def doGet (token : String) (request : Request) (running : Running State) :
    Response × Running State :=
  if request.path = "/" ∨ request.path = "/index.html" then
    (server.serveStatic token "index.html", running)
  else if request.path = "/app.js" then (server.serveStatic token "app.js", running)
  else if request.path = "/styles.css" then (server.serveStatic token "styles.css", running)
  else if !Py.startsWith request.path "/api/" then (notFound, running)
  else if !request.authorized token then (unauthorized, running)
  else if request.path = "/api/health" then server.reply 200 id .health running
  else if request.path = "/api/status" then server.reply 200 id .status running
  else if request.path = "/api/profiles" then
    server.reply 200 (fun profiles => .obj [("profiles", profiles)]) .profiles running
  else if request.path = "/api/models" then server.reply 200 id .models running
  else if request.path = "/api/system" then server.reply 200 id .system running
  else if request.path = "/api/doctor" then
    -- Only ASCII letters have a lower case in `true`.
    let live := (request.firstOf "live" "false").map Char.toLower = "true"
    server.reply 200 id (.doctor live) running
  else if request.path = "/api/metrics" then server.reply 200 id .metrics running
  else if request.path = "/api/tasks" then
    server.reply 200 (fun tasks => .obj [("tasks", tasks)]) .listTasks running
  else if Py.startsWith request.path "/api/tasks/" then
    let taskId := request.part 2
    if request.parts.length = 4 ∧ request.part 3 = "events" then
      match server.summary taskId running.service with
      | none => (notFound, running)
      | some _ => (.events taskId, running)
    else
      let summary := (server.summary taskId running.service).getD (errorPayload "not found")
      (.json 200 summary, running)
  else (notFound, running)

/-- The calls of a `POST`, once its body is read. -/
def doPostBody (request : Request) (body : PyValue) (running : Running State) :
    Response × Running State :=
  let orClose (computed : Except String (Response × Running State)) :=
    computed.toOption.getD (.closed, running)
  if request.path = "/api/tasks" then
    orClose do
      let prompt ← server.textMember body "prompt"
      if Py.strip prompt = "" then
        return (.json 400 (errorPayload "prompt is required"), running)
      let context ← Request.member body "context" .null
      let policy ← Request.member body "policy" .null
      let executionMode ← Request.member body "execution_mode" (.str "adaptive")
      return server.reply 202 id (.submit (Py.strip prompt) context policy executionMode) running
  else if Py.startsWith request.path "/api/tasks/" then
    let taskId := request.part 2
    let action := request.part 3
    if action = "approval" then
      orClose do
        let chosen ← server.textMember body "action"
        let selectedOptions ← Request.member body "selected_options" .null
        let constraints ← Request.member body "constraints" .null
        let note ← server.textMember body "note"
        return match server.perform
            (.resolveApproval taskId chosen selectedOptions constraints note) running.service with
          | (.ok ok, service) =>
              (.json (if ok.truthy then 200 else 400) (.obj [("ok", ok)]),
                { running with service := service })
          | (.error _, service) => (.closed, { running with service := service })
    else if action = "cancel" then
      server.reply 200 (fun cancelled => .obj [("cancelled", cancelled)]) (.cancel taskId) running
    else (notFound, running)
  else if request.path = "/api/system/detect" then
    orClose do
      let saveAs ← Request.member body "save_as" .null
      return server.reply 200 id (.detectSystem saveAs) running
  else if Py.startsWith request.path "/api/profiles/" && Py.endsWith request.path "/activate" then
    server.replyOrReport 200 (.activateProfile (request.part 2)) running
  else if request.path = "/api/profiles" then
    orClose do
      let name ← server.textMember body "name"
      if Py.strip name = "" then
        return (.json 400 (errorPayload "name is required"), running)
      let source ← Request.member body "source" .null
      let force ← Request.member body "force" .null
      return server.replyOrReport 201 (.createProfile (Py.strip name) source force.truthy) running
  else if request.path = "/api/models/set" then
    let call : Except String ServiceCall := do
      let tier ← server.textMember body "tier"
      let provider ← server.textMember body "provider"
      let model ← server.textMember body "model"
      let contextLimit ← Request.member body "context_limit" .null
      let endpoint ← Request.member body "endpoint" .null
      let apiKeyEnv ← Request.member body "api_key_env" .null
      return .setModel tier provider model contextLimit endpoint apiKeyEnv
    match call with
    | .ok call => server.replyOrReport 200 call running
    | .error text => (.json 400 (errorPayload text), running)
  else if request.path = "/api/shutdown" then
    (.json 200 (.obj [("ok", .bool true)]), { running with shutdownRequested := true })
  else (notFound, running)

def doPost (token : String) (request : Request) (running : Running State) :
    Response × Running State :=
  if !Py.startsWith request.path "/api/" then (notFound, running)
  else if !request.authorized token then (unauthorized, running)
  else
    match request.body with
    | none => (.closed, running)
    | some body => server.doPostBody request body running

def handle (token : String) (request : Request) (running : Running State) :
    Response × Running State :=
  match request.method with
  | .get => server.doGet token request running
  | .post => server.doPost token request running

/-! ## Without the token -/

/-- The answer to a request that does not show the token. -/
def refusal (request : Request) : Response :=
  if request.method = .get ∧ request.path = "/app.js" then server.serveStatic "" "app.js"
  else if request.method = .get ∧ request.path = "/styles.css" then
    server.serveStatic "" "styles.css"
  else if Py.startsWith request.path "/api/" then unauthorized
  else notFound

/-- The handler as a keeper whose secret is the token. -/
def keeper : Keeper String (Running State) Request Response where
  respond token running request := server.handle token request running
  guesses := Request.guesses
  refusal := server.refusal

/-- What everyone may see: that something is refused or missing, and the static files. -/
def Public (response : Response) : Prop :=
  response = unauthorized ∨ response = notFound ∨
    ∃ name ∈ ["app.js", "styles.css"], ∃ content, server.files name = some content ∧
      response = .file (contentType name) content

end Server

theorem Request.length_guesses_le (request : Request) : request.guesses.length ≤ 3 := by
  simp only [guesses, List.length_append, List.length_singleton]
  cases request.tokenHeader <;> simp

theorem Request.authorized_of_not_guessed {request : Request} {token : String}
    (missed : token ∉ request.guesses) : request.authorized token = false := by
  simp only [guesses, List.mem_append, List.mem_singleton, not_or, Option.mem_toList] at missed
  rcases missed with ⟨⟨notHeader, notBearer⟩, notQuery⟩
  have noHeader : (match request.tokenHeader with
      | some header => header ≠ "" && header = token
      | none => false) = false := by
    cases isHeader : request.tokenHeader with
    | none => rfl
    | some header =>
        have notToken : header ≠ token := by
          rintro rfl
          exact notHeader isHeader
        simp [notToken]
  rw [authorized, noHeader]
  simp [Ne.symm notBearer, Ne.symm notQuery]

namespace Server

variable {State : Type} {server : Server State}

theorem serveStatic_of_ne {name : String} (notPage : name ≠ "index.html") (token : String) :
    server.serveStatic token name = server.serveStatic "" name := by
  simp only [serveStatic, if_neg notPage]

/-- Without the token a request for anything but the page is refused. -/
theorem keeper_shutsOut {request : Request} (noPage : ¬ request.FetchesPage) :
    server.keeper.ShutsOut request := by
  intro token running missed
  have notAuthorized := Request.authorized_of_not_guessed missed
  change server.handle token request running = (server.refusal request, running)
  rw [handle, refusal]
  cases isMethod : request.method with
  | get =>
      have notPage : ¬ (request.path = "/" ∨ request.path = "/index.html") := fun isPage =>
        noPage ⟨isMethod, isPage⟩
      simp only [true_and]
      rw [doGet, if_neg notPage]
      by_cases isScript : request.path = "/app.js"
      · rw [if_pos isScript, if_pos isScript, serveStatic_of_ne (by decide)]
      · rw [if_neg isScript, if_neg isScript]
        by_cases isStyle : request.path = "/styles.css"
        · rw [if_pos isStyle, if_pos isStyle, serveStatic_of_ne (by decide)]
        · rw [if_neg isStyle, if_neg isStyle, notAuthorized]
          cases isApi : Py.startsWith request.path "/api/" <;> simp
  | post =>
      simp only [reduceCtorEq, false_and, if_false]
      rw [doPost]
      cases isApi : Py.startsWith request.path "/api/" <;> simp [notAuthorized]

theorem public_refusal (request : Request) : server.Public (server.refusal request) := by
  have ofFile {name : String} (isStatic : name ∈ ["app.js", "styles.css"]) :
      server.Public (server.serveStatic "" name) := by
    have notPage : name ≠ "index.html" := by
      rintro rfl
      revert isStatic
      decide
    rw [serveStatic]
    cases isFile : server.files name with
    | none => exact .inr (.inl rfl)
    | some content => exact .inr (.inr ⟨name, isStatic, content, isFile, by simp [notPage]⟩)
  rw [refusal]
  split_ifs
  · exact ofFile (by simp)
  · exact ofFile (by simp)
  · exact .inl rfl
  · exact .inr (.inl rfl)

/-- A client that leaves the page alone sees the same answers, all of them public, and changes
nothing, for every token but at most three for each of its requests. -/
theorem locked_out (server : Server State) (client : List Response → Request)
    (noPage : ∀ seen, ¬ (client seen).FetchesPage)
    (others : ℕ → Running State → Running State) (count : ℕ) :
    ∃ (guessed : List String) (seen : List Response), guessed.length ≤ 3 * count ∧
      (∀ response ∈ seen, server.Public response) ∧
      ∀ token, token ∉ guessed → ∀ running : Running State,
        server.keeper.interact client others token running count =
          (seen, Keeper.leftAlone others running count) := by
  refine ⟨server.keeper.guessed client count, server.keeper.refusals client count,
    Keeper.length_guessed_le Request.length_guesses_le count, ?_, ?_⟩
  · intro response isThere
    rcases Keeper.mem_refusals isThere with ⟨seen, rfl⟩
    exact public_refusal (client seen)
  · intro token missed running
    have shut : ∀ seen, server.keeper.ShutsOut (client seen) := fun seen =>
      keeper_shutsOut (noPage seen)
    exact Keeper.interact_of_not_guessed shut running count missed

/-- A server over a service that does nothing, whose only file is a page with the marker alone. -/
def markedServer : Server Unit where
  perform _ service := (.ok .null, service)
  summary _ _ := none
  files name := if name = "index.html" then some tokenMarker else none
  interpreter :=
    { int := fun _ => none, float := fun _ => none, quoted := id, floatText := fun _ => "",
      depth := 8 }
  errorText _ := ""

/-- A request to shut the server down, which shows no token. -/
def shutdownRequest : Request := { method := .post, path := "/api/shutdown" }

theorem locked_out_shutdown :
    ∃ (guessed : List String) (seen : List Response), guessed.length ≤ 3 * 2 ∧
      (∀ response ∈ seen, markedServer.Public response) ∧
      ∀ token, token ∉ guessed → ∀ running : Running Unit,
        markedServer.keeper.interact (fun _ => shutdownRequest) (fun _ => id) token running 2 =
          (seen, Keeper.leftAlone (fun _ => id) running 2) := by
  apply locked_out
  intro seen fetches
  cases fetches.1

end Server

/-! ## With the page -/

section Page

variable {old : List Char}

/-- The length of a text after a replacement depends on the new text through its length alone. -/
theorem length_replaceFrom (old : List Char) (skip : ℕ) (text : List Char) :
    ∃ base times, ∀ new,
      (replaceFrom old new skip text).length = base + times * new.length := by
  induction text generalizing skip with
  | nil => exact ⟨0, 0, fun new => by simp [replaceFrom]⟩
  | cons c rest ih =>
      cases skip with
      | succ skip => exact ih skip
      | zero =>
          by_cases isPrefix : old.isPrefixOf (c :: rest) = true
          · rcases ih (old.length - 1) with ⟨base, times, isLength⟩
            refine ⟨base, times + 1, ?_⟩
            intro new
            simp only [replaceFrom, if_pos isPrefix, List.length_append, isLength new]
            ring
          · rcases ih 0 with ⟨base, times, isLength⟩
            refine ⟨base + 1, times, ?_⟩
            intro new
            simp only [replaceFrom, if_neg isPrefix, List.length_cons, isLength new]
            ring

/-- A text in which something is replaced starts like the old one, and goes on with the new text. -/
theorem replaceFrom_of_infix {text : List Char} (notEmpty : old ≠ []) (occurs : old <:+: text) :
    ∃ front base times, ∀ new, ∃ tail, replaceFrom old new 0 text = front ++ new ++ tail ∧
      tail.length = base + times * new.length := by
  induction text with
  | nil => exact absurd (List.infix_nil.mp occurs) notEmpty
  | cons c rest ih =>
      by_cases isPrefix : old.isPrefixOf (c :: rest) = true
      · rcases length_replaceFrom old (old.length - 1) rest with ⟨base, times, isLength⟩
        refine ⟨[], base, times, ?_⟩
        intro new
        exact ⟨_, by simp only [replaceFrom, if_pos isPrefix, List.nil_append], isLength new⟩
      · have later : old <:+: rest := by
          rcases List.infix_cons_iff.mp occurs with isStart | isLater
          · exact absurd (List.isPrefixOf_iff_prefix.mpr isStart) isPrefix
          · exact isLater
        rcases ih later with ⟨front, base, times, isReplaced⟩
        refine ⟨c :: front, base, times, ?_⟩
        intro new
        rcases isReplaced new with ⟨tail, isText, isLength⟩
        refine ⟨tail, ?_, isLength⟩
        simp only [replaceFrom, if_neg isPrefix, isText, List.cons_append]

/-- From a text in which something is replaced the new text can be read. -/
theorem exists_recover {text : List Char} (notEmpty : old ≠ []) (occurs : old <:+: text) :
    ∃ recover : List Char → List Char, ∀ new, recover (replaceFrom old new 0 text) = new := by
  rcases replaceFrom_of_infix notEmpty occurs with ⟨front, base, times, isReplaced⟩
  refine ⟨fun whole => (whole.drop front.length).take
    ((whole.length - (front.length + base)) / (times + 1)), ?_⟩
  intro new
  rcases isReplaced new with ⟨tail, isText, isLength⟩
  have isTimes : front.length + new.length + tail.length - (front.length + base) =
      (times + 1) * new.length := by
    rw [isLength]
    have expanded : (times + 1) * new.length = times * new.length + new.length := by ring
    omega
  have isCount : (replaceFrom old new 0 text).length - (front.length + base) =
      (times + 1) * new.length := by
    rw [isText, List.length_append, List.length_append, isTimes]
  simp only [isCount, Nat.mul_div_cancel_left _ (Nat.succ_pos times)]
  rw [isText, List.append_assoc, List.drop_left, List.take_left]

/-- The request for the page, which shows nothing. -/
def pageRequest : Request := { method := .get, path := "/" }

/-- A request that shows a token in its query. -/
def Request.withToken (request : Request) (token : String) : Request :=
  { request with query := [("token", [token])] }

/-- Whoever may ask for the page is let in with the next request, whatever the token is. -/
theorem page_gives_away {State : Type} (server : Server State) {page : List Char}
    (isPage : server.files "index.html" = some page) (marked : tokenMarker <:+: page) :
    ∃ recover : Response → String,
      ∀ (token : String) (running : Running State) (request : Request),
      (request.withToken (recover (server.handle token pageRequest running).1)).authorized token =
        true := by
  have notEmpty : tokenMarker ≠ [] := by decide
  rcases exists_recover notEmpty marked with ⟨recover, recovers⟩
  refine ⟨fun response => match response with
    | .file _ content => String.ofList (recover content)
    | _ => "", ?_⟩
  intro token running request
  have answer : (server.handle token pageRequest running).1 =
      .file (contentType "index.html") (replaceFrom tokenMarker token.toList 0 page) := by
    simp [Server.handle, Server.doGet, pageRequest, Server.serveStatic, isPage]
  rw [answer]
  simp only [recovers, String.ofList_toList]
  simp [Request.authorized, Request.withToken, Request.firstOf]

theorem page_gives_away_marked :
    ∃ recover : Response → String,
      ∀ (token : String) (running : Running Unit) (request : Request),
      (request.withToken
        (recover (Server.markedServer.handle token pageRequest running).1)).authorized token =
          true :=
  page_gives_away Server.markedServer rfl (List.infix_refl tokenMarker)

end Page

end Aa.Sifter.Desktop
