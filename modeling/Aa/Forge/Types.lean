import Aa.Library.GoError
import Aa.Library.GoJson
import Aa.Library.GoTime

/-!
# Forge types, validators and idempotency keys

A time is its RFC 3339 text, with the zero time of Go as the default.
-/

namespace Aa.Forge

open Aa.Library

/-- The sentinel errors of the forge. -/
inductive Sentinel where
  | notFound
  | conflict
  | rateLimited
  | humanGate
  | invalid
deriving DecidableEq

instance : GoSentinel Sentinel where
  text
    | .notFound => "forge: not found"
    | .conflict => "forge: conflict"
    | .rateLimited => "forge: rate limited"
    | .humanGate => "forge: human approval required to merge"
    | .invalid => "forge: invalid input"

abbrev Error := GoError Sentinel

/-- The result of a validator. -/
abbrev Check := Except Error Unit

def invalid {α : Type} (detail : String) : Except Error α := .error (.wrap .invalid detail)

abbrev Time := String

def zeroTime : Time := "0001-01-01T00:00:00Z"

/-- Identifies a forge object across implementations. -/
structure Ref where
  kind : String := ""
  id : String := ""
  url : String := ""
deriving DecidableEq

structure Repository where
  id : String := ""
  owner : String := ""
  name : String := ""
  defaultBranch : String := ""
  isPrivate : Bool := false
  ref : Ref := {}
deriving DecidableEq

structure Branch where
  name : String := ""
  commitSHA : String := ""
deriving DecidableEq

structure Milestone where
  id : String := ""
  title : String := ""
  state : String := ""
  ref : Ref := {}
deriving DecidableEq

structure Issue where
  id : String := ""
  number : ℤ := 0
  title : String := ""
  body : String := ""
  type : String := ""
  state : String := ""
  labels : Option (List String) := none
  milestone : String := ""
  ref : Ref := {}
deriving DecidableEq

structure PullRequest where
  id : String := ""
  number : ℤ := 0
  title : String := ""
  body : String := ""
  base : String := ""
  head : String := ""
  state : String := ""
  draft : Bool := false
  ref : Ref := {}
deriving DecidableEq

/-- A phase integration point: a commit tied to its issues and pull requests. -/
structure Checkpoint where
  id : String := ""
  phase : String := ""
  commit : String := ""
  issues : List Ref := []
  prs : List Ref := []
  createdAt : Time := zeroTime
deriving DecidableEq

structure Release where
  id : String := ""
  tag : String := ""
  notes : String := ""
  commit : String := ""
  createdAt : Time := zeroTime
deriving DecidableEq

/-- The explicit human gate required to merge a pull request. -/
structure MergeApproval where
  actor : String := ""
  reason : String := ""
  grantedAt : Time := zeroTime

/-- The only actor kind permitted to authorize a merge. -/
def mergeActorHuman : String := "human"

/-- A stable idempotency key from an operation name and its parts. -/
def key (operation : String) (parts : List String) : String :=
  Go.join ":" (Go.trimSpace operation :: parts.map Go.trimSpace)

def Repository.validate (repository : Repository) : Check :=
  if repository.owner = "" ∨ repository.name = "" then
    invalid "repository owner and name are required"
  else .ok ()

def Issue.validate (issue : Issue) : Check :=
  if issue.title = "" then invalid "issue title is required" else .ok ()

def PullRequest.validate (pr : PullRequest) : Check :=
  if pr.title = "" then invalid "pull request title is required"
  else if pr.base = "" ∨ pr.head = "" then invalid "pull request base and head are required"
  else if pr.base = pr.head then invalid "pull request head must differ from base"
  else .ok ()

def Checkpoint.validate (checkpoint : Checkpoint) : Check :=
  if checkpoint.phase = "" then invalid "checkpoint phase is required"
  else if checkpoint.commit = "" then invalid "checkpoint commit is required"
  else .ok ()

def isBranchChar (c : Char) : Bool :=
  c.isAlphanum || c == '.' || c == '_' || c == '/' || c == '-'

/-- `branchRE`. -/
def matchesBranch (name : String) : Bool :=
  match name.toList with
  | [] => false
  | first :: rest => first.isAlphanum && rest.all isBranchChar

/-- Whether a text contains two dots in a row. -/
def containsDots : List Char → Bool
  | [] => false
  | c :: rest => (c = '.' && rest.head? = some '.') || containsDots rest

def validateBranchName (name : String) : Check :=
  if name = "" then invalid "branch name is required"
  else if name.toList.any (fun c => c == ' ' || c == '\t' || c == '\n') ∨
      matchesBranch name = false ∨ containsDots name.toList then
    invalid ("branch name " ++ Go.quote name ++ " is not valid")
  else .ok ()

def isTagSeparator (c : Char) : Bool := c == '-' || c == '+'

def isTagChar (c : Char) : Bool := c.isAlphanum || c == '.'

/-- The text after a run of at least one digit. -/
def dropDigits (chars : List Char) : Option (List Char) :=
  if chars.head?.any Char.isDigit then some (chars.dropWhile Char.isDigit) else none

/-- The text after one given character. -/
def dropChar (c : Char) : List Char → Option (List Char)
  | [] => none
  | first :: rest => if first = c then some rest else none

/-- The suffixes of a tag: each a separator and at least one tag character. -/
def matchesTagSuffixes (chars : List Char) : Bool :=
  chars.isEmpty ||
    (chars.head?.any isTagSeparator &&
      (chars.splitOnP isTagSeparator).tail.all fun part => !part.isEmpty && part.all isTagChar)

/-- `tagRE`. -/
def matchesTag (tag : String) : Bool :=
  let rest := do
    let major ← dropDigits (← dropChar 'v' tag.toList)
    let minor ← dropDigits (← dropChar '.' major)
    dropDigits (← dropChar '.' minor)
  rest.any matchesTagSuffixes

def validateTag (tag : String) : Check :=
  if matchesTag tag then .ok ()
  else invalid ("tag " ++ Go.quote tag ++ " must look like v1.2.3")

def Release.validate (release : Release) : Check := validateTag release.tag

def MergeApproval.validate (approval : MergeApproval) : Check :=
  if approval.actor = "" then invalid "merge approval actor is required" else .ok ()

section Decoding

open GoJson

def decodeTime : Decoder Time
  | .null, target => .ok target
  | .str value, _ =>
      if GoTime.parsesStrictRFC3339 value then .ok value
      else .error ("parsing time " ++ Go.quote value)
  | _, _ => .error "Time.UnmarshalJSON: input is not a JSON string"

def decodeRef : Decoder Ref :=
  struct "forge.Ref"
    [field "kind" string (·.kind) (fun ref value => { ref with kind := value }),
      field "id" string (·.id) (fun ref value => { ref with id := value }),
      field "url" string (·.url) (fun ref value => { ref with url := value })]

/-- A slice that keeps apart null and the empty array. -/
def decodeLabels : Decoder (Option (List String))
  | .null, _ => .ok none
  | value, _ => (slice "" string value []).map some

def decodeIssue : Decoder Issue :=
  struct "forge.Issue"
    [field "id" string (·.id) (fun issue value => { issue with id := value }),
      field "number" int (·.number) (fun issue value => { issue with number := value }),
      field "title" string (·.title) (fun issue value => { issue with title := value }),
      field "body" string (·.body) (fun issue value => { issue with body := value }),
      field "type" string (·.type) (fun issue value => { issue with type := value }),
      field "state" string (·.state) (fun issue value => { issue with state := value }),
      field "labels" decodeLabels (·.labels) (fun issue value => { issue with labels := value }),
      field "milestone" string (·.milestone)
        (fun issue value => { issue with milestone := value }),
      field "ref" decodeRef (·.ref) (fun issue value => { issue with ref := value })]

def decodePullRequest : Decoder PullRequest :=
  struct "forge.PullRequest"
    [field "id" string (·.id) (fun pr value => { pr with id := value }),
      field "number" int (·.number) (fun pr value => { pr with number := value }),
      field "title" string (·.title) (fun pr value => { pr with title := value }),
      field "body" string (·.body) (fun pr value => { pr with body := value }),
      field "base" string (·.base) (fun pr value => { pr with base := value }),
      field "head" string (·.head) (fun pr value => { pr with head := value }),
      field "state" string (·.state) (fun pr value => { pr with state := value }),
      field "draft" bool (·.draft) (fun pr value => { pr with draft := value }),
      field "ref" decodeRef (·.ref) (fun pr value => { pr with ref := value })]

def decodeCheckpoint : Decoder Checkpoint :=
  struct "forge.Checkpoint"
    [field "id" string (·.id) (fun point value => { point with id := value }),
      field "phase" string (·.phase) (fun point value => { point with phase := value }),
      field "commit" string (·.commit) (fun point value => { point with commit := value }),
      field "issues" (slice {} decodeRef) (·.issues)
        (fun point value => { point with issues := value }),
      field "pullRequests" (slice {} decodeRef) (·.prs)
        (fun point value => { point with prs := value }),
      field "createdAt" decodeTime (·.createdAt)
        (fun point value => { point with createdAt := value })]

def decodeRelease : Decoder Release :=
  struct "forge.Release"
    [field "id" string (·.id) (fun release value => { release with id := value }),
      field "tag" string (·.tag) (fun release value => { release with tag := value }),
      field "notes" string (·.notes) (fun release value => { release with notes := value }),
      field "commit" string (·.commit) (fun release value => { release with commit := value }),
      field "createdAt" decodeTime (·.createdAt)
        (fun release value => { release with createdAt := value })]

end Decoding

end Aa.Forge
