import Aa.Forge.Types

/-!
# The in-memory forge

The deterministic forge the phase lifecycle runs on: no network, stable ids and
ordering. Every create is idempotent by a key; a create that does not replay may fail by
an injected failure and otherwise stores what it was given, completed with its defaults.
A step of the forge starts with the error of its context, if the context has one.
-/

namespace Aa.Forge

open Aa.Library

/-- One auditable forge action. -/
structure Operation where
  seq : ℕ
  operation : String
  key : String
  repoId : String
  target : Ref
  fields : List (String × String)
  time : Time

/-- The results of the creates, by idempotency key. The keys of different operations
differ in the operation's name, so that one map for each kind serves as the single map
of the source. -/
structure Idempotent where
  repositories : GoMap String Repository := ∅
  branches : GoMap String Branch := ∅
  milestones : GoMap String Milestone := ∅
  issues : GoMap String Issue := ∅
  pulls : GoMap String PullRequest := ∅
  checkpoints : GoMap String Checkpoint := ∅
  releases : GoMap String Release := ∅

structure Failure where
  remaining : ℤ
  error : Error

/-- A deterministic in-memory forge. The clock gives the time of its n-th reading, and an
object is found under its repository and its number or name. -/
structure Fake where
  clock : ℕ → Time
  readings : ℕ := 0
  log : List Operation := []
  repos : GoMap String Repository := ∅
  branches : GoMap (String × String) Branch := ∅
  milestones : GoMap (String × String) Milestone := ∅
  issues : GoMap (String × ℤ) Issue := ∅
  pulls : GoMap (String × ℤ) PullRequest := ∅
  checkpoints : GoMap (String × String) Checkpoint := ∅
  releases : GoMap (String × String) Release := ∅
  counters : GoMap String ℤ := ∅
  idem : Idempotent := {}
  failures : GoMap String Failure := ∅

namespace Fake

/-- Makes the next calls to an operation fail. -/
def inject (fake : Fake) (operation : String) (times : ℤ) (error : Error) : Fake :=
  { fake with failures := fake.failures.insert operation ⟨times, error⟩ }

/-- The injected failure the next call to an operation meets. -/
def pendingFailure (fake : Fake) (operation : String) : Option Failure :=
  (fake.failures.lookup operation).filter fun failure => failure.remaining > 0

def maybeFail (fake : Fake) (operation : String) : Option Error × Fake :=
  match fake.pendingFailure operation with
  | none => (none, fake)
  | some failure =>
      (some failure.error,
        { fake with
          failures := fake.failures.insert operation ⟨failure.remaining - 1, failure.error⟩ })

/-- Raises a counter and returns its new value. -/
def next (fake : Fake) (counter : String) : ℤ × Fake :=
  let value := (fake.counters.lookup counter).getD 0 + 1
  (value, { fake with counters := fake.counters.insert counter value })

def nextId (fake : Fake) (label : String) : String × Fake :=
  let (value, fake) := fake.next label
  (label ++ "_" ++ Go.itoa value, fake)

def nextNumber (fake : Fake) (repoId : String) : ℤ × Fake := fake.next ("number:" ++ repoId)

def nextPRNumber (fake : Fake) (repoId : String) : ℤ × Fake := fake.next ("prnumber:" ++ repoId)

def now (fake : Fake) : Time × Fake :=
  (fake.clock fake.readings, { fake with readings := fake.readings + 1 })

def record (fake : Fake) (operation key repoId : String) (target : Ref)
    (fields : List (String × String)) : Fake :=
  let (time, fake) := fake.now
  { fake with
    log := fake.log ++
      [{ seq := fake.log.length + 1, operation := operation, key := key, repoId := repoId
         target := target, fields := fields, time := time }] }

/-- The value given, or a fresh one where it is the default. -/
def orElse {α : Type} [DecidableEq α] (given default : α) (fresh : Fake → α × Fake)
    (fake : Fake) : α × Fake :=
  if given = default then fresh fake else (given, fake)

/-- The common part of the creates: a replay of what the key created before, an injected
failure, or the object that `make` completes and `save` stores, each recorded. -/
def createOnce {α : Type} (fake : Fake) (operation key : String) (existing : Option α)
    (replayed : α → String × Ref) (make : Fake → α × Fake) (save : α → Fake → Fake)
    (created : α → String × Ref × List (String × String)) : Except Error α × Fake :=
  match existing with
  | some old =>
      (.ok old,
        fake.record operation key (replayed old).1 (replayed old).2 [("idempotent", "replay")])
  | none =>
      match fake.maybeFail operation with
      | (some error, fake) => (.error error, fake)
      | (none, fake) =>
          let (object, fake) := make fake
          (.ok object,
            (save object fake).record operation key (created object).1 (created object).2.1
              (created object).2.2)

def unknownRepository {α : Type} (fake : Fake) (repoId : String) : Except Error α × Fake :=
  (.error (.wrap .notFound ("repository " ++ repoId)), fake)

/-- Runs a step unless the context has an error. -/
def unlessCancelled {α : Type} (fake : Fake) (cancelled : Option Error)
    (step : Except Error α × Fake) : Except Error α × Fake :=
  match cancelled with
  | some error => (.error error, fake)
  | none => step

def createRepository (fake : Fake) (cancelled : Option Error) (repo : Repository) :
    Except Error Repository × Fake :=
  fake.unlessCancelled cancelled <|
    match repo.validate with
    | .error error => (.error error, fake)
    | .ok () =>
        let key := key "repository.create" [repo.owner, repo.name]
        fake.createOnce "repository.create" key (fake.idem.repositories.lookup key)
          (fun old => (old.id, {}))
          (fun fake =>
            let (id, fake) := orElse repo.id "" (·.nextId "repo") fake
            let branch := if repo.defaultBranch = "" then "main" else repo.defaultBranch
            let url := "forge://" ++ repo.owner ++ "/" ++ repo.name
            ({ repo with
               id := id
               defaultBranch := branch
               ref := { kind := "repository", id := id, url := url } }, fake))
          (fun repo fake =>
            { fake with
              repos := fake.repos.insert repo.id repo
              idem := { fake.idem with
                repositories := fake.idem.repositories.insert key repo } })
          (fun repo => (repo.id, repo.ref, []))

def createBranch (fake : Fake) (cancelled : Option Error) (repoId : String) (branch : Branch) :
    Except Error Branch × Fake :=
  fake.unlessCancelled cancelled <|
    if (fake.repos.lookup repoId).isNone then fake.unknownRepository repoId
    else
      match validateBranchName branch.name with
      | .error error => (.error error, fake)
      | .ok () =>
          let key := key "branch.create" [repoId, branch.name]
          let target : Ref := { kind := "branch", id := branch.name }
          fake.createOnce "branch.create" key (fake.idem.branches.lookup key)
            (fun _ => (repoId, target))
            (fun fake => (branch, fake))
            (fun branch fake =>
              { fake with
                branches := fake.branches.insert (repoId, branch.name) branch
                idem := { fake.idem with branches := fake.idem.branches.insert key branch } })
            (fun branch => (repoId, target, [("commit", branch.commitSHA)]))

def createMilestone (fake : Fake) (cancelled : Option Error) (repoId : String)
    (milestone : Milestone) : Except Error Milestone × Fake :=
  fake.unlessCancelled cancelled <|
    if (fake.repos.lookup repoId).isNone then fake.unknownRepository repoId
    else if milestone.title = "" then
      (.error (.wrap .invalid "milestone title is required"), fake)
    else
      let key := key "milestone.create" [repoId, milestone.title]
      fake.createOnce "milestone.create" key (fake.idem.milestones.lookup key)
        (fun old => (repoId, old.ref))
        (fun fake =>
          let (id, fake) := orElse milestone.id "" (·.nextId "milestone") fake
          let state := if milestone.state = "" then "open" else milestone.state
          ({ milestone with id := id, state := state, ref := { kind := "milestone", id := id } },
            fake))
        (fun milestone fake =>
          { fake with
            milestones := fake.milestones.insert (repoId, milestone.id) milestone
            idem := { fake.idem with
              milestones := fake.idem.milestones.insert key milestone } })
        (fun milestone => (repoId, milestone.ref, [("title", milestone.title)]))

def createIssue (fake : Fake) (cancelled : Option Error) (repoId : String) (issue : Issue) :
    Except Error Issue × Fake :=
  fake.unlessCancelled cancelled <|
    if (fake.repos.lookup repoId).isNone then fake.unknownRepository repoId
    else
      match issue.validate with
      | .error error => (.error error, fake)
      | .ok () =>
          let key := key "issue.create" [repoId, issue.title]
          fake.createOnce "issue.create" key (fake.idem.issues.lookup key)
            (fun old => (repoId, old.ref))
            (fun fake =>
              let (id, fake) := orElse issue.id "" (·.nextId "issue") fake
              let state := if issue.state = "" then "open" else issue.state
              let (number, fake) := orElse issue.number 0 (·.nextNumber repoId) fake
              ({ issue with
                 id := id
                 state := state
                 number := number
                 ref := { kind := "issue", id := id } }, fake))
            (fun issue fake =>
              { fake with
                issues := fake.issues.insert (repoId, issue.number) issue
                idem := { fake.idem with issues := fake.idem.issues.insert key issue } })
            (fun issue => (repoId, issue.ref, [("number", Go.itoa issue.number)]))

/-- Updates the mutable fields of an existing issue. -/
def updateIssue (fake : Fake) (cancelled : Option Error) (repoId : String) (issue : Issue) :
    Except Error Issue × Fake :=
  fake.unlessCancelled cancelled <|
    match fake.issues.lookup (repoId, issue.number) with
    | none => (.error (.wrap .notFound ("issue " ++ Go.itoa issue.number)), fake)
    | some current =>
        let updated : Issue :=
          { current with
            title := if issue.title ≠ "" then issue.title else current.title
            body := if issue.body ≠ "" then issue.body else current.body
            state := if issue.state ≠ "" then issue.state else current.state
            labels := if issue.labels.isSome then issue.labels else current.labels
            milestone := if issue.milestone ≠ "" then issue.milestone else current.milestone }
        let stored := { fake with issues := fake.issues.insert (repoId, issue.number) updated }
        (.ok updated,
          stored.record "issue.update" (key "issue.update" [repoId, Go.itoa issue.number])
            repoId updated.ref [("state", updated.state)])

/-- The pull request a caller's fields are completed to when it is opened. -/
def openedPullRequest (repoId : String) (pr : PullRequest) (fake : Fake) : PullRequest × Fake :=
  let (id, fake) := orElse pr.id "" (·.nextId "pull") fake
  let (number, fake) := orElse pr.number 0 (·.nextPRNumber repoId) fake
  let state := if pr.state = "" then "open" else pr.state
  ({ pr with
     id := id
     number := number
     state := state
     ref := { kind := "pull_request", id := id } }, fake)

def savePullRequest (repoId key : String) (pr : PullRequest) (fake : Fake) : Fake :=
  { fake with
    pulls := fake.pulls.insert (repoId, pr.number) pr
    idem := { fake.idem with pulls := fake.idem.pulls.insert key pr } }

def pullKey (repoId : String) (pr : PullRequest) : String :=
  key "pull.open" [repoId, pr.head, pr.base, pr.title]

/-- Opens a pull request, idempotently by head, base, and title. -/
def openPullRequest (fake : Fake) (cancelled : Option Error) (repoId : String)
    (pr : PullRequest) : Except Error PullRequest × Fake :=
  fake.unlessCancelled cancelled <|
    if (fake.repos.lookup repoId).isNone then fake.unknownRepository repoId
    else
      match pr.validate with
      | .error error => (.error error, fake)
      | .ok () =>
          let key := pullKey repoId pr
          fake.createOnce "pull.open" key (fake.idem.pulls.lookup key)
            (fun old => (repoId, old.ref))
            (openedPullRequest repoId pr)
            (savePullRequest repoId key)
            (fun pr => (repoId, pr.ref, [("draft", toString pr.draft)]))

/-- The stored pull request with the fields of an update applied. -/
def updatedPullRequest (current pr : PullRequest) : PullRequest :=
  { current with
    title := if pr.title ≠ "" then pr.title else current.title
    body := if pr.body ≠ "" then pr.body else current.body
    state := if pr.state ≠ "" then pr.state else current.state
    draft := pr.draft }

/-- Updates the mutable fields of an open pull request. -/
def updatePullRequest (fake : Fake) (cancelled : Option Error) (repoId : String)
    (pr : PullRequest) : Except Error PullRequest × Fake :=
  fake.unlessCancelled cancelled <|
    match fake.pulls.lookup (repoId, pr.number) with
    | none => (.error (.wrap .notFound ("pull request " ++ Go.itoa pr.number)), fake)
    | some current =>
        if current.state = "merged" then
          (.error (.wrap .conflict
            ("pull request " ++ Go.itoa pr.number ++ " is already merged")), fake)
        else
          let updated := updatedPullRequest current pr
          let stored := { fake with pulls := fake.pulls.insert (repoId, pr.number) updated }
          (.ok updated,
            stored.record "pull.update" (key "pull.update" [repoId, Go.itoa pr.number])
              repoId updated.ref [("draft", toString updated.draft)])

/-- Merges a pull request, with the approval of the human gate. -/
def mergePullRequest (fake : Fake) (cancelled : Option Error) (repoId : String) (number : ℤ)
    (approval : MergeApproval) : Except Error PullRequest × Fake :=
  fake.unlessCancelled cancelled <|
    match fake.pulls.lookup (repoId, number) with
    | none => (.error (.wrap .notFound ("pull request " ++ Go.itoa number)), fake)
    | some current =>
        match approval.validate with
        | .error error => (.error (.wrap .humanGate error.message), fake)
        | .ok () =>
            let key := key "pull.merge" [repoId, Go.itoa number]
            if current.state = "merged" then
              (.ok current,
                fake.record "pull.merge" key repoId current.ref [("idempotent", "replay")])
            else
              match fake.maybeFail "pull.merge" with
              | (some error, fake) => (.error error, fake)
              | (none, fake) =>
                  let merged := { current with state := "merged", draft := false }
                  let stored := { fake with pulls := fake.pulls.insert (repoId, number) merged }
                  (.ok merged,
                    stored.record "pull.merge" key repoId merged.ref
                      [("actor", approval.actor)])

/-- The creation time given, or the present one. -/
def createdAt (given : Time) (fake : Fake) : Time × Fake := orElse given zeroTime now fake

def createCheckpoint (fake : Fake) (cancelled : Option Error) (repoId : String)
    (checkpoint : Checkpoint) : Except Error Checkpoint × Fake :=
  fake.unlessCancelled cancelled <|
    match checkpoint.validate with
    | .error error => (.error error, fake)
    | .ok () =>
        let key := key "checkpoint.create" [repoId, checkpoint.phase, checkpoint.commit]
        fake.createOnce "checkpoint.create" key (fake.idem.checkpoints.lookup key)
          (fun old => (repoId, { kind := "checkpoint", id := old.id }))
          (fun fake =>
            let (id, fake) := orElse checkpoint.id "" (·.nextId "checkpoint") fake
            let (time, fake) := fake.createdAt checkpoint.createdAt
            ({ checkpoint with id := id, createdAt := time }, fake))
          (fun checkpoint fake =>
            { fake with
              checkpoints := fake.checkpoints.insert (repoId, checkpoint.id) checkpoint
              idem := { fake.idem with
                checkpoints := fake.idem.checkpoints.insert key checkpoint } })
          (fun checkpoint =>
            (repoId, { kind := "checkpoint", id := checkpoint.id },
              [("phase", checkpoint.phase)]))

def createRelease (fake : Fake) (cancelled : Option Error) (repoId : String)
    (release : Release) : Except Error Release × Fake :=
  fake.unlessCancelled cancelled <|
    match release.validate with
    | .error error => (.error error, fake)
    | .ok () =>
        let key := key "release.create" [repoId, release.tag]
        fake.createOnce "release.create" key (fake.idem.releases.lookup key)
          (fun old => (repoId, { kind := "release", id := old.id }))
          (fun fake =>
            let (id, fake) := orElse release.id "" (·.nextId "release") fake
            let (time, fake) := fake.createdAt release.createdAt
            ({ release with id := id, createdAt := time }, fake))
          (fun release fake =>
            { fake with
              releases := fake.releases.insert (repoId, release.tag) release
              idem := { fake.idem with releases := fake.idem.releases.insert key release } })
          (fun release =>
            (repoId, { kind := "release", id := release.id }, [("tag", release.tag)]))

end Fake

end Aa.Forge
