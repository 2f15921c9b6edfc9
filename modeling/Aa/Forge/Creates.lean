import Aa.Library.Registry
import Aa.Forge.MergeGate

/-!
# Creates and what is stored

Issues and pull requests are stored by their numbers, which callers may give, and found again by the
keys of their creates. This file determines which creates overwrite what is stored or repeat an id:
those that store an object, by a number or an id that is taken.
-/

namespace Aa.Forge

open Aa.Library

namespace Fake

def issueRegistry (fake : Fake) : Registry Issue :=
  { stored := fake.issues, remembered := fake.idem.issues }

def pullRegistry (fake : Fake) : Registry PullRequest :=
  { stored := fake.pulls, remembered := fake.idem.pulls }

/-- What a forge stores of issues and pull requests. -/
def registries (fake : Fake) : Registry Issue × Registry PullRequest :=
  (fake.issueRegistry, fake.pullRegistry)

@[simp]
theorem maybeFail_registries (fake : Fake) (operation : String) :
    (fake.maybeFail operation).2.registries = fake.registries := by
  unfold maybeFail
  split <;> rfl

@[simp]
theorem record_registries (fake : Fake) (operation key repoId : String) (target : Ref)
    (fields : List (String × String)) :
    (fake.record operation key repoId target fields).registries = fake.registries := rfl

theorem orElse_registries {α : Type} [DecidableEq α] {given default : α} {fresh : Fake → α × Fake}
    (freshSame : ∀ fake, (fresh fake).2.registries = fake.registries) (fake : Fake) :
    (orElse given default fresh fake).2.registries = fake.registries := by
  unfold orElse
  split
  · exact freshSame fake
  · rfl

section CreateOnce

variable {α : Type} {fake : Fake} {operation key : String} {existing : Option α}
  {replayed : α → String × Ref} {make : Fake → α × Fake} {save : α → Fake → Fake}
  {created : α → String × Ref × List (String × String)}

/-- A create that replays or meets an injected failure stores nothing. -/
theorem createOnce_registries_of_idle
    (idle : existing ≠ none ∨ fake.pendingFailure operation ≠ none) :
    (fake.createOnce operation key existing replayed make save created).2.registries =
      fake.registries := by
  unfold createOnce
  split
  · rfl
  · rcases idle with replays | pending
    · exact absurd rfl replays
    · rcases maybeFail_of_pending.2 pending with ⟨error, failEq⟩
      have failed := fake.maybeFail_registries operation
      split
      · rename_i pairEq
        rw [pairEq] at failed
        exact failed
      · rename_i pairEq
        simp [pairEq] at failEq

/-- A create that stores stores what it makes. -/
theorem createOnce_registries_of_stores (isNew : existing = none)
    (noFailure : fake.pendingFailure operation = none) :
    (fake.createOnce operation key existing replayed make save created).2.registries =
      (save (make fake).1 (make fake).2).registries := by
  subst isNew
  simp [createOnce, maybeFail_of_pending.1 noFailure]

/-- A create of another kind of object. -/
theorem createOnce_registries (makeSame : ∀ fake, (make fake).2.registries = fake.registries)
    (saveSame : ∀ object fake, (save object fake).registries = fake.registries) :
    (fake.createOnce operation key existing replayed make save created).2.registries =
      fake.registries := by
  by_cases stores : existing = none ∧ fake.pendingFailure operation = none
  · rw [createOnce_registries_of_stores stores.1 stores.2, saveSame, makeSame]
  · refine createOnce_registries_of_idle ?_
    rwa [← not_and_or]

end CreateOnce

section Others

variable (fake : Fake) (cancelled : Option Error) (repoId : String)

theorem createRepository_registries (repo : Repository) :
    (fake.createRepository cancelled repo).2.registries = fake.registries := by
  unfold createRepository unlessCancelled
  split
  · rfl
  · split
    · rfl
    · refine createOnce_registries (fun fake => ?_) (fun _ _ => rfl)
      exact orElse_registries (fun _ => rfl) fake

theorem createBranch_registries (branch : Branch) :
    (fake.createBranch cancelled repoId branch).2.registries = fake.registries := by
  unfold createBranch unlessCancelled
  split
  · rfl
  · split
    · rfl
    · split
      · rfl
      · exact createOnce_registries (fun _ => rfl) (fun _ _ => rfl)

theorem createMilestone_registries (milestone : Milestone) :
    (fake.createMilestone cancelled repoId milestone).2.registries = fake.registries := by
  unfold createMilestone unlessCancelled
  split
  · rfl
  · split
    · rfl
    · split
      · rfl
      · refine createOnce_registries (fun fake => ?_) (fun _ _ => rfl)
        exact orElse_registries (fun _ => rfl) fake

theorem createCheckpoint_registries (checkpoint : Checkpoint) :
    (fake.createCheckpoint cancelled repoId checkpoint).2.registries = fake.registries := by
  unfold createCheckpoint unlessCancelled
  split
  · rfl
  · split
    · rfl
    · refine createOnce_registries (fun fake => ?_) (fun _ _ => rfl)
      exact (orElse_registries (fun _ => rfl) _).trans (orElse_registries (fun _ => rfl) fake)

theorem createRelease_registries (release : Release) :
    (fake.createRelease cancelled repoId release).2.registries = fake.registries := by
  unfold createRelease unlessCancelled
  split
  · rfl
  · split
    · rfl
    · refine createOnce_registries (fun fake => ?_) (fun _ _ => rfl)
      exact (orElse_registries (fun _ => rfl) _).trans (orElse_registries (fun _ => rfl) fake)

end Others

/-! ## Creating an issue -/

/-- The conditions under which creating an issue stores one. -/
structure Creates (fake : Fake) (cancelled : Option Error) (repoId : String) (issue : Issue) :
    Prop where
  active : cancelled = none
  known : (fake.repos.lookup repoId).isNone = false
  valid : issue.validate = .ok ()
  fresh : fake.idem.issues.lookup (key "issue.create" [repoId, issue.title]) = none
  noFailure : fake.pendingFailure "issue.create" = none

/-- The id an object gets: the one given, or the next one of its kind. -/
def assignedId (fake : Fake) (label given : String) : String :=
  if given = "" then label ++ "_" ++ Go.itoa ((fake.counters.lookup label).getD 0 + 1) else given

/-- The number an object gets: the one given, or the next one of a counter. -/
def assignedNumber (fake : Fake) (counter : String) (given : ℤ) : ℤ :=
  if given = 0 then (fake.counters.lookup counter).getD 0 + 1 else given

theorem orElse_nextId (fake : Fake) (label given : String) :
    (orElse given "" (·.nextId label) fake).1 = fake.assignedId label given := by
  unfold orElse assignedId
  split <;> rfl

theorem orElse_next (fake : Fake) (counter : String) (given : ℤ) :
    (orElse given 0 (·.next counter) fake).1 = fake.assignedNumber counter given := by
  unfold orElse assignedNumber
  split <;> rfl

/-- Taking an id leaves the other counters. -/
theorem assignedNumber_nextId (fake : Fake) {label counter : String} (other : counter ≠ label)
    (given : String) (number : ℤ) :
    (orElse given "" (·.nextId label) fake).2.assignedNumber counter number =
      fake.assignedNumber counter number := by
  unfold orElse
  split
  · simp [assignedNumber, nextId, next, AList.lookup_insert_ne other]
  · rfl

/-- The issue that a create stores. -/
def createdIssue (fake : Fake) (repoId : String) (issue : Issue) : Issue :=
  { issue with
    id := fake.assignedId "issue" issue.id
    state := if issue.state = "" then "open" else issue.state
    number := fake.assignedNumber ("number:" ++ repoId) issue.number
    ref := { kind := "issue", id := fake.assignedId "issue" issue.id } }

theorem createIssue_of_creates {fake : Fake} {cancelled : Option Error} {repoId : String}
    {issue : Issue} (creates : fake.Creates cancelled repoId issue) :
    (fake.createIssue cancelled repoId issue).2.registries =
      (fake.issueRegistry.create (repoId, (fake.createdIssue repoId issue).number)
        (key "issue.create" [repoId, issue.title]) (fake.createdIssue repoId issue),
        fake.pullRegistry) := by
  have otherCounter : "number:" ++ repoId ≠ "issue" := by
    intro same
    have chars := congrArg String.toList same
    simp [String.toList_append] at chars
  simp only [createIssue, unlessCancelled, creates.active, creates.known, creates.valid,
    Bool.false_eq_true, if_false]
  rw [createOnce_registries_of_stores creates.fresh creates.noFailure]
  generalize isNumbered : orElse issue.number 0 (·.nextNumber repoId)
    (orElse issue.id "" (·.nextId "issue") fake).2 = numbered
  have number : numbered.1 = fake.assignedNumber ("number:" ++ repoId) issue.number := by
    rw [← isNumbered, ← assignedNumber_nextId fake otherCounter issue.id, ← orElse_next]
    rfl
  have same : numbered.2.registries = fake.registries := by
    rw [← isNumbered]
    exact (orElse_registries (fun _ => rfl) _).trans (orElse_registries (fun _ => rfl) fake)
  rcases Prod.ext_iff.mp same with ⟨sameIssues, samePulls⟩
  rw [orElse_nextId, number]
  exact Prod.ext (congrArg (fun r : Registry Issue => r.create _ _ _) sameIssues) samePulls

theorem createIssue_of_not_creates {fake : Fake} {cancelled : Option Error} {repoId : String}
    {issue : Issue} (not : ¬ fake.Creates cancelled repoId issue) :
    (fake.createIssue cancelled repoId issue).2.registries = fake.registries := by
  unfold createIssue unlessCancelled
  split
  · rfl
  · split
    · rfl
    · rename_i known
      split
      · rfl
      · rename_i valid
        refine createOnce_registries_of_idle ?_
        by_contra stores
        simp only [not_or, not_not] at stores
        exact not ⟨rfl, Bool.not_eq_true _ ▸ known, valid, stores.1, stores.2⟩

/-! ## Opening a pull request -/

/-- The pull request that a create stores. -/
def openedPull (fake : Fake) (repoId : String) (pr : PullRequest) : PullRequest :=
  { pr with
    id := fake.assignedId "pull" pr.id
    number := fake.assignedNumber ("prnumber:" ++ repoId) pr.number
    state := if pr.state = "" then "open" else pr.state
    ref := { kind := "pull_request", id := fake.assignedId "pull" pr.id } }

theorem openPullRequest_of_opens {fake : Fake} {cancelled : Option Error} {repoId : String}
    {pr : PullRequest} (opens : fake.Opens cancelled repoId pr) :
    (fake.openPullRequest cancelled repoId pr).2.registries =
      (fake.issueRegistry, fake.pullRegistry.create (repoId, (fake.openedPull repoId pr).number)
        (pullKey repoId pr) (fake.openedPull repoId pr)) := by
  have otherCounter : "prnumber:" ++ repoId ≠ "pull" := by
    intro same
    have chars := congrArg String.toList same
    simp [String.toList_append] at chars
  simp only [openPullRequest, unlessCancelled, opens.active, opens.known, opens.valid,
    Bool.false_eq_true, if_false]
  rw [createOnce_registries_of_stores opens.fresh opens.noFailure]
  simp only [openedPullRequest]
  generalize isNumbered : orElse pr.number 0 (·.nextPRNumber repoId)
    (orElse pr.id "" (·.nextId "pull") fake).2 = numbered
  have number : numbered.1 = fake.assignedNumber ("prnumber:" ++ repoId) pr.number := by
    rw [← isNumbered, ← assignedNumber_nextId fake otherCounter pr.id, ← orElse_next]
    rfl
  have same : numbered.2.registries = fake.registries := by
    rw [← isNumbered]
    exact (orElse_registries (fun _ => rfl) _).trans (orElse_registries (fun _ => rfl) fake)
  rcases Prod.ext_iff.mp same with ⟨sameIssues, samePulls⟩
  rw [orElse_nextId, number]
  exact Prod.ext sameIssues (congrArg (fun r : Registry PullRequest => r.create _ _ _) samePulls)

theorem openPullRequest_of_not_opens {fake : Fake} {cancelled : Option Error} {repoId : String}
    {pr : PullRequest} (not : ¬ fake.Opens cancelled repoId pr) :
    (fake.openPullRequest cancelled repoId pr).2.registries = fake.registries := by
  unfold openPullRequest unlessCancelled
  split
  · rfl
  · split
    · rfl
    · rename_i known
      split
      · rfl
      · rename_i valid
        refine createOnce_registries_of_idle ?_
        by_contra stores
        simp only [not_or, not_not] at stores
        exact not ⟨rfl, Bool.not_eq_true _ ▸ known, valid, stores.1, stores.2⟩

/-! ## Updates -/

/-- An update replaces an issue by one of its id and number. -/
theorem updateIssue_registries (fake : Fake) (cancelled : Option Error) (repoId : String)
    (issue : Issue) :
    (fake.updateIssue cancelled repoId issue).2.registries = fake.registries ∨
      ∃ current updated : Issue, fake.issues.lookup (repoId, issue.number) = some current ∧
        updated.id = current.id ∧ updated.number = current.number ∧
        (fake.updateIssue cancelled repoId issue).2.registries =
          (fake.issueRegistry.replace (repoId, issue.number) updated, fake.pullRegistry) := by
  unfold updateIssue unlessCancelled
  split
  · exact .inl rfl
  · split
    · exact .inl rfl
    · rename_i current isStored
      refine .inr ⟨current, _, isStored, ?_, ?_, rfl⟩
      · rfl
      · rfl

theorem updatePullRequest_registries (fake : Fake) (cancelled : Option Error) (repoId : String)
    (pr : PullRequest) :
    (fake.updatePullRequest cancelled repoId pr).2.registries = fake.registries ∨
      ∃ current updated : PullRequest, fake.pulls.lookup (repoId, pr.number) = some current ∧
        updated.id = current.id ∧ updated.number = current.number ∧
        (fake.updatePullRequest cancelled repoId pr).2.registries =
          (fake.issueRegistry, fake.pullRegistry.replace (repoId, pr.number) updated) := by
  unfold updatePullRequest unlessCancelled
  split
  · exact .inl rfl
  · split
    · exact .inl rfl
    · rename_i current isStored
      split
      · exact .inl rfl
      · exact .inr ⟨current, updatedPullRequest current pr, isStored, rfl, rfl, rfl⟩

theorem mergePullRequest_registries (fake : Fake) (cancelled : Option Error) (repoId : String)
    (number : ℤ) (approval : MergeApproval) :
    (fake.mergePullRequest cancelled repoId number approval).2.registries = fake.registries ∨
      ∃ current updated : PullRequest, fake.pulls.lookup (repoId, number) = some current ∧
        updated.id = current.id ∧ updated.number = current.number ∧
        (fake.mergePullRequest cancelled repoId number approval).2.registries =
          (fake.issueRegistry, fake.pullRegistry.replace (repoId, number) updated) := by
  unfold mergePullRequest unlessCancelled
  split
  · exact .inl rfl
  · split
    · exact .inl rfl
    · rename_i current isStored
      split
      · exact .inl rfl
      · simp only
        split
        · exact .inl rfl
        · have failed := fake.maybeFail_registries "pull.merge"
          split
          · rename_i isFailed
            rw [isFailed] at failed
            exact .inl failed
          · rename_i isFailed
            rw [isFailed] at failed
            rcases Prod.ext_iff.mp failed with ⟨sameIssues, samePulls⟩
            refine .inr ⟨current, { current with state := "merged", draft := false }, isStored, rfl,
              rfl, ?_⟩
            exact Prod.ext sameIssues
              (congrArg (fun r : Registry PullRequest => r.replace _ _) samePulls)

end Fake

open Contracts.Rpc (Request)

/-- The issue a call creates on a repository, directly or as an RPC request that is dispatched. -/
inductive AsksIssue (service : Rpc.Service) : Call → String → Issue → Prop where
  | direct (repoId : String) (issue : Issue) :
      AsksIssue service (.createIssue repoId issue) repoId issue
  | rpc (request : Request) (repoId : String) (issue : Issue)
      (dispatched : Contracts.Rpc.Dispatched service request)
      (method : request.method = Rpc.methodCreateIssue)
      (params : Rpc.createParams request "issue" decodeIssue {} = .ok (repoId, issue)) :
      AsksIssue service (.rpc request) repoId issue

/-! ## Requests -/

section Handle

variable {service : Rpc.Service} {cancelled : Option Error} {request : Request}

/-- A request either leaves the forge or leads to what its method leaves of it. -/
theorem handle_state : (Rpc.handle service cancelled request).2.state = service.state ∨
    ∃ outcome, Contracts.Rpc.Dispatched service request ∧
      Rpc.dispatch cancelled service.state request = some outcome ∧
      (Rpc.handle service cancelled request).2.state = outcome.2 := by
  unfold Rpc.handle
  rcases Contracts.Rpc.Adapter.handle_cases (Rpc.adapter cancelled) service request with
    ⟨_, same, _⟩ | ⟨_, _, _, same⟩ | ⟨_, _, same, _⟩ | ⟨error, state, dispatched, failed, same, _⟩ |
      ⟨result, state, dispatched, answered, same⟩
  · exact .inl (by rw [same])
  · exact .inl (by rw [same])
  · exact .inl (by rw [same])
  · exact .inr ⟨_, dispatched, failed, by rw [same]⟩
  · exact .inr ⟨_, dispatched, answered, by rw [same]⟩

/-- A request that is dispatched leads to what its method leaves of the forge. -/
theorem handle_state_of_dispatched (dispatched : Contracts.Rpc.Dispatched service request)
    {outcome : Except Error Ref × Fake}
    (isOutcome : Rpc.dispatch cancelled service.state request = some outcome) :
    (Rpc.handle service cancelled request).2.state = outcome.2 := by
  unfold Rpc.handle
  rcases Contracts.Rpc.Adapter.handle_cases (Rpc.adapter cancelled) service request with
    ⟨malformed, _, _⟩ | ⟨_, _, cachedEq, _⟩ | ⟨_, unknown, _, _⟩ |
      ⟨error, state, _, failed, same, _⟩ | ⟨result, state, _, answered, same⟩
  · simp [dispatched.formed] at malformed
  · simp [dispatched.fresh] at cachedEq
  · simp [Rpc.adapter, isOutcome] at unknown
  · rw [same]
    exact congrArg Prod.snd (Option.some.inj (failed.symm.trans isOutcome))
  · rw [same]
    exact congrArg Prod.snd (Option.some.inj (answered.symm.trans isOutcome))

theorem createVia_registries {α : Type} {params : Except Error (String × α)} {forge : Fake}
    {create : String → α → Except Error α × Fake} {ref : α → Ref}
    (createSame : ∀ repoId object, params = .ok (repoId, object) →
      (create repoId object).2.registries = forge.registries) :
    (Rpc.createVia params forge create ref).2.registries = forge.registries := by
  unfold Rpc.createVia
  split
  · rfl
  · exact createSame _ _ rfl

/-- A request that stores nothing. -/
theorem handle_registries_of_idle
    (noIssue : ∀ repoId issue, AsksIssue service (.rpc request) repoId issue →
      ¬ service.state.Creates cancelled repoId issue)
    (noPull : ∀ repoId pr, Asks service (.rpc request) repoId pr →
      ¬ service.state.Opens cancelled repoId pr) :
    (Rpc.handle service cancelled request).2.state.registries = service.state.registries := by
  rcases handle_state with same | ⟨outcome, dispatched, isOutcome, same⟩
  · rw [same]
  · rw [same]
    unfold Rpc.dispatch at isOutcome
    split at isOutcome
    · rename_i method
      cases isOutcome
      refine createVia_registries fun repoId issue params => ?_
      exact Fake.createIssue_of_not_creates
        (noIssue repoId issue (.rpc request repoId issue dispatched method params))
    · split at isOutcome
      · rename_i method
        cases isOutcome
        refine createVia_registries fun repoId pr params => ?_
        exact Fake.openPullRequest_of_not_opens
          (noPull repoId pr (.rpc request repoId pr dispatched method params))
      · split at isOutcome
        · cases isOutcome
          exact createVia_registries fun _ _ _ => Fake.createCheckpoint_registries _ _ _ _
        · split at isOutcome
          · cases isOutcome
            exact createVia_registries fun _ _ _ => Fake.createRelease_registries _ _ _ _
          · cases isOutcome

end Handle

/-! ## Calls -/

section Perform

variable {service : Rpc.Service} {cancelled : Option Error} {call : Call} {repoId : String}

theorem perform_of_asksIssue {issue : Issue} (asks : AsksIssue service call repoId issue) :
    (perform service cancelled call).1.state.registries =
      (service.state.createIssue cancelled repoId issue).2.registries := by
  cases asks with
  | direct => rfl
  | rpc request _ _ dispatched method params =>
      have isOutcome : Rpc.dispatch cancelled service.state request =
          some ((service.state.createIssue cancelled repoId issue).1.map (·.ref),
            (service.state.createIssue cancelled repoId issue).2) := by
        simp [Rpc.dispatch, method, Rpc.createIssue, Rpc.createVia, params]
      exact congrArg Fake.registries (handle_state_of_dispatched dispatched isOutcome)

theorem perform_of_asks {pr : PullRequest} (asks : Asks service call repoId pr) :
    (perform service cancelled call).1.state.registries =
      (service.state.openPullRequest cancelled repoId pr).2.registries := by
  cases asks with
  | direct => rfl
  | rpc request _ _ dispatched method params =>
      have isOutcome : Rpc.dispatch cancelled service.state request =
          some ((service.state.openPullRequest cancelled repoId pr).1.map (·.ref),
            (service.state.openPullRequest cancelled repoId pr).2) := by
        simp [Rpc.dispatch, method, Rpc.methodOpenPR, Rpc.methodCreateIssue, Rpc.openPullRequest,
          Rpc.createVia, params]
      exact congrArg Fake.registries (handle_state_of_dispatched dispatched isOutcome)

/-- The calls that create issues and pull requests, or other objects through the adapter. -/
def IsCreate : Call → Prop
  | .createIssue _ _ => True
  | .openPullRequest _ _ => True
  | .rpc _ => True
  | _ => False

/-- A call that creates neither leaves what is stored, or replaces one object by an update. -/
theorem perform_of_idle
    (noIssue : ∀ repoId issue, AsksIssue service call repoId issue →
      ¬ service.state.Creates cancelled repoId issue)
    (noPull : ∀ repoId pr, Asks service call repoId pr →
      ¬ service.state.Opens cancelled repoId pr) :
    (perform service cancelled call).1.state.registries = service.state.registries ∨
      (¬ IsCreate call ∧ ∃ repoId n, ∃ current updated : Issue,
        service.state.issues.lookup (repoId, n) = some current ∧ updated.id = current.id ∧
        updated.number = current.number ∧
        (perform service cancelled call).1.state.registries =
          (service.state.issueRegistry.replace (repoId, n) updated, service.state.pullRegistry)) ∨
      ¬ IsCreate call ∧ ∃ repoId n, ∃ current updated : PullRequest,
        service.state.pulls.lookup (repoId, n) = some current ∧ updated.id = current.id ∧
        updated.number = current.number ∧
        (perform service cancelled call).1.state.registries =
          (service.state.issueRegistry, service.state.pullRegistry.replace (repoId, n) updated) := by
  cases call with
  | createRepository repo => exact .inl (Fake.createRepository_registries _ _ _)
  | createBranch repoId branch => exact .inl (Fake.createBranch_registries _ _ _ _)
  | createMilestone repoId milestone => exact .inl (Fake.createMilestone_registries _ _ _ _)
  | createIssue repoId issue =>
      exact .inl (Fake.createIssue_of_not_creates (noIssue repoId issue (.direct repoId issue)))
  | updateIssue repoId issue =>
      rcases service.state.updateIssue_registries cancelled repoId issue with
        same | ⟨current, updated, replaced⟩
      · exact .inl same
      · exact .inr (.inl ⟨id, repoId, issue.number, current, updated, replaced⟩)
  | openPullRequest repoId pr =>
      exact .inl (Fake.openPullRequest_of_not_opens (noPull repoId pr (.direct repoId pr)))
  | updatePullRequest repoId pr =>
      rcases service.state.updatePullRequest_registries cancelled repoId pr with
        same | ⟨current, updated, replaced⟩
      · exact .inl same
      · exact .inr (.inr ⟨id, repoId, pr.number, current, updated, replaced⟩)
  | mergePullRequest repoId number approval =>
      rcases service.state.mergePullRequest_registries cancelled repoId number approval with
        same | ⟨current, updated, replaced⟩
      · exact .inl same
      · exact .inr (.inr ⟨id, repoId, number, current, updated, replaced⟩)
  | createCheckpoint repoId checkpoint => exact .inl (Fake.createCheckpoint_registries _ _ _ _)
  | createRelease repoId release => exact .inl (Fake.createRelease_registries _ _ _ _)
  | inject operation times error => exact .inl rfl
  | rpc request => exact .inl (handle_registries_of_idle noIssue noPull)

end Perform

/-! ## Runs -/

theorem AsksIssue.unique {service : Rpc.Service} {call : Call} {repoId otherRepo : String}
    {issue other : Issue} (asks : AsksIssue service call repoId issue)
    (again : AsksIssue service call otherRepo other) : repoId = otherRepo ∧ issue = other := by
  cases asks with
  | direct =>
      cases again
      exact ⟨rfl, rfl⟩
  | rpc request _ _ _ _ params =>
      cases again with
      | rpc _ _ _ _ _ otherParams =>
          have same := Except.ok.inj (params.symm.trans otherParams)
          exact ⟨congrArg Prod.fst same, congrArg Prod.snd same⟩

theorem Asks.unique {service : Rpc.Service} {call : Call} {repoId otherRepo : String}
    {pr other : PullRequest} (asks : Asks service call repoId pr)
    (again : Asks service call otherRepo other) : repoId = otherRepo ∧ pr = other := by
  cases asks with
  | direct =>
      cases again
      exact ⟨rfl, rfl⟩
  | rpc request _ _ _ _ params =>
      cases again with
      | rpc _ _ _ _ _ otherParams =>
          have same := Except.ok.inj (params.symm.trans otherParams)
          exact ⟨congrArg Prod.fst same, congrArg Prod.snd same⟩

theorem not_asks_of_asksIssue {service : Rpc.Service} {call : Call} {repoId otherRepo : String}
    {issue : Issue} {pr : PullRequest} (asks : AsksIssue service call repoId issue) :
    ¬ Asks service call otherRepo pr := by
  intro other
  cases asks with
  | direct => cases other
  | rpc request _ _ _ method _ =>
      cases other with
      | rpc _ _ _ _ otherMethod _ =>
          rw [method] at otherMethod
          exact absurd otherMethod (by decide)

theorem isCreate_of_asksIssue {service : Rpc.Service} {call : Call} {repoId : String}
    {issue : Issue} (asks : AsksIssue service call repoId issue) : IsCreate call := by
  cases asks <;> trivial

theorem isCreate_of_asks {service : Rpc.Service} {call : Call} {repoId : String}
    {pr : PullRequest} (asks : Asks service call repoId pr) : IsCreate call := by
  cases asks <;> trivial

/-- Objects are stored under their numbers. -/
def StoredByNumber (service : Rpc.Service) : Prop :=
  Registry.Numbered Issue.number service.state.issueRegistry ∧
    Registry.Numbered PullRequest.number service.state.pullRegistry

/-- Within a repository, issues have distinct ids and numbers, and pull requests have. -/
def StoredDistinct (service : Rpc.Service) : Prop :=
  Registry.Distinct Issue.id Issue.number service.state.issueRegistry ∧
    Registry.Distinct PullRequest.id PullRequest.number service.state.pullRegistry

/-- A create leaves every stored issue and pull request as it is, and stores what it remembers
anew under a number that nothing had. -/
def AddsOnly (service : Rpc.Service) (input : Option Error × Call) : Prop :=
  IsCreate input.2 →
    Registry.Extends service.state.issueRegistry
        (perform service input.1 input.2).1.state.issueRegistry ∧
      Registry.Extends service.state.pullRegistry
        (perform service input.1 input.2).1.state.pullRegistry

/-- A call that stores an issue or a pull request takes, of those it is given or that the counters
say, a number and an id that are free in the repository. -/
structure TakesFree (service : Rpc.Service) (input : Option Error × Call) : Prop where
  issue : ∀ repoId issue, AsksIssue service input.2 repoId issue →
    service.state.Creates input.1 repoId issue →
      Registry.Free Issue.id service.state.issueRegistry repoId
        (service.state.assignedNumber ("number:" ++ repoId) issue.number)
        (service.state.assignedId "issue" issue.id)
  pull : ∀ repoId pr, Asks service input.2 repoId pr → service.state.Opens input.1 repoId pr →
    Registry.Free PullRequest.id service.state.pullRegistry repoId
      (service.state.assignedNumber ("prnumber:" ++ repoId) pr.number)
      (service.state.assignedId "pull" pr.id)

section Step

variable {service : Rpc.Service} {input : Option Error × Call}

theorem step_of_creates (numbered : StoredByNumber service)
    {repoId : String} {issue : Issue} (asks : AsksIssue service input.2 repoId issue)
    (creates : service.state.Creates input.1 repoId issue) :
    StoredByNumber (perform service input.1 input.2).1 ∧
      (StoredDistinct service →
        (StoredDistinct (perform service input.1 input.2).1 ∧ AddsOnly service input ↔
          TakesFree service input)) := by
  have asked : (perform service input.1 input.2).1.state.registries = _ := perform_of_asksIssue asks
  have written := asked.trans (Fake.createIssue_of_creates creates)
  rcases Prod.ext_iff.mp written with ⟨issues, pulls⟩
  change (perform service input.1 input.2).1.state.issueRegistry = _ at issues
  change (perform service input.1 input.2).1.state.pullRegistry = _ at pulls
  have isNew := AList.lookup_eq_none.mp creates.fresh
  constructor
  · rw [StoredByNumber, issues, pulls]
    exact ⟨numbered.1.create rfl _, numbered.2⟩
  · intro distinct
    have created := Registry.create_iff numbered.1 distinct.1 repoId isNew
      (service.state.createdIssue repoId issue)
    rw [StoredDistinct, AddsOnly, issues, pulls]
    constructor
    · rintro ⟨after, adds⟩
      have free := created.mp ⟨after.1, (adds (isCreate_of_asksIssue asks)).1⟩
      refine ⟨fun otherRepo other otherAsks _ => ?_, fun _ _ otherAsks => ?_⟩
      · rcases asks.unique otherAsks with ⟨rfl, rfl⟩
        exact free
      · exact absurd otherAsks (not_asks_of_asksIssue asks)
    · intro free
      rcases created.mpr (free.issue repoId issue asks creates) with ⟨after, adds⟩
      exact ⟨⟨after, distinct.2⟩, fun _ => ⟨adds, .refl _⟩⟩

theorem step_of_opens (numbered : StoredByNumber service)
    {repoId : String} {pr : PullRequest} (asks : Asks service input.2 repoId pr)
    (opens : service.state.Opens input.1 repoId pr) :
    StoredByNumber (perform service input.1 input.2).1 ∧
      (StoredDistinct service →
        (StoredDistinct (perform service input.1 input.2).1 ∧ AddsOnly service input ↔
          TakesFree service input)) := by
  have asked : (perform service input.1 input.2).1.state.registries = _ := perform_of_asks asks
  have written := asked.trans (Fake.openPullRequest_of_opens opens)
  rcases Prod.ext_iff.mp written with ⟨issues, pulls⟩
  change (perform service input.1 input.2).1.state.issueRegistry = _ at issues
  change (perform service input.1 input.2).1.state.pullRegistry = _ at pulls
  have isNew := AList.lookup_eq_none.mp opens.fresh
  constructor
  · rw [StoredByNumber, issues, pulls]
    exact ⟨numbered.1, numbered.2.create rfl _⟩
  · intro distinct
    have created := Registry.create_iff numbered.2 distinct.2 repoId isNew
      (service.state.openedPull repoId pr)
    rw [StoredDistinct, AddsOnly, issues, pulls]
    constructor
    · rintro ⟨after, adds⟩
      have free := created.mp ⟨after.2, (adds (isCreate_of_asks asks)).2⟩
      refine ⟨fun _ _ otherAsks => ?_, fun otherRepo other otherAsks _ => ?_⟩
      · exact absurd asks (not_asks_of_asksIssue otherAsks)
      · rcases asks.unique otherAsks with ⟨rfl, rfl⟩
        exact free
    · intro free
      rcases created.mpr (free.pull repoId pr asks opens) with ⟨after, adds⟩
      exact ⟨⟨distinct.1, after⟩, fun _ => ⟨.refl _, adds⟩⟩

/-- A call that creates neither an issue nor a pull request. -/
theorem step_of_idle (numbered : StoredByNumber service)
    (noIssue : ∀ repoId issue, AsksIssue service input.2 repoId issue →
      ¬ service.state.Creates input.1 repoId issue)
    (noPull : ∀ repoId pr, Asks service input.2 repoId pr →
      ¬ service.state.Opens input.1 repoId pr) :
    StoredByNumber (perform service input.1 input.2).1 ∧
      (StoredDistinct service →
        (StoredDistinct (perform service input.1 input.2).1 ∧ AddsOnly service input ↔
          TakesFree service input)) := by
  have takesFree : TakesFree service input :=
    ⟨fun repoId issue asks creates => absurd creates (noIssue repoId issue asks),
      fun repoId pr asks opens => absurd opens (noPull repoId pr asks)⟩
  rw [iff_true_right takesFree]
  simp only [StoredByNumber, StoredDistinct, AddsOnly] at numbered ⊢
  rcases perform_of_idle noIssue noPull with same |
      ⟨notCreate, repoId, n, current, updated, isStored, sameId, sameNumber, written⟩ |
      ⟨notCreate, repoId, n, current, updated, isStored, sameId, sameNumber, written⟩
  · rcases Prod.ext_iff.mp same with ⟨issues, pulls⟩
    change (perform service input.1 input.2).1.state.issueRegistry = _ at issues
    change (perform service input.1 input.2).1.state.pullRegistry = _ at pulls
    rw [issues, pulls]
    exact ⟨numbered, fun distinct => ⟨distinct, fun _ => ⟨.refl _, .refl _⟩⟩⟩
  · rcases Prod.ext_iff.mp written with ⟨issues, pulls⟩
    change (perform service input.1 input.2).1.state.issueRegistry = _ at issues
    change (perform service input.1 input.2).1.state.pullRegistry = _ at pulls
    rw [issues, pulls]
    have isNumber : updated.number = n := sameNumber.trans (numbered.1 repoId n current isStored)
    refine ⟨⟨numbered.1.insert isNumber, numbered.2⟩, fun distinct => ⟨?_, ?_⟩⟩
    · exact ⟨distinct.1.replace numbered.1 isStored sameId isNumber, distinct.2⟩
    · exact fun isCreate => absurd isCreate notCreate
  · rcases Prod.ext_iff.mp written with ⟨issues, pulls⟩
    change (perform service input.1 input.2).1.state.issueRegistry = _ at issues
    change (perform service input.1 input.2).1.state.pullRegistry = _ at pulls
    rw [issues, pulls]
    have isNumber : updated.number = n := sameNumber.trans (numbered.2 repoId n current isStored)
    refine ⟨⟨numbered.1, numbered.2.insert isNumber⟩, fun distinct => ⟨?_, ?_⟩⟩
    · exact ⟨distinct.1, distinct.2.replace numbered.2 isStored sameId isNumber⟩
    · exact fun isCreate => absurd isCreate notCreate

theorem step_iff (numbered : StoredByNumber service) :
    StoredByNumber (perform service input.1 input.2).1 ∧
      (StoredDistinct service →
        (StoredDistinct (perform service input.1 input.2).1 ∧ AddsOnly service input ↔
          TakesFree service input)) := by
  by_cases createsIssue : ∃ repoId issue, AsksIssue service input.2 repoId issue ∧
      service.state.Creates input.1 repoId issue
  · rcases createsIssue with ⟨repoId, issue, asks, creates⟩
    exact step_of_creates numbered asks creates
  · by_cases opensPull : ∃ repoId pr, Asks service input.2 repoId pr ∧
        service.state.Opens input.1 repoId pr
    · rcases opensPull with ⟨repoId, pr, asks, opens⟩
      exact step_of_opens numbered asks opens
    · refine step_of_idle numbered ?_ ?_
      · exact fun repoId issue asks creates => createsIssue ⟨repoId, issue, asks, creates⟩
      · exact fun repoId pr asks opens => opensPull ⟨repoId, pr, asks, opens⟩

end Step

theorem stored_new (clock : ℕ → Time) :
    StoredByNumber (Rpc.new { clock := clock }) ∧ StoredDistinct (Rpc.new { clock := clock }) := by
  exact ⟨⟨.empty _, .empty _⟩, .empty _ _, .empty _ _⟩

/-- In a run of calls on a new forge and its RPC service no create overwrites what is stored, and
what is stored has distinct ids and numbers at all times, exactly if every create that stores takes
a number and an id that are free. -/
theorem creates_never_overwrite_iff (clock : ℕ → Time) (inputs : List (Option Error × Call)) :
    ((∀ count, StoredDistinct (machine.run (Rpc.new { clock := clock }) (inputs.take count))) ∧
        ∀ step ∈ machine.steps (Rpc.new { clock := clock }) inputs,
          AddsOnly step.before step.input) ↔
      ∀ step ∈ machine.steps (Rpc.new { clock := clock }) inputs,
        TakesFree step.before step.input := by
  rcases stored_new clock with ⟨numbered, distinct⟩
  refine Machine.forall_take_steps_iff ?_ ?_ numbered distinct
  · exact fun service input holds => (step_iff holds).1
  · exact fun service input holds holdsDistinct => (step_iff holds).2 holdsDistinct

/-- An issue with a number of the caller's, and one that gets its number from the counter. -/
def numberedThenCounted : List (Option Error × Call) :=
  [(none, .createRepository { owner := "greadee", name := "aa" }),
    (none, .createIssue "repo_1" { title := "first", number := 1 }),
    (none, .createIssue "repo_1" { title := "second" })]

/-- The second issue gets the number of the first, and is stored in its place. -/
theorem numberedThenCounted_overwrites :
    ¬ ∀ (clock : ℕ → Time) (inputs : List (Option Error × Call)),
      (∀ count, StoredDistinct (machine.run (Rpc.new { clock := clock }) (inputs.take count))) ∧
        ∀ step ∈ machine.steps (Rpc.new { clock := clock }) inputs,
          AddsOnly step.before step.input := by
  intro never
  have adds := (never (fun _ => zeroTime) numberedThenCounted).2
  simp only [numberedThenCounted, Machine.steps_cons, Machine.steps_nil, List.mem_cons,
    List.not_mem_nil, or_false, forall_eq_or_imp, forall_eq] at adds
  have kept := (adds.2.2 trivial).1.kept ("repo_1", 1) _ rfl
  cases kept

end Aa.Forge
