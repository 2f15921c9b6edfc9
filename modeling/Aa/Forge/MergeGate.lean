import Aa.Forge.Rpc
import Aa.Library.Machine

/-!
# The human merge gate

Merging is a gated operation of the forge, and the RPC adapter does not expose it. Yet
the state of a pull request is also written by opening and by updating it, both with a
state the caller supplies, and the validator of an approval asks for some actor rather
than for the human one. This file determines which calls can move a pull request into
the merged state: the calls that bypass the gate are described by the state before them,
and a run without such calls merges nothing that a human did not approve.

A pull request is identified by its repository and its number. The proof rests on what
each operation writes to the map of pull requests; the invariant of a run is that every
merged pull request has an approved merge among the steps so far.
-/

namespace Aa.Forge

open Aa.Library

abbrev Pulls := GoMap (String × ℤ) PullRequest

/-- The pull request of a slot exists and is merged. -/
def IsMerged (pulls : Pulls) (slot : String × ℤ) : Prop :=
  ∃ pr, pulls.lookup slot = some pr ∧ pr.state = "merged"

theorem isMerged_insert {pulls : Pulls} {slot other : String × ℤ} {pr : PullRequest} :
    IsMerged (pulls.insert slot pr) other ↔
      (other = slot ∧ pr.state = "merged") ∨ (other ≠ slot ∧ IsMerged pulls other) := by
  by_cases same : other = slot
  · subst same
    simp [IsMerged]
  · simp [IsMerged, same, AList.lookup_insert_ne same]

namespace Fake

@[simp]
theorem maybeFail_pulls (fake : Fake) (operation : String) :
    (fake.maybeFail operation).2.pulls = fake.pulls := by
  unfold maybeFail
  split <;> rfl

theorem orElse_pulls {α : Type} [DecidableEq α] {given default : α} {fresh : Fake → α × Fake}
    (freshPulls : ∀ fake, (fresh fake).2.pulls = fake.pulls) (fake : Fake) :
    (orElse given default fresh fake).2.pulls = fake.pulls := by
  unfold orElse
  split
  · exact freshPulls fake
  · rfl

theorem maybeFail_of_pending {fake : Fake} {operation : String} :
    (fake.pendingFailure operation = none → fake.maybeFail operation = (none, fake)) ∧
      (fake.pendingFailure operation ≠ none → ∃ error, (fake.maybeFail operation).1 = some error) := by
  unfold maybeFail
  cases fake.pendingFailure operation with
  | none => simp
  | some failure => simp

/-- A create that replays or meets an injected failure leaves the pull requests alone. -/
theorem createOnce_pulls_of_idle {α : Type} {fake : Fake} {operation key : String}
    {existing : Option α} {replayed : α → String × Ref} {make : Fake → α × Fake}
    {save : α → Fake → Fake} {created : α → String × Ref × List (String × String)}
    (idle : existing ≠ none ∨ fake.pendingFailure operation ≠ none) :
    (fake.createOnce operation key existing replayed make save created).2.pulls =
      fake.pulls := by
  unfold createOnce
  split
  · rfl
  · rcases idle with replays | pending
    · exact absurd rfl replays
    · rcases maybeFail_of_pending.2 pending with ⟨error, failEq⟩
      have failed := fake.maybeFail_pulls operation
      split
      · rename_i pairEq
        rw [pairEq] at failed
        exact failed
      · rename_i pairEq
        simp [pairEq] at failEq

/-- A create whose parts leave the pull requests alone leaves them alone. -/
theorem createOnce_pulls {α : Type} {fake : Fake} {operation key : String} {existing : Option α}
    {replayed : α → String × Ref} {make : Fake → α × Fake} {save : α → Fake → Fake}
    {created : α → String × Ref × List (String × String)}
    (makePulls : ∀ fake, (make fake).2.pulls = fake.pulls)
    (savePulls : ∀ object fake, (save object fake).pulls = fake.pulls) :
    (fake.createOnce operation key existing replayed make save created).2.pulls =
      fake.pulls := by
  unfold createOnce
  split
  · rfl
  · have failed := fake.maybeFail_pulls operation
    split
    · rename_i failEq
      rw [failEq] at failed
      exact failed
    · rename_i failEq
      rw [failEq] at failed
      exact (savePulls _ _).trans ((makePulls _).trans failed)

theorem createRepository_pulls (fake : Fake) (cancelled : Option Error) (repo : Repository) :
    (fake.createRepository cancelled repo).2.pulls = fake.pulls := by
  unfold createRepository unlessCancelled
  split
  · rfl
  · split
    · rfl
    · refine createOnce_pulls (fun fake => ?_) (fun _ _ => rfl)
      exact orElse_pulls (fun _ => rfl) fake

theorem createBranch_pulls (fake : Fake) (cancelled : Option Error) (repoId : String)
    (branch : Branch) : (fake.createBranch cancelled repoId branch).2.pulls = fake.pulls := by
  unfold createBranch unlessCancelled
  split
  · rfl
  · split
    · rfl
    · split
      · rfl
      · exact createOnce_pulls (fun _ => rfl) (fun _ _ => rfl)

theorem createMilestone_pulls (fake : Fake) (cancelled : Option Error) (repoId : String)
    (milestone : Milestone) :
    (fake.createMilestone cancelled repoId milestone).2.pulls = fake.pulls := by
  unfold createMilestone unlessCancelled
  split
  · rfl
  · split
    · rfl
    · split
      · rfl
      · refine createOnce_pulls (fun fake => ?_) (fun _ _ => rfl)
        exact orElse_pulls (fun _ => rfl) fake

theorem createIssue_pulls (fake : Fake) (cancelled : Option Error) (repoId : String)
    (issue : Issue) : (fake.createIssue cancelled repoId issue).2.pulls = fake.pulls := by
  unfold createIssue unlessCancelled
  split
  · rfl
  · split
    · rfl
    · split
      · rfl
      · refine createOnce_pulls (fun fake => ?_) (fun _ _ => rfl)
        exact (orElse_pulls (fun _ => rfl) _).trans (orElse_pulls (fun _ => rfl) fake)

theorem updateIssue_pulls (fake : Fake) (cancelled : Option Error) (repoId : String)
    (issue : Issue) : (fake.updateIssue cancelled repoId issue).2.pulls = fake.pulls := by
  unfold updateIssue unlessCancelled
  split
  · rfl
  · split <;> rfl

theorem createCheckpoint_pulls (fake : Fake) (cancelled : Option Error) (repoId : String)
    (checkpoint : Checkpoint) :
    (fake.createCheckpoint cancelled repoId checkpoint).2.pulls = fake.pulls := by
  unfold createCheckpoint unlessCancelled
  split
  · rfl
  · split
    · rfl
    · refine createOnce_pulls (fun fake => ?_) (fun _ _ => rfl)
      exact (orElse_pulls (fun _ => rfl) _).trans (orElse_pulls (fun _ => rfl) fake)

theorem createRelease_pulls (fake : Fake) (cancelled : Option Error) (repoId : String)
    (release : Release) : (fake.createRelease cancelled repoId release).2.pulls = fake.pulls := by
  unfold createRelease unlessCancelled
  split
  · rfl
  · split
    · rfl
    · refine createOnce_pulls (fun fake => ?_) (fun _ _ => rfl)
      exact (orElse_pulls (fun _ => rfl) _).trans (orElse_pulls (fun _ => rfl) fake)

/-- The number an opened pull request gets. -/
def openedNumber (fake : Fake) (repoId : String) (pr : PullRequest) : ℤ :=
  if pr.number = 0 then (fake.counters.lookup ("prnumber:" ++ repoId)).getD 0 + 1 else pr.number

theorem openedPullRequest_number (fake : Fake) (repoId : String) (pr : PullRequest) :
    (openedPullRequest repoId pr fake).1.number = fake.openedNumber repoId pr := by
  have otherCounter : "prnumber:" ++ repoId ≠ "pull" := by
    intro same
    have chars := congrArg String.toList same
    simp [String.toList_append] at chars
  by_cases numbered : pr.number = 0
  · by_cases named : pr.id = ""
    · simp [openedPullRequest, orElse, openedNumber, nextPRNumber, next, nextId, numbered, named,
        AList.lookup_insert_ne otherCounter]
    · simp [openedPullRequest, orElse, openedNumber, nextPRNumber, next, numbered, named]
  · simp [openedPullRequest, orElse, openedNumber, numbered]

theorem openedPullRequest_state (fake : Fake) (repoId : String) (pr : PullRequest) :
    (openedPullRequest repoId pr fake).1.state = if pr.state = "" then "open" else pr.state :=
  rfl

theorem openedPullRequest_pulls (fake : Fake) (repoId : String) (pr : PullRequest) :
    (openedPullRequest repoId pr fake).2.pulls = fake.pulls := by
  unfold openedPullRequest
  exact (orElse_pulls (fun _ => rfl) _).trans (orElse_pulls (fun _ => rfl) fake)

/-- The conditions under which opening a pull request stores one. -/
structure Opens (fake : Fake) (cancelled : Option Error) (repoId : String) (pr : PullRequest) :
    Prop where
  active : cancelled = none
  known : (fake.repos.lookup repoId).isNone = false
  valid : pr.validate = .ok ()
  fresh : fake.idem.pulls.lookup (pullKey repoId pr) = none
  noFailure : fake.pendingFailure "pull.open" = none

theorem openPullRequest_pulls_of_opens {fake : Fake} {cancelled : Option Error} {repoId : String}
    {pr : PullRequest} (opens : fake.Opens cancelled repoId pr) :
    (fake.openPullRequest cancelled repoId pr).2.pulls =
      fake.pulls.insert (repoId, fake.openedNumber repoId pr)
        (openedPullRequest repoId pr fake).1 := by
  have noFailure := maybeFail_of_pending.1 opens.noFailure
  simp only [openPullRequest, unlessCancelled, opens.active, opens.known, opens.valid, createOnce,
    opens.fresh, noFailure, Bool.false_eq_true, if_false]
  have stored : ∀ (fake : Fake) (opened : PullRequest) (key : String) (other : String × Ref)
      (fields : List (String × String)),
      ((savePullRequest repoId key opened fake).record "pull.open" key other.1 other.2 fields).pulls =
        fake.pulls.insert (repoId, opened.number) opened := fun _ _ _ _ _ => rfl
  rw [stored _ _ _ (repoId, _), openedPullRequest_pulls, openedPullRequest_number]

theorem openPullRequest_pulls_of_not_opens {fake : Fake} {cancelled : Option Error}
    {repoId : String} {pr : PullRequest} (notOpens : ¬ fake.Opens cancelled repoId pr) :
    (fake.openPullRequest cancelled repoId pr).2.pulls = fake.pulls := by
  unfold openPullRequest unlessCancelled
  split
  · rfl
  · split
    · rfl
    · rename_i known
      split
      · rfl
      · rename_i valid
        refine createOnce_pulls_of_idle ?_
        by_cases fresh : fake.idem.pulls.lookup (pullKey repoId pr) = none
        · right
          intro noFailure
          exact notOpens ⟨rfl, Bool.not_eq_true _ ▸ known, valid, fresh, noFailure⟩
        · exact Or.inl fresh

/-- The conditions under which an update writes a pull request. -/
structure Updates (fake : Fake) (cancelled : Option Error) (repoId : String) (pr : PullRequest) :
    Prop where
  active : cancelled = none
  unmerged : ∃ current, fake.pulls.lookup (repoId, pr.number) = some current ∧
    current.state ≠ "merged"

theorem updatePullRequest_pulls (fake : Fake) (cancelled : Option Error) (repoId : String)
    (pr : PullRequest) :
    (fake.Updates cancelled repoId pr ∧ ∃ current,
        (fake.updatePullRequest cancelled repoId pr).2.pulls =
          fake.pulls.insert (repoId, pr.number) (updatedPullRequest current pr) ∧
        current.state ≠ "merged") ∨
      (¬ fake.Updates cancelled repoId pr ∧
        (fake.updatePullRequest cancelled repoId pr).2.pulls = fake.pulls) := by
  unfold updatePullRequest unlessCancelled
  split
  · exact Or.inr ⟨fun updates => by simpa using updates.active, rfl⟩
  · split
    · rename_i missing
      refine Or.inr ⟨fun updates => ?_, rfl⟩
      rcases updates.unmerged with ⟨current, found, _⟩
      simp [missing] at found
    · rename_i current found
      split
      · rename_i merged
        refine Or.inr ⟨fun updates => ?_, rfl⟩
        rcases updates.unmerged with ⟨other, otherFound, unmerged⟩
        have same : current = other := Option.some.inj (found.symm.trans otherFound)
        exact unmerged (same ▸ merged)
      · rename_i unmerged
        exact Or.inl ⟨⟨rfl, current, found, unmerged⟩, current, rfl, unmerged⟩

/-- The conditions under which a merge writes a pull request. -/
structure Merges (fake : Fake) (cancelled : Option Error) (repoId : String) (number : ℤ)
    (approval : MergeApproval) : Prop where
  active : cancelled = none
  unmerged : ∃ current, fake.pulls.lookup (repoId, number) = some current ∧
    current.state ≠ "merged"
  named : approval.actor ≠ ""
  noFailure : fake.pendingFailure "pull.merge" = none

theorem mergePullRequest_pulls (fake : Fake) (cancelled : Option Error) (repoId : String)
    (number : ℤ) (approval : MergeApproval) :
    (fake.Merges cancelled repoId number approval ∧ ∃ merged,
        (fake.mergePullRequest cancelled repoId number approval).1 = .ok merged ∧
        (fake.mergePullRequest cancelled repoId number approval).2.pulls =
          fake.pulls.insert (repoId, number) merged ∧ merged.state = "merged") ∨
      (¬ fake.Merges cancelled repoId number approval ∧
        (fake.mergePullRequest cancelled repoId number approval).2.pulls = fake.pulls) := by
  unfold mergePullRequest unlessCancelled
  split
  · exact Or.inr ⟨fun merges => by simpa using merges.active, rfl⟩
  · split
    · rename_i missing
      refine Or.inr ⟨fun merges => ?_, rfl⟩
      rcases merges.unmerged with ⟨current, found, _⟩
      simp [missing] at found
    · rename_i current found
      have unmergedIff : fake.Merges none repoId number approval → current.state ≠ "merged" := by
        intro merges
        rcases merges.unmerged with ⟨other, otherFound, unmerged⟩
        have same : current = other := Option.some.inj (found.symm.trans otherFound)
        exact same ▸ unmerged
      split
      · rename_i error refused
        refine Or.inr ⟨fun merges => ?_, rfl⟩
        simp [MergeApproval.validate, merges.named] at refused
      · rename_i accepted
        have named : approval.actor ≠ "" := by
          intro unnamed
          simp [MergeApproval.validate, unnamed, invalid] at accepted
        simp only
        split
        · rename_i merged
          exact Or.inr ⟨fun merges => unmergedIff merges merged, rfl⟩
        · rename_i unmerged
          by_cases noFailure : fake.pendingFailure "pull.merge" = none
          · left
            simp only [maybeFail_of_pending.1 noFailure]
            exact ⟨⟨rfl, ⟨current, found, unmerged⟩, named, noFailure⟩, _, rfl, rfl, rfl⟩
          · right
            refine ⟨fun merges => noFailure merges.noFailure, ?_⟩
            rcases maybeFail_of_pending.2 noFailure with ⟨error, failEq⟩
            have failed := fake.maybeFail_pulls "pull.merge"
            split
            · rename_i pairEq
              rw [pairEq] at failed
              exact failed
            · rename_i pairEq
              simp [pairEq] at failEq

end Fake

open Contracts.Rpc (Request Response)

/-- A call on the forge, directly or through the RPC adapter. -/
inductive Call where
  | createRepository (repo : Repository)
  | createBranch (repoId : String) (branch : Branch)
  | createMilestone (repoId : String) (milestone : Milestone)
  | createIssue (repoId : String) (issue : Issue)
  | updateIssue (repoId : String) (issue : Issue)
  | openPullRequest (repoId : String) (pr : PullRequest)
  | updatePullRequest (repoId : String) (pr : PullRequest)
  | mergePullRequest (repoId : String) (number : ℤ) (approval : MergeApproval)
  | createCheckpoint (repoId : String) (checkpoint : Checkpoint)
  | createRelease (repoId : String) (release : Release)
  | inject (operation : String) (times : ℤ) (error : Error)
  | rpc (request : Request)

/-- What a call returns. -/
inductive Returned where
  | repository (result : Except Error Repository)
  | branch (result : Except Error Branch)
  | milestone (result : Except Error Milestone)
  | issue (result : Except Error Issue)
  | pull (result : Except Error PullRequest)
  | checkpoint (result : Except Error Checkpoint)
  | release (result : Except Error Release)
  | injected
  | response (response : Response Ref)

/-- Runs a direct call on the forge behind a service. -/
def onForge {α : Type} (service : Rpc.Service) (wrap : Except Error α → Returned)
    (outcome : Except Error α × Fake) : Rpc.Service × Returned :=
  ({ service with state := outcome.2 }, wrap outcome.1)

def perform (service : Rpc.Service) (cancelled : Option Error) :
    Call → Rpc.Service × Returned
  | .createRepository repo =>
      onForge service .repository (service.state.createRepository cancelled repo)
  | .createBranch repoId branch =>
      onForge service .branch (service.state.createBranch cancelled repoId branch)
  | .createMilestone repoId milestone =>
      onForge service .milestone (service.state.createMilestone cancelled repoId milestone)
  | .createIssue repoId issue =>
      onForge service .issue (service.state.createIssue cancelled repoId issue)
  | .updateIssue repoId issue =>
      onForge service .issue (service.state.updateIssue cancelled repoId issue)
  | .openPullRequest repoId pr =>
      onForge service .pull (service.state.openPullRequest cancelled repoId pr)
  | .updatePullRequest repoId pr =>
      onForge service .pull (service.state.updatePullRequest cancelled repoId pr)
  | .mergePullRequest repoId number approval =>
      onForge service .pull (service.state.mergePullRequest cancelled repoId number approval)
  | .createCheckpoint repoId checkpoint =>
      onForge service .checkpoint (service.state.createCheckpoint cancelled repoId checkpoint)
  | .createRelease repoId release =>
      onForge service .release (service.state.createRelease cancelled repoId release)
  | .inject operation times error =>
      ({ service with state := service.state.inject operation times error }, .injected)
  | .rpc request =>
      let (response, service) := Rpc.handle service cancelled request
      (service, .response response)

/-- The forge and its RPC service as a machine: an input is the error of the call's context,
if any, and the call. -/
def machine : Machine Rpc.Service (Option Error × Call) Returned where
  step service input := perform service input.1 input.2

/-- The actors a merge may be authorized by: the human one, alone or with a name. -/
def IsHuman (actor : String) : Prop :=
  actor = mergeActorHuman ∨ (mergeActorHuman ++ ":").toList <+: actor.toList

instance (actor : String) : Decidable (IsHuman actor) := inferInstanceAs (Decidable (_ ∨ _))

abbrev ForgeStep := Machine.Step Rpc.Service (Option Error × Call) Returned

/-- A step that moves a pull request into the merged state. -/
def MovesIntoMerged (step : ForgeStep) (slot : String × ℤ) : Prop :=
  ¬ IsMerged step.before.state.pulls slot ∧ IsMerged step.after.state.pulls slot

/-- A step that merges a pull request successfully with the approval of a human. -/
def ApprovedMerge (step : ForgeStep) (slot : String × ℤ) : Prop :=
  ∃ approval merged, step.input.2 = .mergePullRequest slot.1 slot.2 approval ∧
    step.output = .pull (.ok merged) ∧ IsHuman approval.actor

/-- The pull request a call opens on a repository, directly or as an RPC request that is
dispatched. -/
inductive Asks (service : Rpc.Service) : Call → String → PullRequest → Prop where
  | direct (repoId : String) (pr : PullRequest) :
      Asks service (.openPullRequest repoId pr) repoId pr
  | rpc (request : Request) (repoId : String) (pr : PullRequest)
      (dispatched : Contracts.Rpc.Dispatched service request)
      (method : request.method = Rpc.methodOpenPR)
      (params : Rpc.openParams request = .ok (repoId, pr)) :
      Asks service (.rpc request) repoId pr

/-- The calls that bypass the human gate. Each stores what it was given: a pull request
opened as merged, an update that sets the merged state, or a merge that a named actor who
is not human approved. -/
inductive Bypasses (service : Rpc.Service) (cancelled : Option Error) (call : Call) : Prop where
  | opens (repoId : String) (pr : PullRequest) (asks : Asks service call repoId pr)
      (opens : service.state.Opens cancelled repoId pr) (merged : pr.state = "merged")
      (moves : ¬ IsMerged service.state.pulls (repoId, service.state.openedNumber repoId pr))
  | updates (repoId : String) (pr : PullRequest) (isUpdate : call = .updatePullRequest repoId pr)
      (updates : service.state.Updates cancelled repoId pr) (merged : pr.state = "merged")
  | merges (repoId : String) (number : ℤ) (approval : MergeApproval)
      (isMerge : call = .mergePullRequest repoId number approval)
      (merges : service.state.Merges cancelled repoId number approval)
      (notHuman : ¬ IsHuman approval.actor)

theorem createVia_pulls {α : Type} {params : Except Error (String × α)} {forge : Fake}
    {create : String → α → Except Error α × Fake} {ref : α → Ref}
    (createPulls : ∀ repoId object, params = .ok (repoId, object) →
      (create repoId object).2.pulls = forge.pulls) :
    (Rpc.createVia params forge create ref).2.pulls = forge.pulls := by
  unfold Rpc.createVia
  split
  · rfl
  · exact createPulls _ _ rfl

/-- The forge behind the RPC service after a request: that of the method dispatched, if any. -/
theorem handle_pulls_of_idle {service : Rpc.Service} {cancelled : Option Error}
    {request : Request}
    (idle : ∀ repoId pr, Asks service (.rpc request) repoId pr →
      ¬ service.state.Opens cancelled repoId pr) :
    (Rpc.handle service cancelled request).2.state.pulls = service.state.pulls := by
  have methods : Contracts.Rpc.Dispatched service request → ∀ outcome,
      Rpc.dispatch cancelled service.state request = some outcome →
      outcome.2.pulls = service.state.pulls := by
    intro dispatched outcome outcomeEq
    unfold Rpc.dispatch at outcomeEq
    split at outcomeEq
    · cases outcomeEq
      exact createVia_pulls fun _ _ _ => Fake.createIssue_pulls _ _ _ _
    · split at outcomeEq
      · rename_i method
        cases outcomeEq
        refine createVia_pulls fun repoId pr params => ?_
        exact Fake.openPullRequest_pulls_of_not_opens
          (idle repoId pr (.rpc request repoId pr dispatched method params))
      · split at outcomeEq
        · cases outcomeEq
          exact createVia_pulls fun _ _ _ => Fake.createCheckpoint_pulls _ _ _ _
        · split at outcomeEq
          · cases outcomeEq
            exact createVia_pulls fun _ _ _ => Fake.createRelease_pulls _ _ _ _
          · simp at outcomeEq
  unfold Rpc.handle
  rcases Contracts.Rpc.Adapter.handle_cases (Rpc.adapter cancelled) service request with
    ⟨_, same, _⟩ | ⟨_, _, _, same⟩ | ⟨_, _, same, _⟩ | ⟨error, state, dispatched, failed, same, _⟩ |
      ⟨result, state, dispatched, answered, same⟩
  · rw [same]
  · rw [same]
  · rw [same]
  · rw [same]
    exact methods dispatched _ failed
  · rw [same]
    exact methods dispatched _ answered

theorem handle_pulls_of_asks {service : Rpc.Service} {cancelled : Option Error}
    {request : Request} {repoId : String} {pr : PullRequest}
    (asks : Asks service (.rpc request) repoId pr) :
    (Rpc.handle service cancelled request).2.state.pulls =
      (service.state.openPullRequest cancelled repoId pr).2.pulls := by
  cases asks with
  | rpc _ _ _ dispatched method params =>
      have methods : Rpc.dispatch cancelled service.state request =
          some ((service.state.openPullRequest cancelled repoId pr).1.map (·.ref),
            (service.state.openPullRequest cancelled repoId pr).2) := by
        simp [Rpc.dispatch, method, Rpc.methodOpenPR, Rpc.methodCreateIssue, Rpc.openPullRequest,
          Rpc.createVia, params]
      unfold Rpc.handle
      rcases Contracts.Rpc.Adapter.handle_cases (Rpc.adapter cancelled) service
        request with
        ⟨malformed, _, _⟩ | ⟨_, _, cachedEq, _⟩ | ⟨_, unknown, _, _⟩ |
          ⟨error, state, _, failed, same, _⟩ | ⟨result, state, _, answered, same⟩
      · simp [dispatched.formed] at malformed
      · simp [dispatched.fresh] at cachedEq
      · simp [Rpc.adapter, methods] at unknown
      · rw [same]
        exact congrArg (fun outcome => outcome.2.pulls)
          (Option.some.inj (failed.symm.trans methods))
      · rw [same]
        exact congrArg (fun outcome => outcome.2.pulls)
          (Option.some.inj (answered.symm.trans methods))

/-- What a call that opens a pull request writes. -/
theorem perform_pulls_of_opens {service : Rpc.Service} {cancelled : Option Error} {call : Call}
    {repoId : String} {pr : PullRequest} (asks : Asks service call repoId pr)
    (opens : service.state.Opens cancelled repoId pr) :
    (perform service cancelled call).1.state.pulls =
      service.state.pulls.insert (repoId, service.state.openedNumber repoId pr)
        (Fake.openedPullRequest repoId pr service.state).1 := by
  rw [← Fake.openPullRequest_pulls_of_opens opens]
  cases asks with
  | direct => rfl
  | rpc request _ _ dispatched method params =>
      exact handle_pulls_of_asks (.rpc request repoId pr dispatched method params)

/-- A call that neither opens, updates nor merges writes no pull request. -/
theorem perform_pulls_of_idle {service : Rpc.Service} {cancelled : Option Error} {call : Call}
    (noOpen : ∀ repoId pr, Asks service call repoId pr →
      ¬ service.state.Opens cancelled repoId pr)
    (noUpdate : ∀ repoId pr, call = .updatePullRequest repoId pr →
      ¬ service.state.Updates cancelled repoId pr)
    (noMerge : ∀ repoId number approval, call = .mergePullRequest repoId number approval →
      ¬ service.state.Merges cancelled repoId number approval) :
    (perform service cancelled call).1.state.pulls = service.state.pulls := by
  cases call with
  | createRepository repo => exact Fake.createRepository_pulls _ _ _
  | createBranch repoId branch => exact Fake.createBranch_pulls _ _ _ _
  | createMilestone repoId milestone => exact Fake.createMilestone_pulls _ _ _ _
  | createIssue repoId issue => exact Fake.createIssue_pulls _ _ _ _
  | updateIssue repoId issue => exact Fake.updateIssue_pulls _ _ _ _
  | openPullRequest repoId pr =>
      exact Fake.openPullRequest_pulls_of_not_opens (noOpen repoId pr (.direct repoId pr))
  | updatePullRequest repoId pr =>
      rcases service.state.updatePullRequest_pulls cancelled repoId pr with
        ⟨updates, _⟩ | ⟨_, same⟩
      · exact absurd updates (noUpdate repoId pr rfl)
      · exact same
  | mergePullRequest repoId number approval =>
      rcases service.state.mergePullRequest_pulls cancelled repoId number approval with
        ⟨merges, _⟩ | ⟨_, same⟩
      · exact absurd merges (noMerge repoId number approval rfl)
      · exact same
  | createCheckpoint repoId checkpoint => exact Fake.createCheckpoint_pulls _ _ _ _
  | createRelease repoId release => exact Fake.createRelease_pulls _ _ _ _
  | inject operation times error => rfl
  | rpc request => exact handle_pulls_of_idle noOpen

/-- Only an approved merge and a bypass move a pull request into the merged state. -/
theorem approved_or_bypasses {service : Rpc.Service} {input : Option Error × Call}
    {slot : String × ℤ} (moves : MovesIntoMerged (machine.stepAt service input) slot) :
    ApprovedMerge (machine.stepAt service input) slot ∨
      Bypasses service input.1 input.2 := by
  rcases input with ⟨cancelled, call⟩
  rcases moves with ⟨notBefore, after⟩
  change ¬ IsMerged service.state.pulls slot at notBefore
  change IsMerged (perform service cancelled call).1.state.pulls slot at after
  by_contra neither
  simp only [not_or] at neither
  rcases neither with ⟨notApproved, notBypassed⟩
  have unchanged : (perform service cancelled call).1.state.pulls = service.state.pulls := by
    refine perform_pulls_of_idle ?_ ?_ ?_
    · intro repoId pr asks opens
      rw [perform_pulls_of_opens asks opens, isMerged_insert] at after
      rcases after with ⟨rfl, opened⟩ | ⟨_, before⟩
      · rw [Fake.openedPullRequest_state] at opened
        have merged : pr.state = "merged" := by
          split at opened
          · exact absurd opened (by decide)
          · exact opened
        exact notBypassed (.opens repoId pr asks opens merged notBefore)
      · exact notBefore before
    · rintro repoId pr rfl updates
      rcases service.state.updatePullRequest_pulls cancelled repoId pr with
        ⟨_, current, written, unmerged⟩ | ⟨idle, _⟩
      · change IsMerged (service.state.updatePullRequest cancelled repoId pr).2.pulls slot at after
        rw [written, isMerged_insert] at after
        rcases after with ⟨rfl, updated⟩ | ⟨_, before⟩
        · have merged : pr.state = "merged" := by
            simp only [Fake.updatedPullRequest] at updated
            split at updated
            · exact updated
            · exact absurd updated unmerged
          exact notBypassed (.updates repoId pr rfl updates merged)
        · exact notBefore before
      · exact idle updates
    · rintro repoId number approval rfl merges
      rcases service.state.mergePullRequest_pulls cancelled repoId number approval with
        ⟨_, merged, succeeded, written, _⟩ | ⟨idle, _⟩
      · change IsMerged (service.state.mergePullRequest cancelled repoId number approval).2.pulls
          slot at after
        rw [written, isMerged_insert] at after
        rcases after with ⟨rfl, _⟩ | ⟨_, before⟩
        · by_cases human : IsHuman approval.actor
          · exact notApproved ⟨approval, merged, rfl, congrArg Returned.pull succeeded, human⟩
          · exact notBypassed (.merges repoId number approval rfl merges human)
        · exact notBefore before
      · exact idle merges
  rw [unchanged] at after
  exact notBefore after

/-- Every bypass moves some pull request into the merged state without an approved merge. -/
theorem moves_of_bypasses {service : Rpc.Service} {input : Option Error × Call}
    (bypasses : Bypasses service input.1 input.2) :
    ∃ slot, MovesIntoMerged (machine.stepAt service input) slot ∧
      ¬ ApprovedMerge (machine.stepAt service input) slot := by
  rcases input with ⟨cancelled, call⟩
  simp only at bypasses
  cases bypasses with
  | opens repoId pr asks opens merged moves =>
      refine ⟨_, ⟨moves, ?_⟩, ?_⟩
      · change IsMerged (perform service cancelled call).1.state.pulls _
        rw [perform_pulls_of_opens asks opens, isMerged_insert, Fake.openedPullRequest_state]
        exact Or.inl ⟨rfl, by simp [merged]⟩
      · rintro ⟨approval, _, isMerge, _⟩
        cases asks <;> cases isMerge
  | updates repoId pr isUpdate updates merged =>
      subst isUpdate
      rcases updates.unmerged with ⟨current, found, unmerged⟩
      refine ⟨(repoId, pr.number), ⟨?_, ?_⟩, ?_⟩
      · rintro ⟨other, otherFound, otherMerged⟩
        have same : current = other := Option.some.inj (found.symm.trans otherFound)
        exact unmerged (same ▸ otherMerged)
      · rcases service.state.updatePullRequest_pulls cancelled repoId pr with
          ⟨_, stored, written, _⟩ | ⟨idle, _⟩
        · change IsMerged (service.state.updatePullRequest cancelled repoId pr).2.pulls _
          rw [written, isMerged_insert]
          exact Or.inl ⟨rfl, by simp [Fake.updatedPullRequest, merged]⟩
        · exact absurd updates idle
      · rintro ⟨approval, _, isMerge, _⟩
        cases isMerge
  | merges repoId number approval isMerge merges notHuman =>
      subst isMerge
      rcases merges.unmerged with ⟨current, found, unmerged⟩
      refine ⟨(repoId, number), ⟨?_, ?_⟩, ?_⟩
      · rintro ⟨other, otherFound, otherMerged⟩
        have same : current = other := Option.some.inj (found.symm.trans otherFound)
        exact unmerged (same ▸ otherMerged)
      · rcases service.state.mergePullRequest_pulls cancelled repoId number approval with
          ⟨_, merged, _, written, isMerged⟩ | ⟨idle, _⟩
        · change IsMerged
            (service.state.mergePullRequest cancelled repoId number approval).2.pulls _
          rw [written, isMerged_insert]
          exact Or.inl ⟨rfl, isMerged⟩
        · exact absurd merges idle
      · rintro ⟨other, _, isMerge, _, human⟩
        cases isMerge
        exact notHuman human

/-- Without a bypass, every merged pull request of a run was merged before it or has an
approved merge in it. -/
theorem isMerged_run {service : Rpc.Service} {inputs : List (Option Error × Call)}
    (gated : ∀ step ∈ machine.steps service inputs, ¬ Bypasses step.before step.input.1 step.input.2)
    {slot : String × ℤ} (merged : IsMerged (machine.run service inputs).state.pulls slot) :
    IsMerged service.state.pulls slot ∨
      ∃ step ∈ machine.steps service inputs, ApprovedMerge step slot := by
  induction inputs generalizing service with
  | nil => exact Or.inl merged
  | cons input rest ih =>
      have gatedRest : ∀ step ∈ machine.steps (machine.step service input).1 rest,
          ¬ Bypasses step.before step.input.1 step.input.2 :=
        fun step stepMem => gated step (by simp [stepMem])
      rcases ih gatedRest merged with after | ⟨step, stepMem, approved⟩
      · by_cases before : IsMerged service.state.pulls slot
        · exact Or.inl before
        · right
          refine ⟨machine.stepAt service input, by simp, ?_⟩
          have moves : MovesIntoMerged (machine.stepAt service input) slot := ⟨before, after⟩
          rcases approved_or_bypasses moves with approved | bypasses
          · exact approved
          · exact absurd bypasses (gated (machine.stepAt service input) (by simp))
      · exact Or.inr ⟨step, by simp [stepMem], approved⟩

/-- A run that opens a pull request as merged. -/
def openedAsMerged : List (Option Error × Call) :=
  [(none, .createRepository { owner := "greadee", name := "aa" }),
    (none, .openPullRequest "repo_1" { title := "t", base := "main", head := "b", state := "merged" })]

end Aa.Forge
