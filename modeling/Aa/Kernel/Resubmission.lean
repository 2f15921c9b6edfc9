import Aa.Kernel.Evidence
import Aa.Library.JsonText
import Aa.Library.Machine

/-!
# Results that are submitted again

Intake tells results of one id apart by a hash of their status, summary, tests and artifacts.
A result that is submitted again under an accepted id is judged as it should be exactly if it
is the accepted one, or is well formed and differs from it in what is hashed.
-/

namespace Aa.Kernel.Intake

open Aa.Library Aa.Library.JsonText

structure TestText where
  name : Text
  outcome : Text
deriving DecidableEq

structure ArtifactText where
  id : Text
  kind : Text
  uri : Text
deriving DecidableEq

/-- A result as it is handed in: texts may be no valid UTF-8, and a nil slice is not an empty
one. -/
structure Submission where
  id : String
  attemptId : String
  assignmentId : String
  workPackageId : String
  status : String
  summary : Text := []
  tests : Option (List TestText) := none
  artifacts : Option (List ArtifactText) := none
  failure : Option Runtime.Failure := none
deriving DecidableEq

namespace Submission

/-- The part of a submission that is validated. -/
def checked (submission : Submission) : Result where
  id := submission.id
  attemptId := submission.attemptId
  assignmentId := submission.assignmentId
  workPackageId := submission.workPackageId
  result := { status := submission.status, failure := submission.failure }

def testResult : Encoding TestText :=
  .struct [("Name", Encoding.text.comap TestText.name),
    ("Outcome", Encoding.text.comap TestText.outcome)]

def artifact : Encoding ArtifactText :=
  .struct [("ID", Encoding.text.comap ArtifactText.id),
    ("Kind", Encoding.text.comap ArtifactText.kind), ("URI", Encoding.text.comap ArtifactText.uri)]

/-- What the hash is taken over. -/
def content : Encoding Submission :=
  .struct [("Status", Encoding.text.comap fun submission => Text.of submission.status),
    ("Summary", Encoding.text.comap Submission.summary),
    ("Tests", testResult.slice.comap Submission.tests),
    ("Artifacts", artifact.slice.comap Submission.artifacts)]

def data (submission : Submission) : String := String.ofList (content.encode submission)

def hashResult (sha256Hex : String → String) (submission : Submission) : String :=
  sha256Hex submission.data

/-- What a submission must have to be recorded. -/
structure Valid (submission : Submission) : Prop where
  ids : submission.id ≠ "" ∧ submission.attemptId ≠ "" ∧ submission.assignmentId ≠ "" ∧
    submission.workPackageId ≠ ""
  status : submission.status ∈ statuses
  failure : submission.status = "failed" ∨ submission.status = "blocked" →
    submission.failure.isSome

def SameTest (first second : TestText) : Prop :=
  Alike first.name second.name ∧ Alike first.outcome second.outcome

def SameArtifact (first second : ArtifactText) : Prop :=
  Alike first.id second.id ∧ Alike first.kind second.kind ∧ Alike first.uri second.uri

/-- Submissions of the same status, summary, tests and artifacts, up to bytes that are no
UTF-8. -/
structure SameContent (first second : Submission) : Prop where
  status : first.status = second.status
  summary : Alike first.summary second.summary
  tests : Option.Rel (List.Forall₂ SameTest) first.tests second.tests
  artifacts : Option.Rel (List.Forall₂ SameArtifact) first.artifacts second.artifacts

theorem testResult_same : testResult.same = SameTest := by
  funext first second
  simp [testResult, Encoding.struct, Encoding.comap, Encoding.text, SameTest]

theorem artifact_same : artifact.same = SameArtifact := by
  funext first second
  simp [artifact, Encoding.struct, Encoding.comap, Encoding.text, SameArtifact]

theorem data_eq_iff {first second : Submission} :
    first.data = second.data ↔ SameContent first second := by
  rw [data, data, String.ofList_inj, content.encode_eq_iff]
  simp only [content, Encoding.struct, Encoding.comap, Encoding.text, Encoding.slice,
    testResult_same, artifact_same, List.mem_cons, List.not_mem_nil, or_false, forall_eq_or_imp,
    forall_eq, alike_of_iff]
  constructor
  · rintro ⟨status, summary, tests, artifacts⟩
    exact ⟨status, summary, tests, artifacts⟩
  · rintro ⟨status, summary, tests, artifacts⟩
    exact ⟨status, summary, tests, artifacts⟩

end Submission

/-! ## The service -/

/-- Submits a result with its hash. -/
def submitResult (sha256Hex : String → String) (seen : Service) (submission : Submission) :
    Except Error Bool × Service :=
  submit (fun _ => submission.hashResult sha256Hex) seen submission.checked

def service (sha256Hex : String → String) : Machine Service Submission (Except Error Bool) where
  step seen submission :=
    ((submitResult sha256Hex seen submission).2, (submitResult sha256Hex seen submission).1)

variable {sha256Hex : String → String} {seen : Service} {submission : Submission}

theorem submit_of_valid {hashResult : Runtime.Result → String} {submitted : Result}
    (ids : submitted.id ≠ "" ∧ submitted.attemptId ≠ "" ∧ submitted.assignmentId ≠ "" ∧
      submitted.workPackageId ≠ "")
    (status : submitted.result.status ∈ statuses)
    (explained : submitted.result.status = "failed" ∨ submitted.result.status = "blocked" →
      submitted.result.failure.isSome) :
    submit hashResult seen submitted =
      let hash := hashResult { submitted.result with failure := none }
      (seen.lookup submitted.id).elim (.ok true, seen.insert submitted.id hash) fun existing =>
        if existing = hash then (.ok false, seen)
        else (.error (.wrap .conflict submitted.id), seen) := by
  unfold submit
  rw [if_neg (by simp [ids]), if_neg (not_not.mpr status),
    if_neg (by simpa [Option.isSome_iff_ne_none] using explained)]
  cases isSeen : seen.lookup submitted.id with
  | none => rfl
  | some existing =>
      by_cases same : existing = hashResult { submitted.result with failure := none }
      · simp [same]
      · simp [same]

/-- A valid submission is compared with the accepted one of its id, or is accepted. -/
theorem submitResult_of_valid (valid : submission.Valid) :
    submitResult sha256Hex seen submission =
      ((seen.lookup submission.id).elim
        (.ok true, seen.insert submission.id (submission.hashResult sha256Hex)) fun existing =>
          if existing = submission.hashResult sha256Hex then (.ok false, seen)
          else (.error (.wrap .conflict submission.id), seen)) :=
  submit_of_valid valid.ids valid.status valid.failure

theorem submit_of_not_valid {hashResult : Runtime.Result → String} {submitted : Result}
    (notValid : ¬ ((submitted.id ≠ "" ∧ submitted.attemptId ≠ "" ∧ submitted.assignmentId ≠ "" ∧
      submitted.workPackageId ≠ "") ∧ submitted.result.status ∈ statuses ∧
      (submitted.result.status = "failed" ∨ submitted.result.status = "blocked" →
        submitted.result.failure.isSome))) :
    ∃ message, submit hashResult seen submitted = (.error (.plain message), seen) := by
  unfold submit
  by_cases ids : submitted.id = "" ∨ submitted.attemptId = "" ∨ submitted.assignmentId = "" ∨
      submitted.workPackageId = ""
  · rw [if_pos ids]
    exact ⟨_, rfl⟩
  · rw [if_neg ids]
    by_cases status : submitted.result.status ∈ statuses
    · rw [if_neg (not_not.mpr status), if_pos]
      · exact ⟨_, rfl⟩
      · by_contra explained
        refine notValid ⟨by simpa using ids, status, ?_⟩
        simpa [Option.isSome_iff_ne_none] using explained
    · rw [if_pos status]
      exact ⟨_, rfl⟩

theorem submitResult_of_not_valid (sha256Hex : String → String) (seen : Service)
    (notValid : ¬ submission.Valid) :
    ∃ message, submitResult sha256Hex seen submission = (.error (.plain message), seen) :=
  submit_of_not_valid fun ⟨ids, status, failure⟩ => notValid ⟨ids, status, failure⟩

/-- Only a valid submission of a new id is new. -/
theorem valid_of_new (isNew : (submitResult sha256Hex seen submission).1 = .ok true) :
    submission.Valid ∧ (submitResult sha256Hex seen submission).2 =
      seen.insert submission.id (submission.hashResult sha256Hex) := by
  by_cases valid : submission.Valid
  · refine ⟨valid, ?_⟩
    rw [submitResult_of_valid valid] at isNew ⊢
    cases isSeen : seen.lookup submission.id with
    | none => rfl
    | some existing =>
        simp only [isSeen, Option.elim] at isNew
        split at isNew <;> simp at isNew
  · rcases submitResult_of_not_valid sha256Hex seen valid with ⟨message, rejects⟩
    simp [rejects] at isNew

/-- An accepted hash stays. -/
theorem lookup_submitResult {id hash : String} (isSeen : seen.lookup id = some hash) :
    (submitResult sha256Hex seen submission).2.lookup id = some hash := by
  by_cases valid : submission.Valid
  · rw [submitResult_of_valid valid]
    cases known : seen.lookup submission.id with
    | none =>
        have other : id ≠ submission.id := by
          rintro rfl
          simp [known] at isSeen
        simpa [AList.lookup_insert_ne other] using isSeen
    | some existing =>
        simp only [Option.elim]
        split <;> exact isSeen
  · rcases submitResult_of_not_valid sha256Hex seen valid with ⟨message, rejects⟩
    rw [rejects]
    exact isSeen

/-- After an acceptance the hash of the accepted submission stays. -/
theorem lookup_run_of_accepted {earlier : List Submission} {accepted : Submission}
    (isAccepted : (submitResult sha256Hex ((service sha256Hex).run ∅ earlier) accepted).1 =
      .ok true) (between : List Submission) :
    ((service sha256Hex).run ∅ (earlier ++ accepted :: between)).lookup accepted.id =
      some (accepted.hashResult sha256Hex) := by
  have recorded := (valid_of_new isAccepted).2
  have initially : ((service sha256Hex).step ((service sha256Hex).run ∅ earlier)
      accepted).1.lookup accepted.id = some (accepted.hashResult sha256Hex) := by
    rw [show ((service sha256Hex).step ((service sha256Hex).run ∅ earlier) accepted).1 = _ from
      recorded, AList.lookup_insert]
  have stays : ∀ seen submission, seen.lookup accepted.id = some (accepted.hashResult sha256Hex) →
      ((service sha256Hex).step seen submission).1.lookup accepted.id =
        some (accepted.hashResult sha256Hex) :=
    fun _ _ isSeen => lookup_submitResult isSeen
  rw [Machine.run_append, Machine.run_cons]
  exact Machine.run_invariant stays initially

/-! ## Submitting again -/

/-- What submitting again under the id of an accepted submission should do: nothing if it is
the accepted one, and to be a conflict otherwise, where nothing changes in either case. -/
structure Exact (accepted again : Submission) (seen : Service)
    (answer : Except Error Bool × Service) : Prop where
  noOp : answer.1 = .ok false ↔ again = accepted
  conflict : again ≠ accepted → answer.1 = .error (.wrap .conflict again.id)
  unchanged : answer.2 = seen

/-- What submitting again does, after any submissions before and after the accepted one. -/
theorem submitResult_again {earlier between : List Submission} {accepted again : Submission}
    (isAccepted : (submitResult sha256Hex ((service sha256Hex).run ∅ earlier) accepted).1 =
      .ok true) (sameId : again.id = accepted.id) (valid : again.Valid) :
    let seen := (service sha256Hex).run ∅ (earlier ++ accepted :: between)
    submitResult sha256Hex seen again =
      if accepted.hashResult sha256Hex = again.hashResult sha256Hex then (.ok false, seen)
      else (.error (.wrap .conflict again.id), seen) := by
  intro seen
  have isSeen := lookup_run_of_accepted isAccepted between
  rw [submitResult_of_valid valid, sameId, isSeen, Option.elim_some]

/-- Submitting again under the id of an accepted submission is judged as it should be exactly if
the accepted submission is submitted, or one that is valid and of another content. -/
theorem resubmission_exact_iff {earlier between : List Submission} {accepted again : Submission}
    (isAccepted : (submitResult sha256Hex ((service sha256Hex).run ∅ earlier) accepted).1 =
      .ok true) (sameId : again.id = accepted.id)
    (collisionFree : sha256Hex accepted.data = sha256Hex again.data → accepted.data = again.data) :
    Exact accepted again ((service sha256Hex).run ∅ (earlier ++ accepted :: between))
      (submitResult sha256Hex ((service sha256Hex).run ∅ (earlier ++ accepted :: between)) again) ↔
      again = accepted ∨ again.Valid ∧ ¬ Submission.SameContent accepted again := by
  constructor
  · intro judged
    by_cases same : again = accepted
    · exact .inl same
    · refine .inr ?_
      have conflicts := judged.conflict same
      have valid : again.Valid := by
        by_contra notValid
        rcases submitResult_of_not_valid sha256Hex _ notValid with ⟨message, rejects⟩
        rw [rejects] at conflicts
        simp [GoError.plain, GoError.wrap] at conflicts
      refine ⟨valid, fun content => ?_⟩
      have hashes : accepted.hashResult sha256Hex = again.hashResult sha256Hex :=
        congrArg sha256Hex (Submission.data_eq_iff.mpr content)
      rw [submitResult_again isAccepted sameId valid, if_pos hashes] at conflicts
      simp at conflicts
  · rintro (rfl | ⟨valid, differ⟩)
    · rw [submitResult_again isAccepted rfl (valid_of_new isAccepted).1, if_pos rfl]
      exact ⟨by simp, fun differ => absurd rfl differ, rfl⟩
    · have hashes : accepted.hashResult sha256Hex ≠ again.hashResult sha256Hex :=
        fun same => differ (Submission.data_eq_iff.mp (collisionFree same))
      have other : again ≠ accepted := by
        rintro rfl
        exact hashes rfl
      rw [submitResult_again isAccepted sameId valid, if_neg hashes]
      exact ⟨by simp [other], fun _ => rfl, rfl⟩

/-- A failed attempt, which is also submitted under another id and then with another summary. -/
def finished : Submission where
  id := "res_1"
  attemptId := "att_1"
  assignmentId := "asg_1"
  workPackageId := "wp_1"
  status := "failed"
  summary := Text.of "done"
  tests := some [⟨Text.of "t", Text.of "passed"⟩]
  failure := some { failureClass := "timeout", message := "no answer" }

def undone : Submission := { finished with summary := Text.of "undone" }

theorem resubmission_changed :
    Exact finished undone
      ((service id).run ∅ ([] ++ finished :: [{ finished with id := "res_2" }]))
      (submitResult id ((service id).run ∅ ([] ++ finished :: [{ finished with id := "res_2" }]))
        undone) := by
  have isAccepted : (submitResult id ((service id).run ∅ []) finished).1 = .ok true := by
    decide +kernel
  have collisionFree : id finished.data = id undone.data → finished.data = undone.data :=
    fun same => by simpa only [id_eq] using same
  have sameId : undone.id = finished.id := rfl
  have valid : undone.Valid := ⟨by decide, by decide, fun _ => rfl⟩
  have differ : ¬ Submission.SameContent finished undone :=
    fun content => absurd content.summary (by decide)
  exact (resubmission_exact_iff isAccepted sameId collisionFree).mpr (.inr ⟨valid, differ⟩)

def otherFailure : Submission :=
  { finished with
    attemptId := "att_2"
    failure := some { failureClass := "crash", message := "gone" } }

/-- Another failure of another attempt is taken for the accepted one. -/
theorem resubmission_other_failure :
    ¬ ∀ (sha256Hex : String → String) (earlier between : List Submission)
      (accepted again : Submission),
      (submitResult sha256Hex ((service sha256Hex).run ∅ earlier) accepted).1 = .ok true →
      again.id = accepted.id →
      (sha256Hex accepted.data = sha256Hex again.data → accepted.data = again.data) →
      Exact accepted again ((service sha256Hex).run ∅ (earlier ++ accepted :: between))
        (submitResult sha256Hex ((service sha256Hex).run ∅ (earlier ++ accepted :: between))
          again) := by
  intro exactly
  have collisionFree : id finished.data = id otherFailure.data →
      finished.data = otherFailure.data :=
    fun same => by simpa only [id_eq] using same
  have judged := exactly id [] [] finished otherFailure (by decide +kernel) rfl collisionFree
  have noOp := judged.noOp.mp (by decide +kernel)
  exact absurd noOp (by decide)

end Aa.Kernel.Intake
