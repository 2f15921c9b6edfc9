import Aa.Library.Calendar
import Aa.Library.PyObject
import Aa.Sifter.Context.Handoff
import Aa.Sifter.Tasks.Graph

/-!
# Decomposition

A model breaks a task into subtasks. Its plan is JSON of any shape, and the code takes it for what
the schema asks for: ids and dependencies are taken as they are given, and what is missing
is filled in by position.
-/

namespace Aa.Sifter.Tasks

open Aa.Library

/-- A subtask as it is handed to a local model. -/
structure LocalTaskSpec where
  task : String
  acceptanceCriteria : List String := []
  filesLikelyRelevant : List String := []
  constraints : List String := []
  dependencies : List String := []
  taskId : Option String := none
  role : String := "builder"

/-- `task-001` and so on. -/
def defaultId (index : ℕ) : String :=
  "task-" ++ String.ofList (Calendar.padded 3 (index + 1))

/-- The value of a field that is a text or missing. -/
def asOptionalText : PyValue → Except PyException (Option String)
  | .null => .ok none
  | value => value.asText.map some

/-- Builds a subtask from the values of its fields, which are checked. -/
def LocalTaskSpec.validated (task : PyValue)
    (acceptanceCriteria filesLikelyRelevant constraints dependencies : List PyValue)
    (taskId : PyValue) : Except PyException LocalTaskSpec := do
  let task ← task.asText
  let acceptanceCriteria ← PyValue.asTexts acceptanceCriteria
  let filesLikelyRelevant ← PyValue.asTexts filesLikelyRelevant
  let constraints ← PyValue.asTexts constraints
  let dependencies ← PyValue.asTexts dependencies
  let taskId ← asOptionalText taskId
  pure
    { task := task
      acceptanceCriteria := acceptanceCriteria
      filesLikelyRelevant := filesLikelyRelevant
      constraints := constraints
      dependencies := dependencies
      taskId := taskId }

/-- One turn of the loop of `from_plan`. -/
def taskSpec (index : ℕ) (item : PyValue) : Except PyException LocalTaskSpec := do
  let task ← item.getOr "task" (.str "")
  let acceptanceCriteria ← (← item.getOr "acceptance_criteria" (.arr [])).items
  let filesLikelyRelevant ← (← item.getOr "files_likely_relevant" (.arr [])).items
  let constraints ← (← item.getOr "constraints" (.arr [])).items
  let dependencies ← (← item.getOr "dependencies" (.arr [])).items
  let id ← item.getOr "id" .null
  LocalTaskSpec.validated task acceptanceCriteria filesLikelyRelevant constraints dependencies
    (id.orElse (.str (defaultId index)))

/-- The subtasks of a plan. -/
def fromPlan (plan : List (String × PyValue)) : Except PyException (List LocalTaskSpec) := do
  let items ← (PyValue.member plan "tasks" (.arr [])).items
  items.zipIdx.mapM fun item => taskSpec item.2 item.1

/-- Adds the constraints that a subtask does not have yet. -/
def LocalTaskSpec.constrained (spec : LocalTaskSpec) (constraints : List String) :
    LocalTaskSpec where
  task := spec.task
  acceptanceCriteria := spec.acceptanceCriteria
  filesLikelyRelevant := spec.filesLikelyRelevant
  constraints := constraints.foldl
    (fun kept constraint => if constraint ∈ kept then kept else kept ++ [constraint])
    spec.constraints
  dependencies := spec.dependencies
  taskId := spec.taskId
  role := spec.role

/-- A provider asked for JSON: a dict if it returned one, or the text of a `ProviderError`. -/
abbrev PlanProvider := List (Message Char) → Except String (Option (List (String × PyValue)))

namespace Decomposer

variable (redactor : SecretRedactor) (provider : PlanProvider) (prompt context : String)
  (constraints : Option (List String))

def taskContent : String :=
  "Task:\n" ++ prompt ++
    (if context = "" then "" else "\n\nContext:\n" ++ Py.takeText context 6000) ++
    (if constraints.getD [] = [] then ""
      else "\n\nConstraints: " ++ Py.join "; " (constraints.getD []))

def messages : List (Message Char) :=
  [Message.system <|
    "Break the task into at most 6 independent or sequentially dependent " ++
    "implementation subtasks. Respond ONLY with JSON matching the schema. " ++
    "Always include explicit human constraints in every subtask that may affect them.",
  ⟨.user, (redactor.redact (taskContent prompt context constraints).toList).text⟩]

/-- The whole task as one subtask. -/
def single : LocalTaskSpec where
  task := prompt
  constraints := constraints.getD []
  taskId := some "task-001"

def decompose : Except PyException (List LocalTaskSpec) :=
  match provider (messages redactor prompt context constraints) with
  | .error _ => .ok [single prompt constraints]
  | .ok none => .ok [single prompt constraints]
  | .ok (some plan) =>
      if plan.isEmpty || !(PyValue.member plan "tasks" .null).truthy then
        .ok [single prompt constraints]
      else (fromPlan plan).map fun specs =>
        specs.map fun spec => spec.constrained (constraints.getD [])

end Decomposer

/-- The tasks of a graph while it is built, with their dependencies. -/
abbrev Added := List (String × List String)

/-- `TaskGraph.add`. -/
def add (tasks : Added) (id : String) (dependencies : List String) : Except String Added :=
  if id ∈ tasks.map Prod.fst then .error s!"duplicate task id: {id}"
  else .ok (tasks ++ [(id, dependencies)])

/-! ## What a subtask is made of -/

section Items

variable {members : List (String × PyValue)} {index : ℕ} {item : PyValue} {spec : LocalTaskSpec}

/-- The fields of a subtask are those of a dict, read as the schema asks. -/
structure Reads (members : List (String × PyValue)) (index : ℕ) (spec : LocalTaskSpec) : Prop where
  task : (PyValue.member members "task" (.str "")).asText = .ok spec.task
  acceptanceCriteria : ((PyValue.member members "acceptance_criteria" (.arr [])).items >>=
    PyValue.asTexts) = .ok spec.acceptanceCriteria
  filesLikelyRelevant : ((PyValue.member members "files_likely_relevant" (.arr [])).items >>=
    PyValue.asTexts) = .ok spec.filesLikelyRelevant
  constraints : ((PyValue.member members "constraints" (.arr [])).items >>= PyValue.asTexts) =
    .ok spec.constraints
  dependencies : ((PyValue.member members "dependencies" (.arr [])).items >>= PyValue.asTexts) =
    .ok spec.dependencies
  taskId : asOptionalText ((PyValue.member members "id" .null).orElse (.str (defaultId index))) =
    .ok spec.taskId
  role : spec.role = "builder"

theorem taskSpec_eq_ok_iff :
    taskSpec index (.obj members) = .ok spec ↔ Reads members index spec := by
  simp only [taskSpec, PyValue.getOr, LocalTaskSpec.validated, PyValue.bind_eq_ok_iff,
    Except.ok.injEq, exists_eq_left', pure, Except.pure]
  constructor
  · rintro ⟨acceptance, isAcceptance, files, isFiles, constraints, isConstraints, dependencies,
      isDependencies, task, isTask, acceptanceTexts, areAcceptance, fileTexts, areFiles,
      constraintTexts, areConstraints, dependencyTexts, areDependencies, taskId, isId, rfl⟩
    exact
      { task := isTask
        acceptanceCriteria := PyValue.bind_eq_ok_iff.mpr ⟨_, isAcceptance, areAcceptance⟩
        filesLikelyRelevant := PyValue.bind_eq_ok_iff.mpr ⟨_, isFiles, areFiles⟩
        constraints := PyValue.bind_eq_ok_iff.mpr ⟨_, isConstraints, areConstraints⟩
        dependencies := PyValue.bind_eq_ok_iff.mpr ⟨_, isDependencies, areDependencies⟩
        taskId := isId
        role := rfl }
  · intro reads
    rcases PyValue.bind_eq_ok_iff.mp reads.acceptanceCriteria with ⟨_, isAcceptance, areAcceptance⟩
    rcases PyValue.bind_eq_ok_iff.mp reads.filesLikelyRelevant with ⟨_, isFiles, areFiles⟩
    rcases PyValue.bind_eq_ok_iff.mp reads.constraints with ⟨_, isConstraints, areConstraints⟩
    rcases PyValue.bind_eq_ok_iff.mp reads.dependencies with ⟨_, isDependencies, areDependencies⟩
    refine ⟨_, isAcceptance, _, isFiles, _, isConstraints, _, isDependencies, _, reads.task, _,
      areAcceptance, _, areFiles, _, areConstraints, _, areDependencies, _, reads.taskId, ?_⟩
    rw [← reads.role]

/-- The fields of an item have the shapes that the schema asks for, as far as the code depends
on them: a text or a dict will do for a list of texts, and anything false for no id. -/
structure Shaped (members : List (String × PyValue)) : Prop where
  task : (PyValue.member members "task" (.str "")).IsText
  lists : ∀ name ∈ ["acceptance_criteria", "files_likely_relevant", "constraints", "dependencies"],
    (PyValue.member members name (.arr [])).IsTexts
  id : (PyValue.member members "id" .null).truthy = true →
    (PyValue.member members "id" .null).IsText

/-- The id that an item comes to have. -/
def idOf (index : ℕ) (members : List (String × PyValue)) : String :=
  ((PyValue.member members "id" .null).orElse (.str (defaultId index))).text?.getD ""

theorem Reads.shaped (reads : Reads members index spec) : Shaped members where
  task := PyValue.asText_ok_iff.mp ⟨_, reads.task⟩
  lists := by
    simp only [List.forall_mem_cons, List.not_mem_nil, false_implies, implies_true, and_true]
    exact ⟨PyValue.items_asTexts_ok_iff.mp ⟨_, reads.acceptanceCriteria⟩,
      PyValue.items_asTexts_ok_iff.mp ⟨_, reads.filesLikelyRelevant⟩,
      PyValue.items_asTexts_ok_iff.mp ⟨_, reads.constraints⟩,
      PyValue.items_asTexts_ok_iff.mp ⟨_, reads.dependencies⟩⟩
  id := by
    intro given
    have isId := reads.taskId
    rw [PyValue.orElse, if_pos given] at isId
    generalize PyValue.member members "id" .null = id at given isId
    cases id with
    | str text => trivial
    | null => cases given
    | bool value => cases isId
    | num number => cases isId
    | arr items => cases isId
    | obj fields => cases isId

theorem Shaped.asOptionalText_id (shaped : Shaped members) (index : ℕ) :
    asOptionalText ((PyValue.member members "id" .null).orElse (.str (defaultId index))) =
      .ok (some (idOf index members)) := by
  have isText := shaped.id
  simp only [idOf, PyValue.orElse]
  generalize PyValue.member members "id" .null = id at isText
  split
  · rename_i given
    cases id with
    | str text => rfl
    | null => cases given
    | bool value => exact (isText given).elim
    | num number => exact (isText given).elim
    | arr items => exact (isText given).elim
    | obj fields => exact (isText given).elim
  · rfl

theorem Shaped.reads (shaped : Shaped members) (index : ℕ) :
    ∃ spec, Reads members index spec := by
  have lists := shaped.lists
  simp only [List.forall_mem_cons, List.not_mem_nil, false_implies, implies_true, and_true] at lists
  rcases lists with ⟨acceptance, files, constraints, dependencies⟩
  rcases PyValue.asText_ok_iff.mpr shaped.task with ⟨task, isTask⟩
  rcases PyValue.items_asTexts_ok_iff.mpr acceptance with ⟨_, isAcceptance⟩
  rcases PyValue.items_asTexts_ok_iff.mpr files with ⟨_, isFiles⟩
  rcases PyValue.items_asTexts_ok_iff.mpr constraints with ⟨_, isConstraints⟩
  rcases PyValue.items_asTexts_ok_iff.mpr dependencies with ⟨_, isDependencies⟩
  exact ⟨⟨task, _, _, _, _, _, "builder"⟩, isTask, isAcceptance, isFiles, isConstraints,
    isDependencies, shaped.asOptionalText_id index, rfl⟩

theorem Reads.taskId_eq (reads : Reads members index spec) :
    spec.taskId = some (idOf index members) :=
  Except.ok.inj (reads.taskId.symm.trans (reads.shaped.asOptionalText_id index))

theorem Reads.dependencies_eq (reads : Reads members index spec) :
    spec.dependencies = (PyValue.member members "dependencies" (.arr [])).texts :=
  PyValue.eq_texts_of_items reads.dependencies

theorem dict_of_taskSpec (isSpec : taskSpec index item = .ok spec) :
    ∃ members, item = .obj members ∧ Reads members index spec := by
  cases item with
  | obj members => exact ⟨members, rfl, taskSpec_eq_ok_iff.mp isSpec⟩
  | null => cases isSpec
  | bool value => cases isSpec
  | num number => cases isSpec
  | str text => cases isSpec
  | arr items => cases isSpec

end Items

/-! ## Usable task lists -/

/-- What the task list is for: it is not empty, the ids are there and pairwise distinct, the
dependencies are among them, every constraint is in every subtask, and the tasks can be added to
a graph. -/
structure Usable (constraints : List String) (specs : List LocalTaskSpec) : Prop where
  nonempty : specs ≠ []
  distinct : (specs.map LocalTaskSpec.taskId).Nodup
  known : ∀ spec ∈ specs, ∀ dep ∈ spec.dependencies, some dep ∈ specs.map LocalTaskSpec.taskId
  constrained : ∀ spec ∈ specs, ∀ constraint ∈ constraints, constraint ∈ spec.constraints
  added : ∃ tasks : Added, specs.foldlM (fun tasks spec =>
    add tasks (spec.taskId.getD "") spec.dependencies) [] = .ok tasks

/-- The ids that the items of a plan come to have. -/
def planIds (items : List (List (String × PyValue))) : List String :=
  items.zipIdx.map fun item => idOf item.2 item.1

/-- A plan whose tasks are a list of dicts of the right shape with distinct ids, and whose
dependencies are among these. -/
def UsablePlan (tasks : PyValue) : Prop :=
  ∃ items : List (List (String × PyValue)), tasks = .arr (items.map .obj) ∧
    (∀ item ∈ items, Shaped item) ∧ (planIds items).Nodup ∧
    ∀ item ∈ items, ∀ dep ∈ (PyValue.member item "dependencies" (.arr [])).texts,
      dep ∈ planIds items

theorem mem_foldl_constrained {kept constraints : List String} {constraint : String} :
    constraint ∈ constraints.foldl
        (fun kept constraint => if constraint ∈ kept then kept else kept ++ [constraint]) kept ↔
      constraint ∈ kept ∨ constraint ∈ constraints := by
  induction constraints generalizing kept with
  | nil => simp
  | cons first rest ih =>
      rw [List.foldl_cons, ih, List.mem_cons]
      split
      · rename_i isKept
        constructor
        · tauto
        · rintro (isThere | rfl | isLater)
          · exact .inl isThere
          · exact .inl isKept
          · exact .inr isLater
      · rw [List.mem_append, List.mem_singleton]
        tauto

/-- Tasks with distinct ids that are not there yet can be added. -/
theorem exists_added {specs : List LocalTaskSpec} {ids : List String}
    (areIds : specs.map LocalTaskSpec.taskId = ids.map some) (nodup : ids.Nodup) {tasks : Added}
    (new : ∀ id ∈ ids, id ∉ tasks.map Prod.fst) :
    ∃ final : Added, specs.foldlM (fun tasks spec =>
      add tasks (spec.taskId.getD "") spec.dependencies) tasks = .ok final := by
  induction specs generalizing ids tasks with
  | nil => exact ⟨tasks, rfl⟩
  | cons spec specs ih =>
      cases ids with
      | nil => cases areIds
      | cons id ids =>
          rw [List.map_cons, List.map_cons, List.cons.injEq] at areIds
          rcases List.nodup_cons.mp nodup with ⟨isNew, restNodup⟩
          have isAdded : add tasks (spec.taskId.getD "") spec.dependencies =
              .ok (tasks ++ [(id, spec.dependencies)]) := by
            rw [areIds.1, Option.getD_some, add, if_neg (new id List.mem_cons_self)]
          rw [List.foldlM_cons, isAdded]
          refine ih areIds.2 restNodup fun other isOther => ?_
          rw [List.map_append, List.mem_append, not_or]
          refine ⟨new other (List.mem_cons_of_mem _ isOther), ?_⟩
          rintro isSame
          cases List.mem_singleton.mp isSame
          exact isNew isOther

/-! ## The subtasks of a plan -/

/-- The subtasks are read from the items one by one. -/
abbrev AllRead (start : ℕ) (items : List (List (String × PyValue)))
    (specs : List LocalTaskSpec) : Prop :=
  List.Forall₂ (fun item spec => Reads item.1 item.2 spec) (items.zipIdx start) specs

section Plans

variable {start : ℕ} {items : List (List (String × PyValue))} {specs : List LocalTaskSpec}
  {plan : List (String × PyValue)} {constraints : List String}

theorem mapM_taskSpec_iff {values : List PyValue} :
    (values.zipIdx start).mapM (fun item => taskSpec item.2 item.1) = .ok specs ↔
      ∃ items, values = items.map .obj ∧ AllRead start items specs := by
  rw [mapM_eq_ok_iff]
  constructor
  · intro each
    induction values generalizing start specs with
    | nil =>
        cases each
        exact ⟨[], rfl, .nil⟩
    | cons value rest ih =>
        rw [List.zipIdx_cons] at each
        cases each with
        | cons isSpec isRest =>
            rcases dict_of_taskSpec isSpec with ⟨members, rfl, reads⟩
            rcases ih isRest with ⟨items, rfl, areRead⟩
            exact ⟨members :: items, rfl, .cons reads areRead⟩
  · rintro ⟨items, rfl, areRead⟩
    induction items generalizing start specs with
    | nil =>
        cases areRead
        exact .nil
    | cons item rest ih =>
        rw [AllRead, List.zipIdx_cons] at areRead
        cases areRead with
        | cons reads restRead => exact .cons (taskSpec_eq_ok_iff.mpr reads) (ih restRead)

theorem AllRead.taskIds (areRead : AllRead start items specs) :
    specs.map LocalTaskSpec.taskId =
      ((items.zipIdx start).map fun item => idOf item.2 item.1).map some := by
  induction items generalizing start specs with
  | nil =>
      cases areRead
      rfl
  | cons item rest ih =>
      rw [AllRead, List.zipIdx_cons] at areRead
      cases areRead with
      | cons reads restRead =>
          rw [List.map_cons, List.zipIdx_cons, List.map_cons, List.map_cons, ih restRead,
            reads.taskId_eq]

theorem AllRead.shaped (areRead : AllRead start items specs) : ∀ item ∈ items, Shaped item := by
  induction items generalizing start specs with
  | nil => simp
  | cons item rest ih =>
      rw [AllRead, List.zipIdx_cons] at areRead
      cases areRead with
      | cons reads restRead =>
          exact List.forall_mem_cons.mpr ⟨reads.shaped, ih restRead⟩

theorem exists_allRead (shaped : ∀ item ∈ items, Shaped item) (start : ℕ) :
    ∃ specs, AllRead start items specs := by
  induction items generalizing start with
  | nil => exact ⟨[], .nil⟩
  | cons item rest ih =>
      rw [List.forall_mem_cons] at shaped
      rcases shaped.1.reads start with ⟨spec, reads⟩
      rcases ih shaped.2 (start + 1) with ⟨specs, areRead⟩
      exact ⟨spec :: specs, .cons reads areRead⟩

/-- The dependencies of the subtasks are those of the items. -/
theorem AllRead.dependencies_iff (areRead : AllRead start items specs) {known : String → Prop} :
    (∀ spec ∈ specs, ∀ dep ∈ spec.dependencies, known dep) ↔
      ∀ item ∈ items, ∀ dep ∈ (PyValue.member item "dependencies" (.arr [])).texts, known dep := by
  induction items generalizing start specs with
  | nil =>
      cases areRead
      simp
  | cons item rest ih =>
      rw [AllRead, List.zipIdx_cons] at areRead
      cases areRead with
      | cons reads restRead =>
          rw [List.forall_mem_cons, List.forall_mem_cons, ih restRead, reads.dependencies_eq]

/-- The subtasks of items, with the constraints added, are usable exactly if the ids are distinct
and the dependencies among them. -/
theorem AllRead.usable_iff (areRead : AllRead 0 items specs) (nonempty : items ≠ []) :
    Usable constraints (specs.map fun spec => spec.constrained constraints) ↔
      (planIds items).Nodup ∧
        ∀ item ∈ items, ∀ dep ∈ (PyValue.member item "dependencies" (.arr [])).texts,
          dep ∈ planIds items := by
  have sameIds : (specs.map fun spec => spec.constrained constraints).map LocalTaskSpec.taskId =
      (planIds items).map some := by
    rw [List.map_map]
    exact areRead.taskIds
  have known : (∀ spec ∈ specs.map fun spec => spec.constrained constraints,
      ∀ dep ∈ spec.dependencies,
        some dep ∈ (specs.map fun spec => spec.constrained constraints).map LocalTaskSpec.taskId) ↔
      ∀ item ∈ items, ∀ dep ∈ (PyValue.member item "dependencies" (.arr [])).texts,
        dep ∈ planIds items := by
    rw [sameIds, List.forall_mem_map, ← areRead.dependencies_iff]
    simp [LocalTaskSpec.constrained]
  have nodup_iff : ((planIds items).map some).Nodup ↔ (planIds items).Nodup :=
    List.nodup_map_iff (Option.some_injective _)
  constructor
  · intro usable
    exact ⟨nodup_iff.mp (sameIds ▸ usable.distinct), known.mp usable.known⟩
  · rintro ⟨nodup, isKnown⟩
    refine ⟨?_, sameIds ▸ nodup_iff.mpr nodup, known.mpr isKnown, ?_, ?_⟩
    · intro isEmpty
      have sameLength := areRead.length_eq
      rw [List.map_eq_nil_iff.mp isEmpty, List.length_zipIdx] at sameLength
      exact nonempty (List.length_eq_zero_iff.mp sameLength)
    · rw [List.forall_mem_map]
      intro spec _ constraint isConstraint
      exact mem_foldl_constrained.mpr (.inr isConstraint)
    · exact exists_added sameIds nodup (by simp)

/-- A value that is not false and can be taken for a list of tasks is a list of dicts. -/
theorem items_of_fromPlan {tasks : PyValue}
    (isTasks : PyValue.member plan "tasks" (.arr []) = tasks) (truthy : tasks.truthy = true)
    (isPlan : fromPlan plan = .ok specs) :
    ∃ items, tasks = .arr (items.map .obj) ∧ AllRead 0 items specs := by
  rw [fromPlan, isTasks] at isPlan
  rcases PyValue.bind_eq_ok_iff.mp isPlan with ⟨values, isValues, areSpecs⟩
  rcases mapM_taskSpec_iff.mp areSpecs with ⟨items, rfl, areRead⟩
  cases tasks with
  | arr listed =>
      cases isValues
      exact ⟨items, rfl, areRead⟩
  | str text =>
      -- its characters are texts, and the first of them is no dict
      have sameItems := Except.ok.inj isValues
      cases isChars : text.toList with
      | nil =>
          rw [String.toList_eq_nil_iff.mp isChars] at truthy
          cases truthy
      | cons c rest =>
          rw [isChars] at sameItems
          cases items <;> simp at sameItems
  | obj members =>
      have sameItems := Except.ok.inj isValues
      cases members with
      | nil => cases truthy
      | cons member rest => cases items <;> simp at sameItems
  | null => cases truthy
  | bool value => cases isValues
  | num number => cases isValues

/-- A member that is not false is there. -/
theorem member_of_truthy {name : String} (default : PyValue)
    (truthy : (PyValue.member plan name .null).truthy = true) :
    PyValue.member plan name default = PyValue.member plan name .null := by
  simp only [PyValue.member] at truthy ⊢
  cases isThere : plan.lookup name with
  | none =>
      rw [isThere] at truthy
      cases truthy
  | some value => rfl

end Plans

/-- One subtask for the whole task is always usable. -/
theorem single_usable (prompt : String) (constraints : Option (List String)) :
    Usable (constraints.getD []) [Decomposer.single prompt constraints] where
  nonempty := by simp
  distinct := by simp
  known := by simp [Decomposer.single]
  constrained := by simp [Decomposer.single]
  added := ⟨_, rfl⟩

section Decompose

variable {redactor : SecretRedactor} {provider : PlanProvider} {prompt context : String}
  {constraints : Option (List String)} {plan : List (String × PyValue)}

/-- A plan without tasks counts as none. -/
theorem decompose_of_no_tasks
    (isPlan : provider (Decomposer.messages redactor prompt context constraints) =
      .ok (some plan))
    (noTasks : ¬ (PyValue.member plan "tasks" .null).truthy = true) :
    Decomposer.decompose redactor provider prompt context constraints =
      .ok [Decomposer.single prompt constraints] := by
  simp [Decomposer.decompose, isPlan, noTasks]

theorem decompose_of_tasks
    (isPlan : provider (Decomposer.messages redactor prompt context constraints) =
      .ok (some plan))
    (truthy : (PyValue.member plan "tasks" .null).truthy = true) :
    Decomposer.decompose redactor provider prompt context constraints =
      (fromPlan plan).map fun specs =>
        specs.map fun spec => spec.constrained (constraints.getD []) := by
  have notEmpty : plan.isEmpty = false := by
    cases plan with
    | nil => cases truthy
    | cons member rest => rfl
  simp [Decomposer.decompose, isPlan, truthy, notEmpty]

/-- The subtasks of a plan with tasks are usable exactly if the plan is. -/
theorem fromPlan_usable_iff (truthy : (PyValue.member plan "tasks" .null).truthy = true)
    (constraints : List String) :
    (∃ specs, ((fromPlan plan).map fun specs => specs.map fun spec =>
        spec.constrained constraints) = .ok specs ∧ Usable constraints specs) ↔
      UsablePlan (PyValue.member plan "tasks" .null) := by
  have isTasks := member_of_truthy (.arr []) truthy
  have nonempty {items : List (List (String × PyValue))}
      (isItems : PyValue.member plan "tasks" .null = .arr (items.map .obj)) : items ≠ [] := by
    rintro rfl
    rw [isItems] at truthy
    cases truthy
  constructor
  · rintro ⟨specs, isMapped, usable⟩
    cases isPlan : fromPlan plan with
    | error error =>
        rw [isPlan] at isMapped
        cases isMapped
    | ok read =>
        rw [isPlan] at isMapped
        cases isMapped
        rcases items_of_fromPlan isTasks truthy isPlan with ⟨items, isItems, areRead⟩
        rcases (areRead.usable_iff (nonempty isItems)).mp usable with ⟨nodup, known⟩
        exact ⟨items, isItems, areRead.shaped, nodup, known⟩
  · rintro ⟨items, isItems, shaped, nodup, known⟩
    rcases exists_allRead shaped 0 with ⟨specs, areRead⟩
    have isPlan : fromPlan plan = .ok specs := by
      rw [fromPlan, isTasks, isItems]
      exact mapM_taskSpec_iff.mpr ⟨items, rfl, areRead⟩
    rw [isPlan]
    exact ⟨_, rfl, (areRead.usable_iff (nonempty isItems)).mpr ⟨nodup, known⟩⟩

end Decompose

/-- Decomposition returns a usable task list exactly if the plan, where the model returns one with
tasks, is usable. -/
theorem decompose_usable_iff (redactor : SecretRedactor) (provider : PlanProvider)
    (prompt context : String) (constraints : Option (List String)) :
    (∃ specs, Decomposer.decompose redactor provider prompt context constraints = .ok specs ∧
      Usable (constraints.getD []) specs) ↔
    ∀ plan, provider (Decomposer.messages redactor prompt context constraints) = .ok (some plan) →
      (PyValue.member plan "tasks" .null).truthy = true →
      UsablePlan (PyValue.member plan "tasks" .null) := by
  have alone := single_usable prompt constraints
  cases isAnswer : provider (Decomposer.messages redactor prompt context constraints) with
  | error message =>
      have isSingle : Decomposer.decompose redactor provider prompt context constraints =
          .ok [Decomposer.single prompt constraints] := by
        simp [Decomposer.decompose, isAnswer]
      refine ⟨?_, fun _ => ⟨_, isSingle, alone⟩⟩
      rintro _ _ ⟨⟩
  | ok structured =>
      cases structured with
      | none =>
          have isSingle : Decomposer.decompose redactor provider prompt context constraints =
              .ok [Decomposer.single prompt constraints] := by
            simp [Decomposer.decompose, isAnswer]
          refine ⟨?_, fun _ => ⟨_, isSingle, alone⟩⟩
          rintro _ _ ⟨⟩
      | some plan =>
          simp only [Except.ok.injEq, Option.some.injEq, forall_eq']
          by_cases truthy : (PyValue.member plan "tasks" .null).truthy = true
          · rw [decompose_of_tasks isAnswer truthy, fromPlan_usable_iff truthy]
            exact ⟨fun usable _ => usable, fun usable => usable truthy⟩
          · rw [decompose_of_no_tasks isAnswer truthy]
            exact ⟨fun _ isTruthy => absurd isTruthy truthy, fun _ => ⟨_, rfl, alone⟩⟩

/-- The first task has the id that the second comes to have by position. -/
def collidingPlan : List (String × PyValue) :=
  [("tasks", .arr
    [.obj [("id", .str "task-002"), ("task", .str "inspect")], .obj [("task", .str "implement")]])]

/-- The subtasks of that plan have the same id. -/
theorem collidingPlan_unusable :
    ¬ ∃ specs, Decomposer.decompose { unicode := .ascii } (fun _ => .ok (some collidingPlan))
      "Add a feature" "" none = .ok specs ∧ Usable [] specs := by
  rintro ⟨specs, isDecomposed, usable⟩
  cases isDecomposed
  exact absurd usable.distinct (by decide +kernel)

end Aa.Sifter.Tasks
