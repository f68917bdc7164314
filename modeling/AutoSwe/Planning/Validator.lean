import AutoSwe.Planning.Service

/-!
# The validation of a plan

A plan is checked before it is stored: every task against its plan and the
execution policy, the dependencies for cycles and for one final validation that
covers everything, and the totals against the limits of the plan. All issues are
collected. What raises instead of being collected is a path without parts and, for
the sink, a dependency that is no task.
-/

namespace AutoSwe

structure ValidationIssue where
  code : String
  message : String
  taskId : Option UUID := none

def issueIf (found : Bool) (code message : String) (taskId : Option UUID := none) :
    List ValidationIssue :=
  if found then [⟨code, message, taskId⟩] else []

@[simp] theorem issueIf_eq_nil : issueIf found code message taskId = [] ↔ found = false := by
  cases found <;> simp [issueIf]

/-! ## What the model classes admit -/

def lengthIn (least most : Nat) (text : String) : Bool :=
  least ≤ text.length && text.length ≤ most

/-- The limits of the fields of a task. -/
def TaskSpec.WellFormed (task : TaskSpec) : Prop :=
  1 ≤ task.planRevision ∧ lengthIn 1 300 task.title ∧
    lengthIn 1 20000 task.description ∧ task.dependencies.length ≤ 500 ∧
    -1000 ≤ task.priority ∧ task.priority ≤ 1000 ∧ lengthIn 1 100 task.assignedCapability ∧
    task.acceptanceCriteria.length ≤ 100 ∧
    (∀ criterion ∈ task.acceptanceCriteria, lengthIn 1 1000 criterion) ∧
    task.allowedTools.length ≤ 100 ∧
    (∀ tool ∈ task.allowedTools, lengthIn 1 100 tool) ∧
    task.repositoryPaths.length ≤ 1000 ∧
    (∀ path ∈ task.repositoryPaths, lengthIn 1 1024 path) ∧
    task.id ∉ task.dependencies ∧ task.dependencies.Nodup

instance (task : TaskSpec) : Decidable task.WellFormed := by
  unfold TaskSpec.WellFormed
  infer_instance

def PlanLimits.WellFormed (limits : PlanLimits) : Prop :=
  limits.maxDynamicTasks ≤ 1000 ∧ 1 ≤ limits.maxPlanDepth ∧ limits.maxPlanDepth ≤ 100 ∧
    0 < limits.maxTotalBudgetUsd ∧ 1 ≤ limits.maxTotalExecutionSeconds ∧
    limits.maxTotalExecutionSeconds ≤ 604800

instance (limits : PlanLimits) : Decidable limits.WellFormed := by
  unfold PlanLimits.WellFormed
  infer_instance

/-- `^[0-9a-f]{40,64}$` -/
def commitSha (text : String) : Bool :=
  lengthIn 40 64 text && text.toList.all fun c => c ∈ "0123456789abcdef".toList

def TaskPlan.WellFormed (plan : TaskPlan) : Prop :=
  commitSha plan.baselineCommit ∧ 1 ≤ plan.revision ∧ 1 ≤ plan.tasks.length ∧
    plan.tasks.length ≤ 500 ∧
    (∀ task ∈ plan.tasks, task.WellFormed) ∧ plan.limits.WellFormed ∧
    (plan.tasks.map TaskSpec.id).Nodup ∧
    ∀ task ∈ plan.tasks, task.projectId = plan.projectId ∧
      task.repositoryId = plan.repositoryId ∧ task.planRevision ≤ plan.revision

instance (plan : TaskPlan) : Decidable plan.WellFormed := by
  unfold TaskPlan.WellFormed
  infer_instance

/-! ## The execution policy -/

def taskCapabilityNames : TaskType → List String
  | .RESEARCH => ["research", "researcher", "analysis"]
  | .IMPLEMENTATION => ["implementation", "coder"]
  | .TEST => ["test", "testing", "tester"]
  | .REFACTOR => ["refactor", "refactoring"]
  | .DOCUMENTATION => ["documentation"]
  | .VALIDATION => ["validation"]

def taskRequiredTools : TaskType → List String
  | .RESEARCH => ["read_file", "search_code"]
  | .VALIDATION => ["read_file", "run_tests"]
  | .IMPLEMENTATION | .TEST | .REFACTOR | .DOCUMENTATION =>
    ["read_file", "apply_patch", "run_tests"]

def taskMinimumRisk (taskType : TaskType) : RiskLevel :=
  if taskType = .RESEARCH then .LOW else .MEDIUM

def RiskLevel.order : RiskLevel → Nat
  | .LOW => 0
  | .MEDIUM => 1
  | .HIGH => 2
  | .CRITICAL => 3

def riskExceeds (level ceiling : RiskLevel) : Bool := ceiling.order < level.order

variable (names : List String)

/-- The items of a tuple or a list of plain names. -/
def quotedNames : String :=
  String.intercalate ", " (names.map fun name => "\x27" ++ name ++ "\x27")

def tupleOfNames : String :=
  "(" ++ quotedNames names ++ (if names.length = 1 then ",)" else ")")

def sortedNames : List String := names.eraseDups.insertionSort (· ≤ ·)

/-! ## The issues of one task -/

/-- The `parts` of a relative `PurePosixPath`. -/
def pathParts (path : List Char) : List (List Char) :=
  (path.splitOn '/').filter fun part => part ≠ [] ∧ part ≠ ['.']

/-- The first part of a path that has none is an error. -/
def isRepositoryRelative (value : String) : Except Raised Bool :=
  let normalized := value.toList.map fun c => if c = '\\' then '/' else c
  if normalized = [] ∨ normalized.head? = some '/' ∨ ['.', '.'] ∈ pathParts normalized then
    .ok false
  else
    match pathParts normalized with
    | [] => .error ⟨.indexError, "tuple index out of range"⟩
    | part :: _ => .ok (':' ∉ part)

/-- `repr` is the one of the string class and `money` the format `.6f`. -/
structure TaskPlanValidator where
  allowedTools : List String
  requireFinalValidationSink : Bool := false
  maxRiskCeiling : RiskLevel := .HIGH
  enforceExecutionPolicy : Bool := false
  repr : String → String
  money : Nat → String

def collectIssues (issues : α → Except Raised (List ValidationIssue)) :
    List α → Except Raised (List ValidationIssue)
  | [] => .ok []
  | item :: rest => do
    let first ← issues item
    let others ← collectIssues issues rest
    .ok (first ++ others)

theorem collectIssues_eq_nil :
    ∀ {items : List α}, collectIssues issues items = .ok [] → ∀ item ∈ items, issues item = .ok []
  | [], _ => fun _ hitem => (List.not_mem_nil hitem).elim
  | item :: rest, h => by
    obtain ⟨first, hfirst, h⟩ := except_bind_ok.mp h
    obtain ⟨others, hothers, h⟩ := except_bind_ok.mp h
    obtain ⟨rfl, rfl⟩ := List.append_eq_nil_iff.mp (Except.ok.inj h)
    exact List.forall_mem_cons.mpr ⟨hfirst, collectIssues_eq_nil hothers⟩

namespace TaskPlanValidator

variable (validator : TaskPlanValidator)

def scopeIssues (plan : TaskPlan) (task : TaskSpec) : List ValidationIssue :=
  issueIf (task.projectId ≠ plan.projectId) "PROJECT_SCOPE"
    "task project does not match its plan" task.id ++
  issueIf (task.repositoryId ≠ plan.repositoryId) "REPOSITORY_SCOPE"
    "task repository does not match its plan" task.id ++
  issueIf (task.planRevision > plan.revision) "PLAN_REVISION"
    "task creation revision exceeds the current plan revision" task.id

variable (task : TaskSpec)

def missingTools : List String :=
  (taskRequiredTools task.taskType).filter (· ∉ task.allowedTools)

/-- What is checked if the execution policy is enforced. -/
def policyIssues : List ValidationIssue :=
  issueIf (task.assignedCapability ∉ taskCapabilityNames task.taskType) "INVALID_TASK_CAPABILITY"
    (task.taskType.value ++ " requires one of " ++
      tupleOfNames (taskCapabilityNames task.taskType)) task.id ++
  issueIf (missingTools task ≠ []) "MISSING_STAGE_TOOL"
    (task.taskType.value ++ " stages require tools [" ++
      quotedNames (sortedNames (missingTools task)) ++ "]") task.id ++
  issueIf (riskExceeds (taskMinimumRisk task.taskType) task.riskCeiling) "INSUFFICIENT_TASK_RISK"
    (task.taskType.value ++ " requires at least " ++ (taskMinimumRisk task.taskType).value ++
      " risk") task.id

def pathIssue (path : String) : Except Raised (List ValidationIssue) := do
  let relative ← isRepositoryRelative path
  .ok (issueIf (!relative) "REPOSITORY_PATH_ESCAPE"
    ("path " ++ validator.repr path ++ " escapes the managed repository") task.id)

def dependencyIssue (ids : List UUID) (task : TaskSpec) (dependency : UUID) :
    List ValidationIssue :=
  if dependency = task.id then
    issueIf true "SELF_DEPENDENCY" "task cannot depend on itself" task.id
  else
    issueIf (dependency ∉ ids) "MISSING_DEPENDENCY"
      ("dependency " ++ dependency.str ++ " does not exist in the plan") task.id

def semanticsIssues (ids : List UUID) (task : TaskSpec) :
    Except Raised (List ValidationIssue) := do
  let paths ← collectIssues (validator.pathIssue task) task.repositoryPaths
  .ok ((if validator.enforceExecutionPolicy then policyIssues task else []) ++
    issueIf (task.acceptanceCriteria = []) "MISSING_ACCEPTANCE_CRITERIA"
      "task must define at least one testable acceptance criterion" task.id ++
    (sortedNames (task.allowedTools.filter (· ∉ validator.allowedTools))).flatMap (fun tool =>
      issueIf true "UNSUPPORTED_TOOL"
        ("tool " ++ validator.repr tool ++ " is not registered for planning") task.id) ++
    issueIf (riskExceeds task.riskCeiling validator.maxRiskCeiling) "RISK_CEILING_EXCEEDS_POLICY"
      ("task risk ceiling " ++ task.riskCeiling.value ++ " exceeds the platform maximum " ++
        validator.maxRiskCeiling.value) task.id ++
    paths ++ task.dependencies.flatMap (dependencyIssue ids task))

def taskIssues (plan : TaskPlan) (ids : List UUID) (task : TaskSpec) :
    Except Raised (List ValidationIssue) := do
  let semantics ← validator.semanticsIssues ids task
  .ok (scopeIssues plan task ++ semantics)

end TaskPlanValidator

/-! ## The graph of the dependencies -/

/-- The tasks of `tasks_by_id`: of several with one id the first. -/
def firstTasks : List TaskSpec → List TaskSpec
  | [] => []
  | task :: rest => task :: (firstTasks rest).filter fun other => other.id ≠ task.id

theorem firstTasks_of_nodup : ∀ {tasks : List TaskSpec}, (tasks.map TaskSpec.id).Nodup →
    firstTasks tasks = tasks
  | [], _ => rfl
  | task :: rest, h => by
    obtain ⟨hnew, hrest⟩ := List.nodup_cons.mp h
    rw [firstTasks, firstTasks_of_nodup hrest, List.filter_eq_self.mpr]
    intro other hother
    refine decide_eq_true fun hid => hnew ?_
    rw [← hid]
    exact List.mem_map_of_mem hother

/-- The loop of `_topological_order`; `ready` is the heap, its least element first. -/
structure Sorting where
  indegree : UUID → Nat
  ready : List UUID
  result : List UUID := []

def dependentsOf (tasks : List TaskSpec) (id : UUID) : List UUID :=
  tasks.flatMap fun task => (task.dependencies.filter (· = id)).map fun _ => task.id

/-- One dependency of the task is done. -/
def Sorting.release (s : Sorting) (dependent : UUID) : Sorting where
  indegree := Function.update s.indegree dependent (s.indegree dependent - 1)
  ready :=
    if s.indegree dependent - 1 = 0 then s.ready.orderedInsert (fun a b => a.int ≤ b.int) dependent
    else s.ready
  result := s.result

def Sorting.pop (tasks : List TaskSpec) (s : Sorting) : Sorting :=
  match s.ready with
  | [] => s
  | id :: ready =>
    ((dependentsOf tasks id).insertionSort fun a b => a.int ≤ b.int).foldl Sorting.release
      { s with ready, result := s.result ++ [id] }

def indegreeOf (tasks : List TaskSpec) (task : TaskSpec) : Nat :=
  (task.dependencies.filter (· ∈ tasks.map TaskSpec.id)).length

def Sorting.start (tasks : List TaskSpec) : Sorting where
  indegree id := ((tasks.find? fun task => task.id = id).map (indegreeOf tasks)).getD 0
  ready := ((tasks.filter fun task => indegreeOf tasks task = 0).map TaskSpec.id).insertionSort
    fun a b => a.int ≤ b.int

/-- Every round takes one task from the heap, and a task enters it once. -/
def topologicalOrder (tasks : List TaskSpec) : List UUID :=
  ((Sorting.pop tasks)^[tasks.length] (Sorting.start tasks)).result

abbrev Depths := List (UUID × Nat)

def Depths.get? (depths : Depths) (id : UUID) : Option Nat :=
  (depths.find? fun depth => depth.1 = id).map Prod.snd

def deepen (tasks : List TaskSpec) (depths : Depths) (id : UUID) : Depths :=
  let dependencies := ((tasks.find? fun task => task.id = id).map TaskSpec.dependencies).getD []
  depths ++ [(id, 1 + (dependencies.filterMap depths.get?).foldl max 0)]

def maximumDepth (tasks : List TaskSpec) (order : List UUID) : Nat :=
  ((order.foldl (deepen tasks) []).map Prod.snd).foldl max 0

/-- `_has_final_validation_sink` of a plan without duplicates. -/
def TaskPlan.hasFinalValidationSink (plan : TaskPlan) : Except Raised Bool := do
  let valid ← plan.sinks.filterM plan.covers
  .ok (valid.length = 1)

/-! ## The plan -/

structure PlanValidationResult where
  issues : List ValidationIssue
  topologicalOrder : List UUID
  maxDepth : Nat
  totalBudgetUsd : Nat
  totalExecutionSeconds : Nat

def PlanValidationResult.valid (result : PlanValidationResult) : Bool := result.issues.isEmpty

def TaskPlan.duplicateIds (plan : TaskPlan) : List UUID :=
  let ids := plan.tasks.map TaskSpec.id
  (ids.filter fun id => 1 < ids.count id).eraseDups.insertionSort fun a b => a.int ≤ b.int

def TaskPlan.totalBudget (plan : TaskPlan) : Nat :=
  (plan.tasks.map fun task => task.budget.costUsd).sum

def TaskPlan.totalExecution (plan : TaskPlan) : Nat :=
  (plan.tasks.map fun task => task.budget.wallTimeSeconds).sum

def TaskPlan.dynamicTasks (plan : TaskPlan) : Nat :=
  (plan.tasks.filter fun task => 1 < task.planRevision).length

/-- A total that exceeds its limit. -/
def limitIssue (code text : String) (format : Nat → String) (total limit : Nat) :
    List ValidationIssue :=
  issueIf (limit < total) code (text ++ " " ++ format total ++ " exceeds limit " ++ format limit)

theorem limitIssue_eq_nil :
    limitIssue code text format total limit = [] ↔ total ≤ limit := by
  simp [limitIssue]

namespace TaskPlanValidator

variable (validator : TaskPlanValidator)

def graphIssues (plan : TaskPlan) (order : List UUID) : Except Raised (List ValidationIssue) := do
  if order.length ≠ plan.tasks.length then
    .ok (issueIf true "CYCLE" "task dependencies contain at least one cycle")
  else if validator.requireFinalValidationSink then do
    let found ← plan.hasFinalValidationSink
    .ok (issueIf (!found) "FINAL_VALIDATION_SINK"
      "plan requires exactly one final VALIDATION sink transitively covering every task")
  else .ok []

def validate (plan : TaskPlan) : Except Raised PlanValidationResult := do
  let distinct := { plan with tasks := firstTasks plan.tasks }
  let tasks ← collectIssues (validator.taskIssues plan (plan.tasks.map TaskSpec.id))
    (plan.tasks.insertionSort fun a b => a.id.int ≤ b.id.int)
  let order := AutoSwe.topologicalOrder distinct.tasks
  let graph ← validator.graphIssues distinct order
  let depth := maximumDepth distinct.tasks order
  .ok {
    issues := plan.duplicateIds.flatMap (fun id : UUID => issueIf true "DUPLICATE_TASK_ID"
        ("task ID " ++ id.str ++ " occurs more than once") id) ++ tasks ++ graph ++
      limitIssue "MAX_PLAN_DEPTH" "plan depth" toString depth plan.limits.maxPlanDepth ++
      limitIssue "MAX_DYNAMIC_TASKS" "dynamic task count" toString plan.dynamicTasks
        plan.limits.maxDynamicTasks ++
      limitIssue "MAX_TOTAL_BUDGET" "total budget" validator.money plan.totalBudget
        plan.limits.maxTotalBudgetUsd ++
      limitIssue "MAX_TOTAL_EXECUTION_TIME" "total execution time" toString plan.totalExecution
        plan.limits.maxTotalExecutionSeconds
    topologicalOrder := order
    maxDepth := depth
    totalBudgetUsd := plan.totalBudget
    totalExecutionSeconds := plan.totalExecution }

def Accepts (plan : TaskPlan) : Prop :=
  ∃ result, validator.validate plan = .ok result ∧ result.valid = true

instance (plan : TaskPlan) : Decidable (validator.Accepts plan) :=
  decidable_of_iff ((validator.validate plan).toOption.any PlanValidationResult.valid = true) <| by
    unfold Accepts
    cases validator.validate plan <;> simp [Except.toOption]

variable {validator} {plan : TaskPlan}

/-- What the validator has looked at, and found nothing in, when it accepts. -/
theorem Accepts.issues (h : validator.Accepts plan) :
    plan.duplicateIds = [] ∧
      collectIssues (validator.taskIssues plan (plan.tasks.map TaskSpec.id))
        (plan.tasks.insertionSort fun a b => a.id.int ≤ b.id.int) = .ok [] ∧
      validator.graphIssues { plan with tasks := firstTasks plan.tasks }
        (AutoSwe.topologicalOrder (firstTasks plan.tasks)) = .ok [] ∧
      plan.dynamicTasks ≤ plan.limits.maxDynamicTasks := by
  obtain ⟨result, hresult, hvalid⟩ := h
  simp only [validate, except_bind_ok] at hresult
  obtain ⟨tasks, htasks, graph, hgraph, hresult⟩ := hresult
  cases hresult
  simp only [PlanValidationResult.valid, List.isEmpty_iff, List.append_eq_nil_iff,
    List.flatMap_eq_nil_iff, issueIf_eq_nil, limitIssue_eq_nil] at hvalid
  obtain ⟨⟨⟨⟨⟨⟨hduplicates, rfl⟩, rfl⟩, -⟩, hdynamic⟩, -⟩, -⟩ := hvalid
  refine ⟨List.eq_nil_iff_forall_not_mem.mpr fun id hid => ?_, htasks, hgraph, hdynamic⟩
  cases hduplicates id hid

theorem Accepts.nodup (h : validator.Accepts plan) : (plan.tasks.map TaskSpec.id).Nodup := by
  refine List.nodup_iff_count_le_one.mpr fun id => ?_
  by_contra hcount
  have hmem : id ∈ plan.duplicateIds := by
    refine (List.mem_insertionSort _).mpr (List.mem_eraseDups.mpr (List.mem_filter.mpr ⟨?_, ?_⟩))
    · exact List.count_pos_iff.mp (by omega)
    · exact decide_eq_true (by omega)
  rw [h.issues.1] at hmem
  cases hmem

theorem Accepts.criteria (h : validator.Accepts plan) (htask : task ∈ plan.tasks) :
    task.acceptanceCriteria ≠ [] := by
  have hissues := collectIssues_eq_nil h.issues.2.1 task ((List.mem_insertionSort _).mpr htask)
  simp only [taskIssues, semanticsIssues, except_bind_ok, Except.ok.injEq] at hissues
  obtain ⟨semantics, ⟨paths, -, rfl⟩, hnone⟩ := hissues
  simp only [List.append_eq_nil_iff, issueIf_eq_nil] at hnone
  exact of_decide_eq_false hnone.2.1.1.1.1.2

theorem Accepts.dependencies (h : validator.Accepts plan) (htask : task ∈ plan.tasks)
    (hdep : dependency ∈ task.dependencies) : dependency ∈ plan.tasks.map TaskSpec.id := by
  have hissues := collectIssues_eq_nil h.issues.2.1 task ((List.mem_insertionSort _).mpr htask)
  simp only [taskIssues, semanticsIssues, except_bind_ok, Except.ok.injEq] at hissues
  obtain ⟨semantics, ⟨paths, -, rfl⟩, hnone⟩ := hissues
  simp only [List.append_eq_nil_iff, List.flatMap_eq_nil_iff] at hnone
  have hnone := hnone.2.2 dependency hdep
  unfold dependencyIssue at hnone
  split at hnone
  · cases issueIf_eq_nil.mp hnone
  · simpa using issueIf_eq_nil.mp hnone

theorem Accepts.sink (h : validator.Accepts plan)
    (hrequired : validator.requireFinalValidationSink = true) :
    plan.hasFinalValidationSink = .ok true := by
  have hgraph := h.issues.2.2.1
  rw [firstTasks_of_nodup h.nodup] at hgraph
  simp only [graphIssues, hrequired, if_true] at hgraph
  split at hgraph
  · cases hgraph
  · obtain ⟨found, hfound, hnone⟩ := except_bind_ok.mp hgraph
    have htrue : found = true := by simpa using hnone
    rw [hfound, htrue]

end TaskPlanValidator

/-- The validator of the planner, and with the default ceiling that of the repairs. -/
def platformValidator (maxRiskCeiling : RiskLevel) (repr : String → String)
    (money : Nat → String) : TaskPlanValidator where
  allowedTools := ["read_file", "search_code", "apply_patch", "run_tests"]
  requireFinalValidationSink := true
  maxRiskCeiling := maxRiskCeiling
  enforceExecutionPolicy := true
  repr := repr
  money := money

end AutoSwe
