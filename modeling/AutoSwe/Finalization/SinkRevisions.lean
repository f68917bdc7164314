import AutoSwe.Finalization.Stages
import AutoSwe.Planning.Soundness

/-!
# The integration sink of a plan that is revised

The validator, the planner and the review look for the validation that covers the whole plan, the
later stages for the one validation among the tasks of the latest revision that none of these
depends on. The two agree for every plan that grows by accepted mutations: a task never depends on
one of a later revision, so the covering validation is one of the latest revision.
-/

namespace AutoSwe

open Digraph List
open Relation (TransGen)

/-- An accepted first plan, or what an accepted mutation makes of such a plan. -/
inductive Revised (validator : TaskPlanValidator) : TaskPlan → Prop
  | first {plan : TaskPlan} (revision : plan.revision = 1)
      (tasks : ∀ task ∈ plan.tasks, task.planRevision = 1) (accepted : validator.Accepts plan) :
      Revised validator plan
  | mutate {current plan : TaskPlan} {mutation : TaskPlanMutation}
      {result : MutationValidationResult} (before : Revised validator current)
      -- the model class of the mutations demands a task
      (new : mutation.tasks ≠ [])
      (validated : validator.validateMutation current mutation = .ok result)
      (accepted : result.proposedPlan = some plan) : Revised validator plan

theorem Revised.accepts (h : Revised validator plan) : validator.Accepts plan := by
  cases h with
  | first _ _ accepted => exact accepted
  | mutate _ _ validated accepted => exact (validateMutation_mutates validated accepted).accepted

/-! ## The latest revision of a plan -/

/-- The plan has tasks of its revision and none of a later one, and a task of an earlier
revision depends only on such tasks. -/
structure TaskPlan.Layered (plan : TaskPlan) : Prop where
  bound : ∀ task ∈ plan.tasks, task.planRevision ≤ plan.revision
  latest : ∃ task ∈ plan.tasks, task.planRevision = plan.revision
  earlier : ∀ task ∈ plan.tasks, task.planRevision < plan.revision →
    ∀ dependency ∈ task.dependencies,
      ∃ other ∈ plan.tasks, other.id = dependency ∧ other.planRevision < plan.revision

theorem Revised.layered (hrequired : validator.requireFinalValidationSink = true)
    (h : Revised validator plan) : plan.Layered := by
  induction h with
  | first revision tasks accepted =>
    obtain ⟨sink, hsink, -⟩ := accepted.finalValidation hrequired
    refine ⟨fun task htask => ?_, ⟨sink, hsink.mem, ?_⟩, fun task htask hearlier => ?_⟩
    · rw [tasks task htask, revision]
    · rw [tasks sink hsink.mem, revision]
    · rw [tasks task htask, revision] at hearlier
      exact absurd hearlier (Nat.lt_irrefl 1)
  | @mutate current plan mutation result before new validated accepted ih =>
    have hmutates := validateMutation_mutates validated accepted
    obtain rfl := hmutates.result
    have hold : ∀ task ∈ current.tasks, task.planRevision < (current.mutated mutation).revision :=
      fun task htask => Nat.lt_succ_of_le (ih.bound task htask)
    refine ⟨fun task htask => ?_, ?_, fun task htask hearlier dependency hdep => ?_⟩
    · rcases mem_append.mp htask with htask | htask
      · exact (hold task htask).le
      · exact (hmutates.tasks task htask).2.le
    · obtain ⟨task, htask⟩ := exists_mem_of_ne_nil _ new
      exact ⟨task, mem_append_right _ htask, (hmutates.tasks task htask).2⟩
    · rcases mem_append.mp htask with htask | htask
      · obtain ⟨other, hother, hid⟩ :=
          mem_map.mp (before.accepts.dependencies htask hdep)
        exact ⟨other, mem_append_left _ hother, hid, hold other hother⟩
      · exact absurd hearlier (Nat.lt_irrefl _ <| (hmutates.tasks task htask).2 ▸ ·)

namespace TaskPlan.FinalValidation

variable {plan : TaskPlan} {sink task : TaskSpec}

/-- The final validation is a task of the latest revision, since everything that an earlier
task depends on is earlier too. -/
theorem planRevision_eq (h : plan.FinalValidation sink)
    (hnodup : (plan.tasks.map TaskSpec.id).Nodup) (hlayered : plan.Layered) :
    sink.planRevision = plan.revision := by
  by_contra hne
  have hsink : sink.planRevision < plan.revision :=
    lt_of_le_of_ne (hlayered.bound sink h.mem) hne
  obtain ⟨task, htask, hlatest⟩ := hlayered.latest
  have hreach := h.covers task htask fun hid => hne <| by
    rw [← inj_on_of_nodup_map hnodup htask h.mem hid, hlatest]
  rw [← edge_dependenciesOf hnodup] at hreach
  let Earlier (id : UUID) : Prop :=
    ∃ other ∈ plan.tasks, other.id = id ∧ other.planRevision < plan.revision
  have hclosed : ∀ id, Earlier id → ∀ dependency ∈ dependenciesOf plan.tasks id,
      Earlier dependency := by
    rintro _ ⟨other, hother, rfl, hearlier⟩ dependency hdep
    rw [dependenciesOf_of_mem hnodup hother] at hdep
    exact hlayered.earlier other hother hearlier dependency hdep
  obtain ⟨other, hother, hid, hearlier⟩ := mem_of_reach
    (hclosed sink.id ⟨sink, h.mem, rfl, hsink⟩) hclosed hreach
  rw [inj_on_of_nodup_map hnodup hother htask hid, hlatest] at hearlier
  exact Nat.lt_irrefl _ hearlier

/-- Every other task of the latest revision is a dependency of one of that revision. -/
theorem depended_on (h : plan.FinalValidation sink)
    (hnodup : (plan.tasks.map TaskSpec.id).Nodup) (hlayered : plan.Layered)
    (htask : task ∈ plan.tasks) (hlatest : task.planRevision = plan.revision)
    (hne : task.id ≠ sink.id) :
    ∃ other ∈ plan.tasks, other.planRevision = plan.revision ∧ task.id ∈ other.dependencies := by
  obtain ⟨_, -, other, hother, rfl, hdep⟩ := TransGen.tail'_iff.mp (h.covers task htask hne)
  refine ⟨other, hother, ?_, hdep⟩
  by_contra hearlier
  obtain ⟨same, hsame, hid, hlt⟩ := hlayered.earlier other hother
    (lt_of_le_of_ne (hlayered.bound other hother) hearlier) task.id hdep
  rw [inj_on_of_nodup_map hnodup hsame htask hid, hlatest] at hlt
  exact Nat.lt_irrefl _ hlt

end TaskPlan.FinalValidation

/-! ## The rows of a plan -/

structure PlannedTask where
  id : UUID
  planRevision : Nat
  taskType : TaskType
  dependencies : List UUID

def TaskSpec.planned (task : TaskSpec) : PlannedTask :=
  ⟨task.id, task.planRevision, task.taskType, task.dependencies⟩

def TaskRow.planned (row : TaskRow) : PlannedTask :=
  ⟨row.id, row.planRevision, row.taskType, row.dependencies⟩

/-- The rows are those of the tasks, in any order and in any state. -/
def Holds (rows : List TaskRow) (tasks : List TaskSpec) : Prop :=
  (rows.map TaskRow.planned).Perm (tasks.map TaskSpec.planned)

theorem holds_rows (tasks : List TaskSpec) (runId : UUID) (draws : UUID → Draw) :
    Holds (tasks.map fun task => task.row runId (draws task.id)) tasks := by
  rw [Holds, map_map]
  rfl

namespace Holds

variable {rows : List TaskRow} {tasks : List TaskSpec}

theorem task_of_row (h : Holds rows tasks) (hrow : row ∈ rows) :
    ∃ task ∈ tasks, task.planned = row.planned :=
  mem_map.mp (h.mem_iff.mp (mem_map_of_mem hrow))

theorem row_of_task (h : Holds rows tasks) (htask : task ∈ tasks) :
    ∃ row ∈ rows, row.planned = task.planned :=
  mem_map.mp (h.mem_iff.mpr (mem_map_of_mem htask))

theorem nodup (h : Holds rows tasks) (hnodup : (tasks.map TaskSpec.id).Nodup) :
    (rows.map TaskRow.id).Nodup := by
  have hids := h.map PlannedTask.id
  rw [map_map, map_map] at hids
  exact hids.nodup_iff.mpr hnodup

end Holds

variable {plan : TaskPlan}

theorem latestRevision_eq (hlayered : plan.Layered)
    (hrows : Holds rows plan.tasks) : latestRevision rows = plan.revision := by
  obtain ⟨⟨-, hall⟩, hone⟩ := foldl_max_spec (rows.map TaskRow.planRevision) 0
  refine Nat.le_antisymm ?_ ?_
  · rcases hone with hzero | hmem
    · exact hzero.trans_le (Nat.zero_le _)
    · obtain ⟨row, hrow, hrevision⟩ := mem_map.mp hmem
      obtain ⟨task, htask, hplanned⟩ := hrows.task_of_row hrow
      have hsame : task.planRevision = row.planRevision :=
        congrArg PlannedTask.planRevision hplanned
      rw [latestRevision, ← hrevision, ← hsame]
      exact hlayered.bound task htask
  · obtain ⟨task, htask, hlatest⟩ := hlayered.latest
    obtain ⟨row, hrow, hplanned⟩ := hrows.row_of_task htask
    have hsame : row.planRevision = task.planRevision := congrArg PlannedTask.planRevision hplanned
    rw [← hlatest, ← hsame]
    exact hall _ (mem_map_of_mem hrow)

theorem filter_eq_singleton {p : TaskRow → Bool} {rows : List TaskRow} {row : TaskRow}
    (hnodup : (rows.map TaskRow.id).Nodup) (hrow : row ∈ rows)
    (hp : ∀ other ∈ rows, p other = true ↔ other.id = row.id) : rows.filter p = [row] := by
  have hlength : (rows.filter p).length = 1 := by
    refine (length_eq_one_of_nodup ((Nodup.of_map _ hnodup).filter p)).mpr ⟨row, ?_, ?_⟩
    · exact mem_filter.mpr ⟨hrow, (hp row hrow).mpr rfl⟩
    · intro other hother
      obtain ⟨hother, hpother⟩ := mem_filter.mp hother
      exact inj_on_of_nodup_map hnodup hother hrow ((hp other hother).mp hpother)
  obtain ⟨found, hfound⟩ := length_eq_one_iff.mp hlength
  have hmem : row ∈ rows.filter p := mem_filter.mpr ⟨hrow, (hp row hrow).mpr rfl⟩
  rw [hfound] at hmem ⊢
  rw [mem_singleton.mp hmem]

theorem integrationSink_latest {sink : TaskSpec} {rows : List TaskRow}
    (hnodup : (plan.tasks.map TaskSpec.id).Nodup) (hlayered : plan.Layered)
    (hsink : plan.FinalValidation sink) (hrows : Holds rows plan.tasks) :
    ∃ row ∈ rows, row.planned = sink.planned ∧ integrationSink (latestTasks rows) = .ok row := by
  obtain ⟨row, hrow, hplanned⟩ := hrows.row_of_task hsink.mem
  have hlatest := latestRevision_eq hlayered hrows
  have hmem : ∀ other, other ∈ latestTasks rows ↔
      other ∈ rows ∧ other.planRevision = plan.revision := by
    simp [latestTasks, hlatest]
  have hrowLatest : row ∈ latestTasks rows := by
    refine (hmem row).mpr ⟨hrow, (congrArg PlannedTask.planRevision hplanned).trans ?_⟩
    exact hsink.planRevision_eq hnodup hlayered
  have hids : ((latestTasks rows).map TaskRow.id).Nodup :=
    (hrows.nodup hnodup).sublist (filter_sublist.map TaskRow.id)
  have hid : row.id = sink.id := congrArg PlannedTask.id hplanned
  refine ⟨row, hrow, hplanned, ?_⟩
  unfold integrationSink
  dsimp only
  rw [filter_eq_singleton hids hrowLatest]
  intro other hother
  obtain ⟨hother, hrevision⟩ := (hmem other).mp hother
  obtain ⟨task, htask, hsame⟩ := hrows.task_of_row hother
  have htaskId : task.id = other.id := congrArg PlannedTask.id hsame
  have htaskRevision : task.planRevision = plan.revision :=
    (congrArg PlannedTask.planRevision hsame).trans hrevision
  simp only [decide_eq_true_eq, mem_flatMap, not_exists, not_and]
  constructor
  · rintro ⟨hfree, -⟩
    by_contra hne
    rw [← htaskId, hid] at hne
    obtain ⟨dependent, hdependent, hlatest, hdep⟩ :=
      hsink.depended_on hnodup hlayered htask htaskRevision hne
    obtain ⟨row', hrow', hplanned'⟩ := hrows.row_of_task hdependent
    refine hfree row' ((hmem row').mpr ⟨hrow', ?_⟩) ?_
    · exact (congrArg PlannedTask.planRevision hplanned').trans hlatest
    · rw [show row'.dependencies = dependent.dependencies from
        congrArg PlannedTask.dependencies hplanned', ← htaskId]
      exact hdep
  · intro hsameId
    obtain rfl := inj_on_of_nodup_map (hrows.nodup hnodup) hother hrow hsameId
    refine ⟨fun row' hrow' hdep => ?_, (congrArg PlannedTask.taskType hplanned).trans
      hsink.validation⟩
    obtain ⟨task', htask', hsame'⟩ := hrows.task_of_row ((hmem row').mp hrow').1
    refine hsink.last task' htask' ?_
    rw [show task'.dependencies = row'.dependencies from congrArg PlannedTask.dependencies hsame',
      ← hid]
    exact hdep

/-! ## The sink -/

theorem requireIntegrationPlan_of_found
    (h : plan.sinks.filterM plan.covers = .ok [sink]) : plan.requireIntegrationPlan = .ok () := by
  rw [TaskPlan.requireIntegrationPlan, h]
  rfl

/-- Every plan that grows by accepted mutations has one final validation. The search of the
validator and the review finds it, the planner accepts it, it is a task of the latest
revision, and the stages that look at that revision alone take its row. -/
theorem integration_sink_agrees (validator : TaskPlanValidator)
    (hrequired : validator.requireFinalValidationSink = true) (plan : TaskPlan)
    (h : Revised validator plan) :
    ∃ sink, plan.FinalValidation sink ∧ (∀ other, plan.FinalValidation other → other = sink) ∧
      plan.sinks.filterM plan.covers = .ok [sink] ∧ plan.hasFinalValidationSink = .ok true ∧
      plan.requireIntegrationPlan = .ok () ∧ plan.requireIntegrationSink = .ok () ∧
      sink.planRevision = plan.revision ∧
      (∀ task ∈ plan.tasks, task.planRevision ≤ sink.planRevision) ∧
      ∀ rows : List TaskRow, Holds rows plan.tasks →
        ∃ row ∈ rows, row.planned = sink.planned ∧
          integrationSink (latestTasks rows) = .ok row := by
  have haccepts := h.accepts
  have hclosed := haccepts.closed
  have hlayered := h.layered hrequired
  obtain ⟨sink, hsink, hunique⟩ := haccepts.finalValidation hrequired
  have hfound := filterM_covers_unique hclosed hsink hunique
  have hlatest := hsink.planRevision_eq hclosed.nodup hlayered
  refine ⟨sink, hsink, hunique, hfound, haccepts.sink hrequired,
    requireIntegrationPlan_of_found hfound,
    (requireIntegrationSink_iff hclosed).mpr ⟨sink, hsink⟩, hlatest, ?_, ?_⟩
  · rw [hlatest]
    exact hlayered.bound
  · exact fun rows hrows => integrationSink_latest hclosed.nodup hlayered hsink hrows

/-- One more change, and a validation that covers it and the first plan. -/
def sampleMutation : TaskPlanMutation where
  mutationId := 80
  baseRevision := 1
  reason := "repair"
  tasks := [{ sampleTaskOf 5 .IMPLEMENTATION "coder" [4] with planRevision := 2 },
    { sampleTaskOf 6 .VALIDATION "validation" [5] with planRevision := 2 }]

theorem sampleMutation_revised :
    Revised (platformValidator .HIGH id toString) (sampleDiamond.mutated sampleMutation) := by
  refine .mutate (.first rfl (by decide) (by decide +kernel)) (by decide)
    (validateMutation_of_accepts ?_ ?_ ?_) rfl
  · decide +kernel
  · decide +kernel
  · decide +kernel

theorem integration_sink_agrees_sample :
    ∃ sink, (sampleDiamond.mutated sampleMutation).FinalValidation sink ∧ sink.id = 6 ∧
      sink.planRevision = 2 := by
  obtain ⟨sink, hsink, -, -, -, -, -, hrevision, -, hrows⟩ := integration_sink_agrees
    (platformValidator .HIGH id toString) rfl _ sampleMutation_revised
  obtain ⟨row, -, hplanned, hrow⟩ := hrows _ (holds_rows _ 40 fun _ => {})
  have hsixth : (integrationSink (latestTasks
      ((sampleDiamond.mutated sampleMutation).tasks.map fun task => task.row 40 {}))).toOption.map
        TaskRow.id = some 6 := by
    decide +kernel
  rw [hrow] at hsixth
  refine ⟨sink, hsink, ?_, hrevision⟩
  exact (congrArg PlannedTask.id hplanned).symm.trans (Option.some.inj hsixth)

end AutoSwe
