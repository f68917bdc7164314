import AutoSwe.Scheduler.Concurrency

/-!
# What holds in every run of the scheduler

A lease, the reservations behind it and the state of the task agree; and no
task gets past `PENDING` before its dependencies have completed.
-/

namespace AutoSwe

open Relational LabelledRun TaskView

theorem empty_view (t : UUID) :
    ({} : Database).view t = ⟨none, none, [], none, false⟩ := rfl

/-- A property of single views that every move preserves holds in every run. -/
theorem Reachable.view_invariant {I : TaskView → Prop} (hinit : I ⟨none, none, [], none, false⟩)
    (hmove : ∀ {completed v v'}, Move completed v v' → I v → I v')
    (h : Reachable service db) (t : UUID) : I (db.view t) := by
  refine Reach.invariant (I := fun db => ∀ t, I (db.view t)) (fun t => hinit) ?_ h t
  rintro db _ operation hdb _ ⟨⟩ t
  exact (perform_effect service operation db).view_invariant hmove (hdb t)

/-! ## Leases, reservations and states -/

theorem Reachable.agrees (h : Reachable service db) (t : UUID) : (db.view t).Agrees :=
  h.view_invariant (by simp [Agrees]) Move.agrees t

theorem held_iff (state : TaskStatus) : state.held = true ↔ state = .LEASED ∨ state = .RUNNING := by
  cases state <;> simp [TaskStatus.held]

/-- In every run, a lease of a task exists exactly while it is leased or
running, with exactly the units of its estimate; otherwise it holds nothing. -/
theorem lease_agrees_with_state (service : SchedulerService) (db : Database)
    (h : Reachable service db) (t : UUID) (row : TaskRow) (hrow : db.tasks.get? t = some row) :
    ((db.leases.get? t).isSome ↔ row.state = .LEASED ∨ row.state = .RUNNING) ∧
      ((db.leases.get? t).isSome →
        (db.heldBy t).map (fun reservation => (reservation.resource, reservation.units)) =
          [(.task, 1)] ++ (if row.estimate.modelTokens > 0 then [(.model, 1)] else []) ++
            (if row.estimate.sandboxSlots > 0 then [(.sandbox, 1)] else [])) ∧
      ((db.leases.get? t) = none → db.heldBy t = []) := by
  have hagrees := h.agrees t
  cases hheld : row.state.held with
  | true =>
    obtain ⟨hlease, hshare⟩ := (agrees_held (v := db.view t) hrow hheld).mp hagrees
    refine ⟨⟨fun _ => (held_iff _).mp hheld, fun _ => hlease⟩, fun _ => hshare, fun hnone => ?_⟩
    change (db.leases.get? t).isSome at hlease
    simp [hnone] at hlease
  | false =>
    obtain ⟨hlease, hempty⟩ := (agrees_free (v := db.view t) hrow hheld).mp hagrees
    change db.leases.get? t = none at hlease
    refine ⟨⟨fun hsome => ?_, fun hstate => ?_⟩, fun hsome => ?_, fun _ => hempty⟩
    · simp [hlease] at hsome
    · simp [(held_iff _).mpr hstate] at hheld
    · simp [hlease] at hsome

def sampleService : SchedulerService where
  policy :=
    { maxParallelTasks := 4, maxParallelTasksPerProject := 2, maxModelConcurrency := 2
      maxSandboxConcurrency := 2 }
  leaseTtl := 30
  leaseTtl_pos := by decide

def sampleSpec (id : UUID) (dependencies : List UUID) : TaskSpec where
  id := id
  planRevision := 1
  projectId := 20
  repositoryId := 30
  title := "task"
  description := "work"
  taskType := .TEST
  dependencies := dependencies
  assignedCapability := "tester"
  acceptanceCriteria := []
  estimate := { modelTokens := 10 }

def samplePlanned : Database :=
  perform sampleService {}
    (.persistPlan (fun runId _ => runId) 40 [sampleSpec 1 [], sampleSpec 2 [1]] fun _ => {})

def sampleLeased : Database :=
  perform sampleService samplePlanned (.claimReady "dispatcher" 5 100 fun _ => { token := 9 })

theorem samplePlanned_reachable : Reachable sampleService samplePlanned :=
  .next .start trivial rfl

theorem sampleLeased_reachable : Reachable sampleService sampleLeased :=
  .next samplePlanned_reachable trivial rfl

def sampleTask (db : Database) (t : UUID) (h : (db.tasks.get? t).isSome) : TaskRow :=
  (db.tasks.get? t).get h

theorem sampleTask_get (h : (db.tasks.get? t).isSome) :
    db.tasks.get? t = some (sampleTask db t h) :=
  (Option.some_get h).symm

theorem lease_agrees_with_state_sample :
    (sampleTask sampleLeased 1 (by decide)).state = .LEASED ∧
      (sampleLeased.leases.get? 1).isSome ∧
      (sampleLeased.heldBy 1).map (fun reservation => (reservation.resource, reservation.units)) =
        [(.task, 1), (.model, 1)] := by
  have h := lease_agrees_with_state sampleService sampleLeased sampleLeased_reachable 1 _
    (sampleTask_get (by decide))
  have hstate : (sampleTask sampleLeased 1 (by decide)).state = .LEASED := by decide
  exact ⟨hstate, h.1.mpr (.inl hstate), h.2.1 (h.1.mpr (.inl hstate))⟩

/-! ## Dependency order -/

theorem TaskView.Ordered.mono
    (h : Ordered completed v) (hmono : ∀ d, completed d → completed' d) :
    Ordered completed' v :=
  fun row hrow hpending hcancelled d hd => hmono d (h row hrow hpending hcancelled d hd)

/-- Every task that was let past `PENDING` has its dependencies behind it. -/
def DependencyOrder (db : Database) : Prop :=
  ∀ t, (db.view t).Started ∧ (db.view t).Ordered db.Completed

theorem TaskTouch.dependencyOrder (h : TaskTouch t db db') (hdb : DependencyOrder db) :
    DependencyOrder db' := by
  intro u
  by_cases hu : u = t
  · subst hu
    -- the moves run under what was completed before, which stays completed
    have hmoves := h.moves
    have hboth : (db'.view u).Started ∧ (db'.view u).Ordered db.Completed := by
      generalize db'.view u = v' at hmoves
      induction hmoves with
      | refl => exact hdb u
      | tail _ hmove ih => exact ⟨hmove.started ih.1, hmove.ordered ih.1 ih.2⟩
    exact ⟨hboth.1, hboth.2.mono fun d hd => h.completed hd⟩
  · rw [h.frame u hu]
    exact ⟨(hdb u).1, (hdb u).2.mono fun d hd => h.completed hd⟩

theorem Reachable.dependencyOrder (h : Reachable service db) : DependencyOrder db := by
  refine Reach.invariant (I := DependencyOrder) ?_ ?_ h
  · intro t
    exact ⟨by simp [empty_view, Started], by simp [empty_view, Ordered]⟩
  · rintro db _ operation hdb _ ⟨⟩
    exact (perform_effect service operation db).invariant TaskTouch.dependencyOrder hdb

theorem dependenciesSatisfied_iff (db : Database) (dependencies : List UUID) :
    dependenciesSatisfied dependencies (fun d => (db.tasks.get? d).map TaskRow.state) = true ↔
      ∀ d ∈ dependencies, db.Completed d := by
  simp [dependenciesSatisfied, Database.Completed, Option.map_eq_some_iff]

/-- In every run, whatever is past `PENDING` and was not cancelled has every
dependency completed; and on every database the predicate in SQL is the one in
Python, whatever the list of dependencies. -/
theorem dependency_order_invariant (service : SchedulerService) :
    (∀ db, Reachable service db → ∀ t row, db.tasks.get? t = some row →
      row.state ∈ [TaskStatus.READY, .LEASED, .RUNNING, .BLOCKED, .COMPLETED, .FAILED] →
      ∀ d ∈ row.dependencies,
        ∃ dependency, db.tasks.get? d = some dependency ∧ dependency.state = .COMPLETED) ∧
    ∀ (db : Database) (task : TaskRow),
      db.dependenciesSatisfiedSql task =
        dependenciesSatisfied task.dependencies fun d => (db.tasks.get? d).map TaskRow.state := by
  refine ⟨fun db h t row hrow hstate => ?_, fun db task => ?_⟩
  · refine (h.dependencyOrder t).2 row hrow ?_ ?_ <;>
      (intro he; simp [he] at hstate)
  · rw [Bool.eq_iff_iff, dependenciesSatisfiedSql_iff, dependenciesSatisfied_iff]

def sampleRepository : RepositoryRow where
  id := 30
  projectId := 20
  sourcePath := "/srv/repository"
  defaultBranch := "main"

def sampleRun : RunRow where
  id := 40
  projectId := 20
  repositoryId := 30
  goal := "goal"
  baselineCommit := "0123456789012345678901234567890123456789"

def sampleDispatch : Dispatch where
  taskId := 1
  projectId := 20
  owner := "dispatcher"
  token := 9
  attemptId := 50
  agentSpecHash := "spec"

def sampleIdentity : GraphIdentity := ⟨40, 30, sampleRun.baselineCommit⟩

/-- The first task of the plan runs to completion and the second is promoted. -/
def sampleOperations : List Operation :=
  [.ambient (Table.insert ∅ sampleRepository) (Table.insert ∅ sampleRun) [],
    .startClaim sampleDispatch 110 {} {},
    .graphWrite 1 50 sampleIdentity "thread" .RUNNING none {},
    .graphWrite 1 50 sampleIdentity "thread" .COMPLETED none {},
    .finishClaim sampleDispatch .COMPLETED 120 {},
    .promoteDependencyReady 500 32 fun _ _ => {}]

def samplePromoted : Database := sampleOperations.foldl (perform sampleService) sampleLeased

theorem reachable_foldl (h : Reachable service db) (operations : List Operation) :
    Reachable service (operations.foldl (perform service) db) := by
  induction operations generalizing db with
  | nil => exact h
  | cons operation rest ih => exact ih (.next h trivial rfl)

theorem dependency_order_invariant_sample :
    (sampleTask samplePromoted 2 (by decide)).state = .READY ∧
      (sampleTask samplePromoted 2 (by decide)).dependencies = [1] ∧
      ∃ dependency, samplePromoted.tasks.get? 1 = some dependency ∧
        dependency.state = .COMPLETED := by
  have hstate : (sampleTask samplePromoted 2 (by decide)).state = .READY := by decide
  have hdependencies : (sampleTask samplePromoted 2 (by decide)).dependencies = [1] := by decide
  refine ⟨hstate, hdependencies, ?_⟩
  exact (dependency_order_invariant sampleService).1 samplePromoted
    (reachable_foldl sampleLeased_reachable sampleOperations) 2 _ (sampleTask_get (by decide))
    (by simp [hstate]) 1 (by simp [hdependencies])

end AutoSwe
