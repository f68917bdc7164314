import AutoSwe.Scheduler.Fixpoint

/-!
# The operator's way out of a quarantine

A quarantined pair waits for an operator. `fail` and `retry` both go through
the transition table of the task, and `fail` leaves a pair that the reconciler
judges again; `operator_exit_iff` says in which states one of them helps.
-/

namespace AutoSwe

open Relational Transaction LabelledRun Prog Table List Database Option

/-! ## One thread, one row -/

theorem DistinctThreads.sameGraphs (hd : DistinctThreads db) (h : SameGraphs db db') :
    DistinctThreads db' :=
  hd.congr fun t => by rw [h]

theorem reconcile_threads : SameThreads db ((reconcile projectId k now draw).commit db).2 := by
  intro t
  by_cases hk : t = k
  · subst hk
    rcases commit_reconcile projectId t now draw db with hsame | ⟨task, hrow, -, hdone⟩
    · rw [hsame]
    · obtain rfl : task.id = t := key_of_get? (taskIn_eq_some.mp hrow).1
      have hthreads := congrArg (Option.map fun row => row.2.2) hdone.graph
      rwa [Option.map_map, Option.map_map] at hthreads
  · have hgraph := congrArg TaskView.graph
      ((reconcile_effect projectId k now draw db).frame (Ne.symm hk ∘ Eq.symm))
    exact congrArg (Option.map _) hgraph

theorem DistinctThreads.call (service : SchedulerService) (call : Call)
    (hd : DistinctThreads db) : DistinctThreads ((call.body service).commit db).2 := by
  cases call with
  | reconcile projectId k now draw =>
    simp only [Call.body, commit_discard]
    exact hd.congr reconcile_threads
  | resolveNeedsReconciliation =>
    simp only [Call.body, commit_discard]
    refine Refines.commit (P := fun _ => True)
      (R := fun db db' => DistinctThreads db → DistinctThreads db') ?_ (fun _ => id) trivial hd
    intro db action db' _ hrun hd
    obtain ⟨task, graph, settled, db₁, moved, db₂, -, -, -, hsettled, hmoved, hreport⟩ :=
      resolveNeedsReconciliation_ok hrun
    cases hreport
    have hsame : SameGraphs db₁ db₂ := (Audits.moveIfAny_ok hmoved).2.1
    exact (hd.write hsettled).sameGraphs hsame
  | graphWrite =>
    refine Refines.commit (P := fun _ => True)
      (R := fun db db' => DistinctThreads db → DistinctThreads db') ?_ (fun _ => id) trivial hd
    intro db u db' _ hrun hd
    have hrun := after hrun rfl
    split at hrun
    · obtain ⟨row, db₂, hwrite, hrun⟩ := bind_ok.mp hrun
      cases hrun
      exact hd.write hwrite
    · cases hrun
      exact hd
  | _ => exact hd.sameGraphs (Call.sameGraphs service (by simp [Call.footprint]) db)

theorem Reachable.distinctThreads (h : Reachable service db) : DistinctThreads db := by
  refine Reach.invariant (I := DistinctThreads) ?_ ?_ h
  · intro t row hrow
    cases hrow
  · rintro before _ operation hd _ ⟨⟩
    exact perform_moves (R := fun db db' => DistinctThreads db → DistinctThreads db')
      (fun _ => id) (fun h h' => h' ∘ h) (fun call _ _ hd => hd.call service call) before hd

/-! ## What a resolution leaves -/

/-- A resolution commits when the task may make its move. -/
theorem run_resolveNeedsReconciliation (hrow : db.taskIn projectId task.id = some task)
    (hgraph : db.graphs.get? task.id = some graph) (hparked : graph.state = .NEEDS_RECONCILIATION)
    (hfree : threadTaken db task.id graph.threadId = false) (resolution : Resolution)
    (hlegal : ∀ state, resolution.target task = some state → state ∈ taskTransitions task.state)
    (now : Time) (draw graphDraw : Draw) :
    ∃ db', (resolveNeedsReconciliation projectId task.id resolution now draw graphDraw).run db =
        .ok (resolution.action, db') ∧
      Rewritten task (resolution.target task) draw.enteredAt (fun _ => resolution.graphState)
        db db' := by
  obtain ⟨-, rfl⟩ := taskIn_eq_some.mp hrow
  obtain ⟨settled, db₁, hsettled⟩ : ∃ settled db₁, (transitionGraphExecution task.id graph.identity
      graph.threadId resolution.graphState graph.checkpointId graphDraw).run db =
        .ok (settled, db₁) := by
    refine transitionGraphExecution_advances hgraph (.inr ?_) hfree _ _
    cases resolution <;> simp [hparked, Resolution.graphState, graphExecutionTransitions]
  obtain ⟨hwrite, hkey, hidentity, audit, outbox, durations, rfl⟩ :=
    transitionGraphExecution_ok hsettled
  -- the graph write leaves the task row that was locked before
  have hrow₁ : ({ db with
      graphs := db.graphs.put settled, auditEvents := audit, outbox := outbox
      stateDurations := durations } : Database).taskIn task.projectId task.id = some task := hrow
  obtain ⟨db₂, hmoved, hrow₂, hgraphs₂, hleases₂, hruns₂⟩ := run_moveIfAny hrow₁ hlegal draw
  have hrun : ∃ db', (resolveNeedsReconciliation task.projectId task.id resolution now draw
      graphDraw).run db = .ok (resolution.action, db') ∧ db'.tasks = db₂.tasks ∧
        db'.graphs = db₂.graphs ∧ db'.leases = db₂.leases.erase task.id ∧ db'.runs = db₂.runs := by
    simp only [resolveNeedsReconciliation, run_bind, run_selectTaskForUpdate,
      run_selectGraphForUpdate, hrow, hgraph, filter_some, hparked, decide_true, if_true,
      hsettled, hmoved, run_dropClaim, run_publish]
    exact ⟨_, rfl, rfl, rfl, rfl, rfl⟩
  obtain ⟨db', hrun, htasks, hgraphs, hleases, hruns⟩ := hrun
  refine ⟨db', hrun, {
    row := by rw [htasks, hrow₂]
    graph := ?_
    lease := by rw [hleases, get?_erase_self]
    runs := by rw [hruns, hruns₂] }⟩
  rw [hgraphs, hgraphs₂, hgraph, get?_put, if_pos hkey.symm]
  simp only [map_some, GraphExecutionRow.execution, hwrite.state, hwrite.thread, hidentity]

theorem resolve_legal (hget : db.tasks.get? t = some task)
    (h : (resolveNeedsReconciliation projectId t resolution now draw graphDraw).run db =
      .ok (action, db')) (htarget : resolution.target task = some state) :
    state ∈ taskTransitions task.state := by
  obtain ⟨row, graph, settled, db₁, moved, db₂, hrow, -, -, hsettled, hmoved, -⟩ :=
    resolveNeedsReconciliation_ok h
  rw [hget] at hrow
  cases hrow
  obtain rfl : task.id = t := key_of_get? hget
  obtain ⟨-, -, -, audit, outbox, durations, rfl⟩ := transitionGraphExecution_ok hsettled
  rw [htarget] at hmoved
  obtain ⟨_, db₃, htransition, -⟩ := bind_ok.mp hmoved
  obtain ⟨found, hfound, -, -, hlegal, -⟩ := transitionTask_ok htransition
  have hfound : db.tasks.get? task.id = some found := hfound
  rw [hget] at hfound
  cases hfound
  exact hlegal

/-! ## The exit -/

/-- The reconciler does not quarantine the task again. -/
def Unquarantined (projectId t : UUID) (db : Database) : Prop :=
  ∀ now draw action db', (reconcile projectId t now draw).run db = .ok (action, db') →
    action ≠ .QUARANTINE

/-- One of the two resolutions commits and is not undone by the reconciler. -/
def OperatorExit (projectId t : UUID) (now : Time) (draw graphDraw : Draw) (db : Database) : Prop :=
  ∃ resolution action db',
    (resolveNeedsReconciliation projectId t resolution now draw graphDraw).run db =
      .ok (action, db') ∧ Unquarantined projectId t db'

theorem Rewritten.unquarantined_iff (h : Rewritten task target entered state db db')
    (hproject : task.projectId = projectId) :
    Unquarantined projectId task.id db' ↔ judge (target.getD task.state)
      (((db.graphs.get? task.id).map GraphExecutionRow.state).map state) (db.mismatched task)
      false ≠ .QUARANTINE := by
  have hrow : db'.taskIn projectId task.id = some (task.movedTo target entered) :=
    taskIn_eq_some.mpr ⟨h.row, (movedTo_same ..).2.1.trans hproject⟩
  constructor
  · intro hun
    obtain ⟨db₂, hrun, -⟩ := run_reconcile hrow 0 {}
    rw [h.decision] at hrun
    exact hun 0 {} _ _ hrun
  · intro hjudge now draw action db₂ hrun
    obtain ⟨db₃, hrun', -⟩ := run_reconcile hrow now draw
    rw [hrun, h.decision] at hrun'
    simp only [Except.ok.injEq, Prod.mk.injEq] at hrun'
    rw [hrun'.1]
    exact hjudge

theorem failed_judge :
    judge .FAILED (some .FAILED) mismatch false ≠ .QUARANTINE ↔ mismatch = false := by
  cases mismatch <;> simp [judge, terminalTaskStates, terminalGraphStates]

theorem fail_getD : (Resolution.fail.target task).getD task.state = .FAILED := by
  by_cases hfailed : task.state = .FAILED <;> simp [Resolution.target, hfailed]

theorem resolution_illegal {task : TaskRow} {resolution : Resolution}
    (h : task.state ∈ [TaskStatus.COMPLETED, .CANCELLED]) :
    ∃ state, resolution.target task = some state ∧ state ∉ taskTransitions task.state := by
  simp only [mem_cons, not_mem_nil, or_false] at h
  cases resolution <;> rcases h with h | h <;> simp [Resolution.target, h, taskTransitions]

/-- A parked task has an operator exit exactly when it is neither completed nor
cancelled, and not ready or failed beside the row of another execution. -/
theorem operator_exit_iff (service : SchedulerService) (hreach : Reachable service db)
    {graph : GraphExecutionRow} (hrow : db.taskIn projectId t = some task)
    (hgraph : db.graphs.get? t = some graph) (hparked : graph.state = .NEEDS_RECONCILIATION)
    (now : Time) (draw graphDraw : Draw) :
    OperatorExit projectId t now draw graphDraw db ↔
      task.state ∉ [TaskStatus.COMPLETED, .CANCELLED] ∧
        (task.state ∈ [TaskStatus.READY, .FAILED] → db.mismatched task = false) := by
  obtain ⟨hget, hproject⟩ := taskIn_eq_some.mp hrow
  obtain rfl : task.id = t := key_of_get? hget
  have hfree := hreach.distinctThreads task.id graph hgraph
  constructor
  · rintro ⟨resolution, action, db', hrun, hun⟩
    obtain ⟨db₁, hrun₁, hrewritten⟩ := run_resolveNeedsReconciliation hrow hgraph hparked hfree
      resolution (fun _ => resolve_legal hget hrun) now draw graphDraw
    rw [hrun₁] at hrun
    cases hrun
    refine ⟨fun hterminal => ?_, fun hstate => ?_⟩
    · obtain ⟨state, htarget, hillegal⟩ := resolution_illegal hterminal
      exact hillegal (resolve_legal hget hrun₁ htarget)
    · rw [hrewritten.unquarantined_iff hproject, hgraph] at hun
      cases resolution with
      | fail =>
        rw [fail_getD] at hun
        exact (failed_judge).mp hun
      | retry =>
        -- a ready or a failed task cannot be requeued
        have hlegal := resolve_legal hget hrun₁ rfl
        simp only [mem_cons, not_mem_nil, or_false] at hstate
        rcases hstate with hstate | hstate <;> simp [hstate, taskTransitions] at hlegal
  · rintro ⟨hopen, hmatched⟩
    by_cases hstate : task.state ∈ [TaskStatus.READY, .FAILED]
    · have hlegal : ∀ state, Resolution.fail.target task = some state →
          state ∈ taskTransitions task.state := by
        simp only [mem_cons, not_mem_nil, or_false] at hstate
        rcases hstate with hstate | hstate <;> simp [Resolution.target, hstate, taskTransitions]
      obtain ⟨db', hrun, hrewritten⟩ := run_resolveNeedsReconciliation hrow hgraph hparked hfree
        .fail hlegal now draw graphDraw
      refine ⟨.fail, _, db', hrun, ?_⟩
      rw [hrewritten.unquarantined_iff hproject, hgraph, fail_getD]
      exact (failed_judge).mpr (hmatched hstate)
    · have hlegal : TaskStatus.READY ∈ taskTransitions task.state := by
        cases hstate' : task.state <;> simp_all [taskTransitions]
      obtain ⟨db', hrun, hrewritten⟩ := run_resolveNeedsReconciliation hrow hgraph hparked hfree
        .retry (fun _ h => some.inj h ▸ hlegal) now draw graphDraw
      refine ⟨.retry, _, db', hrun, ?_⟩
      rw [hrewritten.unquarantined_iff hproject, hgraph]
      simp [Resolution.target, Resolution.graphState, judge, terminalTaskStates]

/-- The sample task cancelled while its worker was running; the worker completes
its graph, and the reconciler quarantines the pair. -/
def sampleQuarantined : Database :=
  [Operation.startClaim sampleDispatch 110 {} {},
    .graphWrite 1 50 sampleIdentity "thread" .RUNNING none {},
    .cancelTask 20 1 115 {},
    .graphWrite 1 50 sampleIdentity "thread" .COMPLETED none {},
    .reconcile 20 1 120 {}].foldl (perform sampleService) sampleDispatched

theorem sampleDispatched_reachable : Reachable sampleService sampleDispatched :=
  .next sampleLeased_reachable trivial rfl

theorem operator_exit_iff_sample : OperatorExit 20 1 120 {} {} sampleParked := by
  have hproject : (sampleTask sampleParked 1 (by decide)).projectId = 20 := by decide
  have hstate : (sampleTask sampleParked 1 (by decide)).state = .RUNNING := by decide
  have hrow := taskIn_eq_some.mpr ⟨sampleTask_get (by decide), hproject⟩
  obtain ⟨graph, hgraph, hparked⟩ : ∃ graph, sampleParked.graphs.get? 1 = some graph ∧
      graph.state = .NEEDS_RECONCILIATION := ⟨_, rfl, rfl⟩
  have hreach : Reachable sampleService sampleParked :=
    reachable_foldl sampleDispatched_reachable _
  rw [operator_exit_iff sampleService hreach hrow hgraph hparked 120 {} {}, hstate]
  simp

/-- A cancelled task is parked for good: neither resolution commits. -/
theorem quarantined_cancellation_has_no_exit :
    Reachable sampleService sampleQuarantined ∧
      (sampleQuarantined.graphs.get? 1).map GraphExecutionRow.state = some .NEEDS_RECONCILIATION ∧
      ¬ OperatorExit 20 1 130 {} {} sampleQuarantined := by
  refine ⟨reachable_foldl sampleDispatched_reachable _, by decide +kernel, ?_⟩
  rintro ⟨resolution, action, db', hrun, -⟩
  cases resolution with
  | fail => cases hrun
  | retry => cases hrun

end AutoSwe
