import AutoSwe.Scheduler.Footprints
import AutoSwe.Scheduler.StartClaim

/-!
# An operator's retry

`retry` requeues a parked task and leaves its graph row `CANCELLED` until the
next attempt takes the row over. Until then every reconciliation of the task
cancels it: `retry_cancelled_iff` says exactly which calls do.
-/

namespace AutoSwe

open Relational Transaction LocalEffect LabelledRun Prog Table List Database

def Settled (db : Database) (t : UUID) : Prop :=
  ∃ task, db.tasks.get? t = some task ∧ task.state ∈ terminalTaskStates

def Withdrawn (db : Database) (t : UUID) : Prop :=
  (∃ graph, db.graphs.get? t = some graph ∧ graph.state = .CANCELLED) ∨ Settled db t

theorem TaskEffect.row_of_settled (h : TaskEffect P db db') (hrow : db.tasks.get? t = some task)
    (hterminal : task.state ∈ terminalTaskStates) : db'.tasks.get? t = some task :=
  h.view_invariant (I := fun v => v.row = some task) (j := t)
    (fun hmove hv => hmove.terminal_stays hv hterminal) hrow

theorem Settled.effect (hs : Settled db t) (h : TaskEffect P db db') : Settled db' t := by
  obtain ⟨task, hrow, hterminal⟩ := hs
  exact ⟨task, TaskEffect.row_of_settled h hrow hterminal, hterminal⟩

theorem Withdrawn.effect (hw : Withdrawn db t) (h : TaskEffect P db db')
    (hgraphs : SameGraphs db db') : Withdrawn db' t := by
  rcases hw with ⟨graph, hgraph, hstate⟩ | hs
  · exact .inl ⟨graph, by rw [hgraphs, hgraph], hstate⟩
  · exact .inr (hs.effect h)

/-! ## One reconciliation -/

theorem cancelled_of_open (h : state ∉ terminalTaskStates) :
    .CANCELLED ∈ taskTransitions state := by
  cases state <;> simp_all [terminalTaskStates, taskTransitions]

theorem run_setTaskState (hrow : db.taskIn task.projectId task.id = some task)
    (hlegal : target ∈ taskTransitions task.state) (draw : Draw) :
    (setTaskState task target draw).run db = .ok (task.enter target draw.enteredAt,
      { db.moveTask task target draw with
        tasks := (db.moveTask task target draw).tasks.set
          (task.enter target draw.enteredAt) }) := by
  simp only [setTaskState, run_bind, transitionTask_of_legal hrow hlegal]
  rfl

/-- Reconciling an open task beside a cancelled graph row cancels the task. -/
theorem reconcile_withdrawn (now : Time) (draw : Draw)
    (hrow : db.taskIn projectId t = some task) (hopen : task.state ∉ terminalTaskStates)
    (hgraph : db.graphs.get? t = some graph) (hstate : graph.state = .CANCELLED) :
    ((reconcile projectId t now draw).commit db).2.tasks.get? t =
      some (task.enter .CANCELLED draw.enteredAt) := by
  obtain ⟨hget, hproject⟩ := taskIn_eq_some.mp hrow
  obtain rfl : task.id = t := key_of_get? hget
  subst hproject
  have hdecide : ∀ run lease,
      decideAction task run (some graph) lease now = .GRAPH_TERMINAL_WINS := by
    simp [decideAction, hstate, hopen]
  have hset := run_setTaskState hrow (cancelled_of_open hopen) draw
  -- the claim is dropped and the event published after the move, neither touching the task
  have hrun : ∃ db', (reconcile task.projectId task.id now draw).run db =
      .ok (.GRAPH_TERMINAL_WINS, db') ∧ db'.tasks =
        (db.moveTask task .CANCELLED draw).tasks.set (task.enter .CANCELLED draw.enteredAt) := by
    simp only [reconcile, applyAction, moveIfAny, overwriteIfAny, ReconciliationAction.target,
      ReconciliationAction.graphState, run_bind, run_selectTaskForUpdate, run_query,
      run_selectGraphForUpdate, run_selectLeaseForUpdate, run_dropClaim, run_publish, hrow,
      hgraph, hdecide, hset, reduceCtorEq, if_false, run_pure]
    exact ⟨_, rfl, rfl⟩
  obtain ⟨db', hrun, htasks⟩ := hrun
  rw [commit_of_ok hrun, htasks]
  exact get?_set_self (get?_set_self hget)

theorem reconcile_missing (now : Time) (draw : Draw) (hrow : db.taskIn projectId t = none) :
    ((reconcile projectId t now draw).commit db).2 = db := by
  have hrun : ∃ e, (reconcile projectId t now draw).run db = .error e := by
    simp [reconcile, hrow, noSuchTask]
  obtain ⟨e, hrun⟩ := hrun
  rw [commit_of_error hrun]

theorem reconcile_effect (projectId k : UUID) (now : Time) (draw : Draw) (db : Database) :
    TaskEffect (· = k) db ((reconcile projectId k now draw).commit db).2 :=
  (reconcile_touch.commit (TaskTouch.refl k) trivial).effect rfl

theorem Withdrawn.congr (hw : Withdrawn db t) (hview : db'.view t = db.view t) :
    Withdrawn db' t := by
  have hrow : db'.tasks.get? t = db.tasks.get? t := congrArg TaskView.row hview
  have hgraph : db'.graphs.get? t = db.graphs.get? t := congrArg TaskView.graph hview
  simpa only [Withdrawn, Settled, hrow, hgraph] using hw

theorem Withdrawn.reconcile (hw : Withdrawn db t) (projectId k : UUID) (now : Time)
    (draw : Draw) : Withdrawn ((AutoSwe.reconcile projectId k now draw).commit db).2 t := by
  have heffect := reconcile_effect projectId k now draw db
  by_cases hk : t = k
  · subst hk
    rcases hw with ⟨graph, hgraph, hstate⟩ | hs
    · cases hrow : db.taskIn projectId t with
      | none =>
        rw [reconcile_missing now draw hrow]
        exact .inl ⟨graph, hgraph, hstate⟩
      | some task =>
        by_cases hopen : task.state ∈ terminalTaskStates
        · have hs : Settled db t := ⟨task, (taskIn_eq_some.mp hrow).1, hopen⟩
          exact .inr (hs.effect heffect)
        · exact .inr ⟨_, reconcile_withdrawn now draw hrow hopen hgraph hstate,
            by simp [terminalTaskStates]⟩
    · exact .inr (hs.effect heffect)
  · exact hw.congr (heffect.frame hk)

/-! ## A scan -/

/-- One target of a scan. -/
def reconcileTarget (now : Time) (draws : UUID → Draw) (db : Database) (key : UUID × UUID) :
    Database :=
  ((reconcile key.1 key.2 now (draws key.2)).commit db).2

/-- No target stops the scan, so it reconciles them all in turn. -/
theorem collect_reconcileLogged (now : Time) (draws : UUID → Draw) (targets : List (UUID × UUID))
    (db : Database) : (Service.collect (reconcileLogged now draws) targets db).2 =
      targets.foldl (reconcileTarget now draws) db := by
  induction targets generalizing db with
  | nil => rfl
  | cons key rest ih =>
    rw [foldl_cons, ← ih]
    simp only [Service.collect, reconcileLogged, Service.rescue, Service.transact,
      reconcileTarget, Bind.bind, Pure.pure]
    rcases (reconcile key.1 key.2 now (draws key.2)).commit db with ⟨e | action, db'⟩ <;>
      (dsimp only; split <;> simp_all)

theorem scan_effect (now : Time) (draws : UUID → Draw) (targets : List (UUID × UUID))
    (db : Database) : TaskEffect (fun k => ∃ key ∈ targets, key.2 = k) db
      (targets.foldl (reconcileTarget now draws) db) := by
  induction targets generalizing db with
  | nil => exact Effect.refl _
  | cons key rest ih =>
    have hhead := reconcile_effect key.1 key.2 now (draws key.2) db
    refine (hhead.mono fun k hk => ?_).trans ((ih _).mono fun k hk => ?_)
    · exact ⟨key, mem_cons_self, hk.symm⟩
    · obtain ⟨key', hmem, hk'⟩ := hk
      exact ⟨key', mem_cons_of_mem key hmem, hk'⟩

theorem Withdrawn.scan (hw : Withdrawn db t) (now : Time) (draws : UUID → Draw)
    (targets : List (UUID × UUID)) :
    Withdrawn (targets.foldl (reconcileTarget now draws) db) t := by
  induction targets generalizing db with
  | nil => exact hw
  | cons key rest ih => exact ih (hw.reconcile key.1 key.2 now (draws key.2))

/-- A scan that lists an open task beside a cancelled graph row cancels it. -/
theorem scan_withdrawn (now : Time) (draws : UUID → Draw) (targets : List (UUID × UUID))
    (hrow : db.tasks.get? t = some task) (hopen : task.state ∉ terminalTaskStates)
    (hgraph : db.graphs.get? t = some graph) (hstate : graph.state = .CANCELLED)
    (hlisted : (task.projectId, t) ∈ targets) :
    (targets.foldl (reconcileTarget now draws) db).tasks.get? t =
      some (task.enter .CANCELLED (draws t).enteredAt) := by
  induction targets generalizing db with
  | nil => cases hlisted
  | cons key rest ih =>
    by_cases hkey : key = (task.projectId, t)
    · -- the row is cancelled here, and the rest of the scan leaves it so
      subst hkey
      have hhere := reconcile_withdrawn now (draws t) (taskIn_eq_some.mpr ⟨hrow, rfl⟩)
        hopen hgraph hstate
      exact TaskEffect.row_of_settled (scan_effect now draws rest _) hhere
        (by simp [terminalTaskStates])
    · have hlisted := (mem_cons.mp hlisted).resolve_left (Ne.symm hkey)
      have hview : (reconcileTarget now draws db key).view t = db.view t := by
        by_cases ht : t = key.2
        · have hproject : task.projectId ≠ key.1 := fun hp => hkey (Prod.ext hp.symm ht.symm)
          subst ht
          have hmissing : db.taskIn key.1 key.2 = none := by
            simp [taskIn, hrow, hproject]
          rw [reconcileTarget, reconcile_missing now _ hmissing]
        · exact (reconcile_effect key.1 key.2 now (draws key.2) db).frame ht
      exact ih ((congrArg TaskView.row hview).trans hrow)
        ((congrArg TaskView.graph hview).trans hgraph) hlisted

/-! ## What the reconciler cancels -/

def Cancels (t : UUID) (db db' : Database) : Prop :=
  (∃ task, db.tasks.get? t = some task ∧ task.state ≠ .CANCELLED) ∧
    ∃ task, db'.tasks.get? t = some task ∧ task.state = .CANCELLED

instance : Decidable (Cancels t db db') :=
  decidable_of_iff
    ((db.tasks.get? t).any (fun task => task.state ≠ .CANCELLED) ∧
      (db'.tasks.get? t).any fun task => task.state = .CANCELLED)
    (by simp [Cancels, Option.any_eq_true])

theorem Cancels.open (h : Cancels t db db') (heffect : TaskEffect P db db') :
    ∃ task, db.tasks.get? t = some task ∧ task.state ∉ terminalTaskStates := by
  obtain ⟨⟨task, hrow, hother⟩, moved, hmoved, hcancelled⟩ := h
  refine ⟨task, hrow, fun hterminal => hother ?_⟩
  have hsame := TaskEffect.row_of_settled heffect hrow hterminal
  rw [hmoved] at hsame
  cases hsame
  exact hcancelled

theorem not_cancels_of_row (hrow : db'.tasks.get? t = db.tasks.get? t) : ¬ Cancels t db db' := by
  rintro ⟨⟨task, htask, hother⟩, moved, hmoved, hcancelled⟩
  rw [hrow, htask] at hmoved
  cases hmoved
  exact hother hcancelled

theorem cancels_of_row (hrow : db.tasks.get? t = some task)
    (hopen : task.state ∉ terminalTaskStates)
    (hmoved : db'.tasks.get? t = some (task.enter .CANCELLED now)) : Cancels t db db' := by
  refine ⟨⟨task, hrow, fun hcancelled => hopen ?_⟩, _, hmoved, rfl⟩
  simp [hcancelled, terminalTaskStates]

theorem Withdrawn.graph (hw : Withdrawn db t) (hrow : db.tasks.get? t = some task)
    (hopen : task.state ∉ terminalTaskStates) :
    ∃ graph, db.graphs.get? t = some graph ∧ graph.state = .CANCELLED := by
  refine hw.resolve_right ?_
  rintro ⟨row, hget, hterminal⟩
  rw [hrow] at hget
  cases hget
  exact hopen hterminal

theorem reconcile_cancels_iff (hw : Withdrawn db t) :
    Cancels t db ((reconcile projectId k now draw).commit db).2 ↔
      k = t ∧ ∃ task, db.taskIn projectId t = some task ∧ task.state ∉ terminalTaskStates := by
  have heffect := reconcile_effect projectId k now draw db
  constructor
  · intro hcancels
    obtain ⟨task, hrow, hopen⟩ := hcancels.open heffect
    have hk : k = t := by
      by_contra hk
      exact not_cancels_of_row (congrArg TaskView.row (heffect.frame (Ne.symm hk))) hcancels
    subst hk
    refine ⟨rfl, task, ?_, hopen⟩
    cases htask : db.taskIn projectId k with
    | none =>
      rw [reconcile_missing now draw htask] at hcancels
      exact absurd hcancels (not_cancels_of_row rfl)
    | some found =>
      rw [(taskIn_eq_some.mp htask).1] at hrow
      exact hrow
  · rintro ⟨rfl, task, htask, hopen⟩
    have hrow := (taskIn_eq_some.mp htask).1
    obtain ⟨graph, hgraph, hstate⟩ := hw.graph hrow hopen
    exact cancels_of_row hrow hopen (reconcile_withdrawn now draw htask hopen hgraph hstate)

theorem mem_inFlight {db : Database} (h : task ∈ db.inFlight now limit) :
    db.tasks.get? task.id = some task ∧ task.state ∉ terminalTaskStates := by
  have hmem := mem_of_mem_take h
  simp only [mem_insertionSort, mem_filter, Bool.and_eq_true, Bool.or_eq_true,
    decide_eq_true_eq] at hmem
  obtain ⟨hrow, hstate, _⟩ := hmem
  refine ⟨get?_of_mem hrow, ?_⟩
  rcases hstate with hstate | hstate <;> simp [hstate, terminalTaskStates]

theorem mem_settledButDivergent {db : Database} (h : task ∈ db.settledButDivergent limit) :
    db.tasks.get? task.id = some task ∧ task.state ∈ terminalTaskStates := by
  have hmem := mem_of_mem_take h
  simp only [mem_insertionSort, mem_filter, Option.any_eq_true] at hmem
  obtain ⟨hrow, graph, _, hdivergent⟩ := hmem
  refine ⟨get?_of_mem hrow, ?_⟩
  simp only [divergent, Bool.or_eq_true, Bool.and_eq_true, decide_eq_true_eq] at hdivergent
  simp only [terminalTaskStates, mem_cons, not_mem_nil, or_false]
  tauto

theorem mem_reconcileTargets {db : Database} {key : UUID × UUID} :
    key ∈ db.reconcileTargets now limit ↔
      ∃ task, (task ∈ db.inFlight now limit ∨ task ∈ db.settledButDivergent limit) ∧
        (task.projectId, task.id) = key := by
  simp only [reconcileTargets, mem_reverse, mem_dedup, mem_map,
    mem_append]

/-- While the graph row is cancelled, a scan cancels exactly the tasks in flight
that it reaches. -/
theorem reconcileDue_cancels_iff (hw : Withdrawn db t) :
    Cancels t db (reconcileDue limit now draws db).2 ↔
      ∃ task ∈ db.inFlight now limit, task.id = t := by
  have hscan : (reconcileDue limit now draws db).2 =
      (db.reconcileTargets now limit).foldl (reconcileTarget now draws) db :=
    collect_reconcileLogged now draws (db.reconcileTargets now limit) db
  have heffect := scan_effect now draws (db.reconcileTargets now limit) db
  rw [hscan]
  constructor
  · intro hcancels
    obtain ⟨row, hrow, hopen⟩ := hcancels.open heffect
    by_contra hnone
    refine not_cancels_of_row (congrArg TaskView.row (heffect.frame ?_)) hcancels
    rintro ⟨key, hkey, ht⟩
    obtain ⟨task, hlisted, rfl⟩ := mem_reconcileTargets.mp hkey
    subst ht
    rcases hlisted with hlisted | hlisted
    · exact hnone ⟨task, hlisted, rfl⟩
    · -- the second list holds tasks that are settled already
      obtain ⟨hget, hterminal⟩ := mem_settledButDivergent hlisted
      rw [hrow] at hget
      cases hget
      exact hopen hterminal
  · rintro ⟨task, hlisted, rfl⟩
    obtain ⟨hrow, hopen⟩ := mem_inFlight hlisted
    obtain ⟨graph, hgraph, hstate⟩ := hw.graph hrow hopen
    exact cancels_of_row hrow hopen (scan_withdrawn now draws _ hrow hopen hgraph hstate
      (mem_reconcileTargets.mpr ⟨task, .inl hlisted, rfl⟩))

/-! ## Runs after a retry -/

/-- What may happen between a retry and the rollover, cancellations apart. -/
def Operation.afterRetry : Operation → Bool
  | .claimReady .. | .startClaim .. | .reclaimExpired .. | .reconcile .. | .reconcileDue ..
  | .graphWrite .. => true
  | _ => false

def Operation.byReconciler : Operation → Bool
  | .reconcile .. | .reconcileDue .. => true
  | _ => false

/-- The reconciler gets to the task: it is reconciled by name while it is open,
or is among the tasks in flight that a scan lists. -/
def Operation.Hits (t : UUID) (db : Database) : Operation → Prop
  | .reconcile projectId k _ _ =>
    k = t ∧ ∃ task, db.taskIn projectId t = some task ∧ task.state ∉ terminalTaskStates
  | .reconcileDue limit now _ => ∃ task ∈ db.inFlight now limit, task.id = t
  | _ => False

def Awaiting (t : UUID) (db₁ db : Database) : Prop :=
  (db.graphs.get? t).map GraphExecutionRow.threadId =
    (db₁.graphs.get? t).map GraphExecutionRow.threadId

instance : Decidable (Awaiting t db₁ db) := inferInstanceAs (Decidable (_ = _))

variable (service : SchedulerService)

/-- The states between the retry that left `db₁` and the rollover. -/
def AwaitingRun (t : UUID) (db₁ : Database) : Database → Prop :=
  Reach (fun db (operation : Operation) => some (perform service db operation))
    (fun db operation => operation.afterRetry = true ∧ Awaiting t db₁ db) db₁

/-- A graph write moves a cancelled row only by giving it another thread. -/
theorem Withdrawn.graphWrite (hw : Withdrawn db t)
    (h : (transitionGraphExecution k identity threadId target checkpointId draw).run db =
      .ok (row, db')) (hthread : Awaiting t db db') : Withdrawn db' t := by
  obtain ⟨hwrite, hkey, -, audit, outbox, durations, rfl⟩ := transitionGraphExecution_ok h
  rcases hw with ⟨graph, hgraph, hstate⟩ | hs
  · by_cases hk : t = k
    · subst hk
      have hnew : (db.graphs.put row).get? t = some row := by rw [get?_put, if_pos hkey.symm]
      refine .inl ⟨row, hnew, ?_⟩
      simp only [Awaiting, hnew, hgraph, Option.map_some, Option.some.injEq] at hthread
      rw [hgraph] at hwrite
      cases hwrite with
      | rollover hother _ hrow => exact absurd (hthread.symm.trans hrow) hother
      | touch _ _ hrow =>
        obtain ⟨checkpointId, rfl⟩ := hrow
        exact hstate
      | advance _ hlegal => simp [hstate, graphExecutionTransitions] at hlegal
    · refine .inl ⟨graph, ?_, hstate⟩
      rw [← hgraph]
      exact (get?_put ..).trans (if_neg (hkey ▸ hk))
  · exact .inr hs

theorem Withdrawn.perform (hw : Withdrawn db t)
    (hop : operation.afterRetry = true)
    (hthread : Awaiting t db (AutoSwe.perform service db operation)) :
    Withdrawn (AutoSwe.perform service db operation) t := by
  have heffect := perform_effect service operation db
  cases operation with
  | claimReady | startClaim | reclaimExpired =>
    exact hw.effect heffect (perform_graphs service _ rfl db)
  | reconcile projectId k now draw => exact hw.reconcile projectId k now draw
  | reconcileDue limit now draws =>
    have hscan := hw.scan now draws (db.reconcileTargets now limit)
    rwa [← collect_reconcileLogged] at hscan
  | graphWrite k attemptId identity threadId target checkpointId draw =>
    simp only [AutoSwe.perform] at hthread ⊢
    split at hthread <;> rename_i hadmitted
    · rw [if_pos hadmitted]
      cases hrun :
        (transitionGraphExecution k identity threadId target checkpointId draw).run db with
      | error e =>
        rw [commit_of_error hrun]
        exact hw
      | ok result =>
        rw [commit_of_ok hrun] at hthread ⊢
        exact hw.graphWrite hrun hthread
    · rw [if_neg hadmitted]
      exact hw
  | _ => cases hop

theorem resolve_retry_withdrawn
    (h : (resolveNeedsReconciliation projectId t .retry now draw graphDraw).run db =
      .ok (action, db')) : Withdrawn db' t := by
  obtain ⟨task, graph, settled, db₁, moved, db₂, hrow, -, -, hsettled, hmoved, hreport⟩ :=
    resolveNeedsReconciliation_ok h
  obtain rfl : task.id = t := key_of_get? hrow
  obtain ⟨hwrite, hkey, -, audit, outbox, durations, rfl⟩ := transitionGraphExecution_ok hsettled
  have hsame : SameGraphs _ db₂ := (Audits.moveIfAny_ok hmoved).2.1
  cases hreport
  refine .inl ⟨settled, ?_, hwrite.state⟩
  change db₂.graphs.get? task.id = some settled
  rw [hsame, get?_put, if_pos hkey.symm]

/-- Between an operator's retry and the rollover of the graph row, the reconciler
cancels the task exactly when it gets to it. -/
theorem retry_cancelled_iff (service : SchedulerService)
    (hretry : (resolveNeedsReconciliation projectId t .retry now draw graphDraw).run db₀ =
      .ok (action, db₁)) (hrun : AwaitingRun service t db₁ db) (hwait : Awaiting t db₁ db)
    (operation : Operation) (hop : operation.byReconciler = true) :
    Cancels t db (perform service db operation) ↔ operation.Hits t db := by
  have hinvariant : Awaiting t db₁ db → Withdrawn db t := by
    refine hrun.invariant (I := fun db => Awaiting t db₁ db → Withdrawn db t)
      (fun _ => resolve_retry_withdrawn hretry) ?_
    intro before after event hbefore hevent hstep hafter
    cases hstep
    exact (hbefore hevent.2).perform service hevent.1 (hafter.trans hevent.2.symm)
  have hw := hinvariant hwait
  cases operation with
  | reconcile projectId k now draw => exact reconcile_cancels_iff hw
  | reconcileDue limit now draws => exact reconcileDue_cancels_iff hw
  | _ => cases hop

/-- The first attempt of the sample task ended with an unknown outcome. -/
def sampleParked : Database :=
  [Operation.startClaim sampleDispatch 110 {} {},
    .graphWrite 1 50 sampleIdentity "thread" .RUNNING none {},
    .graphWrite 1 50 sampleIdentity "thread" .NEEDS_RECONCILIATION none {}].foldl
      (perform sampleService) sampleDispatched

def sampleRetried : Database :=
  perform sampleService sampleParked (.resolveNeedsReconciliation 20 1 .retry 120 {} {})

/-- The requeued task leased again, its next attempt not started yet. -/
def sampleRedispatched : Database :=
  perform sampleService sampleRetried (.claimReady "dispatcher" 5 130 fun _ => { rowId := 8 })

theorem sampleRetried_run :
    (resolveNeedsReconciliation 20 1 .retry 120 {} {}).run sampleParked =
      .ok (.GRAPH_TERMINAL_WINS, sampleRetried) := by
  rfl

/-- A scan between the retry and the next dispatch leaves the task. -/
theorem retry_cancelled_iff_sample :
    ¬ Cancels 1 sampleRetried
      (perform sampleService sampleRetried (.reconcileDue 32 125 fun _ => {})) := by
  rw [retry_cancelled_iff sampleService sampleRetried_run .start rfl _ rfl]
  change ¬ ∃ task ∈ sampleRetried.inFlight 125 32, task.id = 1
  decide

/-- A scan between the next dispatch and its first graph write cancels the task. -/
theorem retry_cancelled_by_scan :
    Reachable sampleService sampleParked ∧
      (resolveNeedsReconciliation 20 1 .retry 120 {} {}).run sampleParked =
        .ok (.GRAPH_TERMINAL_WINS, sampleRetried) ∧
      AwaitingRun sampleService 1 sampleRetried sampleRedispatched ∧
      Awaiting 1 sampleRetried sampleRedispatched ∧
      Cancels 1 sampleRedispatched
        (perform sampleService sampleRedispatched (.reconcileDue 32 131 fun _ => {})) := by
  have hreachable : Reachable sampleService sampleDispatched :=
    .next sampleLeased_reachable trivial rfl
  refine ⟨reachable_foldl hreachable _, sampleRetried_run, .next .start ⟨rfl, rfl⟩ rfl, ?_, ?_⟩
  · decide +kernel
  · decide +kernel

end AutoSwe
