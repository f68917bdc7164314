import AutoSwe.Scheduler.Fixpoint

/-!
# What cancels a task

A task is cancelled by an operator, for a dependency that failed, by a
quarantine of a graph row that is not its own, or because its graph row is
`CANCELLED`. `Operation.Spares` says of an operation that it has none of the
first three reasons; without the fourth such an operation does not cancel the
task (`Uncancelled.perform`).
-/

namespace AutoSwe

open Relational Transaction LocalEffect Prog Table Database Option Service Call

def SameView (t : UUID) (db db' : Database) : Prop := db'.view t = db.view t

theorem SameView.refl (db : Database) : SameView t db db := rfl

theorem SameView.trans (h : SameView t a b) (h' : SameView t b c) : SameView t a c :=
  Eq.trans h' h

/-- The task is not cancelled, and its graph row is cancelled only when the task
is settled. -/
def Uncancelled (t : UUID) (db : Database) : Prop :=
  db.taskState t ≠ some .CANCELLED ∧ (db.graphState t = some .CANCELLED → Settled db t)

theorem Uncancelled.congr (h : Uncancelled t db) (hview : SameView t db db') :
    Uncancelled t db' := by
  have hrow : db'.tasks.get? t = db.tasks.get? t := congrArg TaskView.row hview
  have hgraph : db'.graphs.get? t = db.graphs.get? t := congrArg TaskView.graph hview
  simpa only [Uncancelled, Settled, taskState, graphState, hrow, hgraph] using h

theorem Uncancelled.touch (h : Uncancelled t db) (htouch : TaskTouch k db db') (hk : k ≠ t) :
    Uncancelled t db' :=
  h.congr (htouch.frame t (Ne.symm hk))

/-! ## Operations that cancel no task -/

/-- No task row is written in the state `CANCELLED`. -/
def Spared (db db' : Database) : Prop :=
  SameGraphs db db' ∧ ∀ t, db'.tasks.get? t = db.tasks.get? t ∨ db'.taskState t ≠ some .CANCELLED

theorem Spared.refl (db : Database) : Spared db db := ⟨.refl db, fun _ => .inl rfl⟩

theorem Spared.trans (h : Spared a b) (h' : Spared b c) : Spared a c := by
  refine ⟨h.1.trans h'.1, fun t => ?_⟩
  rcases h'.2 t with hrow | hstate
  · simpa only [taskState, hrow] using h.2 t
  · exact .inr hstate

variable (service : SchedulerService)

theorem Call.spares {call : Call} (hgraphs : ¬ call.footprint .graphs)
    (hcancels : ¬ call.footprint (.tasks .CANCELLED)) :
    Spared db ((call.body service).commit db).2 := by
  refine ⟨call.sameGraphs service hgraphs db, fun t => ?_⟩
  rcases call.enters service db t with hrow | ⟨row, hrow, hstate⟩
  · exact .inl hrow
  · refine .inr fun hcancelled => hcancels ?_
    rw [taskState, hrow] at hcancelled
    rwa [some.inj hcancelled] at hstate

/-- The operations whose transactions neither cancel a task nor write a graph
row. -/
def Operation.harmless : Operation → Bool
  | .persistPlan .. | .applyMutation .. | .promoteDependencyReady .. | .claimReady ..
  | .heartbeat .. | .startClaim .. | .reclaimExpired .. | .ambient .. => true
  | .finishClaim _ target _ _ => target ≠ .CANCELLED
  | _ => false

theorem perform_spared {operation : Operation} (h : operation.harmless = true) :
    Spared db (perform service db operation) := by
  refine perform_moves Spared.refl Spared.trans (fun call hcall db => ?_) db
  cases operation with
  | startClaim =>
    rcases hcall with rfl | rfl <;> exact spares service (by simp [footprint])
      (by simp [footprint])
  | promoteDependencyReady =>
    obtain ⟨round, rfl⟩ := hcall
    exact spares service (by simp [footprint]) (by simp [footprint])
  | persistPlan | applyMutation | claimReady | heartbeat | reclaimExpired | ambient =>
    cases hcall
    exact spares service (by simp [footprint]) (by simp [footprint])
  | finishClaim call target =>
    cases hcall
    have htarget : TaskStatus.CANCELLED ≠ target := Ne.symm (of_decide_eq_true h)
    exact spares service (by simp [footprint]) (by simpa [footprint])
  | _ => cases h

theorem Uncancelled.spared (h : Uncancelled t db) (hspared : Spared db db')
    (heffect : TaskEffect P db db') : Uncancelled t db' := by
  refine ⟨?_, fun hgraph => ?_⟩
  · rcases hspared.2 t with hrow | hstate
    · rw [taskState, hrow]
      exact h.1
    · exact hstate
  · rw [graphState, hspared.1] at hgraph
    exact (h.2 hgraph).effect heffect

/-! ## Reconciliation -/

/-- The graph row of the task, if any, is the one of its run. -/
def Matched (t : UUID) (db : Database) : Prop :=
  ∀ task, db.tasks.get? t = some task → db.mismatched task = false

theorem Matched.reconcile (h : Matched t db) (projectId k : UUID) (now : Time) (draw : Draw) :
    Matched t ((AutoSwe.reconcile projectId k now draw).commit db).2 := by
  rcases commit_reconcile projectId k now draw db with hsame | ⟨task, hrow, -, hdone⟩
  · rwa [hsame]
  obtain rfl : task.id = k := key_of_get? (taskIn_eq_some.mp hrow).1
  intro task' htask'
  by_cases hk : t = task.id
  · subst hk
    rw [hdone.row] at htask'
    cases htask'
    rw [hdone.mismatched]
    exact h task (taskIn_eq_some.mp hrow).1
  · have hview := (reconcile_effect projectId task.id now draw db).frame (P := (· = task.id)) hk
    have htask : db.tasks.get? t = some task' := (congrArg TaskView.row hview).symm.trans htask'
    have hgraph : _ = db.graphs.get? t := congrArg TaskView.graph hview
    have hid : task'.id = t := key_of_get? htask
    have hmatched := h task' htask
    rw [mismatched, hid] at hmatched ⊢
    rw [hdone.runs]
    exact (congrArg (Option.any _) hgraph).trans hmatched

/-- A graph row that is its own task's cancels the task only by being
cancelled. -/
theorem judge_spares (hstate : state ≠ .CANCELLED)
    (hgraph : graph = some .CANCELLED → state ∈ terminalTaskStates) (expired : Bool) :
    (judge state graph false expired).stateAfter state ≠ .CANCELLED ∧
      (graph.map (judge state graph false expired).graphAfter = some .CANCELLED →
        state ∈ terminalTaskStates) := by
  cases graph with
  | none => cases state <;> simp_all [judge, ReconciliationAction.stateAfter]
  | some graph =>
    by_cases hterminal : state ∈ terminalTaskStates
    · refine ⟨?_, fun _ => hterminal⟩
      simp only [judge, hterminal, not_true_eq_false, and_false, if_false, if_true,
        Bool.false_eq_true]
      split_ifs <;> simp [ReconciliationAction.stateAfter, hterminal, hstate]
    · have hopen : graph ≠ .CANCELLED := fun h => hterminal (hgraph (congrArg some h))
      simp only [judge, hterminal, hopen, false_and, if_false, Bool.false_eq_true]
      split_ifs <;> simp [ReconciliationAction.stateAfter, ReconciliationAction.graphAfter,
        ReconciliationAction.graphState, hstate, hopen]

theorem Uncancelled.reconcile (h : Uncancelled t db) (hmatched : Matched t db)
    (projectId k : UUID) (now : Time) (draw : Draw) :
    Uncancelled t ((AutoSwe.reconcile projectId k now draw).commit db).2 := by
  have heffect := reconcile_effect projectId k now draw db
  by_cases hk : t = k
  · subst hk
    rcases commit_reconcile projectId t now draw db with hsame | ⟨task, hrow, -, hdone⟩
    · rwa [hsame]
    have hget := (taskIn_eq_some.mp hrow).1
    obtain rfl : task.id = t := key_of_get? hget
    have hstate : db.taskState task.id = some task.state := by
      rw [taskState, hget, map_some]
    have hopen : task.state ≠ .CANCELLED := fun hc => h.1 (hstate.trans (congrArg some hc))
    have hsettled : db.graphState task.id = some .CANCELLED → task.state ∈ terminalTaskStates := by
      intro hgraph
      obtain ⟨found, hfound, hterminal⟩ := h.2 hgraph
      rw [hget] at hfound
      cases hfound
      exact hterminal
    have hspares := judge_spares hopen hsettled (db.leaseExpired now task.id)
    rw [← hmatched task hget] at hspares
    have hdecision : db.decision task now = judge task.state (db.graphState task.id)
        (db.mismatched task) (db.leaseExpired now task.id) := decision_eq_judge db task now
    rw [← hdecision] at hspares
    refine ⟨?_, fun hgraph => ?_⟩
    · rw [hdone.taskState, target_getD]
      exact fun hc => hspares.1 (some.inj hc)
    · rw [hdone.graphState] at hgraph
      have hs : Settled db task.id := ⟨task, hget, hspares.2 hgraph⟩
      exact hs.effect heffect
  · exact h.congr (heffect.frame hk)

/-! ## Dependents of failed tasks, and requested runs -/

/-- No dependency of the task has failed or was cancelled. -/
def Unblocked (t : UUID) (db : Database) : Prop :=
  ∀ task, db.tasks.get? t = some task → ∀ d ∈ task.dependencies, ∀ row,
    db.tasks.get? d = some row → row.state ∉ [TaskStatus.FAILED, .CANCELLED]

theorem Move.dependencies (h : Move completed v v')
    (hv : ∃ row, v.row = some row ∧ row.dependencies = wanted) :
    ∃ row, v'.row = some row ∧ row.dependencies = wanted := by
  obtain ⟨row, hrow, hwanted⟩ := hv
  cases h with
  | create hnew => simp [hnew] at hrow
  | promote hold | drop hold | claim hold | start hold | settle hold =>
    rw [hold] at hrow
    cases hrow
    exact ⟨_, rfl, hwanted⟩
  | _ => exact ⟨row, hrow, hwanted⟩

theorem Unblocked.of_effect (h : Unblocked t db') (heffect : TaskEffect P db db') :
    Unblocked t db := by
  intro task htask d hd row hrow hblocked
  have hkept : ∃ row, (db'.view t).row = some row ∧ row.dependencies = task.dependencies :=
    heffect.view_invariant (I := fun v => ∃ row, v.row = some row ∧
      row.dependencies = task.dependencies) (fun hmove hv => hmove.dependencies hv)
      ⟨task, htask, rfl⟩
  obtain ⟨task', htask', hdependencies⟩ := hkept
  have hterminal : row.state ∈ terminalTaskStates := by
    simp only [List.mem_cons, List.not_mem_nil, or_false] at hblocked
    rcases hblocked with hblocked | hblocked <;> simp [hblocked, terminalTaskStates]
  exact h task' htask' d (hdependencies ▸ hd) row
    (TaskEffect.row_of_settled heffect hrow hterminal) hblocked

theorem cancelBlockedRound_spares (hunblocked : Unblocked t db)
    (h : (cancelBlockedRound limit draws).run db = .ok (count, db')) :
    SameView t db db' := by
  obtain ⟨candidates, db₁, hselect, h⟩ := bind_ok.mp h
  obtain ⟨hsub, rfl⟩ := selectSkipLocked_ok hselect
  have h := after h rfl
  obtain ⟨_, db₃, heach, h⟩ := bind_ok.mp h
  cases h
  -- the task is not among the blocked ones
  have hother : ∀ task ∈ candidates.filter fun task =>
      task.dependencies.any fun d => d ∈ db.terminalAmong (candidates.flatMap TaskRow.dependencies),
      task.id ≠ t := by
    rintro task hmem rfl
    obtain ⟨hcandidate, hblocked⟩ := List.mem_filter.mp hmem
    have hrow := ((stillIn_pending hsub).2 task hcandidate).1
    obtain ⟨d, hd, hterminal⟩ := List.any_eq_true.mp hblocked
    obtain ⟨row, hrow', rfl⟩ := List.mem_map.mp (of_decide_eq_true hterminal)
    obtain ⟨hrow', hstate⟩ := List.mem_filter.mp hrow'
    refine hunblocked task hrow row.id hd row (get?_of_mem hrow') ?_
    simpa using (Bool.and_eq_true_iff.mp hstate).2
  refine Refines.each (I := fun (tasks : List TaskRow) _ => ∀ task ∈ tasks, task.id ≠ t)
    SameView.refl SameView.trans
    (fun task tasks db u db' hI hrun => ⟨?_, fun other hmem => hI other (by simp [hmem])⟩)
    _ hother heach
  obtain ⟨row, -, -, hup⟩ := moveTo_updates hrun
  exact hup.2 t (Ne.symm (hI task (by simp)))

theorem cancelBlockedDependents_spares {limit : Nat} {draws : Nat → UUID → Draw} {db : Database}
    (h : Unblocked t (perform service db (.cancelBlockedDependents limit draws))) :
    SameView t db (perform service db (.cancelBlockedDependents limit draws)) := by
  have hmoves : Unblocked t (perform service db (.cancelBlockedDependents limit draws)) →
      Unblocked t db ∧
        SameView t db (perform service db (.cancelBlockedDependents limit draws)) := by
    refine perform_moves (R := fun db db' => Unblocked t db' → Unblocked t db ∧ SameView t db db')
      (fun db h => ⟨h, .refl db⟩) ?_ ?_ db
    · intro a b c hab hbc hc
      obtain ⟨hb, hview⟩ := hbc hc
      exact ⟨(hab hb).1, (hab hb).2.trans hview⟩
    · rintro _ ⟨round, rfl⟩ db h
      simp only [body, commit_discard] at h ⊢
      have hbefore := h.of_effect
        ((cancelBlockedRound_effect limit (draws round)).commit Effect.refl trivial)
      refine ⟨hbefore, Refines.commit (P := Unblocked t) (R := SameView t) ?_ .refl hbefore⟩
      exact fun _ _ _ hunblocked hrun => cancelBlockedRound_spares hunblocked hrun
  exact (hmoves h).2

def Apart (t runId : UUID) (db : Database) : Prop :=
  ∀ task, db.tasks.get? t = some task → task.runId ≠ runId

theorem Apart.congr (h : Apart t runId db) (hview : SameView t db db') : Apart t runId db' :=
  fun task hrow => h task ((congrArg TaskView.row hview).symm.trans hrow)

theorem cancelRun_spares : (cancelRun runId now draw).Refines (fun _ => True) (SameView t) := by
  intro db resolved db' _ h
  rcases cancelRun_ok h with rfl |
    ⟨run, -, -, -, htasks, hleases, hreservations, hgraphs, hattempts⟩
  · exact .refl _
  · exact view_congr htasks hleases hreservations hgraphs hattempts

theorem cancelRequestedRun_spares (now : Time) (draws : UUID → Draw) (hapart : Apart t runId db) :
    SameView t db (cancelRequestedRun now draws runId db).2 := by
  have hmoves : Moves (SameView t) (do
      each (fun task : TaskRow =>
        transact (cancelTask task.projectId task.id now (draws task.id)))
        (db.openTasksOf runId)
      transact (cancelRun runId now (draws runId)) : Service Database Raised Bool) := by
    refine .bind SameView.trans (.each SameView.refl SameView.trans _ ?_)
      fun _ => .transact SameView.refl cancelRun_spares
    intro task hmem db'
    have hother : t ≠ task.id := by
      rintro rfl
      obtain ⟨hrow, hrun⟩ := List.mem_filter.mp hmem
      exact hapart task (get?_of_mem hrow) (by simpa using (Bool.and_eq_true_iff.mp hrun).1)
    have htouch : TaskTouch task.id db' ((cancelTask task.projectId task.id now
        (draws task.id)).commit db').2 :=
      cancelTask_touch.commit (TaskTouch.refl _)
        trivial
    exact htouch.frame t hother
  exact hmoves db

theorem cancelRunsInTurn_spares {now : Time} {draws : UUID → Draw} {runs : List UUID}
    (hapart : ∀ runId ∈ runs, Apart t runId db) :
    SameView t db (cancelRunsInTurn now draws runs db).2 := by
  induction runs generalizing db with
  | nil => exact .refl db
  | cons runId rest ih =>
    have hhead := cancelRequestedRun_spares now draws (hapart runId (by simp))
    simp only [cancelRunsInTurn, Bind.bind]
    generalize cancelRequestedRun now draws runId db = result at hhead ⊢
    rcases result with ⟨e | resolved, db₁⟩
    · exact hhead
    · have hrest : SameView t db₁ (cancelRunsInTurn now draws rest db₁).2 :=
        ih fun other hmem => (hapart other (by simp [hmem])).congr hhead
      dsimp only
      generalize cancelRunsInTurn now draws rest db₁ = result at hrest ⊢
      rcases result with ⟨e | others, db₂⟩
      · exact hhead.trans hrest
      · exact hhead.trans hrest

def Unrequested (t : UUID) (db : Database) : Prop :=
  ∀ task, db.tasks.get? t = some task → ∀ run, db.runs.get? task.runId = some run →
    run.cancellationRequestedAt = none

theorem cancelRequestedRuns_spares (h : Unrequested t db) :
    SameView t db (cancelRequestedRuns limit now draws db).2 := by
  refine cancelRunsInTurn_spares ?_
  rintro _ hmem task hrow rfl
  obtain ⟨run, hrun, hid⟩ := List.mem_map.mp hmem
  have hlisted := List.mem_of_mem_take hrun
  rw [List.mem_insertionSort] at hlisted
  obtain ⟨hrow', hrequested⟩ := List.mem_filter.mp hlisted
  have hnone := h task hrow run (hid ▸ get?_of_mem hrow')
  simp [hnone] at hrequested

/-! ## All operations -/

/-- No operator cancels the task or its run, no dependency of it fails, and its
graph row is the one of its run; the task's own worker and its operator are left
to others. -/
def Operation.Spares (t : UUID) (db : Database) : Operation → Prop
  | .cancelTask _ k _ _ | .resolveNeedsReconciliation _ k _ _ _ _ | .graphWrite k _ _ _ _ _ _ =>
    k ≠ t
  | .cancelRequestedRuns .. => Unrequested t db
  | .cancelBlockedDependents limit draws =>
    Unblocked t (AutoSwe.cancelBlockedDependents limit draws db).2
  | .reconcile .. | .reconcileDue .. => Matched t db
  | .finishClaim _ target _ _ => target ≠ .CANCELLED
  | _ => True

/-- What the reconciler leaves so of every task, its scan leaves so. -/
theorem reconcileDue_keeps {I : Database → Prop} (service : SchedulerService)
    (h : ∀ projectId k draw db, I db → I ((AutoSwe.reconcile projectId k now draw).commit db).2)
    (hdb : I db) : I (AutoSwe.perform service db (.reconcileDue limit now draws)) := by
  refine perform_moves (R := fun db db' => I db → I db') (fun _ => id) (fun h h' => h' ∘ h) ?_ db
    hdb
  rintro _ ⟨projectId, k, rfl⟩ db hdb
  simp only [body, commit_discard]
  exact h projectId k _ db hdb

theorem Uncancelled.perform (service : SchedulerService)
    (h : Uncancelled t db) (hs : operation.Spares t db) :
    Uncancelled t (AutoSwe.perform service db operation) := by
  have heffect := perform_effect service operation db
  cases operation with
  | cancelTask projectId k now draw =>
    exact h.touch (cancelTask_touch.commit (TaskTouch.refl k) trivial) hs
  | resolveNeedsReconciliation projectId k resolution now draw graphDraw =>
    exact h.touch (resolveNeedsReconciliation_touch.commit (TaskTouch.refl k) trivial) hs
  | graphWrite =>
    simp only [AutoSwe.perform]
    split
    · refine h.congr (commit_cases _ db rfl fun row db' hrun => ?_)
      exact (transitionGraphExecution_updates hrun).2 t (Ne.symm hs)
    · exact h
  | cancelRequestedRuns limit now draws =>
    exact h.congr (cancelRequestedRuns_spares hs)
  | cancelBlockedDependents limit draws =>
    exact h.congr (cancelBlockedDependents_spares service hs)
  | reconcile projectId k now draw => exact h.reconcile hs projectId k now draw
  | reconcileDue limit now draws =>
    refine (reconcileDue_keeps (I := fun db => Matched t db ∧ Uncancelled t db) service ?_
      ⟨hs, h⟩).2
    rintro projectId k draw db ⟨hmatched, h⟩
    exact ⟨hmatched.reconcile projectId k now draw, h.reconcile hmatched projectId k now draw⟩
  | finishClaim call target now draw =>
    have hharmless : (Operation.finishClaim call target now draw).harmless = true :=
      decide_eq_true (p := target ≠ .CANCELLED) hs
    exact h.spared (perform_spared service hharmless) heffect
  | _ => exact h.spared (perform_spared service rfl) heffect

end AutoSwe
