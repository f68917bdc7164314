import AutoSwe.Worker.LostLease

/-!
# A finished pair

A task and its graph row that are both `COMPLETED` are finished. The task stays
so by its lifecycle. The graph row stays so as well, except that the `RUNNING`
persist of another attempt takes it over: the worker of that attempt does not
look at the task before it records that it prepares (`finished_pair_restarted`).
-/

namespace AutoSwe

open Relational Transaction Coroutine LabelledRun Table Database Option Fleet Prod

def Finished (t : UUID) (db : Database) : Prop :=
  db.taskState t = some .COMPLETED ∧ db.graphState t = some .COMPLETED

/-- The reconciler meets the finished pair with the row of its run; the graph
writes are left to the workers. -/
def Operation.LeavesPair (t : UUID) (db : Database) : Operation → Prop
  | .reconcile .. | .reconcileDue .. => Finished t db → Matched t db
  | .graphWrite k _ _ _ _ _ _ => k ≠ t
  | _ => True

/-- A worker records `RUNNING` on a finished pair only on the thread that the
row is on. -/
def LeavesPair (t : UUID) (s : Workers) : WorkerEvent → Prop
  | .environment operation => operation.LeavesPair t s.store
  | .resume i input => ∀ claim identity checkpointId next,
      s.procs i = some (claim, .await (.persistState identity .RUNNING checkpointId) next) →
        identity.taskId = t → input.failure = none → Finished t s.store →
          ∃ row, s.store.graphs.get? t = some row ∧ row.threadId = identity.threadId
  | _ => True

/-- The pair is finished, and its execution is the given one. -/
def FinishedOn (t : UUID) (thread : String) (db : Database) : Prop :=
  db.taskState t = some .COMPLETED ∧ db.pointer t = some (thread, .COMPLETED)

section
variable {thread : String}

theorem FinishedOn.finished (h : FinishedOn t thread db) : Finished t db := by
  refine ⟨h.1, ?_⟩
  obtain ⟨row, hrow, hpointer⟩ := map_eq_some_iff.mp h.2
  rw [graphState, hrow, map_some]
  exact congrArg some (congrArg snd hpointer)

theorem FinishedOn.graph (h : FinishedOn t thread db) :
    ∃ row, db.graphs.get? t = some row ∧ row.threadId = thread ∧ row.state = .COMPLETED := by
  obtain ⟨row, hrow, hpointer⟩ := map_eq_some_iff.mp h.2
  exact ⟨row, hrow, congrArg fst hpointer, congrArg snd hpointer⟩

/-- The task row stays by its lifecycle, so the graph row is all there is to
look at. -/
theorem FinishedOn.effect (h : FinishedOn t thread db) (heffect : TaskEffect P db db')
    (hpointer : db'.pointer t = db.pointer t) : FinishedOn t thread db' := by
  refine ⟨?_, hpointer.trans h.2⟩
  obtain ⟨task, hrow, hstate⟩ := map_eq_some_iff.mp h.1
  have hkept := TaskEffect.row_of_settled heffect hrow (by simp [hstate, terminalTaskStates])
  rw [taskState, hkept, map_some, hstate]

/-- No write under the row's own thread leaves `COMPLETED`. -/
theorem FinishedOn.graphWrite (h : FinishedOn t thread db)
    (hwrite : (transitionGraphExecution k identity other target checkpointId draw).run db =
      .ok (row, db')) (hsame : k = t → target = .RUNNING → other = thread) :
    FinishedOn t thread db' := by
  obtain ⟨hgraph, hkey, -, audit, outbox, durations, rfl⟩ := transitionGraphExecution_ok hwrite
  refine ⟨h.1, ?_⟩
  by_cases hk : k = t
  · subst hk
    obtain ⟨old, hold, hthread, hstate⟩ := h.graph
    rw [hold] at hgraph
    rw [pointer, get?_put, if_pos hkey.symm, map_some]
    cases hgraph with
    | rollover hother htarget => exact absurd (hthread.trans (hsame rfl htarget).symm) hother
    | touch hsame hold' hrow =>
      obtain ⟨c, rfl⟩ := hrow
      simp only [hthread, hstate]
    | advance _ hlegal =>
      rw [hstate] at hlegal
      cases hlegal
  · have hother : t ≠ row.taskId := fun ht => hk (hkey.symm.trans ht.symm)
    rw [pointer, get?_put, if_neg hother]
    exact h.2

theorem FinishedOn.reconcile (h : FinishedOn t thread db) (hmatched : Matched t db)
    (projectId k : UUID) (now : Time) (draw : Draw) :
    FinishedOn t thread ((AutoSwe.reconcile projectId k now draw).commit db).2 := by
  have heffect := reconcile_effect projectId k now draw db
  refine h.effect heffect ?_
  by_cases hk : t = k
  · subst hk
    rcases commit_reconcile projectId t now draw db with hsame | ⟨task, hrow, hact, -⟩
    · rw [hsame]
    refine absurd ?_ hact
    have hget := (taskIn_eq_some.mp hrow).1
    obtain rfl : task.id = t := key_of_get? hget
    obtain ⟨htask, hgraph⟩ := h.finished
    have hstate : task.state = .COMPLETED := by
      rw [taskState, hget] at htask
      exact Option.some.inj htask
    rw [graphState] at hgraph
    rw [decision_eq_judge, hstate, hgraph, hmatched task hget]
    simp [judge, terminalTaskStates, terminalGraphStates]
  · exact congrArg (Option.map _) (congrArg TaskView.graph (heffect.frame hk))

theorem FinishedOn.perform (service : SchedulerService)
    (h : FinishedOn t thread db) (hs : operation.LeavesPair t db) :
    FinishedOn t thread (AutoSwe.perform service db operation) := by
  have heffect := perform_effect service operation db
  cases operation with
  | reconcile projectId k now draw => exact h.reconcile (hs h.finished) projectId k now draw
  | reconcileDue limit now draws =>
    refine (reconcileDue_keeps (I := fun db => Matched t db ∧ FinishedOn t thread db) service ?_
      ⟨hs h.finished, h⟩).2
    rintro projectId k draw db ⟨hmatched, h⟩
    exact ⟨hmatched.reconcile projectId k now draw, h.reconcile hmatched projectId k now draw⟩
  | resolveNeedsReconciliation projectId k resolution now draw graphDraw =>
    refine h.effect heffect ?_
    by_cases hk : t = k
    · subst hk
      -- a completed row is not parked, so the resolution raises
      simp only [AutoSwe.perform, Prog.commit]
      split
      · rename_i action db' hrun
        obtain ⟨-, parked, -, -, -, -, -, hparked, hstate, -⟩ := resolveNeedsReconciliation_ok hrun
        obtain ⟨row, hrow, -, hcompleted⟩ := h.graph
        rw [hrow] at hparked
        cases hparked
        rw [hcompleted] at hstate
        cases hstate
      · rfl
    · have htouch : TaskTouch k db ((resolveNeedsReconciliation projectId k resolution now draw
          graphDraw).commit db).2 :=
        resolveNeedsReconciliation_touch.commit
          (TaskTouch.refl k) trivial
      exact congrArg (Option.map _) (congrArg TaskView.graph (htouch.frame t hk))
  | graphWrite =>
    simp only [AutoSwe.perform]
    split
    · exact Prog.commit_cases _ db h fun row db' hrun => h.graphWrite hrun (absurd · hs)
    · exact h
  | _ => exact h.effect heffect (pointer_of_sameGraphs (perform_graphs service _ rfl db) t)

end

/-- Once a pair is finished, neither its task nor the state or the thread of its
graph row changes, in every run in which no other attempt records `RUNNING` on
it. -/
theorem finished_pair_stays (service : SchedulerService) (uuid5 : UUID → String → UUID)
    (agentSpecHash : String) {s s' : Workers}
    (hreach : Reach (step (workers service uuid5 agentSpecHash)) (fun _ _ => True)
      { store := db } s)
    (hfinished : Finished t s.store)
    (hlater : Reach (step (workers service uuid5 agentSpecHash)) (LeavesPair t) s s') :
    s'.store.taskState t = s.store.taskState t ∧ s'.store.pointer t = s.store.pointer t := by
  obtain ⟨htask, hgraph⟩ := hfinished
  obtain ⟨row, hrow, hstate⟩ := map_eq_some_iff.mp hgraph
  have hstart : FinishedOn t row.threadId s.store :=
    ⟨htask, by rw [pointer, hrow, map_some, hstate]⟩
  have hkept : Reach (step (workers service uuid5 agentSpecHash)) (fun _ _ => True)
      { store := db } s' ∧ FinishedOn t row.threadId s'.store := by
    induction hlater with
    | start => exact ⟨hreach, hstart⟩
    | @next s₁ s₂ e _ hpermitted hstep ih =>
      obtain ⟨hbefore, ih⟩ := ih
      refine ⟨.next hbefore trivial hstep, ?_⟩
      have hwrite := workers_step hbefore hstep
      generalize s₂.store = store at hwrite
      cases hwrite with
      | none => exact ih
      | environment operation he =>
        subst he
        exact ih.perform service hpermitted
      | startClaim => exact ih.perform service trivial
      | finishClaim => exact ih.perform service trivial
      | persistState i input claim identity state checkpointId next he hproc hfailure =>
        subst he
        refine commit_persistState identity state checkpointId input.draw ih fun hwritten => ?_
        refine ih.graphWrite hwritten ?_
        rintro rfl rfl
        obtain ⟨found, hfound, hthread⟩ :=
          hpermitted claim identity checkpointId next hproc rfl hfailure ih.finished
        obtain ⟨current, hcurrent, hcurrentThread, -⟩ := ih.graph
        rw [hfound] at hcurrent
        cases hcurrent
        exact hthread.symm.trans hcurrentThread
      | park k draw =>
        exact commit_parkUncertain k draw ih fun hwritten => ih.graphWrite hwritten (by simp)
  exact ⟨hkept.2.1.trans hstart.1.symm, hkept.2.2.trans hstart.2.symm⟩

/-- The second worker is admitted while the first still runs its graph; that
graph completes and the reconciler finalizes the task. -/
def sampleFinalized : List WorkerEvent :=
  sampleOverrun ++ [sampleReclaim, .spawn 2 (sampleClaim 8), .resume 2 { now := 151 },
    .resume 1 {}, .resume 1 {}, .resume 1 {}, .environment (.reconcile 20 1 152 {})]

/-- The second worker is cancelled before it records that it prepares. -/
theorem finished_pair_stays_sample : ∃ s s' : Workers, Finished 1 s.store ∧
    sampleStep s (.resume 2 { failure := some .cancelled }) = some s' ∧
      s'.store.taskState 1 = s.store.taskState 1 ∧
      s'.store.pointer 1 = s.store.pointer 1 := by
  obtain ⟨s, hreach, hfinished, hstep⟩ : ∃ s : Workers,
      Reach sampleStep (fun _ _ => True) { store := sampleDispatched } s ∧ Finished 1 s.store ∧
        (sampleStep s (.resume 2 { failure := some .cancelled })).isSome :=
    ⟨_, .run sampleFinalized (fun _ _ _ => trivial) (by decide +kernel),
      ⟨by decide +kernel, by decide +kernel⟩, by decide +kernel⟩
  refine ⟨s, _, hfinished, eq_some_get hstep, finished_pair_stays sampleService sampleUuid5 "spec"
    hreach hfinished (.next .start ?_ (eq_some_get hstep))⟩
  intro claim identity checkpointId next _ _ hfailure
  cases hfailure

/-- The second worker records that it prepares, and the completed row runs
again on its thread. -/
theorem finished_pair_restarted :
    Reachable sampleService sampleDispatched ∧ ∃ s s' : Workers,
      Reach sampleStep (fun _ _ => True) { store := sampleDispatched } s ∧
      Finished 1 s.store ∧ Matched 1 s.store ∧
      sampleStep s (.resume 2 {}) = some s' ∧
      s.store.pointer 1 = some (threadId 40 1 (attemptOf sampleUuid5 1 9), .COMPLETED) ∧
      s'.store.pointer 1 = some (threadId 40 1 (attemptOf sampleUuid5 1 8), .RUNNING) :=
  ⟨.next sampleLeased_reachable trivial rfl, _, _,
    .run sampleFinalized (fun _ _ _ => trivial) (by decide +kernel),
    ⟨by decide +kernel, by decide +kernel⟩, matched_of_check (by decide +kernel),
    eq_some_get (by decide +kernel), by decide +kernel, by decide +kernel⟩

/-- A task that has ended is never written again, whatever is still under way. -/
theorem settled_task_stays {s s' : Workers}
    (hreach : Reach (step (workers service uuid5 agentSpecHash)) permitted { store := db } s)
    (hrow : s.store.tasks.get? t = some row) (hterminal : row.state ∈ terminalTaskStates)
    (hlater : Reach (step (workers service uuid5 agentSpecHash)) permitted s s') :
    s'.store.tasks.get? t = some row := by
  refine (Reach.invariant (I := fun s => Reach _ permitted { store := db } s ∧
    s.store.tasks.get? t = some row) ⟨hreach, hrow⟩ ?_ hlater).2
  rintro s s' e ⟨hbefore, ih⟩ hok hstep
  refine ⟨.next hbefore hok hstep, ?_⟩
  have hwrite := workers_step hbefore hstep
  generalize s'.store = store at hwrite
  cases hwrite with
  | none => exact ih
  | persistState =>
    refine commit_persistState (I := (·.tasks.get? t = some row)) _ _ _ _ ih fun hrun => ?_
    obtain ⟨-, -, -, audit, outbox, durations, rfl⟩ := transitionGraphExecution_ok hrun
    exact ih
  | park =>
    refine commit_parkUncertain (I := (·.tasks.get? t = some row)) _ _ ih fun hrun => ?_
    obtain ⟨-, -, -, audit, outbox, durations, rfl⟩ := transitionGraphExecution_ok hrun
    exact ih
  | _ => exact TaskEffect.row_of_settled (perform_effect ..) ih hterminal

theorem settled_task_stays_sample : ∃ s s' : Workers, sampleStep s (.resume 2 {}) = some s' ∧
    s'.store.taskState 1 = some .COMPLETED := by
  obtain ⟨s, hreach, hstate, hstep⟩ : ∃ s : Workers,
      Reach sampleStep (fun _ _ => True) { store := sampleDispatched } s ∧
        s.store.taskState 1 = some .COMPLETED ∧ (sampleStep s (.resume 2 {})).isSome :=
    ⟨_, .run sampleFinalized (fun _ _ _ => trivial) (by decide +kernel), by decide +kernel,
      by decide +kernel⟩
  obtain ⟨row, hrow, hstate⟩ := map_eq_some_iff.mp hstate
  have hstays := settled_task_stays hreach hrow (by simp [hstate, terminalTaskStates])
    (.next .start trivial (eq_some_get hstep))
  exact ⟨s, _, eq_some_get hstep, by rw [taskState, hstays, map_some, hstate]⟩

end AutoSwe
