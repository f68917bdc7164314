import AutoSwe.Worker.LostLease

/-!
# Parked rows

A tool call whose outcome is unknown parks the graph row of its task at `NEEDS_RECONCILIATION` for
an operator to decide. The execution that made the call goes on, and the runtime's next persist of
the same thread is a legal transition away from that state (`parked_row_overwritten`). Otherwise the
row is left only by the operator or by another attempt (`parked_left_by_decision`).
-/

namespace AutoSwe

open Relational Transaction Coroutine LabelledRun Table Database Option Fleet

/-- The row is parked, at the given execution. -/
def ParkedOn (t : UUID) (thread : String) (db : Database) : Prop :=
  db.pointer t = some (thread, .NEEDS_RECONCILIATION)

def Database.SparesParked (db : Database) (t : UUID) (thread : String)
    (target : GraphExecutionState) : Prop :=
  ParkedOn t thread db → target = .NEEDS_RECONCILIATION

def Operation.SparesParked (db : Database) : Operation → Prop
  | .graphWrite k _ _ thread target _ _ => db.SparesParked k thread target
  | _ => True

def SparesParked (s : Workers) : WorkerEvent → Prop
  | .environment operation => operation.SparesParked s.store
  | .resume i input => ∀ claim identity state checkpointId next,
      s.procs i = some (claim, .await (.persistState identity state checkpointId) next) →
        input.failure = none → s.store.SparesParked identity.taskId identity.threadId state
  | _ => True

/-- The operator's decision about a parked task. -/
def Operation.Resolves (t : UUID) : Operation → Prop
  | .resolveNeedsReconciliation _ k _ _ _ _ => k = t
  | _ => False

def Resolved (t : UUID) : WorkerEvent → Prop
  | .environment operation => operation.Resolves t
  | _ => False

def RolledOver (t : UUID) (db db' : Database) : Prop :=
  ∃ old row, db.graphs.get? t = some old ∧ db'.graphs.get? t = some row ∧
    row.threadId ≠ old.threadId ∧ row.state = .RUNNING

section
variable {thread : String}

theorem ParkedOn.graph (h : ParkedOn t thread db) :
    ∃ row, db.graphs.get? t = some row ∧ row.threadId = thread ∧
      row.state = .NEEDS_RECONCILIATION := by
  obtain ⟨row, hrow, hpointer⟩ := map_eq_some_iff.mp h
  exact ⟨row, hrow, congrArg Prod.fst hpointer, congrArg Prod.snd hpointer⟩

theorem ParkedOn.graphWrite (h : ParkedOn t thread db) (hspared : db.SparesParked k other target)
    (hwrite : (transitionGraphExecution k identity other target checkpointId draw).run db =
      .ok (row, db')) : ParkedOn t thread db' ∨ RolledOver t db db' := by
  obtain ⟨hgraph, hkey, -, audit, outbox, durations, rfl⟩ := transitionGraphExecution_ok hwrite
  by_cases hk : k = t
  · subst hk
    obtain ⟨old, hold, hthread, hstate⟩ := h.graph
    have hnew : (db.graphs.put row).get? k = some row := by
      rw [get?_put, if_pos hkey.symm]
    rw [hold] at hgraph
    cases hgraph with
    | rollover hother htarget hthread' hstate' =>
      refine .inr ⟨old, row, hold, hnew, ?_, hstate'.trans htarget⟩
      rw [hthread']
      exact Ne.symm hother
    | touch hsame hold' hrow =>
      obtain ⟨c, rfl⟩ := hrow
      refine .inl ?_
      rw [ParkedOn, pointer, hnew]
      simp [hthread, hstate]
    | advance hsame hlegal =>
      -- the transition is legal, but the write spares the row
      obtain rfl : other = thread := hsame.symm.trans hthread
      rw [hspared h, hstate] at hlegal
      simp [graphExecutionTransitions] at hlegal
  · have hother : t ≠ row.taskId := fun ht => hk (hkey.symm.trans ht.symm)
    refine .inl ?_
    rw [ParkedOn, pointer, get?_put, if_neg hother]
    exact h

/-- The reconciler leaves a parked row to the operator. -/
theorem ParkedOn.reconcile (h : ParkedOn t thread db) (projectId k : UUID) (now : Time)
    (draw : Draw) : ParkedOn t thread ((AutoSwe.reconcile projectId k now draw).commit db).2 := by
  by_cases hk : t = k
  · subst hk
    rcases commit_reconcile projectId t now draw db with hsame | ⟨task, hrow, hact, -⟩
    · rw [hsame]
      exact h
    refine absurd ?_ hact
    obtain rfl : task.id = t := key_of_get? (taskIn_eq_some.mp hrow).1
    obtain ⟨row, hrow, -, hstate⟩ := h.graph
    rw [decision_eq_judge, hrow, Option.map_some, hstate]
    rfl
  · have hframe := (reconcile_effect projectId k now draw db).frame hk
    exact (congrArg (Option.map _) (congrArg TaskView.graph hframe)).trans h

theorem ParkedOn.perform (service : SchedulerService)
    (h : ParkedOn t thread db) (hspared : operation.SparesParked db) :
    ParkedOn t thread (AutoSwe.perform service db operation) ∨ operation.Resolves t ∨
      RolledOver t db (AutoSwe.perform service db operation) := by
  cases operation with
  | reconcile projectId k now draw => exact .inl (h.reconcile projectId k now draw)
  | reconcileDue limit now draws =>
    exact .inl (reconcileDue_keeps service (fun projectId k draw _ h =>
      h.reconcile projectId k now draw) h)
  | resolveNeedsReconciliation projectId k resolution now draw graphDraw =>
    by_cases hk : k = t
    · exact .inr (.inl hk)
    have htouch : TaskTouch k db ((resolveNeedsReconciliation projectId k resolution now draw
        graphDraw).commit db).2 :=
      resolveNeedsReconciliation_touch.commit
        (TaskTouch.refl k) trivial
    have hframe := htouch.frame t (Ne.symm hk)
    exact .inl ((congrArg (Option.map _) (congrArg TaskView.graph hframe)).trans h)
  | graphWrite =>
    simp only [AutoSwe.perform]
    split
    · refine Prog.commit_cases _ db (.inl h) fun row db' hrun => ?_
      exact (h.graphWrite hspared hrun).imp_right .inr
    · exact .inl h
  | _ => exact .inl ((pointer_of_sameGraphs (perform_graphs service _ rfl db) t).trans h)

theorem ParkedOn.step
    (hreach : Reach (step (workers service uuid5 agentSpecHash)) (fun _ _ => True)
      { store := db } s)
    (h : ParkedOn t thread s.store) (hspared : SparesParked s e)
    (hstep : step (workers service uuid5 agentSpecHash) s e = some s') :
    ParkedOn t thread s'.store ∨ Resolved t e ∨ RolledOver t s.store s'.store := by
  have hwrite := workers_step hreach hstep
  generalize s'.store = store at hwrite
  cases hwrite with
  | none => exact .inl h
  | environment operation he =>
    subst he
    exact h.perform service hspared
  | startClaim i input claim call =>
    have hsame := perform_graphs service (.startClaim call input.now input.draw input.refusal) rfl
      s.store
    exact .inl ((pointer_of_sameGraphs hsame t).trans h)
  | finishClaim call target now draw htarget =>
    have hsame := perform_graphs service (.finishClaim call target now draw) rfl s.store
    exact .inl ((pointer_of_sameGraphs hsame t).trans h)
  | persistState i input claim identity state checkpointId next he hproc hfailure =>
    subst he
    have hown := hspared claim identity state checkpointId next hproc hfailure
    exact (commit_persistState (I := fun store => ParkedOn t thread store ∨
      RolledOver t s.store store) identity state checkpointId input.draw (.inl h)
      fun hwritten => h.graphWrite hown hwritten).imp_right .inr
  | park k draw =>
    exact (commit_parkUncertain (I := fun store => ParkedOn t thread store ∨
      RolledOver t s.store store) k draw (.inl h)
      fun hwritten => h.graphWrite (fun _ => rfl) hwritten).imp_right .inr

end

/-- A parked row that is no longer parked was left, in the first step that
changed it, by the operator's decision or by an attempt on another thread, in
every run in which no execution persists over its own parked row. -/
theorem parked_left_by_decision (service : SchedulerService) (uuid5 : UUID → String → UUID)
    (agentSpecHash : String) {s s' : Workers}
    (hreach : Reach (step (workers service uuid5 agentSpecHash)) (fun _ _ => True)
      { store := db } s)
    (hparked : s.store.graphState t = some .NEEDS_RECONCILIATION)
    (hlater : Reach (step (workers service uuid5 agentSpecHash)) SparesParked s s')
    (hleft : s'.store.graphState t ≠ some .NEEDS_RECONCILIATION) :
    ∃ s₁ e s₂, Reach (step (workers service uuid5 agentSpecHash)) SparesParked s s₁ ∧
      s₁.store.pointer t = s.store.pointer t ∧
      step (workers service uuid5 agentSpecHash) s₁ e = some s₂ ∧
      Reach (step (workers service uuid5 agentSpecHash)) SparesParked s₂ s' ∧
      (Resolved t e ∨ RolledOver t s₁.store s₂.store) := by
  obtain ⟨row, hrow, hstate⟩ := map_eq_some_iff.mp hparked
  have hstart : ParkedOn t row.threadId s.store := by
    rw [ParkedOn, pointer, hrow, map_some, hstate]
  have hend : ¬ ParkedOn t row.threadId s'.store := by
    intro h
    obtain ⟨row', hrow', -, hstate'⟩ := h.graph
    exact hleft (by rw [graphState, hrow', map_some, hstate'])
  obtain ⟨s₁, e, s₂, hbefore, hkept, hspared, hstep, hout, hafter⟩ :=
    hlater.departs (I := fun s => ParkedOn t row.threadId s.store) hstart hend
  have hreach₁ := hbefore.invariant hreach fun h _ hstep => .next h trivial hstep
  exact ⟨s₁, e, s₂, hbefore, hkept.trans hstart.symm, hstep, hafter,
    (hkept.step hreach₁ hspared hstep).resolve_left hout⟩

/-- A worker's graph runs, and a tool call of it ends with an unknown outcome. -/
def sampleUncertain : List WorkerEvent :=
  [.spawn 1 (sampleClaim 9), .resume 1 { now := 110 }, .resume 1 {}, .resume 1 {}, .resume 1 {},
    .resume 1 {}, .aside 1 {}]

def sampleCompletedGraph : List WorkerEvent :=
  [.resume 1 {}, .resume 1 {}, .resume 1 {}]

/-- A node of the graph raises, and the runtime persists that the graph failed. -/
def sampleFailedGraph : List WorkerEvent :=
  [.resume 1 { failure := some (.raised ⟨.runtimeError, "node failed"⟩) }, .resume 1 {}]

theorem parked_left_by_decision_sample : ∃ s s' : Workers,
    s.store.graphState 1 = some .NEEDS_RECONCILIATION ∧
      s'.store.graphState 1 ≠ some .NEEDS_RECONCILIATION ∧
      ∃ s₁ e s₂, sampleStep s₁ e = some s₂ ∧ s₁.store.pointer 1 = s.store.pointer 1 ∧
        (Resolved 1 e ∨ RolledOver 1 s₁.store s₂.store) := by
  obtain ⟨s, s', hreach, hparked, hstep, hleft⟩ : ∃ s s' : Workers,
      Reach sampleStep (fun _ _ => True) { store := sampleDispatched } s ∧
        s.store.graphState 1 = some .NEEDS_RECONCILIATION ∧
        sampleStep s (.environment (.resolveNeedsReconciliation 20 1 .fail 120 {} {})) = some s' ∧
        s'.store.graphState 1 ≠ some .NEEDS_RECONCILIATION :=
    ⟨_, _, .run sampleUncertain (fun _ _ _ => trivial) (by decide +kernel), by decide +kernel,
      eq_some_get (by decide +kernel), by decide +kernel⟩
  obtain ⟨s₁, e, s₂, -, hkept, hstep₁, -, hhow⟩ := parked_left_by_decision sampleService sampleUuid5
    "spec" hreach hparked (.next .start (by trivial) hstep) hleft
  exact ⟨s, s', hparked, hleft, s₁, e, s₂, hstep₁, hkept, hhow⟩

/-- The execution that was parked persists its own outcome over the row. -/
theorem parked_row_overwritten :
    Reachable sampleService sampleDispatched ∧ ∃ s completed failed : Workers,
      Reach sampleStep (fun _ _ => True) { store := sampleDispatched } s ∧
      s.store.pointer 1 =
        some (threadId 40 1 (attemptOf sampleUuid5 1 9), .NEEDS_RECONCILIATION) ∧
      sampleCompletedGraph.foldlM sampleStep s = some completed ∧
      completed.store.pointer 1 =
        some (threadId 40 1 (attemptOf sampleUuid5 1 9), .COMPLETED) ∧
      sampleFailedGraph.foldlM sampleStep s = some failed ∧
      failed.store.pointer 1 = some (threadId 40 1 (attemptOf sampleUuid5 1 9), .FAILED) :=
  ⟨.next sampleLeased_reachable trivial rfl, _, _, _,
    .run sampleUncertain (fun _ _ _ => trivial) (by decide +kernel), by decide +kernel,
    eq_some_get (by decide +kernel), by decide +kernel, eq_some_get (by decide +kernel),
    by decide +kernel⟩

end AutoSwe
