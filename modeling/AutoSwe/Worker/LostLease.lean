import AutoSwe.Scheduler.Sparing
import AutoSwe.Worker.Fleet

/-!
# A worker that loses its lease

The heartbeat of a worker whose lease is gone cancels the worker, which then records `CANCELLED` on
the graph row. When the row is still on its thread, the reconciler takes the record for a
cancellation of the task, although the task was requeued (`lost_lease_cancels`). Nothing else
cancels a task that nobody cancels (`lost_lease_spares`).
-/

namespace AutoSwe

open Relational Coroutine LabelledRun Option

/-- No operator cancels the task or its run, no dependency of it fails, and its
graph row is its own. -/
def Unprovoked (t : UUID) (s : Workers) : WorkerEvent → Prop
  | .environment operation => operation.Spares t s.store
  | _ => True

/-- The graph row refuses the cancellation of the execution. -/
def RefusesCancel (identity : CheckpointIdentity) (db : Database) : Prop :=
  ∃ row, db.graphs.get? identity.taskId = some row ∧
    (row.threadId ≠ identity.threadId ∨ .CANCELLED ∉ graphExecutionTransitions row.state)

/-- A worker of the task comes to record `CANCELLED` only when the graph row
refuses it, or the task is settled. -/
def CancelFenced (t : UUID) (s : Workers) : WorkerEvent → Prop
  | .resume i input => ∀ claim identity checkpointId next,
      s.procs i = some (claim, .await (.persistState identity .CANCELLED checkpointId) next) →
        identity.taskId = t → input.failure = none →
          RefusesCancel identity s.store ∨ Settled s.store t
  | _ => True

theorem GraphWrite.cancelled_of_refuses {thread : String}
    (h : GraphWrite thread .CANCELLED (some old) row)
    (hrefuses : old.threadId ≠ thread ∨ .CANCELLED ∉ graphExecutionTransitions old.state) :
    old.state = .CANCELLED := by
  cases h with
  | rollover _ htarget => cases htarget
  | touch _ hold => exact hold
  | advance hsame hlegal =>
    rcases hrefuses with hother | hillegal
    · exact absurd hsame hother
    · exact absurd hlegal hillegal

theorem Uncancelled.graphWrite (h : Uncancelled t db)
    (hwrite : (transitionGraphExecution k identity thread target checkpointId draw).run db =
      .ok (row, db'))
    (hfenced : k = t → target = .CANCELLED → (∃ old, db.graphs.get? k = some old ∧
      (old.threadId ≠ thread ∨ .CANCELLED ∉ graphExecutionTransitions old.state)) ∨ Settled db t) :
    Uncancelled t db' := by
  obtain ⟨hgraph, hkey, -, audit, outbox, durations, rfl⟩ := transitionGraphExecution_ok hwrite
  refine ⟨h.1, fun hstate => ?_⟩
  have hsettled : Settled db t := by
    rw [Database.graphState, Table.get?_put] at hstate
    split at hstate
    · rename_i ht
      have htarget : target = .CANCELLED := hgraph.state.symm.trans (some.inj hstate)
      obtain rfl : k = t := hkey.symm.trans ht.symm
      subst htarget
      rcases hfenced rfl rfl with ⟨old, hold, hrefuses⟩ | hsettled
      · rw [hold] at hgraph
        have hcancelled := hgraph.cancelled_of_refuses hrefuses
        exact h.2 (by rw [Database.graphState, hold, map_some, hcancelled])
      · exact hsettled
    · exact h.2 hstate
  exact hsettled

/-- A task that nobody cancels is not cancelled by the loss of a lease, in every
run in which a cancelled worker does not reach the graph row of the open task. -/
theorem lost_lease_spares (service : SchedulerService) (uuid5 : UUID → String → UUID)
    (agentSpecHash : String) (hstart : Uncancelled t db) {s : Workers}
    (hreach : Reach (Fleet.step (workers service uuid5 agentSpecHash))
      (fun s e => Unprovoked t s e ∧ CancelFenced t s e) { store := db } s) :
    s.store.taskState t ≠ some .CANCELLED := by
  have hinv : Uncancelled t s.store := by
    induction hreach with
    | start => exact hstart
    | @next s s' e hbefore hpermitted hstep ih =>
      obtain ⟨hunprovoked, hfenced⟩ := hpermitted
      have hwrite := workers_step hbefore hstep
      generalize s'.store = store at hwrite
      cases hwrite with
      | none => exact ih
      | environment operation he =>
        subst he
        exact ih.perform service hunprovoked
      | startClaim => exact ih.perform service trivial
      | finishClaim call target now draw htarget =>
        refine ih.perform service ?_
        simp only [List.mem_cons, List.not_mem_nil, or_false] at htarget
        rcases htarget with rfl | rfl <;> simp [Operation.Spares]
      | persistState i input claim identity state checkpointId next he hproc hfailure =>
        subst he
        refine commit_persistState identity state checkpointId input.draw ih fun hrow => ?_
        refine ih.graphWrite hrow ?_
        rintro htask rfl
        exact hfenced claim identity checkpointId next hproc htask hfailure
      | park k draw =>
        exact commit_parkUncertain k draw ih fun hrow => ih.graphWrite hrow (by simp)
  exact hinv.1

/-- The first worker comes to run its graph, its lease expires, and the task is
requeued. -/
def sampleOverrun : List WorkerEvent :=
  [.spawn 1 (sampleClaim 9), .resume 1 { now := 110 }, .resume 1 {}, .resume 1 {}, .resume 1 {},
    .resume 1 {}, .environment (.reconcile 20 1 140 {})]

def sampleReclaim : WorkerEvent :=
  .environment (.claimReady "dispatcher" 5 150 fun _ => { token := 8 })

def unprovoked (s : Workers) : WorkerEvent → Bool
  | .environment (.reconcile ..) =>
    (s.store.tasks.get? 1).all fun task => !s.store.mismatched task
  | .environment (.claimReady ..) => true
  | .environment _ => false
  | _ => true

theorem matched_of_check (h : ((db.tasks.get? t).all fun task => !db.mismatched task) = true) :
    Matched t db := by
  intro task hrow
  simpa [hrow] using h

theorem unprovoked_of_check (s : Workers) (e : WorkerEvent) (h : unprovoked s e = true) :
    Unprovoked 1 s e := by
  unfold unprovoked at h
  split at h
  · exact matched_of_check h
  · trivial
  · cases h
  · rename_i hother
    cases e with
    | environment operation => exact absurd rfl (hother operation)
    | _ => trivial

/-- A `CANCELLED` persist comes only to a row on another thread. -/
def cancelFenced (s : Workers) : WorkerEvent → Bool
  | .resume i input =>
    match s.procs i with
    | some (_, .await (.persistState identity .CANCELLED _) _) => input.failure.isSome ||
        (s.store.graphs.get? identity.taskId).any fun row => row.threadId ≠ identity.threadId
    | _ => true
  | _ => true

theorem cancelFenced_of_check (s : Workers) (e : WorkerEvent) (h : cancelFenced s e = true) :
    CancelFenced 1 s e := by
  cases e with
  | resume =>
    intro claim identity checkpointId next hproc _ hfailure
    simp only [cancelFenced, hproc, hfailure, isSome_none, Bool.false_or,
      any_eq_true, decide_eq_true_eq] at h
    obtain ⟨row, hrow, hthread⟩ := h
    exact .inl ⟨row, hrow, .inl hthread⟩
  | _ => trivial

/-- The heartbeat of the first worker cancels it once the second has taken the
graph row over. -/
theorem lost_lease_spares_sample : ∃ s : Workers,
    (s.store.leases.get? 1).map LeaseRow.token = some 8 ∧
      s.store.taskState 1 ≠ some .CANCELLED := by
  have hstart : Uncancelled 1 sampleDispatched := by
    have hnone : sampleDispatched.graphState 1 = none := by decide +kernel
    exact ⟨by decide +kernel, by simp [hnone]⟩
  have hcheck : ∀ s e, (unprovoked s e && cancelFenced s e) = true →
      Unprovoked 1 s e ∧ CancelFenced 1 s e := by
    intro s e h
    obtain ⟨hunprovoked, hfenced⟩ := Bool.and_eq_true_iff.mp h
    exact ⟨unprovoked_of_check s e hunprovoked, cancelFenced_of_check s e hfenced⟩
  refine ⟨_, ?_, lost_lease_spares sampleService sampleUuid5 "spec" hstart
    (.checked hcheck
      (sampleOverrun ++ [sampleReclaim, .spawn 2 (sampleClaim 8), .resume 2 { now := 151 },
        .resume 2 {}, .resume 1 { failure := some .cancelled }, .resume 1 {}])
      (by decide +kernel))⟩
  decide +kernel

/-- The task is leased again, and the first worker records its cancellation. -/
def sampleShutdown : List WorkerEvent :=
  sampleOverrun ++ [sampleReclaim, .resume 1 { failure := some .cancelled }, .resume 1 {}]

/-- The shutdown of a worker that lost its lease cancels the task, which was
leased again. -/
theorem lost_lease_cancels :
    Reachable sampleService sampleDispatched ∧ sampleDispatched.taskState 1 = some .LEASED ∧
      sampleDispatched.graphState 1 = none ∧ ∃ s s' : Workers,
        Reach sampleStep (Unprovoked 1) { store := sampleDispatched } s ∧
        s.store.taskState 1 = some .LEASED ∧
        (s.store.leases.get? 1).map LeaseRow.token = some 8 ∧
        Unprovoked 1 s (.environment (.reconcile 20 1 151 {})) ∧
        sampleStep s (.environment (.reconcile 20 1 151 {})) = some s' ∧
        s'.store.taskState 1 = some .CANCELLED :=
  ⟨.next sampleLeased_reachable trivial rfl, by decide +kernel, by decide +kernel, _, _,
    .checked unprovoked_of_check sampleShutdown (by decide +kernel), by decide +kernel,
    by decide +kernel, unprovoked_of_check _ _ (by decide +kernel), eq_some_get (by decide +kernel),
    by decide +kernel⟩

end AutoSwe
