import AutoSwe.Lib.Journal
import AutoSwe.Scheduler.Operations

/-!
# The scheduler under concurrency

`Call` is one transaction of the scheduler or of a worker, and a system of
them runs statement by statement. The runs of `Operation` are the ones in which
a transaction starts only after the last one has ended (`Reachable.interleaved`).
-/

namespace AutoSwe

open Relational Transaction LocalEffect LabelledRun Prog Service

inductive Call
  | persistPlan (uuid5 : UUID → String → UUID) (runId : UUID) (specs : List TaskSpec)
      (draws : UUID → Draw)
  | applyMutation (runId : UUID) (specs : List TaskSpec) (draws : UUID → Draw)
  | promoteRound (limit : Nat) (draws : UUID → Draw)
  | cancelBlockedRound (limit : Nat) (draws : UUID → Draw)
  | claimReady (owner : String) (limit : Nat) (now : Time) (draws : UUID → Draw)
  | heartbeat (taskId : UUID) (owner : String) (token : UUID) (now : Time)
  | admitClaim (call : Dispatch) (now : Time) (draw : Draw)
  | refuseExhaustedTask (projectId taskId : UUID) (now : Time) (draw : Draw)
  | finishClaim (call : Dispatch) (target : TaskStatus) (now : Time) (draw : Draw)
  | reclaimExpired (now : Time) (limit : Nat) (draws : UUID → Draw)
  | cancelTask (projectId taskId : UUID) (now : Time) (draw : Draw)
  | cancelRun (runId : UUID) (now : Time) (draw : Draw)
  | reconcile (projectId taskId : UUID) (now : Time) (draw : Draw)
  | resolveNeedsReconciliation (projectId taskId : UUID) (resolution : Resolution) (now : Time)
      (draw graphDraw : Draw)
  | graphWrite (taskId attemptId : UUID) (identity : GraphIdentity) (threadId : String)
      (target : GraphExecutionState) (checkpointId : Option String) (draw : Draw)
  | ambient (repositories : Table UUID RepositoryRow RepositoryRow.id)
      (runs : Table UUID RunRow RunRow.id) (modelCalls : List ModelCallRow)

/-- The graph write of a worker whose attempt was recorded. -/
def admittedGraphWrite (taskId attemptId : UUID) (identity : GraphIdentity) (threadId : String)
    (target : GraphExecutionState) (checkpointId : Option String) (draw : Draw) : Session Unit := do
  let admitted ← query fun db => db.admitted taskId attemptId
  if admitted then
    (transitionGraphExecution taskId identity threadId target checkpointId draw).discard
  else pure ()

def Call.body (service : SchedulerService) : Call → Session Unit
  | .persistPlan uuid5 runId specs draws => AutoSwe.persistPlan uuid5 runId specs draws
  | .applyMutation runId specs draws => createMutationTasks runId specs draws
  | .promoteRound limit draws => (AutoSwe.promoteRound limit draws).discard
  | .cancelBlockedRound limit draws => (AutoSwe.cancelBlockedRound limit draws).discard
  | .claimReady owner limit now draws => (AutoSwe.claimReady service owner limit now draws).discard
  | .heartbeat taskId owner token now => (AutoSwe.heartbeat service taskId owner token now).discard
  | .admitClaim call now draw => (AutoSwe.admitClaim service call now draw).discard
  | .refuseExhaustedTask projectId taskId now draw =>
    AutoSwe.refuseExhaustedTask projectId taskId now draw
  | .finishClaim call target now draw => AutoSwe.finishClaim service call target now draw
  | .reclaimExpired now limit draws => (AutoSwe.reclaimExpired now limit draws).discard
  | .cancelTask projectId taskId now draw => AutoSwe.cancelTask projectId taskId now draw
  | .cancelRun runId now draw => (AutoSwe.cancelRun runId now draw).discard
  | .reconcile projectId taskId now draw => (AutoSwe.reconcile projectId taskId now draw).discard
  | .resolveNeedsReconciliation projectId taskId resolution now draw graphDraw =>
    (AutoSwe.resolveNeedsReconciliation projectId taskId resolution now draw graphDraw).discard
  | .graphWrite taskId attemptId identity threadId target checkpointId draw =>
    admittedGraphWrite taskId attemptId identity threadId target checkpointId draw
  | .ambient repositories runs modelCalls =>
    execute fun db => { db with repositories, runs, modelCalls }

abbrev Concurrent := Sys Call Database Lock Raised

def Concurrent.step (service : SchedulerService) : Concurrent → Event Call → Option Concurrent :=
  Sys.step (Call.body service)

/-! ## The transactions of an operation -/

/-- The transactions that an operation can commit. -/
def Operation.commits : Operation → Call → Prop
  | .persistPlan uuid5 runId specs draws, call => call = .persistPlan uuid5 runId specs draws
  | .applyMutation runId specs draws, call => call = .applyMutation runId specs draws
  | .promoteDependencyReady limit _ draws, call => ∃ round, call = .promoteRound limit (draws round)
  | .cancelBlockedDependents limit draws, call =>
    ∃ round, call = .cancelBlockedRound limit (draws round)
  | .claimReady owner limit now draws, call => call = .claimReady owner limit now draws
  | .heartbeat taskId owner token now, call => call = .heartbeat taskId owner token now
  | .startClaim dispatch now draw refusal, call =>
    call = .admitClaim dispatch now draw ∨
      call = .refuseExhaustedTask dispatch.projectId dispatch.taskId now refusal
  | .finishClaim dispatch target now draw, call => call = .finishClaim dispatch target now draw
  | .reclaimExpired now limit draws, call => call = .reclaimExpired now limit draws
  | .cancelTask projectId taskId now draw, call => call = .cancelTask projectId taskId now draw
  | .cancelRequestedRuns _ now draws, call =>
    (∃ projectId taskId, call = .cancelTask projectId taskId now (draws taskId)) ∨
      ∃ runId, call = .cancelRun runId now (draws runId)
  | .reconcile projectId taskId now draw, call => call = .reconcile projectId taskId now draw
  | .reconcileDue _ now draws, call =>
    ∃ projectId taskId, call = .reconcile projectId taskId now (draws taskId)
  | .resolveNeedsReconciliation projectId taskId resolution now draw graphDraw, call =>
    call = .resolveNeedsReconciliation projectId taskId resolution now draw graphDraw
  | .graphWrite taskId attemptId identity threadId target checkpointId draw, call =>
    call = .graphWrite taskId attemptId identity threadId target checkpointId draw
  | .ambient repositories runs modelCalls, call => call = .ambient repositories runs modelCalls

section Moves
variable {service : SchedulerService} {R : Database → Database → Prop} (hrefl : ∀ db, R db db)
  (htrans : ∀ {a b c}, R a b → R b c → R a c)

theorem transact_discard_moves (call : Call) (hbody : call.body service = p.discard)
    (h : ∀ db, R db ((call.body service).commit db).2) : Moves R (transact p) := by
  intro db
  have hstep := h db
  rwa [hbody, commit_discard] at hstep

include hrefl in
theorem query_moves (read : Database → α) :
    Moves R (transact (query read : Session α)) :=
  hrefl

include hrefl htrans

theorem promoteDependencyReady_moves
    (h : ∀ round db, R db (((Call.promoteRound limit (draws round)).body service).commit db).2) :
    Moves R (promoteDependencyReady limit draws rounds) := by
  induction rounds with
  | zero => exact .pure hrefl _
  | succ round ih =>
    refine .bind htrans (transact_discard_moves (.promoteRound limit (draws round)) rfl (h round))
      fun promoted => ?_
    split
    · exact .pure hrefl _
    · split
      · exact .pure hrefl _
      · exact .bind htrans ih fun _ => .pure hrefl _

theorem cancelBlockedRounds_moves
    (h : ∀ round db,
      R db (((Call.cancelBlockedRound limit (draws round)).body service).commit db).2) :
    Moves R (cancelBlockedRounds limit draws rounds) := by
  induction rounds with
  | zero => exact .pure hrefl _
  | succ round ih =>
    refine .bind htrans
      (transact_discard_moves (.cancelBlockedRound limit (draws round)) rfl (h round))
      fun cancelled => ?_
    split
    · exact .pure hrefl _
    · exact .bind htrans ih fun _ => .pure hrefl _

theorem startClaim_moves
    (hadmitted : ∀ db, R db (((Call.admitClaim call now draw).body service).commit db).2)
    (hrefuse : ∀ db, R db (((Call.refuseExhaustedTask call.projectId call.taskId now
      refusal).body service).commit db).2) :
    Moves R (startClaim service call now draw refusal) := by
  refine .rescue htrans (transact_discard_moves (.admitClaim call now draw) rfl hadmitted)
    fun error => ?_
  split
  · have hrefuse : Moves R (transact
        (refuseExhaustedTask call.projectId call.taskId now refusal)) := hrefuse
    exact hrefuse.bind htrans fun _ => .raise hrefl _
  · exact .raise hrefl _

theorem cancelRequestedRun_moves
    (htask : ∀ projectId taskId db,
      R db (((Call.cancelTask projectId taskId now (draws taskId)).body service).commit db).2)
    (hrun : ∀ db, R db (((Call.cancelRun runId now (draws runId)).body service).commit db).2) :
    Moves R (cancelRequestedRun now draws runId) := by
  refine .bind htrans (query_moves hrefl _) fun tasks => .bind htrans ?_ fun _ => ?_
  · exact .each hrefl htrans tasks fun task _ => htask task.projectId task.id
  · exact transact_discard_moves (.cancelRun runId now (draws runId)) rfl hrun

theorem cancelRunsInTurn_moves (now : Time) (draws : UUID → Draw) (runs : List UUID)
    (htask : ∀ projectId taskId db,
      R db (((Call.cancelTask projectId taskId now (draws taskId)).body service).commit db).2)
    (hrun : ∀ runId db,
      R db (((Call.cancelRun runId now (draws runId)).body service).commit db).2) :
    Moves R (cancelRunsInTurn now draws runs) := by
  induction runs with
  | nil => exact .pure hrefl _
  | cons runId rest ih =>
    exact (cancelRequestedRun_moves hrefl htrans htask (hrun runId)).bind htrans
      fun _ => ih.bind htrans fun _ => .pure hrefl _

theorem reconcileDue_moves
    (h : ∀ projectId taskId db,
      R db (((Call.reconcile projectId taskId now (draws taskId)).body service).commit db).2) :
    Moves R (reconcileDue limit now draws) := by
  refine .bind htrans (query_moves hrefl _) fun targets =>
    .collect hrefl htrans (fun key => .rescue htrans ?_ fun _ => .pure hrefl _) targets
  exact (transact_discard_moves (.reconcile key.1 key.2 now (draws key.2)) rfl
    (h key.1 key.2)).bind htrans fun _ => .pure hrefl _

/-- An operation moves the state along whatever its transactions move it along. -/
theorem perform_moves
    (h : ∀ call, operation.commits call → ∀ db, R db ((call.body service).commit db).2)
    (db : Database) : R db (perform service db operation) := by
  cases operation with
  | persistPlan => exact h _ rfl db
  | applyMutation => exact h _ rfl db
  | promoteDependencyReady limit maxRounds draws =>
    exact promoteDependencyReady_moves hrefl htrans
      (fun round => h _ ⟨round, rfl⟩) db
  | cancelBlockedDependents limit draws =>
    exact cancelBlockedRounds_moves hrefl htrans (fun round => h _ ⟨round, rfl⟩) db
  | claimReady => exact transact_discard_moves _ rfl (h _ rfl) db
  | heartbeat => exact transact_discard_moves _ rfl (h _ rfl) db
  | startClaim call now draw refusal =>
    exact startClaim_moves hrefl htrans (h _ (.inl rfl)) (h _ (.inr rfl)) db
  | finishClaim => exact h _ rfl db
  | reclaimExpired => exact transact_discard_moves _ rfl (h _ rfl) db
  | cancelTask => exact h _ rfl db
  | cancelRequestedRuns limit now draws =>
    exact Moves.bind (R := R) htrans (query_moves hrefl _) (fun runs =>
      cancelRunsInTurn_moves hrefl htrans now draws runs
        (fun projectId taskId => h _ (.inl ⟨projectId, taskId, rfl⟩))
        fun runId => h _ (.inr ⟨runId, rfl⟩)) db
  | reconcile => exact transact_discard_moves _ rfl (h _ rfl) db
  | reconcileDue limit now draws =>
    exact reconcileDue_moves hrefl htrans
      (fun projectId taskId => h _ ⟨projectId, taskId, rfl⟩) db
  | resolveNeedsReconciliation =>
    exact transact_discard_moves _ rfl (h _ rfl) db
  | graphWrite =>
    have hstep := h _ rfl db
    simp only [Call.body, admittedGraphWrite, commit, run_bind, run_query] at hstep
    simp only [perform]
    split
    · rename_i hadmitted
      rw [← commit_discard]
      simp only [hadmitted, if_true] at hstep
      exact hstep
    · exact hrefl db
  | ambient => exact h _ rfl db

end Moves

/-! ## Everything follows the lifecycle -/

theorem admittedGraphWrite_effect :
    (admittedGraphWrite taskId attemptId identity threadId target checkpointId draw).Refines
      (fun _ => True) (TaskEffect Anywhere) := by
  intro db u db' _ h
  obtain ⟨admitted, _, ⟨rfl, rfl⟩, h⟩ := bind_ok.mp h
  split at h
  · rename_i hadmitted
    obtain ⟨row, _, htransition, ⟨-, rfl⟩⟩ := bind_ok.mp h
    exact (Updates.single (transitionGraphExecution_updates htransition)
      (.graph (.inl (admitted_attempted hadmitted)))).effect trivial
  · cases h
    exact Effect.refl _

/-- Every transaction moves tasks along the lifecycle and nothing else. -/
theorem Call.effect (service : SchedulerService) (call : Call) (db : Database) :
    TaskEffect Anywhere db ((call.body service).commit db).2 := by
  refine Refines.commit (P := fun _ => True) ?_ Effect.refl trivial
  cases call with
  | persistPlan uuid5 runId specs draws => exact persistPlan_effect uuid5 runId specs draws
  | applyMutation runId specs draws => exact createMutationTasks_effect runId specs draws
  | promoteRound limit draws => exact (promoteRound_effect limit draws).discard
  | cancelBlockedRound limit draws => exact (cancelBlockedRound_effect limit draws).discard
  | claimReady owner limit now draws =>
    exact (claimReady_effect service owner limit now draws).discard
  | heartbeat taskId owner token now =>
    exact (heartbeat_effect service taskId owner token now).discard
  | admitClaim call now draw =>
    exact (transact_effect (admitClaim_touch service)).discard
  | refuseExhaustedTask projectId taskId now draw =>
    exact transact_effect refuseExhaustedTask_touch
  | finishClaim call target now draw =>
    exact transact_effect (finishClaim_touch service)
  | reclaimExpired now limit draws => exact reclaimExpired_effect.discard
  | cancelTask projectId taskId now draw =>
    exact transact_effect cancelTask_touch
  | cancelRun runId now draw => exact (cancelRun_effect runId now draw).discard
  | reconcile projectId taskId now draw =>
    exact (transact_effect reconcile_touch).discard
  | resolveNeedsReconciliation projectId taskId resolution now draw graphDraw =>
    exact (transact_effect resolveNeedsReconciliation_touch).discard
  | graphWrite taskId attemptId identity threadId target checkpointId draw =>
    exact admittedGraphWrite_effect
  | ambient =>
    intro db u db' _ h
    cases h
    exact unseen_effect rfl rfl rfl rfl rfl

theorem perform_effect (service : SchedulerService) (operation : Operation) (db : Database) :
    TaskEffect Anywhere db (perform service db operation) :=
  perform_moves Effect.refl Effect.trans (fun call _ => call.effect service) db

/-! ## Sequential runs are interleavings -/

/-- Transactions that run one after the other lead from `db` to `db'`. -/
def Serial (service : SchedulerService) (db db' : Database) : Prop :=
  ∃ calls : List Call, db' = calls.foldl (fun db call => ((call.body service).commit db).2) db

section
variable {service : SchedulerService}

theorem Serial.refl (db : Database) : Serial service db db := ⟨[], rfl⟩

theorem Serial.trans (h : Serial service a b) (h' : Serial service b c) : Serial service a c := by
  obtain ⟨calls, rfl⟩ := h
  obtain ⟨calls', rfl⟩ := h'
  exact ⟨calls ++ calls', by simp⟩

theorem Serial.single (call : Call) (db : Database) :
    Serial service db ((call.body service).commit db).2 :=
  ⟨[call], rfl⟩

theorem perform_serial (service : SchedulerService) (db : Database) (operation : Operation) :
    Serial service db (perform service db operation) :=
  perform_moves Serial.refl Serial.trans (fun call _ => Serial.single call) db

end

/-- Every state of a sequential run is a committed state of an interleaving. -/
theorem Reachable.interleaved (h : Reachable service db) :
    ∃ s : Concurrent, Reach (Concurrent.step service) (fun _ _ => True) { db := {} } s ∧
      s.Idle ∧ s.db = db := by
  have hjournal : ∃ j : Journal Call Database Lock Raised,
      Reach (Journal.step (Call.body service)) (fun _ _ => True) { sys := { db := {} } } j ∧
        j.sys.Idle ∧ j.sys.db = db := by
    refine Reach.invariant (I := fun db => ∃ j : Journal Call Database Lock Raised,
      Reach (Journal.step (Call.body service)) (fun _ _ => True) { sys := { db := {} } } j ∧
        j.sys.Idle ∧ j.sys.db = db) ?_ ?_ h
    · exact ⟨_, .start, ⟨fun _ => rfl, fun _ => rfl⟩, rfl⟩
    · rintro db _ operation ⟨j, hreach, hidle, rfl⟩ _ ⟨⟩
      obtain ⟨calls, hcalls⟩ := perform_serial service j.sys.db operation
      rw [hcalls]
      clear hcalls
      induction calls generalizing j with
      | nil => exact ⟨j, hreach, hidle, rfl⟩
      | cons call calls ih =>
        obtain ⟨j', hreach', hidle', hdb, -⟩ := hidle.commit hreach call
        rw [List.foldl_cons, ← hdb]
        exact ih j' hreach' hidle'
  obtain ⟨j, hreach, hidle, hdb⟩ := hjournal
  exact ⟨j.sys, Journal.reach_sys hreach, hidle, hdb⟩

end AutoSwe
