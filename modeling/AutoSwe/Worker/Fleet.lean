import AutoSwe.Scheduler.Footprints
import AutoSwe.Scheduler.StartClaim
import AutoSwe.Worker.Runtime

/-!
# Workers over the scheduler's database

Any number of workers execute dispatches while the rest of the platform goes on. A worker whose
lease was given to another attempt is superseded once the graph row is on the thread of that
attempt. It can still take the row back by a `RUNNING` persist, or park the execution of the new
attempt by an uncertain tool outcome; its other writes are refused (`superseded_worker_fenced`).
-/

namespace AutoSwe

open Relational Transaction Coroutine LabelledRun Prog Process Database Fleet Await

/-! ## The system -/

/-- The attempt of a lease: dispatch derives it from the token. -/
def attemptOf (uuid5 : UUID → String → UUID) (taskId token : UUID) : UUID :=
  uuid5 namespaceUrl ("task-attempt:" ++ taskId.str ++ ":" ++ token.str)

/-- `DispatchMessage.from_claim`, with the hash that the worker adds. -/
def TaskClaim.dispatch (uuid5 : UUID → String → UUID) (agentSpecHash : String)
    (claim : TaskClaim) : Dispatch where
  taskId := claim.taskId
  projectId := claim.projectId
  owner := claim.owner
  token := claim.token
  attemptId := attemptOf uuid5 claim.taskId claim.token
  agentSpecHash := agentSpecHash

/-- What the outside decides about one step of a worker: the clock, the drawn
identifiers, a failure instead of the step, what the graph run leaves. -/
structure Input where
  now : Time := 0
  draw : Draw := {}
  refusal : Draw := {}
  failure : Option Failure := none
  snapshot : GraphSnapshot := ⟨none, false, none⟩

def raising (result : Except Raised α × Database) : Except Failure α × Database :=
  (result.1.mapError .raised, result.2)

def Await.act (service : SchedulerService) (db : Database) (input : Input) (a : Await) :
    Except Failure a.Result × Database :=
  match input.failure with
  | some failure => (.error failure, db)
  | none =>
    match a with
    | .startClaim call =>
      raising (AutoSwe.startClaim service call input.now input.draw input.refusal db)
    | .persistState identity state checkpointId =>
      raising ((AutoSwe.persistState identity state checkpointId input.draw).commit db)
    | .prepare => (.ok (), db)
    | .assertActive identity => raising ((AutoSwe.assertActive identity).commit db)
    | .ainvoke _ => (.ok input.snapshot, db)
    | .finishClaim call target =>
      raising ((AutoSwe.finishClaim service call target input.now input.draw).commit db)

/-- While the graph runs, a tool call of it can end with an unknown outcome. -/
def Await.aside (db : Database) (input : Input) : Await → Database
  | .ainvoke identity => ((parkUncertain identity.taskId input.draw).commit db).2
  | _ => db

section
variable (service : SchedulerService) (uuid5 : UUID → String → UUID) (agentSpecHash : String)

def workers : Coroutine.System TaskClaim Database Await Result Failure WorkerOutcome Input
    Operation where
  body claim := execute (claim.dispatch uuid5 agentSpecHash)
  act := act service
  aside := aside
  environment := perform service

abbrev Workers := Fleet TaskClaim Database Await Result Failure WorkerOutcome

abbrev WorkerEvent := Coroutine.Event TaskClaim Input Operation

end

/-! ## What a worker awaits -/

/-- The graph writes of a worker are those of its own attempt, and it finishes
its own claim as completed or failed. -/
def Await.OwnedBy (call : Dispatch) : Await → Prop
  | .startClaim call' => call' = call
  | .persistState identity _ _ | .ainvoke identity =>
    identity.taskId = call.taskId ∧ identity.attemptId = call.attemptId
  | .finishClaim call' target => call' = call ∧ target ∈ [TaskStatus.COMPLETED, .FAILED]
  | _ => True

/-- A lease that lets the worker execute is one of its task and attempt. -/
def Await.Answers : (a : Await) → a.Result → Prop
  | .startClaim call, lease => lease.alreadyTerminal = false →
      lease.taskId = call.taskId ∧ lease.attemptId = call.attemptId
  | _, _ => True

section
variable {call : Dispatch} {identity : CheckpointIdentity}

def Owned (call : Dispatch) (p : Execution α) : Prop :=
  p.Sound (OwnedBy call) Answers fun _ => True

namespace Owned

theorem pure (a : α) : Owned call (pure a) := trivial

theorem throw (failure : Failure) : Owned call (throw failure : Execution α) := trivial

theorem await (a : Await) (h : a.OwnedBy call) : Owned call (await a) :=
  (Sound.perform a h).mono fun _ _ => trivial

theorem bind (h : Owned call p) (hf : ∀ a, Owned call (f a)) : Owned call (p >>= f) :=
  Sound.bind h fun a _ => hf a

theorem tryCatch (h : Owned call p) (hh : ∀ failure, Owned call (handler failure)) :
    Owned call (MonadExcept.tryCatch p handler) :=
  Sound.tryCatch h hh

end Owned

theorem runGraph_owned
    (h : identity.taskId = call.taskId ∧ identity.attemptId = call.attemptId) :
    Owned call (runGraph identity) := by
  refine .bind (.await _ h) fun snapshot => .bind ?_ fun state => ?_
  · cases snapshot.state <;> exact trivial
  · exact .bind (.await _ trivial) fun _ => .bind (.await _ h) fun _ => .pure _

theorem invoke_owned (h : identity.taskId = call.taskId ∧ identity.attemptId = call.attemptId) :
    Owned call (invoke identity) := by
  refine .bind (.await _ trivial) fun _ => .bind (.await _ h) fun _ => ?_
  refine .tryCatch (runGraph_owned h) fun failure => ?_
  exact .bind (.await _ h) fun _ => .throw _

theorem cleanUp_owned (h : identity.taskId = call.taskId ∧ identity.attemptId = call.attemptId)
    (runtimeInvoked : Bool) (failure : Failure) :
    Owned call (cleanUp call identity runtimeInvoked failure) := by
  cases failure with
  | cancelled =>
    refine .bind (.tryCatch (.await (.finishClaim call .FAILED) ⟨rfl, by simp⟩) fun failure => ?_)
      fun _ => .throw _
    cases failure with
    | cancelled => exact .throw _
    | raised error =>
      dsimp only
      split
      · exact .pure _
      · exact .throw _
  | raised error =>
    refine .bind (.tryCatch ?_ fun failure => ?_) fun _ => .throw _
    · cases runtimeInvoked with
      | false =>
        exact .bind (.await _ h) fun _ => .await (.finishClaim call .FAILED) ⟨rfl, by simp⟩
      | true => exact .await (.finishClaim call .FAILED) ⟨rfl, by simp⟩
    · cases failure with
      | cancelled => exact .throw _
      | raised error => exact .pure _

theorem invokeAndFinish_owned
    (h : identity.taskId = call.taskId ∧ identity.attemptId = call.attemptId) :
    Owned call (invokeAndFinish call identity) := by
  refine .bind (invoke_owned h) fun outcome => ?_
  split
  · exact .bind (.await _ ⟨rfl, by simp⟩) fun _ => .pure _
  · exact .pure _

theorem executeLease_owned (h : lease.taskId = call.taskId ∧ lease.attemptId = call.attemptId) :
    Owned call (executeLease call lease) := by
  refine .bind (.tryCatch ?_ fun failure => .pure _) fun prepared => ?_
  · exact .bind (.bind (.await _ h) fun _ => .await .prepare trivial) fun _ => .pure _
  cases prepared with
  | some failure => exact cleanUp_owned h false failure
  | none => exact .tryCatch (invokeAndFinish_owned h) fun failure => cleanUp_owned h true failure

theorem execute_owned {call : Dispatch} : Owned call (execute call) := by
  let Q : Option TaskExecutionLease → Prop := fun started => ∀ lease, started = some lease →
    lease.alreadyTerminal = false → lease.taskId = call.taskId ∧ lease.attemptId = call.attemptId
  refine Sound.bind (Q := Q) (.tryCatch ?_ fun failure => ?_) fun started hQ => ?_
  · have hstart : (AutoSwe.await (.startClaim call)).Sound (OwnedBy call) Answers
        (Answers (.startClaim call)) := Sound.perform _ rfl
    refine Sound.bind hstart fun lease hlease => ?_
    rintro _ ⟨⟩
    exact hlease
  · cases failure with
    | cancelled => exact trivial
    | raised error =>
      dsimp only
      split
      · rintro _ ⟨⟩
      · exact trivial
  · cases started with
    | none => exact Owned.pure _
    | some lease =>
      dsimp only
      split
      · exact Owned.pure _
      · rename_i hopen
        exact executeLease_owned (hQ lease rfl (by simpa using hopen))

end

theorem act_answers (service : SchedulerService) (db : Database) (input : Input) (a : Await)
    (result : a.Result) (h : (a.act service db input).1 = .ok result) : a.Answers result := by
  cases a with
  | startClaim call =>
    intro hopen
    simp only [act] at h
    split at h
    · cases h
    · generalize hstart : startClaim service call input.now input.draw input.refusal db = r at h
      obtain ⟨e | lease, db'⟩ := r
      · cases h
      · cases h
        rcases startClaim_ok hstart with ⟨_, _, _, hterminal⟩ | ⟨task, run, repository, hadmitted⟩
        · simp [hterminal] at hopen
        · rw [hadmitted.execution]
          exact ⟨hadmitted.id, rfl⟩
  | _ => trivial

section
variable {service : SchedulerService} {uuid5 : UUID → String → UUID} {agentSpecHash : String}

/-- A worker that waits, waits for an action of its own dispatch. -/
theorem workers_owned
    (hreach : Reach (step (workers service uuid5 agentSpecHash)) permitted { store := db } s)
    (hproc : s.procs i = some (claim, p)) : Owned (claim.dispatch uuid5 agentSpecHash) p := by
  have hbody : ∀ claim, ((workers service uuid5 agentSpecHash).body claim).Sound
      (OwnedBy (claim.dispatch uuid5 agentSpecHash)) Answers fun _ => True :=
    fun claim => execute_owned
  exact sound hbody (act_answers service) hreach i claim p hproc

inductive WorkerWrite (service : SchedulerService) (s : Workers) (e : WorkerEvent) :
    Database → Prop
  | none : WorkerWrite service s e s.store
  | environment (operation : Operation) (he : e = .environment operation) :
      WorkerWrite service s e (perform service s.store operation)
  | startClaim (i : Nat) (input : Input) (claim : TaskClaim) (call : Dispatch)
      (next : Except Failure TaskExecutionLease → Execution WorkerOutcome)
      (he : e = .resume i input)
      (hproc : s.procs i = some (claim, .await (.startClaim call) next))
      (hfailure : input.failure = .none) :
      WorkerWrite service s e
        (perform service s.store (.startClaim call input.now input.draw input.refusal))
  | finishClaim (call : Dispatch) (target : TaskStatus) (now : Time) (draw : Draw)
      (htarget : target ∈ [TaskStatus.COMPLETED, .FAILED]) :
      WorkerWrite service s e (perform service s.store (.finishClaim call target now draw))
  | persistState (i : Nat) (input : Input) (claim : TaskClaim) (identity : CheckpointIdentity)
      (state : GraphExecutionState) (checkpointId : Option String)
      (next : Except Failure Unit → Execution WorkerOutcome) (he : e = .resume i input)
      (hproc : s.procs i = some (claim, .await (.persistState identity state checkpointId) next))
      (hfailure : input.failure = .none) :
      WorkerWrite service s e
        ((AutoSwe.persistState identity state checkpointId input.draw).commit s.store).2
  | park (t : UUID) (draw : Draw) :
      WorkerWrite service s e ((parkUncertain t draw).commit s.store).2

theorem workers_step
    (hreach : Reach (step (workers service uuid5 agentSpecHash)) permitted { store := db } s)
    (hstep : step (workers service uuid5 agentSpecHash) s e = some s') :
    WorkerWrite service s e s'.store := by
  cases step_cases hstep with
  | environment operation => exact .environment operation rfl
  | spawn => exact .none
  | @aside i input claim a next hproc =>
    cases a with
    | ainvoke identity => exact .park identity.taskId input.draw
    | _ => exact .none
  | @resume i input claim a next hproc =>
    have howned : a.OwnedBy (claim.dispatch uuid5 agentSpecHash) := (workers_owned hreach hproc).1
    change WorkerWrite service s _ (a.act service s.store input).2
    unfold act
    split
    · exact .none
    rename_i hfailure
    cases a with
    | startClaim call => exact .startClaim i input claim call next rfl hproc hfailure
    | persistState identity state checkpointId =>
      exact .persistState i input claim identity state checkpointId next rfl hproc hfailure
    | prepare => exact .none
    | ainvoke identity => exact .none
    | assertActive identity =>
      change WorkerWrite service s _ ((assertActive identity).commit s.store).2
      rw [assertActive_reads]
      exact .none
    | finishClaim call target => exact .finishClaim call target input.now input.draw howned.2

end

/-! ## Fencing -/

/-- What the graph row of a task says about its execution. -/
def Database.pointer (db : Database) (taskId : UUID) : Option (String × GraphExecutionState) :=
  (db.graphs.get? taskId).map fun row => (row.threadId, row.state)

/-- The lease belongs to another attempt than the claim's, and the graph row is
on the thread of that attempt. -/
def Superseded (uuid5 : UUID → String → UUID) (db : Database) (claim : TaskClaim) : Prop :=
  ∃ lease row, db.leases.get? claim.taskId = some lease ∧ db.graphs.get? claim.taskId = some row ∧
    row.threadId =
      threadId row.runId claim.taskId (attemptOf uuid5 claim.taskId lease.token) ∧
    attemptOf uuid5 claim.taskId claim.token ≠ attemptOf uuid5 claim.taskId lease.token

/-- A superseded worker comes to no `RUNNING` persist, and has no uncertain tool
outcome while the execution can be parked. -/
def Harmless (uuid5 : UUID → String → UUID) (s : Workers) : WorkerEvent → Prop
  | .resume i input => ∀ claim a next, s.procs i = some (claim, .await a next) →
      Superseded uuid5 s.store claim → input.failure = none → ∀ identity checkpointId,
        a ≠ .persistState identity .RUNNING checkpointId
  | .aside i _ => ∀ claim a next, s.procs i = some (claim, .await a next) →
      Superseded uuid5 s.store claim → ∀ row, s.store.graphs.get? claim.taskId = some row →
        .NEEDS_RECONCILIATION ∉ graphExecutionTransitions row.state
  | _ => True

/-- Under another thread only a `RUNNING` persist is accepted. -/
theorem persistState_refused (checkpointId : Option String) (draw : Draw)
    (hrow : db.graphs.get? identity.taskId = some row)
    (hthread : row.threadId ≠ identity.threadId) (hstate : state ≠ .RUNNING) :
    ((persistState identity state checkpointId draw).commit db).2 = db := by
  refine (persistState identity state checkpointId draw).commit_cases db rfl fun u db' hrun => ?_
  obtain ⟨moved, db₁, hmove, -⟩ := bind_ok.mp hrun
  have hwrite := (transitionGraphExecution_ok hmove).1
  rw [hrow] at hwrite
  cases hwrite with
  | rollover _ hrunning => exact absurd hrunning hstate
  | touch hsame => exact absurd hsame hthread
  | advance hsame => exact absurd hsame hthread

theorem parkUncertain_refused (draw : Draw) (hrow : db.graphs.get? t = some row)
    (hpark : .NEEDS_RECONCILIATION ∉ graphExecutionTransitions row.state) :
    ((parkUncertain t draw).commit db).2 = db := by
  have hkey : row.taskId = t := Table.key_of_get? hrow
  refine (parkUncertain t draw).commit_cases db rfl fun u db' hrun => ?_
  have hrun := after hrun rfl
  simp only [hrow] at hrun
  split at hrun
  · cases hrun
    rfl
  · rename_i hopen
    obtain ⟨moved, db₂, hmove, -⟩ := bind_ok.mp hrun
    have hwrite := (transitionGraphExecution_ok hmove).1
    rw [hkey, hrow] at hwrite
    cases hwrite with
    | rollover hother => exact absurd rfl hother
    | touch _ hold => exact absurd hold hopen
    | advance _ hlegal => exact absurd hlegal hpark

theorem Superseded.thread (h : Superseded uuid5 db claim) :
    ∃ row, db.graphs.get? claim.taskId = some row ∧ ∀ identity : CheckpointIdentity,
      identity.attemptId = attemptOf uuid5 claim.taskId claim.token →
        row.threadId ≠ identity.threadId := by
  obtain ⟨lease, row, -, hrow, hthread, hother⟩ := h
  refine ⟨row, hrow, fun identity hattempt heq => hother ?_⟩
  have hthreads : threadId row.runId claim.taskId (attemptOf uuid5 claim.taskId lease.token) =
      threadId identity.runId identity.taskId identity.attemptId := hthread.symm.trans heq
  exact ((attempt_of_threadId hthreads).trans hattempt).symm

theorem pointer_of_sameGraphs (h : SameGraphs db db') (t : UUID) :
    db'.pointer t = db.pointer t := by
  rw [pointer, pointer, h]

/-- One awaited action of a worker whose own threads are not the row's. -/
theorem act_pointer {call : Dispatch} {a : Await}
    (howned : a.OwnedBy call) (hrow : db.graphs.get? call.taskId = some row)
    (hthread : ∀ identity : CheckpointIdentity, identity.attemptId = call.attemptId →
      row.threadId ≠ identity.threadId)
    (hquiet : input.failure = none → ∀ identity checkpointId,
      a ≠ .persistState identity .RUNNING checkpointId) :
    (a.act service db input).2.pointer call.taskId = db.pointer call.taskId := by
  unfold act
  split
  · rfl
  rename_i hfailure
  cases a with
  | startClaim call' =>
    exact pointer_of_sameGraphs
      (perform_graphs service (.startClaim call' input.now input.draw input.refusal) rfl db) _
  | persistState identity state checkpointId =>
    have hstate : state ≠ .RUNNING := fun h => hquiet hfailure identity checkpointId (by rw [h])
    have hrow' : db.graphs.get? identity.taskId = some row := howned.1.symm ▸ hrow
    have hrefused := persistState_refused checkpointId input.draw hrow'
      (hthread identity howned.2) hstate
    exact congrArg (pointer · call.taskId) hrefused
  | prepare => rfl
  | assertActive identity =>
    exact congrArg (pointer · call.taskId) (assertActive_reads identity db)
  | ainvoke identity => rfl
  | finishClaim =>
    exact pointer_of_sameGraphs
      ((Schedules.finishClaim (by simp) (by simp)).sameGraphs.commit .refl trivial) _

/-- No step of a superseded worker moves the graph row, in every run in which
superseded workers come to no `RUNNING` persist and to no uncertain outcome. -/
theorem superseded_worker_fenced (service : SchedulerService) (uuid5 : UUID → String → UUID)
    (agentSpecHash : String) (db : Database) (s s' : Workers) (e : WorkerEvent) (i : Nat)
    (claim : TaskClaim) (p : Execution WorkerOutcome)
    (hreach : Reach (step (workers service uuid5 agentSpecHash)) (Harmless uuid5)
      { store := db } s)
    (hok : Harmless uuid5 s e)
    (hstep : step (workers service uuid5 agentSpecHash) s e = some s')
    (hworker : ∃ input, e = .resume i input ∨ e = .aside i input)
    (hproc : s.procs i = some (claim, p)) (hsuperseded : Superseded uuid5 s.store claim) :
    s'.store.pointer claim.taskId = s.store.pointer claim.taskId := by
  have howned : Owned (claim.dispatch uuid5 agentSpecHash) p := workers_owned hreach hproc
  obtain ⟨row, hrow, hthread⟩ := hsuperseded.thread
  obtain ⟨input, rfl | rfl⟩ := hworker
  · simp only [step, hproc] at hstep
    split at hstep
    · rename_i claim' a next hp
      cases hp
      cases hstep
      exact act_pointer howned.1 hrow hthread
        (hok claim a next hproc hsuperseded)
    · cases hstep
  · simp only [step, hproc] at hstep
    split at hstep
    · rename_i claim' a next hp
      cases hp
      cases hstep
      have hpark := hok claim a next hproc hsuperseded row hrow
      cases a with
      | ainvoke identity =>
        have htask : identity.taskId = claim.taskId := howned.1.1
        have hrefused := parkUncertain_refused input.draw hrow hpark
        rw [← htask] at hrefused
        exact congrArg (pointer · claim.taskId) hrefused
      | _ => rfl
    · cases hstep

/-- The last byte of the name stands for its hash. -/
def sampleUuid5 (_ : UUID) (name : String) : UUID :=
  OfNat.ofNat (name.toByteArray.data.toList.getLastD 0).toNat

def sampleClaim (token : UUID) : TaskClaim := ⟨1, 20, "dispatcher", token, 130⟩

abbrev sampleStep : Workers → WorkerEvent → Option Workers :=
  step (workers sampleService sampleUuid5 "spec")

/-- The first worker records that its graph runs and is slow to prepare; its
lease expires, the task is requeued and leased again, and a second worker takes
the graph row over. -/
def sampleTakeover : List WorkerEvent :=
  [.spawn 1 (sampleClaim 9), .resume 1 { now := 110 }, .resume 1 {},
    .environment (.reconcile 20 1 140 {}),
    .environment (.claimReady "dispatcher" 5 150 fun _ => { token := 8 }),
    .spawn 2 (sampleClaim 8), .resume 2 { now := 151 }, .resume 2 {}]

theorem superseded_of (token runId : UUID)
    (hlease : (db.leases.get? claim.taskId).map LeaseRow.token = some token)
    (hrow : (db.graphs.get? claim.taskId).map (fun row => (row.runId, row.threadId)) =
      some (runId, threadId runId claim.taskId (attemptOf uuid5 claim.taskId token)))
    (hother : attemptOf uuid5 claim.taskId claim.token ≠ attemptOf uuid5 claim.taskId token) :
    Superseded uuid5 db claim := by
  obtain ⟨lease, hget, rfl⟩ := Option.map_eq_some_iff.mp hlease
  obtain ⟨row, hget', heq⟩ := Option.map_eq_some_iff.mp hrow
  obtain ⟨rfl, hthread⟩ := Prod.mk.inj heq
  exact ⟨lease, row, hget, hget', hthread, hother⟩

/-- A `RUNNING` persist is let through only for a worker that is not
superseded. -/
def harmless (s : Workers) : WorkerEvent → Bool
  | .resume i input =>
    match s.procs i with
    | some (claim, .await (.persistState _ .RUNNING _) _) =>
      input.failure.isSome || (s.store.graphs.get? claim.taskId).isNone ||
        (s.store.leases.get? claim.taskId).map LeaseRow.token = some claim.token
    | _ => true
  | .aside _ _ => false
  | _ => true

theorem harmless_of_check (s : Workers) (e : WorkerEvent) (h : harmless s e = true) :
    Harmless uuid5 s e := by
  cases e with
  | resume =>
    rintro claim a next hproc ⟨lease, row, hlease, hrow, -, hother⟩ hfailure identity
      checkpointId rfl
    simp only [harmless, hproc, hfailure, hrow, hlease] at h
    simp_all
  | aside => cases h
  | environment | spawn => trivial

/-- The heartbeat of the first worker cancels it while it prepares. -/
def sampleLostLease : List WorkerEvent :=
  sampleTakeover ++ [.resume 1 { failure := some .cancelled }]

theorem superseded_worker_fenced_sample :
    ∃ s s' : Workers, Superseded sampleUuid5 s.store (sampleClaim 9) ∧
      sampleStep s (.resume 1 { now := 160 }) = some s' ∧
      s'.store.pointer 1 = s.store.pointer 1 ∧
      s.store.pointer 1 = some (threadId 40 1 (attemptOf sampleUuid5 1 8), .RUNNING) := by
  obtain ⟨s, hreach, hclaim, hsuperseded, hpointer, hok, hstep⟩ : ∃ s : Workers,
      Reach sampleStep (Harmless sampleUuid5) { store := sampleDispatched } s ∧
        ((s.procs 1).any fun w => w.1 = sampleClaim 9) ∧
        Superseded sampleUuid5 s.store (sampleClaim 9) ∧
        s.store.pointer 1 = some (threadId 40 1 (attemptOf sampleUuid5 1 8), .RUNNING) ∧
        harmless s (.resume 1 { now := 160 }) ∧ (sampleStep s (.resume 1 { now := 160 })).isSome :=
    ⟨_, .checked harmless_of_check sampleLostLease (by decide +kernel), by decide +kernel,
      superseded_of 8 40 (by decide +kernel) (by decide +kernel) (by decide +kernel),
      by decide +kernel, by decide +kernel, by decide +kernel⟩
  obtain ⟨⟨_, p⟩, hproc, rfl⟩ := exists_of_any hclaim
  exact ⟨s, _, hsuperseded, eq_some_get hstep, superseded_worker_fenced sampleService sampleUuid5
    "spec" sampleDispatched s _ _ 1 _ p hreach (harmless_of_check s _ hok) (eq_some_get hstep)
    ⟨_, .inl rfl⟩ hproc hsuperseded, hpointer⟩

/-- The first worker comes back from its preparation and finds the task
running. -/
def sampleReturn : List WorkerEvent := sampleTakeover ++ [.resume 1 {}, .resume 1 {}]

def sampleReturned : Option Workers :=
  sampleReturn.foldlM sampleStep { store := sampleDispatched }

/-- The first worker, back from its preparation, takes the row of the attempt
that holds the lease. -/
theorem superseded_worker_takes_back :
    Reachable sampleService sampleDispatched ∧ ∃ s s' : Workers,
      Reach sampleStep (fun _ _ => True) { store := sampleDispatched } s ∧
      (s.procs 1).map Prod.fst = some (sampleClaim 9) ∧
      Superseded sampleUuid5 s.store (sampleClaim 9) ∧
      sampleStep s (.resume 1 {}) = some s' ∧
      s.store.pointer 1 = some (threadId 40 1 (attemptOf sampleUuid5 1 8), .RUNNING) ∧
      s'.store.pointer 1 = some (threadId 40 1 (attemptOf sampleUuid5 1 9), .RUNNING) :=
  ⟨.next sampleLeased_reachable trivial rfl, _, _,
    .run sampleReturn (fun _ _ _ => trivial) (by decide +kernel), by decide +kernel,
    superseded_of 8 40 (by decide +kernel) (by decide +kernel) (by decide +kernel),
    eq_some_get (by decide +kernel), by decide +kernel, by decide +kernel⟩

end AutoSwe
