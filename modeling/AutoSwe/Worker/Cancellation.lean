import AutoSwe.Worker.NodeLoop

/-!
# A cancelled invocation converges

An invocation is verified against cancellations that come at any of its waits
(`invokeNodes_wp`). When it has exited, the reconciler brings a cancelled task
and its graph row together, provided the invocation did not record `COMPLETED`
or `FAILED` after the cancellation (`cancellation_converges`). It does so when a
node notices the cancellation (`node_check_quarantines`).
-/

namespace AutoSwe

open Relational Transaction Coroutine LabelledRun Prog Table Process Database Fleet

/-! ## An execution -/

/-- The rows that the invocation works on are there and are its own. -/
structure Executing (identity : CheckpointIdentity) (db : Database) : Prop where
  task : ∃ task, db.tasks.get? identity.taskId = some task ∧
    task.projectId = identity.projectId ∧ task.runId = identity.runId ∧
    task.repositoryId = identity.repositoryId ∧ task.state ∈ [TaskStatus.RUNNING, .CANCELLED]
  run : ∃ run, db.runs.get? identity.runId = some run ∧
    run.repositoryId = identity.repositoryId ∧ run.baselineCommit = identity.baselineCommit
  attempt : ∃ attempt, db.attempts.get? identity.attemptId = some attempt ∧
    attempt.taskId = identity.taskId
  graph : ∃ row, db.graphs.get? identity.taskId = some row ∧ row.identity = identity.graph ∧
    row.threadId = identity.threadId

structure Running (identity : CheckpointIdentity) (db : Database) : Prop where
  rows : Executing identity db
  threads : DistinctThreads db
  state : db.graphState identity.taskId = some .RUNNING

/-- The graph states that the reconciler does not bring together with a
cancelled task. -/
def contraryStates : List GraphExecutionState := [.COMPLETED, .FAILED, .NEEDS_RECONCILIATION]

def Convergent (identity : CheckpointIdentity) (db : Database) : Prop :=
  Executing identity db ∧ (db.taskState identity.taskId = some .CANCELLED →
    ∀ state, db.graphState identity.taskId = some state → state ∉ contraryStates)

section
variable {identity : CheckpointIdentity}

theorem Executing.cancelling (h : Executing identity db) (hc : Cancelling db db') :
    Executing identity db' := by
  obtain ⟨task, htask, hproject, hrunId, hrepository, hstate⟩ := h.task
  obtain ⟨run, hrun, hrunRepository, hbaseline⟩ := h.run
  obtain ⟨task', htask', hproject', hrunId', hrepository', hstate'⟩ := hc.tasks _ _ htask
  obtain ⟨run', hrun', hrunRepository', hbaseline'⟩ := hc.runs _ _ hrun
  refine ⟨⟨task', htask', hproject'.trans hproject, hrunId'.trans hrunId,
    hrepository'.trans hrepository, ?_⟩, ⟨run', hrun', hrunRepository'.trans hrunRepository,
    hbaseline'.trans hbaseline⟩, ?_, ?_⟩
  · rcases hstate' with hstate' | hstate'
    · rwa [hstate']
    · simp [hstate']
  · rw [hc.attempts]
    exact h.attempt
  · rw [hc.graphs]
    exact h.graph

theorem Running.cancelling (h : Running identity db) (hc : Cancelling db db') :
    Running identity db' := by
  refine ⟨h.rows.cancelling hc, h.threads.sameGraphs hc.graphs, ?_⟩
  rw [graphState, hc.graphs]
  exact h.state

theorem Running.convergent (h : Running identity db) : Convergent identity db := by
  refine ⟨h.rows, fun _ state hstate => ?_⟩
  rw [h.state] at hstate
  cases hstate
  decide

theorem Executing.notMismatched {task : TaskRow} (h : Executing identity db)
    (htask : db.tasks.get? identity.taskId = some task) : db.mismatched task = false := by
  obtain ⟨row, hrow, hidentity, -⟩ := h.graph
  obtain ⟨run, hrun, -, hbaseline⟩ := h.run
  obtain ⟨task', htask', -, hrunId, hrepository, -⟩ := h.task
  rw [htask] at htask'
  cases htask'
  have hid : task.id = identity.taskId := key_of_get? htask
  simp only [GraphExecutionRow.identity, CheckpointIdentity.graph, GraphIdentity.mk.injEq]
    at hidentity
  simp [mismatched, hid, hrow, graphMismatch, hidentity, hrunId, hrepository, hrun,
    hbaseline]

/-- The check of a running execution fails only by its cancellation. -/
theorem Executing.assertActive (h : Executing identity db) :
    ((AutoSwe.assertActive identity).commit db = (.ok (), db) ∧
        db.taskState identity.taskId ≠ some .CANCELLED) ∨
      ∃ error, (AutoSwe.assertActive identity).commit db = (.error error, db) ∧
        error.kind = .workflowCancellation := by
  obtain ⟨task, htask, hproject, hrunId, hrepository, hstate⟩ := h.task
  obtain ⟨run, hrun, hrunRepository, hbaseline⟩ := h.run
  obtain ⟨attempt, hattempt, hattemptTask⟩ := h.attempt
  have htaskState : db.taskState identity.taskId = some task.state := by
    rw [taskState, htask, Option.map_some]
  have hfilter : ((some task).filter fun task => task.projectId = identity.projectId) =
      some task := by
    simp [hproject]
  simp only [AutoSwe.assertActive, commit, run_bind, run_query, htask, hfilter, hrun,
    hattempt, checkActive, hrunId, hattemptTask, hrepository, hrunRepository, hbaseline, ne_eq,
    not_true_eq_false, or_self, if_false, htaskState]
  by_cases hcancelled : task.state = .CANCELLED ∨ run.cancellationRequestedAt.isSome
  · rw [if_pos hcancelled]
    exact .inr ⟨_, rfl, rfl⟩
  · have hrunning : task.state = .RUNNING := by
      simp only [List.mem_cons, List.not_mem_nil, or_false] at hstate
      exact hstate.resolve_right fun h => hcancelled (.inl h)
    rw [if_neg hcancelled, if_neg (not_not.mpr hrunning)]
    exact .inl ⟨rfl, fun h => hcancelled (.inl (Option.some.inj h))⟩

theorem Running.persistState {state : GraphExecutionState} (h : Running identity db)
    (hlegal : state = .RUNNING ∨ state ∈ graphExecutionTransitions .RUNNING)
    (checkpointId : Option String) (draw : Draw) :
    ∃ db', (AutoSwe.persistState identity state checkpointId draw).commit db = (.ok (), db') ∧
      Executing identity db' ∧ DistinctThreads db' ∧
      db'.graphState identity.taskId = some state ∧ db'.tasks = db.tasks := by
  obtain ⟨⟨htask, hrun, hattempt, row, hrow, hidentity, hthread⟩, hthreads, hrunning⟩ := h
  have hstate : row.state = .RUNNING := by
    rw [graphState, hrow] at hrunning
    exact Option.some.inj hrunning
  have hmove : row.state = state ∨ state ∈ graphExecutionTransitions row.state := by
    rw [hstate]
    exact hlegal.imp_left Eq.symm
  obtain ⟨moved, db', hwrite⟩ := transitionGraphExecution_advances hrow hmove
    (hthreads _ _ hrow) checkpointId draw
  rw [hidentity, hthread] at hwrite
  have hcommit : (AutoSwe.persistState identity state checkpointId draw).commit db =
    (.ok (), db') :=
    commit_of_ok (bind_ok.mpr ⟨moved, db', hwrite, rfl⟩)
  have hthreads' := hthreads.write hwrite
  obtain ⟨hgraph, hkey, hident, audit, outbox, durations, rfl⟩ := transitionGraphExecution_ok hwrite
  have hget : (db.graphs.put moved).get? identity.taskId = some moved := by
    rw [get?_put, if_pos hkey.symm]
  refine ⟨_, hcommit, ⟨htask, hrun, hattempt, moved, hget, hident, hgraph.thread⟩, hthreads',
    ?_, rfl⟩
  rw [graphState, hget, Option.map_some, hgraph.state]

end

/-! ## The invocation under cancellations -/

/-- An outcome that a cancellation must not precede. -/
def NodeAwait.Decisive : NodeAwait → Prop
  | .runtime (.persistState _ state _) => state ∈ [GraphExecutionState.COMPLETED, .FAILED]
  | _ => False

/-- The step of a cancelled invocation is itself cancelled, or it goes through
and no node looks for the cancellation in it. -/
def Heeds (input : Input) (a : NodeAwait) : Prop :=
  match input.failure with
  | some failure => failure = .cancelled
  | none =>
    match a with
    | .cancellationRequested _ => False
    | .agetState => ∃ state, input.snapshot.state = .ok state
    | _ => True

def cancellable (service : SchedulerService) (t : UUID) :
    Setting Database NodeAwait NodeAwait.Result Failure Input where
  act := NodeAwait.act service
  permits db input a := db.taskState t = some .CANCELLED → Heeds input a
  meanwhile a db db' := Cancelling db db' ∧ (a.Decisive → db' = db)
  refl _ db := ⟨.refl db, fun _ => rfl⟩
  trans h h' := ⟨h.1.trans h'.1, fun hd => (h'.2 hd).trans (h.2 hd)⟩

def Failing (identity : CheckpointIdentity) (failure : Failure) (db : Database) : Prop :=
  Running identity db ∧
    (db.taskState identity.taskId = some .CANCELLED → failure.graphState = .CANCELLED)

/-- `Q` after a step that went through, and a failure to record otherwise. -/
def OrFailing (identity : CheckpointIdentity) (Q : α → Database → Prop) :
    Except Failure α → Database → Prop
  | .ok a, db => Q a db
  | .error failure, db => Failing identity failure db

section
variable (service : SchedulerService) (identity : CheckpointIdentity)

abbrev Copes (p : NodeRun α) (Q : α → Database → Prop) (db : Database) : Prop :=
  p.wp (cancellable service identity.taskId) (OrFailing identity Q) db

variable {service identity}

/-- A step of the running invocation starts in a state in which it still runs. -/
theorem awaitNode_wp {a : NodeAwait} {Q : a.Result → Database → Prop} (h : Running identity db)
    (hstep : ∀ db', Running identity db' → (a.Decisive → db' = db) → ∀ input : Input,
      input.failure = none → (db'.taskState identity.taskId = some .CANCELLED → Heeds input a) →
        OrFailing identity Q (a.act service db' input).1 (a.act service db' input).2) :
    Copes service identity (awaitNode a) Q db := by
  refine wp.perform fun db' hmeanwhile input hpermits => ?_
  have hrunning := h.cancelling hmeanwhile.1
  cases hfailure : input.failure with
  | none => exact hstep db' hrunning hmeanwhile.2 input hfailure hpermits
  | some failure =>
    have hact : a.act service db' input = (.error failure, db') := by
      simp only [NodeAwait.act, hfailure]
    have hfailing : Failing identity failure db' := by
      refine ⟨hrunning, fun hcancelled => ?_⟩
      have hheeds := hpermits hcancelled
      simp only [Heeds, hfailure] at hheeds
      rw [hheeds]
      rfl
    change OrFailing identity Q (a.act service db' input).1 (a.act service db' input).2
    rw [hact]
    exact hfailing

theorem bind_wp {f : α → NodeRun β} (h : Copes service identity p Q db)
    (hf : ∀ a db, Q a db → Copes service identity (f a) Q' db) :
    Copes service identity (p >>= f) Q' db :=
  wp.bind h hf fun _ _ => id

theorem interpret_bind_wp {p : Execution α} {f : α → Execution β}
    (h : Copes service identity (p.interpret (expand nodes)) Q db)
    (hf : ∀ a db, Q a db → Copes service identity ((f a).interpret (expand nodes)) Q' db) :
    Copes service identity ((p >>= f).interpret (expand nodes)) Q' db :=
  .interpret_bind h hf fun _ _ => id

theorem assertActive_wp (h : Running identity db) :
    Copes service identity ((await (.assertActive identity)).interpret (expand nodes))
      (fun _ db => Running identity db ∧ db.taskState identity.taskId ≠ some .CANCELLED) db := by
  refine .interpret_perform (awaitNode_wp h fun db' hrunning _ input hfailure _ => ?_)
  simp only [NodeAwait.act, Await.act, hfailure]
  rcases hrunning.rows.assertActive with ⟨hok, hopen⟩ | ⟨error, herror, hkind⟩
  · rw [hok]
    exact ⟨hrunning, hopen⟩
  · rw [herror]
    exact ⟨hrunning, fun _ => if_pos hkind⟩

/-- While nothing but cancellations happens, the outcome is recorded. -/
theorem persistState_wp (h : Running identity db)
    (hlegal : state = .RUNNING ∨ state ∈ graphExecutionTransitions .RUNNING)
    (hdecided : state ∈ [GraphExecutionState.COMPLETED, .FAILED] →
      db.taskState identity.taskId ≠ some .CANCELLED) (checkpointId : Option String) :
    Copes service identity
      ((await (.persistState identity state checkpointId)).interpret (expand nodes))
      (fun _ db => Executing identity db ∧ DistinctThreads db ∧
        db.graphState identity.taskId = some state ∧
        (state ∈ [GraphExecutionState.COMPLETED, .FAILED] →
          db.taskState identity.taskId ≠ some .CANCELLED)) db := by
  refine .interpret_perform (awaitNode_wp h fun db' hrunning hsame input hfailure _ => ?_)
  obtain ⟨db₁, hcommit, hexecuting, hthreads, hstate, htasks⟩ :=
    hrunning.persistState hlegal checkpointId input.draw
  simp only [NodeAwait.act, Await.act, hfailure, hcommit]
  refine ⟨hexecuting, hthreads, hstate, fun hdecisive => ?_⟩
  change db₁.taskState identity.taskId ≠ some .CANCELLED
  rw [taskState, htasks, hsame hdecisive]
  exact hdecided hdecisive

theorem cancellationRequested_wp (h : Running identity db) :
    Copes service identity (awaitNode (.cancellationRequested identity.taskId))
      (fun (cancelled : Bool) db => Running identity db ∧ cancelled = false) db := by
  refine awaitNode_wp h fun db' hrunning _ input hfailure hheeds => ?_
  simp only [NodeAwait.act, hfailure]
  refine ⟨hrunning, ?_⟩
  obtain ⟨task, htask, -⟩ := hrunning.rows.task
  simp only [cancellationRequested, htask, decide_eq_false_iff_not]
  intro hcancelled
  have hno := hheeds (by rw [taskState, htask, Option.map_some, hcancelled])
  simp only [Heeds, hfailure] at hno

theorem execute_wp (h : Running identity db) :
    Copes service identity (awaitNode (.execute identity.taskId node))
      (fun _ => Running identity) db := by
  refine awaitNode_wp h fun db' hrunning _ input hfailure _ => ?_
  simp only [NodeAwait.act, hfailure]
  exact hrunning

theorem taskNode_wp (h : Running identity db) :
    Copes service identity (taskNode identity.taskId node) (fun _ => Running identity) db := by
  refine bind_wp (cancellationRequested_wp h) ?_
  rintro _ db ⟨hrunning, rfl⟩
  refine bind_wp (execute_wp hrunning) fun _ db hrunning => ?_
  refine bind_wp (cancellationRequested_wp hrunning) ?_
  rintro _ db ⟨hrunning, rfl⟩
  exact hrunning

/-- What a cancelled invocation reads of the graph run can be interpreted. -/
theorem ainvoke_wp (h : Running identity db) :
    Copes service identity (ainvoke identity.taskId nodes)
      (fun snapshot db => Running identity db ∧
        (db.taskState identity.taskId = some .CANCELLED → ∃ state, snapshot.state = .ok state))
      db := by
  induction nodes generalizing db with
  | nil =>
    refine awaitNode_wp h fun db' hrunning _ input hfailure hheeds => ?_
    simp only [NodeAwait.act, hfailure]
    refine ⟨hrunning, fun hcancelled => ?_⟩
    have hread := hheeds hcancelled
    simp only [Heeds, hfailure] at hread
    exact hread
  | cons node rest ih => exact bind_wp (taskNode_wp h) fun _ db hrunning => ih hrunning

theorem ofExcept_wp {r : Except Failure α} (h : Running identity db)
    (hread : db.taskState identity.taskId = some .CANCELLED → ∃ a, r = .ok a) :
    Copes service identity ((Process.ofExcept r : Execution α).interpret (expand nodes))
      (fun a db => r = .ok a ∧ Running identity db) db := by
  cases r with
  | ok a => exact ⟨rfl, h⟩
  | error failure =>
    refine ⟨h, fun hcancelled => ?_⟩
    obtain ⟨a, ha⟩ := hread hcancelled
    cases ha

theorem snapshot_legal {snapshot : GraphSnapshot} (h : snapshot.state = .ok state) :
    state ∈ graphExecutionTransitions .RUNNING := by
  unfold GraphSnapshot.state at h
  split at h
  · rename_i kind _
    cases h
    cases kind <;> decide
  · cases h
  · cases h
    cases snapshot.unfinished <;> decide

theorem snapshot_contrary {snapshot : GraphSnapshot} (h : snapshot.state = .ok state)
    (hcontrary : state ∈ contraryStates) : state = .COMPLETED := by
  unfold GraphSnapshot.state at h
  split at h
  · rename_i kind _
    cases h
    cases kind <;> simp [WaitKind.graphState, contraryStates] at hcontrary
  · cases h
  · cases h
    cases hunfinished : snapshot.unfinished with
    | false => rfl
    | true => simp [hunfinished, contraryStates] at hcontrary

theorem runGraph_wp (h : Running identity db) (nodes : List String) :
    Copes service identity ((runGraph identity).interpret (expand nodes))
      (fun _ => Convergent identity) db := by
  refine interpret_bind_wp (.interpret_perform (ainvoke_wp h)) ?_
  rintro snapshot db ⟨hrunning, hread⟩
  refine interpret_bind_wp (ofExcept_wp hrunning hread) ?_
  rintro state db ⟨hsnapshot, hrunning⟩
  refine interpret_bind_wp (assertActive_wp hrunning) ?_
  rintro _ db ⟨hrunning, hopen⟩
  refine interpret_bind_wp (persistState_wp hrunning (.inr (snapshot_legal hsnapshot))
    (fun _ => hopen) snapshot.checkpointId) ?_
  rintro _ db ⟨hexecuting, -, hstate, hdecided⟩
  refine ⟨hexecuting, fun hcancelled recorded hrecorded hcontrary => ?_⟩
  rw [hstate] at hrecorded
  cases hrecorded
  have hcompleted := snapshot_contrary hsnapshot hcontrary
  exact hdecided (by simp [hcompleted]) hcancelled

/-- An invocation that only meets cancellations, and heeds them, ends well. -/
theorem invokeNodes_wp (h : Running identity db) :
    (invokeNodes identity nodes).wp (cancellable service identity.taskId)
      (fun _ db => Convergent identity db) db := by
  refine .interpret_bind (assertActive_wp h) ?_
    fun _ db hfailing => hfailing.1.convergent
  rintro _ db ⟨hrunning, -⟩
  refine .interpret_bind (persistState_wp hrunning (.inl rfl) (by simp) none) ?_
    fun _ db hfailing => hfailing.1.convergent
  rintro _ db ⟨hexecuting, hthreads, hstate, -⟩
  refine .interpret_tryCatch (runGraph_wp ⟨hexecuting, hthreads, hstate⟩ nodes) (fun _ _ => id) ?_
  rintro failure db ⟨hrunning, hcancelled⟩
  have hrecord : failure.graphState = .CANCELLED ∨ failure.graphState = .FAILED := by
    cases failure with
    | cancelled => exact .inl rfl
    | raised error => exact ite_eq_or_eq ..
  refine .interpret_bind (persistState_wp hrunning ?_ ?_ none) ?_
    fun _ db hfailing => hfailing.1.convergent
  · rcases hrecord with hrecord | hrecord <;> rw [hrecord] <;> decide
  · intro hdecisive htask
    simp [hcancelled htask] at hdecisive
  · rintro _ db ⟨hexecuting, -, hstate, hdecided⟩
    refine ⟨hexecuting, fun htask recorded hrecorded hcontrary => ?_⟩
    rw [hstate] at hrecorded
    cases hrecorded
    rcases hrecord with hrecord | hrecord
    · simp [hrecord, contraryStates] at hcontrary
    · exact hdecided (by simp [hrecord]) htask

end

/-! ## The reconciler after the exit -/

def Converges (projectId t : UUID) (now : Time) (draw : Draw) (db : Database) : Prop :=
  ∃ action db', (reconcile projectId t now draw).run db = .ok (action, db') ∧
    action ≠ .QUARANTINE ∧ db'.taskState t = some .CANCELLED ∧ db'.graphState t = some .CANCELLED

theorem judge_cancelled (h : state ∉ contraryStates) :
    judge .CANCELLED (some state) false expired =
      if state = .CANCELLED then .NOOP else .DOMAIN_TERMINAL_WINS := by
  cases state <;> simp_all [judge, contraryStates, terminalTaskStates, terminalGraphStates]

theorem Convergent.reconcile (h : Convergent identity db)
    (hcancelled : db.taskState identity.taskId = some .CANCELLED) :
    Converges identity.projectId identity.taskId now draw db := by
  obtain ⟨hexecuting, hstates⟩ := h
  obtain ⟨task, htask, hproject, -⟩ := hexecuting.task
  obtain ⟨row, hrow, -⟩ := hexecuting.graph
  have hid : task.id = identity.taskId := key_of_get? htask
  have hstate : task.state = .CANCELLED := by
    rw [taskState, htask] at hcancelled
    exact Option.some.inj hcancelled
  have hgraph : db.graphState identity.taskId = some row.state := by
    rw [graphState, hrow, Option.map_some]
  have hdecision : db.decision task now =
      if row.state = .CANCELLED then .NOOP else .DOMAIN_TERMINAL_WINS := by
    rw [decision_eq_judge, hstate, hid, hrow, hexecuting.notMismatched htask]
    exact judge_cancelled (hstates hcancelled _ hgraph)
  obtain ⟨db', hrun, hnoop, hact⟩ :=
    run_reconcile (taskIn_eq_some.mpr ⟨htask, hproject⟩) now draw
  by_cases hsettled : row.state = .CANCELLED
  · rw [hdecision, if_pos hsettled] at hrun hnoop
    cases hnoop rfl
    exact ⟨_, _, hrun, by simp, hcancelled, hgraph.trans (congrArg some hsettled)⟩
  · rw [hdecision, if_neg hsettled] at hrun hact
    have hrewritten := hact (by simp)
    refine ⟨_, _, hrun, by simp, ?_, ?_⟩
    · rw [← hid, hrewritten.taskState]
      exact congrArg some hstate
    · rw [← hid, hrewritten.graphState, hid, hgraph]
      rfl

/-! ## The system -/

def invoked (db : Database) (m : Invocation) : NodeWorkers where
  store := db
  procs := Function.update (fun _ => none) 0 (some (m, invokeNodes m.1 m.2))

/-- Until the invocation has exited it goes on and is cancelled. A cancellation
does not come between its decision on an outcome and the record of it, and no
node meets the cancellation before the heartbeat or the runtime does. -/
def HeedsCancellation (t : UUID) (s : NodeWorkers) : NodeEvent → Prop
  | .environment operation => operation.Cancels s.store ∧
      ∃ m a next, s.procs 0 = some (m, .await a next) ∧ ¬ a.Decisive
  | .resume 0 input => ∀ m a next, s.procs 0 = some (m, .await a next) →
      s.store.taskState t = some .CANCELLED → Heeds input a
  | _ => False

/-- In every run in which the cancellation is heeded, the exit of the invocation
leaves a pair that one call of the reconciler cancels. -/
theorem cancellation_converges (service : SchedulerService) {identity : CheckpointIdentity}
    (hreach : Reachable service db) (hexecuting : Executing identity db)
    (hstate : db.graphState identity.taskId = some .RUNNING) (nodes : List String) {s : NodeWorkers}
    (hrun : Reach (step (nodeWorkers service)) (HeedsCancellation identity.taskId)
      (invoked db (identity, nodes)) s)
    (hproc : s.procs 0 = some (m, p)) (hexit : p.ended = true)
    (hcancelled : s.store.taskState identity.taskId = some .CANCELLED) (now : Time) (draw : Draw) :
    Converges identity.projectId identity.taskId now draw s.store := by
  have hwp : p.wp (cancellable service identity.taskId) (fun _ db => Convergent identity db)
      s.store := by
    refine wp (i := 0) (Q := fun _ _ db => Convergent identity db) rfl ?_ ?_ ?_ ?_ hrun m p
      hproc
    · rintro m p hstart
      obtain ⟨rfl, rfl⟩ : (identity, nodes) = m ∧ invokeNodes identity nodes = p := by
        simpa [invoked] using hstart
      exact invokeNodes_wp ⟨hexecuting, hreach.distinctThreads, hstate⟩
    · intro s m hspawn
      cases hspawn
    · intro s input m a next hpermitted hproc
      exact hpermitted m a next hproc
    · intro s e s' m p hpermitted hstep hother hproc
      cases e with
      | environment operation =>
        obtain ⟨hcancels, m', a, next, hproc', hundecided⟩ := hpermitted
        rw [hproc] at hproc'
        cases hproc'
        cases hstep
        exact ⟨hcancels.cancelling service, fun hdecisive => absurd hdecisive hundecided⟩
      | resume j input =>
        cases j with
        | zero => exact absurd rfl (hother input)
        | succ j => cases hpermitted
      | spawn => cases hpermitted
      | aside => cases hpermitted
  cases p with
  | await => cases hexit
  | done outcome => exact hwp.reconcile hcancelled
  | fail failure => exact hwp.reconcile hcancelled

/-- The sample task with a worker that has recorded that its graph runs. -/
def sampleCheckpoint : CheckpointIdentity := ⟨40, 1, 50, 20, 30, sampleRun.baselineCommit⟩

def sampleInvoked : Database :=
  [Operation.startClaim sampleDispatch 110 {} {},
    .graphWrite 1 50 sampleIdentity sampleCheckpoint.threadId .RUNNING none {}].foldl
      (perform sampleService) sampleDispatched

theorem sampleInvoked_reachable : Reachable sampleService sampleInvoked :=
  reachable_foldl (.next sampleLeased_reachable trivial rfl) _

theorem sampleInvoked_executing : Executing sampleCheckpoint sampleInvoked :=
  ⟨⟨_, rfl, by decide +kernel⟩, ⟨_, rfl, by decide +kernel⟩, ⟨_, rfl, by decide +kernel⟩,
    ⟨_, rfl, by decide +kernel⟩⟩

abbrev sampleNodeStep : NodeWorkers → NodeEvent → Option NodeWorkers :=
  step (nodeWorkers sampleService)

def sampleInvocation : NodeWorkers :=
  invoked sampleInvoked (sampleCheckpoint, taskNodeSequences .TEST)

/-- Cancellations that the invocation awaits no outcome for, and steps that are
not cancelled only while the task is not. -/
def heedsCancellation (s : NodeWorkers) : NodeEvent → Bool
  | .environment (.cancelTask ..) =>
    match s.procs 0 with
    | some (_, .await (.runtime _) _) | some (_, .done _) | some (_, .fail _) | none => false
    | some _ => true
  | .resume 0 ⟨_, _, _, none, _⟩ => s.store.taskState 1 ≠ some .CANCELLED
  | .resume 0 ⟨_, _, _, some .cancelled, _⟩ => true
  | _ => false

theorem heedsCancellation_of_check (s : NodeWorkers) (e : NodeEvent)
    (h : heedsCancellation s e = true) : HeedsCancellation 1 s e := by
  unfold heedsCancellation at h
  split at h
  · split at h
    · cases h
    · cases h
    · cases h
    · cases h
    · rename_i w hother hdone hfail hproc
      obtain ⟨m, p⟩ := w
      cases p with
      | done a => exact absurd rfl (hdone m a)
      | fail failure => exact absurd rfl (hfail m failure)
      | await a next =>
        refine ⟨trivial, m, a, next, hproc, ?_⟩
        cases a with
        | runtime a => exact absurd rfl (hother m a next)
        | _ => exact id
  · intro m a next _ hcancelled
    simp [hcancelled] at h
  · intro m a next _ _
    exact rfl
  · cases h

/-- The heartbeat meets the cancellation before the first node does, and cancels
the record of it too. -/
theorem cancellation_converges_sample :
    ∃ s : NodeWorkers, s.store.taskState 1 = some .CANCELLED ∧
      s.store.graphState 1 = some .RUNNING ∧ Converges 20 1 120 {} s.store := by
  have hrun : (checkedRun sampleNodeStep heedsCancellation
      [.resume 0 {}, .resume 0 {}, .environment (.cancelTask 20 1 115 {}),
        .resume 0 { failure := some .cancelled }, .resume 0 { failure := some .cancelled }]
      sampleInvocation).any (fun s => (s.procs 0).any (fun w => w.2.ended) ∧
        s.store.taskState 1 = some .CANCELLED ∧ s.store.graphState 1 = some .RUNNING) := by
    decide +kernel
  obtain ⟨s, hs, hexit, hcancelled, hgraph⟩ := exists_of_any hrun
  obtain ⟨⟨m, p⟩, hproc, hexit⟩ := Option.any_eq_true _ _ |>.mp hexit
  refine ⟨s, hcancelled, hgraph, ?_⟩
  exact cancellation_converges sampleService sampleInvoked_reachable sampleInvoked_executing
    (by decide +kernel) (taskNodeSequences .TEST)
    (Reach.checkedRun heedsCancellation_of_check .start _ hs) hproc hexit hcancelled 120 {}

def sampleNoticed : List NodeEvent :=
  [.resume 0 {}, .resume 0 {}, .environment (.cancelTask 20 1 115 {}), .resume 0 {}, .resume 0 {}]

/-- The node's exception is recorded as a failure of the graph, and the
reconciler quarantines the cancelled task. -/
theorem node_check_quarantines :
    Reachable sampleService sampleInvoked ∧ Executing sampleCheckpoint sampleInvoked ∧
      sampleInvoked.graphState 1 = some .RUNNING ∧ ∃ s : NodeWorkers,
        Reach sampleNodeStep (fun _ _ => True) sampleInvocation s ∧
        ((s.procs 0).any fun w => w.2.ended) ∧ s.store.taskState 1 = some .CANCELLED ∧
        s.store.graphState 1 = some .FAILED ∧
        ((reconcile 20 1 120 {}).run s.store).toOption.map Prod.fst = some .QUARANTINE ∧
        ¬ Converges 20 1 120 {} s.store := by
  refine ⟨sampleInvoked_reachable, sampleInvoked_executing, by decide +kernel, _,
    .run sampleNoticed (fun _ _ _ => trivial) (by decide +kernel), by decide +kernel,
    by decide +kernel, by decide +kernel, ?_⟩
  suffices hquarantined : _ by
    refine ⟨hquarantined, ?_⟩
    rintro ⟨action, db', hreconcile, hother, -⟩
    rw [hreconcile] at hquarantined
    exact hother (Option.some.inj hquarantined)
  decide +kernel

end AutoSwe
