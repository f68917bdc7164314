import AutoSwe.Scheduler.Retry

/-!
# One reconciliation settles a pair

`decideAction` looks at two states, at whether the graph row belongs to another
execution and at whether the lease has expired: `judge` is that decision alone.
`run_reconcile` says what a call leaves behind, and evaluating `judge` on that
gives the pairs a second call still moves.
-/

namespace AutoSwe

open Relational Transaction Prog Table Database Option

/-! ## The decision on states -/

/-- The decision for a task state beside a graph state. -/
def judge (state : TaskStatus) (graph : Option GraphExecutionState) (mismatch expired : Bool) :
    ReconciliationAction :=
  match graph with
  | none => if state = .RUNNING then .REQUEUE_MISSING_CHECKPOINT else .NOOP
  | some graph =>
    if graph = .NEEDS_RECONCILIATION then .NOOP
    else if graph = .CANCELLED ∧ state ∉ terminalTaskStates then .GRAPH_TERMINAL_WINS
    else if mismatch then .QUARANTINE
    else if state ∈ terminalTaskStates then
      if graph = .CANCELLED then .NOOP
      else if graph ∈ terminalGraphStates then
        if (state = .COMPLETED ∧ graph = .COMPLETED) ∨ (state = .FAILED ∧ graph = .FAILED) then
          .NOOP
        else .QUARANTINE
      else .DOMAIN_TERMINAL_WINS
    else if state = .RUNNING then
      if graph = .COMPLETED then .FINALIZE_DOMAIN
      else if expired then .RESUME_CHECKPOINT
      else .NOOP
    else .NOOP

theorem decideAction_eq_judge (task : TaskRow) (run : Option RunRow)
    (graph : Option GraphExecutionRow) (lease : Option LeaseRow) (now : Time) :
    decideAction task run graph lease now =
      judge task.state (graph.map GraphExecutionRow.state) (graph.any (graphMismatch task run))
        (lease.any fun lease => lease.expiresAt ≤ now) := by
  cases graph with
  | none =>
    by_cases hterminal : task.state ∈ terminalTaskStates
    · have hrunning : task.state ≠ .RUNNING := by
        intro h
        simp [h, terminalTaskStates] at hterminal
      simp [decideAction, judge, decideTerminal, hterminal, hrunning]
    · simp [decideAction, judge, decideRunning, hterminal]
  | some graph => simp [decideAction, judge, decideTerminal, decideRunning]

def ReconciliationAction.stateAfter (action : ReconciliationAction) (state : TaskStatus) :
    TaskStatus :=
  match action with
  | .NOOP | .DOMAIN_TERMINAL_WINS => state
  | .RESUME_CHECKPOINT | .REQUEUE_MISSING_CHECKPOINT => .READY
  | .FINALIZE_DOMAIN => .COMPLETED
  | .GRAPH_TERMINAL_WINS => .CANCELLED
  | .QUARANTINE => if state ∈ terminalTaskStates then state else quarantineTarget state

theorem quarantineTarget_legal (hopen : state ∉ terminalTaskStates) :
    quarantineTarget state ∈ taskTransitions state := by
  unfold quarantineTarget
  split
  · assumption
  · exact cancelled_of_open hopen

/-- Every move that the decision asks for is a legal one. -/
theorem judge_legal (h : (judge task.state graph mismatch expired).target task = some target) :
    target ∈ taskTransitions task.state := by
  -- a move other than a cancellation or a quarantine is asked for `RUNNING` tasks alone
  have hrunning : judge task.state graph mismatch expired ∈
      [.RESUME_CHECKPOINT, .REQUEUE_MISSING_CHECKPOINT, .FINALIZE_DOMAIN] →
        task.state = .RUNNING := by
    cases graph with
    | none =>
      simp only [judge]
      split_ifs <;> simp_all
    | some graph =>
      simp only [judge]
      split_ifs <;> simp_all
  cases haction : judge task.state graph mismatch expired with
  | NOOP | DOMAIN_TERMINAL_WINS =>
    rw [haction] at h
    cases h
  | RESUME_CHECKPOINT | REQUEUE_MISSING_CHECKPOINT | FINALIZE_DOMAIN =>
    rw [haction] at h hrunning
    cases h
    simp [hrunning (by simp), taskTransitions]
  | GRAPH_TERMINAL_WINS =>
    rw [haction] at h
    cases h
    apply cancelled_of_open
    cases graph with
    | none =>
      simp only [judge] at haction
      split_ifs at haction
    | some graph =>
      simp only [judge] at haction
      split_ifs at haction
      simp_all
  | QUARANTINE =>
    simp only [haction, ReconciliationAction.target] at h
    split at h
    · cases h
    · cases h
      rename_i hopen
      exact quarantineTarget_legal hopen

def ReconciliationAction.graphAfter (action : ReconciliationAction)
    (graph : GraphExecutionState) : GraphExecutionState :=
  action.graphState.getD graph

/-- The pair that takes two calls: the graph row is cancelled beside an open task,
and it is not this task's execution. -/
def Unsettled (state : TaskStatus) (graph : Option GraphExecutionState) (mismatch : Bool) : Prop :=
  graph = some .CANCELLED ∧ state ∉ terminalTaskStates ∧ mismatch = true

/-- Deciding again on what an action leaves, its claim being released. -/
theorem judge_again (h : judge state graph mismatch expired ≠ .NOOP) :
    judge ((judge state graph mismatch expired).stateAfter state)
        (graph.map (judge state graph mismatch expired).graphAfter) mismatch false = .NOOP ↔
      ¬ Unsettled state graph mismatch := by
  unfold Unsettled
  cases graph with
  | none =>
    have hrunning : state = .RUNNING := by
      by_contra hother
      simp [judge, hother] at h
    simp [judge, hrunning, ReconciliationAction.stateAfter]
  | some graph =>
    cases haction : judge state (some graph) mismatch expired with
    | NOOP => exact absurd haction h
    | QUARANTINE =>
      have hother : ¬ (graph = .CANCELLED ∧ state ∉ terminalTaskStates) := by
        intro hcancelled
        simp [judge, hcancelled.1, hcancelled.2] at haction
      simp only [map_some, ReconciliationAction.graphAfter, ReconciliationAction.graphState]
      simp only [getD_some, some.injEq]
      simp [judge]
      tauto
    | GRAPH_TERMINAL_WINS =>
      obtain ⟨rfl, hopen⟩ : graph = .CANCELLED ∧ state ∉ terminalTaskStates := by
        simp only [judge] at haction
        split_ifs at haction
        simp_all
      have hterminal : TaskStatus.CANCELLED ∈ terminalTaskStates := by simp [terminalTaskStates]
      simp [judge, ReconciliationAction.stateAfter, ReconciliationAction.graphAfter,
        ReconciliationAction.graphState, hopen, hterminal]
    | DOMAIN_TERMINAL_WINS | FINALIZE_DOMAIN | RESUME_CHECKPOINT | REQUEUE_MISSING_CHECKPOINT =>
      -- the row is this task's own here, so the second decision sees no mismatch either
      simp only [judge] at haction
      split_ifs at haction <;>
        simp_all [judge, ReconciliationAction.stateAfter, ReconciliationAction.graphAfter,
          ReconciliationAction.graphState, terminalTaskStates, terminalGraphStates]

/-! ## What one call leaves -/

def Database.decision (db : Database) (task : TaskRow) (now : Time) : ReconciliationAction :=
  decideAction task (db.runs.get? task.runId) (db.graphs.get? task.id) (db.leases.get? task.id) now

def Database.mismatched (db : Database) (task : TaskRow) : Bool :=
  (db.graphs.get? task.id).any (graphMismatch task (db.runs.get? task.runId))

theorem decision_eq_judge (db : Database) (task : TaskRow) (now : Time) :
    db.decision task now = judge task.state ((db.graphs.get? task.id).map GraphExecutionRow.state)
      (db.mismatched task) (db.leaseExpired now task.id) :=
  decideAction_eq_judge ..

def TaskRow.movedTo (task : TaskRow) (target : Option TaskStatus) (entered : Time) : TaskRow :=
  match target with
  | none => task
  | some target => task.enter target entered

theorem movedTo_same (task : TaskRow) (target : Option TaskStatus) (entered : Time) :
    (task.movedTo target entered).id = task.id ∧
      (task.movedTo target entered).projectId = task.projectId ∧
      (task.movedTo target entered).runId = task.runId ∧
      (task.movedTo target entered).repositoryId = task.repositoryId ∧
      (task.movedTo target entered).state = target.getD task.state := by
  cases target <;> exact ⟨rfl, rfl, rfl, rfl, rfl⟩

theorem target_getD (action : ReconciliationAction) (task : TaskRow) :
    (action.target task).getD task.state = action.stateAfter task.state := by
  cases action with
  | QUARANTINE =>
    by_cases hterminal : task.state ∈ terminalTaskStates
    · simp [ReconciliationAction.target, ReconciliationAction.stateAfter, hterminal]
    · simp [ReconciliationAction.target, ReconciliationAction.stateAfter, hterminal]
  | _ => rfl

/-- Which execution a graph row stands for. -/
def GraphExecutionRow.execution (row : GraphExecutionRow) : GraphIdentity × String :=
  (row.identity, row.threadId)

/-- What a settlement of the pair leaves of the task's rows. -/
structure Rewritten (task : TaskRow) (target : Option TaskStatus) (entered : Time)
    (state : GraphExecutionState → GraphExecutionState) (db db' : Database) : Prop where
  row : db'.tasks.get? task.id = some (task.movedTo target entered)
  graph : (db'.graphs.get? task.id).map (fun graph => (graph.state, graph.execution)) =
    (db.graphs.get? task.id).map fun graph => (state graph.state, graph.execution)
  lease : db'.leases.get? task.id = none
  runs : db'.runs = db.runs

theorem Rewritten.graphState (h : Rewritten task target entered state db db') :
    db'.graphState task.id = (db.graphState task.id).map state := by
  have hgraph := congrArg (Option.map Prod.fst) h.graph
  rw [Option.map_map, Option.map_map] at hgraph
  rw [Database.graphState, Database.graphState, Option.map_map]
  exact hgraph

theorem Rewritten.taskState (h : Rewritten task target entered state db db') :
    db'.taskState task.id = some (target.getD task.state) := by
  rw [Database.taskState, h.row, map_some, (movedTo_same task target entered).2.2.2.2]

theorem Rewritten.mismatched (h : Rewritten task target entered state db db') :
    db'.mismatched (task.movedTo target entered) = db.mismatched task := by
  obtain ⟨hid, -, hrun, hrepository, -⟩ := movedTo_same task target entered
  have hgraph := h.graph
  simp only [Database.mismatched, hid, hrun, h.runs]
  cases hold : db.graphs.get? task.id with
  | none =>
    simp only [hold, map_none, map_eq_none_iff] at hgraph
    simp [hgraph]
  | some graph =>
    simp only [hold, map_some, map_eq_some_iff, Prod.mk.injEq] at hgraph
    obtain ⟨written, hnew, -, hexecution⟩ := hgraph
    have hidentity : written.identity = graph.identity := congrArg Prod.fst hexecution
    simp only [GraphExecutionRow.identity, GraphIdentity.mk.injEq] at hidentity
    simp only [hnew, any_some, graphMismatch, hrun, hrepository, hidentity]

theorem Rewritten.decision (h : Rewritten task target entered state db db') (now : Time) :
    db'.decision (task.movedTo target entered) now =
      judge (target.getD task.state)
        (((db.graphs.get? task.id).map GraphExecutionRow.state).map state)
        (db.mismatched task) false := by
  obtain ⟨hid, -, -, -, hstate⟩ := movedTo_same task target entered
  have hlease : db'.leaseExpired now task.id = false := by simp [leaseExpired, h.lease]
  have hgraph : (db'.graphs.get? task.id).map GraphExecutionRow.state =
      ((db.graphs.get? task.id).map GraphExecutionRow.state).map state := h.graphState
  rw [decision_eq_judge, hstate, h.mismatched, hid, hlease, hgraph]

theorem run_moveIfAny (hrow : db.taskIn task.projectId task.id = some task)
    (hlegal : ∀ state, target = some state → state ∈ taskTransitions task.state) (draw : Draw) :
    ∃ db', (moveIfAny task target draw).run db = .ok (task.movedTo target draw.enteredAt, db') ∧
      db'.tasks.get? task.id = some (task.movedTo target draw.enteredAt) ∧
      db'.graphs = db.graphs ∧ db'.leases = db.leases ∧ db'.runs = db.runs := by
  have hget := (taskIn_eq_some.mp hrow).1
  cases target with
  | none => exact ⟨db, rfl, hget, rfl, rfl, rfl⟩
  | some state =>
    refine ⟨_, run_setTaskState hrow (hlegal state rfl) draw, ?_, rfl, rfl, rfl⟩
    exact get?_set_self (get?_set_self hget)

theorem run_overwriteIfAny
    (hgraph : db.graphs.get? t = graph) (state : Option GraphExecutionState) (now : Time) :
    ∃ written db', (overwriteIfAny graph state now).run db = .ok (written, db') ∧
      (db'.graphs.get? t).map (fun graph => (graph.state, graph.execution)) =
        graph.map (fun graph => (state.getD graph.state, graph.execution)) ∧
      db'.tasks = db.tasks ∧ db'.leases = db.leases ∧ db'.runs = db.runs := by
  cases state with
  | none => exact ⟨graph, db, rfl, by rw [hgraph]; rfl, rfl, rfl, rfl⟩
  | some state =>
    cases graph with
    | none => exact ⟨none, db, rfl, by rw [hgraph]; rfl, rfl, rfl, rfl⟩
    | some graph =>
      obtain rfl : graph.taskId = t := key_of_get? hgraph
      have hset : (db.graphs.set { graph with state, stateEnteredAt := now }).get? graph.taskId =
          some { graph with state, stateEnteredAt := now } := get?_set_self hgraph
      exact ⟨_, _, rfl, congrArg (Option.map _) hset, rfl, rfl, rfl⟩

theorem run_applyAction (hrow : db.taskIn task.projectId task.id = some task)
    (hlegal : ∀ state, action.target task = some state → state ∈ taskTransitions task.state) :
    ∃ db', (applyAction action task (db.graphs.get? task.id) now draw).run db = .ok ((), db') ∧
      Rewritten task (action.target task) draw.enteredAt action.graphAfter db db' := by
  obtain ⟨db₁, hmove, hrow₁, hgraphs₁, hleases₁, hruns₁⟩ := run_moveIfAny hrow hlegal draw
  obtain ⟨written, db₂, hwrite, hgraph₂, htasks₂, hleases₂, hruns₂⟩ :=
    run_overwriteIfAny (congrArg (·.get? task.id) hgraphs₁) action.graphState now
  have hrun : ∃ db', (applyAction action task (db.graphs.get? task.id) now draw).run db =
      .ok ((), db') ∧ db'.tasks = db₂.tasks ∧ db'.graphs = db₂.graphs ∧
        db'.leases = db₂.leases.erase task.id ∧ db'.runs = db₂.runs := by
    simp only [applyAction, run_bind, hmove, hwrite, run_dropClaim, run_publish]
    exact ⟨_, rfl, rfl, rfl, rfl, rfl⟩
  obtain ⟨db', hrun, htasks, hgraphs, hleases, hruns⟩ := hrun
  exact ⟨db', hrun, {
    row := by rw [htasks, htasks₂, hrow₁]
    graph := by rw [hgraphs, hgraph₂]; rfl
    lease := by rw [hleases, get?_erase_self]
    runs := by rw [hruns, hruns₂, hruns₁] }⟩

/-- A call commits whatever the rows are, and does what it decides. -/
theorem run_reconcile (hrow : db.taskIn projectId t = some task) (now : Time) (draw : Draw) :
    ∃ db', (reconcile projectId t now draw).run db = .ok (db.decision task now, db') ∧
      (db.decision task now = .NOOP → db' = db) ∧
      (db.decision task now ≠ .NOOP → Rewritten task ((db.decision task now).target task)
        draw.enteredAt (db.decision task now).graphAfter db db') := by
  obtain ⟨hget, hproject⟩ := taskIn_eq_some.mp hrow
  obtain rfl : task.id = t := key_of_get? hget
  subst hproject
  have hlegal : ∀ target, (db.decision task now).target task = some target →
      target ∈ taskTransitions task.state := by
    intro target htarget
    rw [decision_eq_judge] at htarget
    exact judge_legal htarget
  simp only [reconcile, run_bind, run_selectTaskForUpdate, run_query,
    run_selectGraphForUpdate, run_selectLeaseForUpdate, hrow]
  change ∃ db', (if db.decision task now = .NOOP then _ else _ : Session _).run db = _ ∧ _
  by_cases hnoop : db.decision task now = .NOOP
  · exact ⟨db, by rw [if_pos hnoop]; rfl, fun _ => rfl, fun hact => absurd hnoop hact⟩
  · obtain ⟨db', happly, hdone⟩ := run_applyAction hrow hlegal
    refine ⟨db', ?_, fun h => absurd h hnoop, fun _ => hdone⟩
    rw [if_neg hnoop, run_bind]
    unfold decision at happly
    rw [happly]
    rfl

theorem commit_reconcile (projectId t : UUID) (now : Time) (draw : Draw) (db : Database) :
    ((reconcile projectId t now draw).commit db).2 = db ∨
      ∃ task, db.taskIn projectId t = some task ∧ db.decision task now ≠ .NOOP ∧
        Rewritten task ((db.decision task now).target task) draw.enteredAt
          (db.decision task now).graphAfter db ((reconcile projectId t now draw).commit db).2 := by
  cases hrow : db.taskIn projectId t with
  | none => exact .inl (reconcile_missing now draw hrow)
  | some task =>
    obtain ⟨db', hrun, hnoop, hact⟩ := run_reconcile hrow now draw
    rw [commit_of_ok hrun]
    by_cases h : db.decision task now = .NOOP
    · exact .inl (hnoop h)
    · exact .inr ⟨task, rfl, h, hact h⟩

/-- A call always commits. The next one has nothing left to do unless the graph
row is cancelled, the task open and the row not of this task's execution. -/
theorem reconcile_settles_iff (hrow : db.taskIn projectId t = some task) (now : Time)
    (draw : Draw) :
    ∃ action db', (reconcile projectId t now draw).run db = .ok (action, db') ∧
      ((∀ again, (reconcile projectId t now again).run db' = .ok (.NOOP, db')) ↔
        ¬ Unsettled task.state ((db.graphs.get? t).map GraphExecutionRow.state)
          (db.mismatched task)) := by
  obtain ⟨hget, hproject⟩ := taskIn_eq_some.mp hrow
  obtain rfl : task.id = t := key_of_get? hget
  obtain ⟨db', hrun, hsame, hdone⟩ := run_reconcile hrow now draw
  refine ⟨_, db', hrun, ?_⟩
  by_cases hnoop : db.decision task now = .NOOP
  · rw [hsame hnoop]
    have hagain : ∀ again, (reconcile projectId task.id now again).run db = .ok (.NOOP, db) := by
      intro again
      obtain ⟨db₂, hrun₂, hsame₂, -⟩ := run_reconcile hrow now again
      rw [hrun₂, hnoop, hsame₂ hnoop]
    refine iff_of_true hagain fun hun => ?_
    rw [decision_eq_judge] at hnoop
    obtain ⟨hcancelled, hopen, -⟩ := hun
    simp [judge, hcancelled, hopen] at hnoop
  · have hdone := hdone hnoop
    have hdecision := hdone.decision now
    have hrow' : db'.taskIn projectId task.id =
        some (task.movedTo ((db.decision task now).target task) draw.enteredAt) :=
      taskIn_eq_some.mpr ⟨hdone.row, (movedTo_same ..).2.1.trans hproject⟩
    rw [decision_eq_judge] at hnoop
    rw [← judge_again hnoop, ← decision_eq_judge, ← target_getD, ← hdecision]
    constructor
    · intro hagain
      obtain ⟨db₂, hrun₂, -⟩ := run_reconcile hrow' now {}
      rw [hagain] at hrun₂
      simp only [Except.ok.injEq, Prod.mk.injEq] at hrun₂
      exact hrun₂.1.symm
    · intro hsecond again
      obtain ⟨db₂, hrun₂, hsame₂, -⟩ := run_reconcile hrow' now again
      rw [hrun₂, hsecond, hsame₂ hsecond]

/-- A requeued task beside the cancelled row of an execution on another baseline. -/
def sampleStray : Database :=
  { sampleRetried with
    runs := insert ∅ { sampleRun with baselineCommit := "another baseline" } }

theorem reconcile_settles_iff_sample :
    ∃ action db', (reconcile 20 1 121 {}).run sampleRetried = .ok (action, db') ∧
      ∀ again, (reconcile 20 1 121 again).run db' = .ok (.NOOP, db') := by
  have hsome : (sampleRetried.tasks.get? 1).isSome := by decide
  have hproject : (sampleTask sampleRetried 1 (by decide)).projectId = 20 := by decide
  have hrow := taskIn_eq_some.mpr ⟨sampleTask_get hsome, hproject⟩
  obtain ⟨action, db', hrun, hsettles⟩ := reconcile_settles_iff hrow 121 {}
  have hmatched : sampleRetried.mismatched (sampleTask sampleRetried 1 (by decide)) = false := by
    decide
  refine ⟨action, db', hrun, hsettles.mpr ?_⟩
  rintro ⟨-, -, hmismatch⟩
  rw [hmatched] at hmismatch
  cases hmismatch

/-- The first call lets the cancelled graph win, the second quarantines the pair. -/
theorem reconcile_twice_on_stray :
    ∃ db₁ db₂, (reconcile 20 1 121 {}).run sampleStray = .ok (.GRAPH_TERMINAL_WINS, db₁) ∧
      (reconcile 20 1 121 {}).run db₁ = .ok (.QUARANTINE, db₂) :=
  ⟨_, _, rfl, rfl⟩

end AutoSwe
