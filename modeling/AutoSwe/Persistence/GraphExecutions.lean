import AutoSwe.Persistence.Repositories

/-!
# Graph execution rows

`transitionGraphExecution` is the one guarded writer of a graph row. The row
belongs to a checkpoint thread; a write under another thread is an attempt
rollover, which is accepted from every state as long as it restarts `RUNNING`.
`GraphWrite` lists the four things a completed call can have done.
-/

namespace AutoSwe

open Relational Transaction Prog Table List Session

/-- What the caller states about the execution whose row it writes. -/
structure GraphIdentity where
  runId : UUID
  repositoryId : UUID
  baselineCommit : String
deriving DecidableEq

def GraphExecutionRow.identity (row : GraphExecutionRow) : GraphIdentity :=
  ⟨row.runId, row.repositoryId, row.baselineCommit⟩

/-- Python's `checkpoint_id or row.checkpoint_id`. -/
def keepCheckpoint (given current : Option String) : Option String :=
  match given with
  | some "" | none => current
  | some id => some id

def threadTaken (db : Database) (taskId : UUID) (threadId : String) : Bool :=
  db.graphs.rows.any fun row => row.taskId ≠ taskId && row.threadId = threadId

def recordGraphExecution (row : GraphExecutionRow) : Session Unit :=
  checked fun db =>
    if (db.graphs.get? row.taskId).isSome then
      .error ⟨.integrityError, "graph_executions_task_id_key"⟩
    else if threadTaken db row.taskId row.threadId then
      .error ⟨.integrityError, "graph_executions_thread_id_key"⟩
    else
      .ok fun db => { db with graphs := db.graphs.insert row }

def updateGraph (row : GraphExecutionRow) : Session Unit :=
  checked fun db =>
    if threadTaken db row.taskId row.threadId then
      .error ⟨.integrityError, "graph_executions_thread_id_key"⟩
    else
      .ok fun db => { db with graphs := db.graphs.set row }

def publishGraphState (row : GraphExecutionRow) (previous : GraphExecutionState)
    (runId : UUID) (draw : Draw) : Session Unit :=
  publish draw.eventId "workflow.state_changed" "workflow" row.id runId "workflow-state"
    (.obj [("task_id", .str row.taskId.str), ("thread_id", .str row.threadId),
      ("from", .str previous.value), ("to", .str row.state.value),
      ("checkpoint_id", .ofOption row.checkpointId)])

def publishRollover (row : GraphExecutionRow) (threadId : String) (runId : UUID) (draw : Draw) :
    Session Unit :=
  publish draw.rolloverId "workflow.attempt_rollover" "workflow" row.id runId "workflow-state"
    (.obj [("task_id", .str row.taskId.str), ("from_thread_id", .str row.threadId),
      ("to_thread_id", .str threadId), ("previous_state", .str row.state.value)])

def transitionGraphExecution (taskId : UUID) (identity : GraphIdentity) (threadId : String)
    (target : GraphExecutionState) (checkpointId : Option String) (draw : Draw) :
    Session GraphExecutionRow := do
  match ← selectGraphForUpdate taskId with
  | none =>
    if target ∉ [.RUNNING, .CANCELLED] then
      raise .valueError "new graph execution must start RUNNING or CANCELLED"
    else do
      let row : GraphExecutionRow :=
        { id := draw.rowId, taskId, runId := identity.runId, repositoryId := identity.repositoryId,
          baselineCommit := identity.baselineCommit, threadId, state := target, checkpointId,
          stateEnteredAt := draw.enteredAt }
      recordGraphExecution row
      publishGraphState row .NOT_STARTED identity.runId draw
      pure row
  | some row =>
    if row.identity ≠ identity then
      raise .valueError
        "graph execution identity does not match run, task, repository, or baseline"
    else if row.threadId ≠ threadId then
      if target ≠ .RUNNING then
        raise .valueError
          "graph thread change is only valid as an attempt restart to RUNNING"
      else do
        publishRollover row threadId identity.runId draw
        -- the row already entered its new thread, so the recorded stay is empty
        recordStateDuration "workflow" row.id row.state.value draw.now draw.now
        let moved := { row with
          threadId, state := target, stateEnteredAt := draw.now
          checkpointId := keepCheckpoint checkpointId row.checkpointId }
        updateGraph moved
        publishGraphState moved row.state identity.runId draw
        pure moved
    else if row.state = target then do
      let moved := { row with checkpointId := keepCheckpoint checkpointId row.checkpointId }
      updateGraph moved
      pure moved
    else do
      require (requireGraphTransition row.state target)
      recordStateDuration "workflow" row.id row.state.value row.stateEnteredAt draw.now
      let moved := { row with
        state := target, stateEnteredAt := draw.now
        checkpointId := keepCheckpoint checkpointId row.checkpointId }
      updateGraph moved
      publishGraphState moved row.state identity.runId draw
      pure moved

/-! ## What a completed call did -/

/-- The change of one graph row by a call with the given thread and target. -/
inductive GraphWrite (threadId : String) (target : GraphExecutionState) :
    Option GraphExecutionRow → GraphExecutionRow → Prop
  | create {row} (hthread : row.threadId = threadId) (hstate : row.state = target)
      (htarget : target ∈ [GraphExecutionState.RUNNING, .CANCELLED]) :
      GraphWrite threadId target none row
  | rollover {old row} (hother : old.threadId ≠ threadId) (htarget : target = .RUNNING)
      (hthread : row.threadId = threadId) (hstate : row.state = target)
      (hidentity : row.identity = old.identity) : GraphWrite threadId target (some old) row
  | touch {old row} (hsame : old.threadId = threadId) (hold : old.state = target)
      (hrow : ∃ checkpointId, row = { old with checkpointId }) :
      GraphWrite threadId target (some old) row
  | advance {old row} (hsame : old.threadId = threadId)
      (hlegal : target ∈ graphExecutionTransitions old.state)
      (hthread : row.threadId = threadId) (hstate : row.state = target)
      (hidentity : row.identity = old.identity) : GraphWrite threadId target (some old) row

theorem GraphWrite.thread (h : GraphWrite threadId target old row) : row.threadId = threadId := by
  cases h with
  | create hthread => exact hthread
  | rollover _ _ hthread => exact hthread
  | touch hsame _ hrow =>
    obtain ⟨c, rfl⟩ := hrow
    exact hsame
  | advance _ _ hthread => exact hthread

theorem GraphWrite.state (h : GraphWrite threadId target old row) : row.state = target := by
  cases h with
  | create _ hstate => exact hstate
  | rollover _ _ _ hstate => exact hstate
  | touch _ hold hrow =>
    obtain ⟨c, rfl⟩ := hrow
    exact hold
  | advance _ _ _ hstate => exact hstate

theorem recordGraphExecution_ok (h : (recordGraphExecution row).run db = .ok (u, db')) :
    threadTaken db row.taskId row.threadId = false ∧
      db' = { db with graphs := db.graphs.put row } := by
  obtain ⟨w, hw, rfl⟩ := checked_ok.mp h
  split at hw
  · cases hw
  · rename_i hnone
    have hnone : db.graphs.get? row.taskId = none := by simpa using hnone
    split at hw
    · cases hw
    · rename_i hfree
      cases hw
      exact ⟨by simpa using hfree, by rw [put_of_none hnone]⟩

theorem updateGraph_ok (h : (updateGraph row).run db = .ok (u, db'))
    (hold : db.graphs.get? row.taskId = some old) :
    threadTaken db row.taskId row.threadId = false ∧
      db' = { db with graphs := db.graphs.put row } := by
  obtain ⟨w, hw, rfl⟩ := checked_ok.mp h
  split at hw
  · cases hw
  · rename_i hfree
    cases hw
    exact ⟨by simpa using hfree, by rw [put_of_some hold]⟩

/-- What `publishGraphState` and `publishRollover` append. -/
def graphStateEvent (row : GraphExecutionRow) (previous : GraphExecutionState) (runId : UUID)
    (draw : Draw) : AuditEventRow where
  id := draw.eventId
  eventType := "workflow.state_changed"
  aggregateType := "workflow"
  aggregateId := row.id
  payload := .obj [("task_id", .str row.taskId.str), ("thread_id", .str row.threadId),
    ("from", .str previous.value), ("to", .str row.state.value),
    ("checkpoint_id", .ofOption row.checkpointId)]
  correlationId := runId
  causationId := draw.eventId

def rolloverEvent (row : GraphExecutionRow) (threadId : String) (runId : UUID) (draw : Draw) :
    AuditEventRow where
  id := draw.rolloverId
  eventType := "workflow.attempt_rollover"
  aggregateType := "workflow"
  aggregateId := row.id
  payload := .obj [("task_id", .str row.taskId.str), ("from_thread_id", .str row.threadId),
    ("to_thread_id", .str threadId), ("previous_state", .str row.state.value)]
  correlationId := runId
  causationId := draw.rolloverId

/-- The events of a completed call: it says which state the row has now, after a
rollover also that it is on another thread. -/
def graphEvents (threadId : String) (target : GraphExecutionState) (runId : UUID) (draw : Draw) :
    Option GraphExecutionRow → GraphExecutionRow → List AuditEventRow
  | none, row => [graphStateEvent row .NOT_STARTED runId draw]
  | some old, row =>
    if old.threadId ≠ threadId then
      [rolloverEvent old threadId runId draw, graphStateEvent row old.state runId draw]
    else if old.state = target then []
    else [graphStateEvent row old.state runId draw]

theorem mem_graphEvents (h : event ∈ graphEvents threadId target runId draw old row) :
    event.id = draw.eventId ∨ event.id = draw.rolloverId := by
  unfold graphEvents at h
  split at h
  · exact .inl (by rw [mem_singleton.mp h]; rfl)
  · split at h
    · rcases mem_pair.mp h with rfl | rfl
      · exact .inr rfl
      · exact .inl rfl
    · split at h
      · cases h
      · exact .inl (by rw [mem_singleton.mp h]; rfl)

/-- Everything that a completed call did. -/
structure Transitioned (taskId : UUID) (identity : GraphIdentity) (threadId : String)
    (target : GraphExecutionState) (draw : Draw) (row : GraphExecutionRow) (db db' : Database) :
    Prop where
  free : threadTaken db taskId threadId = false
  write : GraphWrite threadId target (db.graphs.get? taskId) row
  key : row.taskId = taskId
  owner : row.identity = identity
  audit : db'.auditEvents = db.auditEvents ++
    graphEvents threadId target identity.runId draw (db.graphs.get? taskId) row
  outbox : db'.outbox = db.outbox ++
    (graphEvents threadId target identity.runId draw (db.graphs.get? taskId) row).map
      fun event => ⟨event.id, "workflow-state", event.payload⟩
  rest : ∃ audit outbox durations, db' = { db with
    graphs := db.graphs.put row, auditEvents := audit, outbox := outbox
    stateDurations := durations }

theorem transitionGraphExecution_did
    (h : (transitionGraphExecution taskId identity threadId target checkpointId draw).run db =
      .ok (row, db')) : Transitioned taskId identity threadId target draw row db db' := by
  have h := after h rfl
  cases hold : db.graphs.get? taskId with
  | none =>
    simp only [hold] at h
    split at h
    · cases h
    · rename_i htarget
      obtain ⟨_, db₁, hrec, h⟩ := bind_ok.mp h
      obtain ⟨hfree, rfl⟩ := recordGraphExecution_ok hrec
      cases h
      exact ⟨hfree, hold ▸ .create rfl rfl (not_not.mp htarget), rfl, rfl, by rw [hold]; rfl,
        by rw [hold]; rfl, _, _, _, rfl⟩
  | some old =>
    obtain rfl : old.taskId = taskId := key_of_get? hold
    simp only [hold] at h
    split at h
    · cases h
    · rename_i hident
      have hident := not_not.mp hident
      split at h
      · rename_i hthread
        split at h
        · cases h
        · rename_i htarget
          have h := after h rfl
          have h := after h rfl
          obtain ⟨_, db₃, hset, h⟩ := bind_ok.mp h
          obtain ⟨hfree, rfl⟩ := updateGraph_ok hset hold
          cases h
          refine ⟨hfree, ?_, rfl, hident, ?_, ?_, _, _, _, rfl⟩
          · exact hold ▸ .rollover hthread (not_not.mp htarget) rfl rfl rfl
          all_goals
            rw [hold, graphEvents, if_pos hthread]
            exact append_assoc ..
      · rename_i hthread
        have hthread := not_not.mp hthread
        split at h
        · rename_i hstate
          obtain ⟨_, db₁, hset, h⟩ := bind_ok.mp h
          obtain ⟨hfree, rfl⟩ := updateGraph_ok hset hold
          cases h
          refine ⟨hthread ▸ hfree, hold ▸ .touch hthread hstate ⟨_, rfl⟩, rfl, hident, ?_, ?_, _, _,
            _, rfl⟩ <;> simp [hold, graphEvents, hthread, hstate]
        · rename_i hstate
          obtain ⟨_, db₁, hreq, h⟩ := bind_ok.mp h
          obtain ⟨hlegal, rfl⟩ := require_ok.mp hreq
          have h := after h rfl
          obtain ⟨_, db₃, hset, h⟩ := bind_ok.mp h
          obtain ⟨hfree, rfl⟩ := updateGraph_ok hset hold
          cases h
          refine ⟨hthread ▸ hfree, ?_, rfl, hident, ?_, ?_, _, _, _, rfl⟩
          · exact hold ▸ .advance hthread (requireGraphTransition_ok.mp hlegal) hthread rfl rfl
          all_goals
            rw [hold, graphEvents, if_neg (not_not.mpr hthread), if_neg hstate]
            rfl

theorem transitionGraphExecution_ok
    (h : (transitionGraphExecution taskId identity threadId target checkpointId draw).run db =
      .ok (row, db')) :
    GraphWrite threadId target (db.graphs.get? taskId) row ∧ row.taskId = taskId ∧
      row.identity = identity ∧
      ∃ audit outbox durations, db' = { db with
        graphs := db.graphs.put row, auditEvents := audit, outbox := outbox
        stateDurations := durations } :=
  have hdid := transitionGraphExecution_did h
  ⟨hdid.write, hdid.key, hdid.owner, hdid.rest⟩

/-! ## `graph_executions.thread_id` is unique -/

/-- A legal move of a row on its own free thread goes through, and so does a write
of the state that it has. -/
theorem transitionGraphExecution_advances (hrow : db.graphs.get? taskId = some row)
    (hlegal : row.state = target ∨ target ∈ graphExecutionTransitions row.state)
    (hfree : threadTaken db taskId row.threadId = false) (checkpointId : Option String)
    (draw : Draw) :
    ∃ moved db', (transitionGraphExecution taskId row.identity row.threadId target checkpointId
      draw).run db = .ok (moved, db') := by
  obtain rfl : row.taskId = taskId := key_of_get? hrow
  by_cases hsame : row.state = target
  · simp only [transitionGraphExecution, run_bind, run_selectGraphForUpdate, hrow, ne_eq,
      not_true_eq_false, if_false, hsame, if_true, updateGraph, run_checked, hfree,
      Bool.false_eq_true]
    exact ⟨_, _, rfl⟩
  · have hreq : requireGraphTransition row.state target = .ok () :=
      requireGraphTransition_ok.mpr (hlegal.resolve_left hsame)
    have hfree' : ∀ durations, threadTaken { db with stateDurations := durations } row.taskId
        row.threadId = false := fun _ => hfree
    simp only [transitionGraphExecution, run_bind, run_selectGraphForUpdate, hrow, ne_eq,
      not_true_eq_false, if_false, hsame, hreq, require, run_pure,
      recordStateDuration, run_execute, updateGraph, run_checked, hfree',
      Bool.false_eq_true, publishGraphState, run_publish]
    exact ⟨_, _, rfl⟩

theorem threadTaken_eq_false : threadTaken db t threadId = false ↔
    ∀ k row, db.graphs.get? k = some row → row.threadId = threadId → k = t := by
  simp only [threadTaken, any_eq_false, Bool.and_eq_true, decide_eq_true_eq, not_and]
  constructor
  · intro h k row hrow hthread
    by_contra hk
    have hkey : row.taskId = k := key_of_get? hrow
    exact h row (mem_of_get? hrow) (hkey ▸ hk) hthread
  · intro h row hmem hother hthread
    exact hother (h row.taskId row (get?_of_mem hmem) hthread)

/-- No two graph rows are on one thread. -/
def DistinctThreads (db : Database) : Prop :=
  ∀ t row, db.graphs.get? t = some row → threadTaken db t row.threadId = false

def SameThreads (db db' : Database) : Prop :=
  ∀ t, (db'.graphs.get? t).map GraphExecutionRow.threadId =
    (db.graphs.get? t).map GraphExecutionRow.threadId

theorem DistinctThreads.congr (hd : DistinctThreads db) (h : SameThreads db db') :
    DistinctThreads db' := by
  -- every row of `db'` stands for a row of `db` on the same thread
  have hback : ∀ k row, db'.graphs.get? k = some row →
      ∃ old, db.graphs.get? k = some old ∧ old.threadId = row.threadId := by
    intro k row hrow
    have hk := h k
    rw [hrow, Option.map_some, eq_comm, Option.map_eq_some_iff] at hk
    exact hk
  intro t row hrow
  obtain ⟨old, hold, hthread⟩ := hback t row hrow
  rw [threadTaken_eq_false]
  intro k other hother hsame
  obtain ⟨old', hold', hthread'⟩ := hback k other hother
  exact threadTaken_eq_false.mp (hd t old hold) k old' hold'
    ((hthread'.trans hsame).trans hthread.symm)

theorem DistinctThreads.write (hd : DistinctThreads db)
    (h : (transitionGraphExecution k identity threadId target checkpointId draw).run db =
      .ok (row, db')) : DistinctThreads db' := by
  have hfree := (transitionGraphExecution_did h).free
  obtain ⟨hwrite, hkey, -, audit, outbox, durations, rfl⟩ := transitionGraphExecution_ok h
  have hthread := hwrite.thread
  subst hthread hkey
  intro t found hfound
  rw [threadTaken_eq_false]
  intro j other hother hsame
  simp only [get?_put] at hfound hother
  split at hfound <;> split at hother
  · rename_i ht hj
    exact hj.trans ht.symm
  · rename_i ht _
    cases hfound
    exact (threadTaken_eq_false.mp hfree j other hother hsame).trans ht.symm
  · rename_i ht hj
    cases hother
    exact absurd (threadTaken_eq_false.mp hfree t found hfound hsame.symm) ht
  · exact threadTaken_eq_false.mp (hd t found hfound) j other hother hsame

end AutoSwe
