import AutoSwe.Persistence.Tables

/-!
# The domain repository

The writes that every service shares. `transitionTask` and
`transitionGraphExecution` are the guarded state changes: they lock the row,
check it, record how long the old state lasted and publish the change to the
audit trail and the outbox.
-/

namespace AutoSwe

open Transaction Prog Session

/-! ## Append-only tables -/

def recordStateDuration (aggregateType : String) (aggregateId : UUID) (state : String)
    (enteredAt exitedAt : Time) : Session Unit :=
  execute fun db => { db with
    stateDurations := db.stateDurations ++
      [⟨aggregateType, aggregateId, state, enteredAt, exitedAt, max 0 (exitedAt - enteredAt)⟩] }

def appendAudit (row : AuditEventRow) : Session Unit :=
  execute fun db => { db with auditEvents := db.auditEvents ++ [row] }

def enqueueEvent (row : OutboxRow) : Session Unit :=
  execute fun db => { db with outbox := db.outbox ++ [row] }

/-- `append_audit` under an id that is made from a name: the primary key refuses it when
it is there already. A drawn id is fresh. -/
def appendNamedAudit (row : AuditEventRow) : Session Unit :=
  checked fun db =>
    if db.auditEvents.any fun other => other.id = row.id then
      .error ⟨.integrityError, "audit_events_pkey"⟩
    else .ok fun db => { db with auditEvents := db.auditEvents ++ [row] }

/-- `enqueue_event` under an id that is made from a name. -/
def enqueueNamedEvent (row : OutboxRow) : Session Unit :=
  checked fun db =>
    if db.outbox.any fun other => other.eventId = row.eventId then
      .error ⟨.integrityError, "outbox_pkey"⟩
    else .ok fun db => { db with outbox := db.outbox ++ [row] }

theorem appendNamedAudit_ok : (appendNamedAudit row).run db = .ok (u, db') ↔
      (∀ other ∈ db.auditEvents, other.id ≠ row.id) ∧
      db' = { db with auditEvents := db.auditEvents ++ [row] } := by
  unfold appendNamedAudit
  rw [checked_ok]
  by_cases h : ∀ other ∈ db.auditEvents, other.id ≠ row.id
  · have hany : (db.auditEvents.any fun other => other.id = row.id) = false := by simpa using h
    simp [hany, and_iff_right h]
  · have hany : (db.auditEvents.any fun other => other.id = row.id) = true := by simpa using h
    simp [hany, h]

theorem enqueueNamedEvent_ok : (enqueueNamedEvent row).run db = .ok (u, db') ↔
      (∀ other ∈ db.outbox, other.eventId ≠ row.eventId) ∧
      db' = { db with outbox := db.outbox ++ [row] } := by
  unfold enqueueNamedEvent
  rw [checked_ok]
  by_cases h : ∀ other ∈ db.outbox, other.eventId ≠ row.eventId
  · have hany : (db.outbox.any fun other => other.eventId = row.eventId) = false := by simpa using h
    simp [hany, and_iff_right h]
  · have hany : (db.outbox.any fun other => other.eventId = row.eventId) = true := by simpa using h
    simp [hany, h]

/-- One event under one id, to the audit trail and to the outbox. -/
def publish (eventId : UUID) (eventType aggregateType : String) (aggregateId : UUID)
    (correlationId : UUID) (topic : String) (payload : Json) : Session Unit := do
  appendAudit ⟨eventId, eventType, aggregateType, aggregateId, payload, correlationId, eventId⟩
  enqueueEvent ⟨eventId, topic, payload⟩

def Database.published (db : Database) (eventId : UUID) (eventType aggregateType : String)
    (aggregateId : UUID) (correlationId : UUID) (topic : String) (payload : Json) : Database :=
  { db with
    auditEvents := db.auditEvents ++
      [⟨eventId, eventType, aggregateType, aggregateId, payload, correlationId, eventId⟩]
    outbox := db.outbox ++ [⟨eventId, topic, payload⟩] }

@[simp] theorem run_publish :
    (publish eventId eventType aggregateType aggregateId correlationId topic payload).run db =
      .ok ((), db.published eventId eventType aggregateType aggregateId correlationId topic
        payload) := rfl

/-! ## Tasks -/

def TaskSpec.row (spec : TaskSpec) (runId : UUID) (draw : Draw) : TaskRow where
  id := spec.id
  runId := runId
  projectId := spec.projectId
  repositoryId := spec.repositoryId
  planRevision := spec.planRevision
  title := spec.title
  description := spec.description
  taskType := spec.taskType
  dependencies := spec.dependencies
  priority := spec.priority
  assignedCapability := spec.assignedCapability
  acceptanceCriteria := spec.acceptanceCriteria
  allowedTools := spec.allowedTools
  riskCeiling := spec.riskCeiling
  estimate := spec.estimate
  stateEnteredAt := draw.enteredAt
  createdAt := draw.createdAt

def createTask (runId : UUID) (spec : TaskSpec) (draw : Draw) : Session TaskRow := do
  let row := spec.row runId draw
  checked fun db =>
    match db.tasks.get? row.id with
    | none => .ok fun db => { db with tasks := db.tasks.insert row }
    | some _ => .error ⟨.integrityError, "tasks_pkey"⟩
  pure row

def TaskRow.enter (row : TaskRow) (target : TaskStatus) (now : Time) : TaskRow :=
  { row with state := target, version := row.version + 1, stateEnteredAt := now }

@[simp] theorem TaskRow.enter_id (row : TaskRow) : (row.enter target now).id = row.id := rfl

@[simp] theorem TaskRow.enter_estimate {row : TaskRow} :
    (row.enter target now).estimate = row.estimate := rfl

@[simp] theorem TaskRow.enter_dependencies {row : TaskRow} :
    (row.enter target now).dependencies = row.dependencies := rfl

@[simp] theorem TaskRow.enter_state {row : TaskRow} : (row.enter target now).state = target := rfl

def taskStatePayload (row : TaskRow) (target : TaskStatus) : Json :=
  .obj [("task_id", .str row.id.str), ("project_id", .str row.projectId.str),
    ("from", .str row.state.value), ("to", .str target.value), ("version", .num (row.version + 1))]

def transitionTask (projectId taskId : UUID) (expectedVersion : Nat) (target : TaskStatus)
    (draw : Draw) : Session TaskRow := do
  match ← selectTaskForUpdate projectId taskId with
  | none =>
    raise .lookupError
      ("task " ++ taskId.str ++ " does not exist in project " ++ projectId.str)
  | some row =>
    if row.version ≠ expectedVersion then
      raise .staleStateError
        ("task " ++ taskId.str ++ " expected version " ++ toString expectedVersion ++ ", found " ++
          toString row.version)
    else do
      require (requireTaskTransition row.state target)
      recordStateDuration "task" row.id row.state.value row.stateEnteredAt draw.now
      execute fun db => { db with tasks := db.tasks.set (row.enter target draw.now) }
      publish draw.eventId "task.state_changed" "task" row.id row.runId "task-state"
        (taskStatePayload row target)
      pure (row.enter target draw.now)

/-- The database after `row` was moved to `target`. -/
def Database.moveTask (db : Database) (row : TaskRow) (target : TaskStatus) (draw : Draw) :
    Database :=
  let db : Database := { db with
    stateDurations := db.stateDurations ++
      [⟨"task", row.id, row.state.value, row.stateEnteredAt, draw.now,
        max 0 (draw.now - row.stateEnteredAt)⟩]
    tasks := db.tasks.set (row.enter target draw.now) }
  db.published draw.eventId "task.state_changed" "task" row.id row.runId "task-state"
    (taskStatePayload row target)

section MoveTask
variable (db : Database) (row : TaskRow) (target : TaskStatus) (draw : Draw)

@[simp] theorem moveTask_tasks :
    (db.moveTask row target draw).tasks = db.tasks.set (row.enter target draw.now) := rfl

@[simp] theorem moveTask_leases : (db.moveTask row target draw).leases = db.leases := rfl

@[simp] theorem moveTask_reservations :
    (db.moveTask row target draw).reservations = db.reservations := rfl

@[simp] theorem moveTask_graphs : (db.moveTask row target draw).graphs = db.graphs := rfl

@[simp] theorem moveTask_attempts : (db.moveTask row target draw).attempts = db.attempts := rfl

@[simp] theorem moveTask_runs : (db.moveTask row target draw).runs = db.runs := rfl

@[simp] theorem moveTask_repositories :
    (db.moveTask row target draw).repositories = db.repositories := rfl

@[simp] theorem moveTask_modelCalls :
    (db.moveTask row target draw).modelCalls = db.modelCalls := rfl

end MoveTask

theorem run_transitionTask :
    (transitionTask projectId taskId expectedVersion target draw).run db =
      match db.taskIn projectId taskId with
      | none => .error ⟨.lookupError,
          "task " ++ taskId.str ++ " does not exist in project " ++ projectId.str⟩
      | some row =>
        if row.version ≠ expectedVersion then
          .error ⟨.staleStateError, "task " ++ taskId.str ++ " expected version " ++
            toString expectedVersion ++ ", found " ++ toString row.version⟩
        else
          match requireTaskTransition row.state target with
          | .ok _ => .ok (row.enter target draw.now, db.moveTask row target draw)
          | .error e => .error e := by
  simp only [transitionTask, run_bind, run_selectTaskForUpdate]
  cases db.taskIn projectId taskId with
  | none => rfl
  | some row =>
    by_cases hv : row.version ≠ expectedVersion
    · simp only [if_pos hv, Session.run_raise]
    · simp only [if_neg hv, run_bind]
      rcases requireTaskTransition row.state target with e | ⟨⟩ <;> rfl

theorem createTask_ok (h : (createTask runId spec draw).run db = .ok (row, db')) :
    row = spec.row runId draw ∧ db.tasks.get? row.id = none ∧
      db' = { db with tasks := db.tasks.insert row } := by
  obtain ⟨_, db₁, hinsert, h⟩ := bind_ok.mp h
  obtain ⟨w, hw, rfl⟩ := checked_ok.mp hinsert
  cases h
  split at hw
  · rename_i hnone
    cases hw
    exact ⟨rfl, hnone, rfl⟩
  · cases hw

theorem transitionTask_ok
    (h : (transitionTask projectId taskId expectedVersion target draw).run db = .ok (moved, db')) :
    ∃ row, db.tasks.get? taskId = some row ∧ row.projectId = projectId ∧
      row.version = expectedVersion ∧ target ∈ taskTransitions row.state ∧
      moved = row.enter target draw.now ∧ db' = db.moveTask row target draw := by
  rw [run_transitionTask] at h
  split at h
  · cases h
  · rename_i row hrow
    obtain ⟨hget, hproject⟩ := Database.taskIn_eq_some.mp hrow
    split at h
    · cases h
    · rename_i hv
      split at h
      · rename_i u hreq
        cases h
        exact ⟨row, hget, hproject, not_not.mp hv, requireTaskTransition_ok.mp hreq, rfl, rfl⟩
      · cases h

theorem transitionTask_of_legal (hrow : db.taskIn projectId taskId = some row)
    (hlegal : target ∈ taskTransitions row.state) :
    (transitionTask projectId taskId row.version target draw).run db =
      .ok (row.enter target draw.now, db.moveTask row target draw) := by
  have hreq : requireTaskTransition row.state target = .ok () :=
    requireTaskTransition_ok.mpr hlegal
  simp [run_transitionTask, hrow, hreq]

theorem transitionTask_of_illegal (draw : Draw)
    (hrow : db.taskIn projectId taskId = some row) (hillegal : target ∉ taskTransitions row.state) :
    ∃ e, (transitionTask projectId taskId row.version target draw).run db = .error e := by
  simp [run_transitionTask, hrow, requireTaskTransition, hillegal]

/-! ## Attempts and leases -/

def createAttempt (attemptId taskId : UUID) (agentSpecHash : String) (draw : Draw) :
    Session Unit :=
  checked fun db =>
    match db.attempts.get? attemptId with
    | none => .ok fun db => { db with
        attempts := db.attempts.insert
          { id := attemptId, taskId, agentSpecHash, startedAt := draw.createdAt } }
    | some _ => .error ⟨.integrityError, "task_attempts_pkey"⟩

/-- `leases.task_id` and `leases.token` are both unique. -/
def createLease (taskId : UUID) (owner : String) (token : UUID) (expiresAt : Time)
    (draw : Draw) : Session Unit :=
  checked fun db =>
    if (db.leases.get? taskId).isSome then
      .error ⟨.integrityError, "leases_task_id_key"⟩
    else if db.leases.rows.any fun lease => lease.token = token then
      .error ⟨.integrityError, "leases_token_key"⟩
    else
      .ok fun db => { db with
        leases := db.leases.insert
          { taskId, owner, token, expiresAt, heartbeatAt := draw.createdAt,
            createdAt := draw.createdAt } }

end AutoSwe
