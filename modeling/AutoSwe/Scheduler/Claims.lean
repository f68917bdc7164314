import AutoSwe.Scheduler.Dispatch

/-!
# Claims

The worker's side of the scheduler service, and the ways a claim ends:
`startClaim` validates a dispatch and enters `RUNNING`, `finishClaim` settles
it, `reclaimExpired` returns expired leases, `cancelTask` and
`cancelRequestedRuns` cancel.
-/

namespace AutoSwe

open Transaction Prog Session Service

/-- The arguments of one dispatch to a worker. -/
structure Dispatch where
  taskId : UUID
  projectId : UUID
  owner : String
  token : UUID
  attemptId : UUID
  agentSpecHash : String
deriving DecidableEq

structure TaskExecutionLease where
  taskId : UUID
  runId : UUID
  projectId : UUID
  repositoryId : UUID
  attemptId : UUID
  baselineCommit : String
  sourcePath : String
  taskType : TaskType
  goal : String
  allowedTools : List String
  assignedCapability : String
  riskCeiling : RiskLevel
  dependencies : List UUID
  alreadyTerminal : Bool := false
deriving DecidableEq

/-! ## start_claim -/

/-- Python's `text[:count]`. -/
def clip (text : String) (count : Nat) : String := String.ofList (text.toList.take count)

def executionLease (task : TaskRow) (run : RunRow) (repository : RepositoryRow) (attemptId : UUID)
    (alreadyTerminal : Bool) : TaskExecutionLease where
  taskId := task.id
  runId := task.runId
  projectId := task.projectId
  repositoryId := task.repositoryId
  attemptId := attemptId
  baselineCommit := run.baselineCommit
  sourcePath := repository.sourcePath
  taskType := task.taskType
  goal := "Run objective: " ++ clip run.goal 6000 ++ "\nTask: " ++ task.title ++ "\n" ++
    clip task.description 6000 ++ "\nAcceptance criteria:\n" ++
    clip (String.intercalate "\n" task.acceptanceCriteria) 6000
  allowedTools := task.allowedTools
  assignedCapability := task.assignedCapability
  riskCeiling := task.riskCeiling
  dependencies := task.dependencies
  alreadyTerminal := alreadyTerminal

variable (db : Database) (taskId : UUID)

def Database.attemptCount : Nat :=
  db.attempts.rows.countP fun attempt => attempt.taskId = taskId

def Database.spent (runId : UUID) : Rat :=
  ((db.modelCalls.filter fun call => call.runId = runId).map ModelCallRow.costUsd).sum

def roundHalfEven (q : Rat) : Int :=
  let rest := q - q.floor
  if rest < 1 / 2 then q.floor
  else if 1 / 2 < rest then q.floor + 1
  else if q.floor % 2 = 0 then q.floor
  else q.floor + 1

/-- `f"{q:.{digits}f}"` for a non-negative `q`. -/
def fixed (digits : Nat) (q : Rat) : String :=
  let scaled := (roundHalfEven (q * (10 ^ digits : Nat))).toNat
  let fraction := toString (scaled % 10 ^ digits)
  toString (scaled / 10 ^ digits) ++ "." ++
    String.ofList (List.replicate (digits - fraction.length) '0') ++ fraction

def attemptsExhausted (attempts cap : Nat) : String :=
  "task exhausted its attempt budget: " ++ toString attempts ++ " of " ++ toString cap ++
    " attempts consumed"

def costExhausted (spent cap : Rat) : String :=
  "run exhausted its cost budget: $" ++ fixed 4 spent ++ " of $" ++ fixed 2 cap ++ " consumed"

/-- Why the task may not start, or `none` if it may. -/
def exhaustionReason (service : SchedulerService) (task : TaskRow) (run : RunRow) :
    Session (Option String) := do
  let attempts ← query fun db => db.attemptCount task.id
  if attempts ≥ service.policy.maxTaskAttempts then
    pure (some (attemptsExhausted attempts service.policy.maxTaskAttempts))
  else do
    let spent ← query fun db => db.spent run.id
    if spent ≥ service.policy.maxRunCostUsd then
      pure (some (costExhausted spent service.policy.maxRunCostUsd))
    else pure none

def noSuchTask (projectId taskId : UUID) : Session α :=
  raise .lookupError
    ("task " ++ taskId.str ++ " does not exist in project " ++ projectId.str)

def LeaseRow.ownedBy (lease : LeaseRow) (owner : String) (token : UUID) : Bool :=
  lease.owner = owner && lease.token = token

variable (call : Dispatch)

def admitCompleted (task : TaskRow) (run : RunRow) (repository : RepositoryRow) :
    Session TaskExecutionLease := do
  let attempt ← query fun db => db.attempts.get? call.attemptId
  if attempt.any fun attempt => attempt.taskId = call.taskId then
    pure (executionLease task run repository call.attemptId true)
  else
    raise .lookupError "dispatch attempt does not match the completed task"

def enterRunning (task : TaskRow) (draw : Draw) : Session TaskRow :=
  if task.state = .LEASED then
    transitionTask call.projectId call.taskId task.version .RUNNING draw
  else if task.state ≠ .RUNNING then
    raise .permissionError ("worker cannot start task in " ++ task.state.value)
  else pure task

def ensureAttempt (draw : Draw) : Session Unit := do
  let attempt ← query fun db => db.attempts.get? call.attemptId
  match attempt with
  | none => createAttempt call.attemptId call.taskId call.agentSpecHash draw
  | some attempt =>
    if attempt.taskId ≠ call.taskId ∨ attempt.agentSpecHash ≠ call.agentSpecHash then
      raise .permissionError "worker attempt identity does not match dispatch"
    else pure ()

variable (now : Time)

/-- The branch that needs the exact, unexpired lease. -/
def admitLeased (draw : Draw) (task : TaskRow) (run : RunRow)
    (repository : RepositoryRow) : Session TaskExecutionLease := do
  let lease ← selectLeaseForUpdate call.taskId
  if lease.any fun lease => lease.ownedBy call.owner call.token && now < lease.expiresAt then do
    let task ← enterRunning call task draw
    ensureAttempt call draw
    pure (executionLease task run repository call.attemptId false)
  else
    raise .permissionError "worker dispatch lease is missing, expired, or mismatched"

def admitClaim (service : SchedulerService) (call : Dispatch) (now : Time) (draw : Draw) :
    Session TaskExecutionLease := do
  match ← selectTaskForUpdate call.projectId call.taskId with
  | none => noSuchTask call.projectId call.taskId
  | some task => do
    let run ← query fun db => db.runs.get? task.runId
    let repository ← query fun db => db.repositories.get? task.repositoryId
    match run, repository with
    | some run, some repository =>
      if task.state = .COMPLETED then admitCompleted call task run repository
      else do
        -- the ceilings bind before the lease is looked at
        match ← exhaustionReason service task run with
        | some reason => raise .taskBudgetExhausted reason
        | none => admitLeased call now draw task run repository
    | _, _ => raise .runtimeError "task run or repository is missing"

/-- Make an admission refusal durable: `FAILED`, no lease, no reservations. -/
def refuseExhaustedTask (projectId taskId : UUID) (now : Time) (draw : Draw) : Session Unit := do
  match ← selectTaskForUpdate projectId taskId with
  | none => pure ()
  | some task =>
    if task.state ∈ terminalTaskStates then pure ()
    else do
      releaseReservations taskId now
      deleteLease taskId
      let _ ← transitionTask projectId taskId task.version .FAILED draw
      pure ()

def startClaim (service : SchedulerService) (call : Dispatch) (now : Time) (draw refusal : Draw) :
    Service Database Raised TaskExecutionLease :=
  rescue (transact (admitClaim service call now draw)) fun error =>
    if error.kind = .taskBudgetExhausted then do
      transact (refuseExhaustedTask call.projectId call.taskId now refusal)
      raise error
    else raise error

/-! ## finish_claim -/

def requiredGraphState : TaskStatus → GraphExecutionState
  | .COMPLETED => .COMPLETED
  | .FAILED => .FAILED
  | _ => .CANCELLED

def notOwner : Session α :=
  raise .permissionError "worker cannot finish a claim owned by another dispatcher"

def dropClaim : Session Unit := do
  releaseReservations taskId now
  deleteLease taskId

def Database.dropped : Database :=
  { db.release taskId now with leases := (db.release taskId now).leases.erase taskId }

@[simp] theorem run_dropClaim (db : Database) :
    (dropClaim taskId now).run db = .ok ((), db.dropped taskId now) := by
  simp only [dropClaim, run_bind, run_releaseReservations, run_deleteLease]
  rfl

def settleAttempt (target : TaskStatus) (now : Time) : Session Unit := do
  let attempt ← query fun db => db.attempts.get? call.attemptId
  match attempt.filter fun attempt => attempt.taskId = call.taskId with
  | none => raise .permissionError "worker attempt does not belong to task"
  | some attempt =>
    execute fun db => { db with
      attempts := db.attempts.set { attempt with status := target, endedAt := some now } }

/-- A replay of a finish that already took effect still checks its owner. -/
def finishReplay (lease : Option LeaseRow) (now : Time) : Session Unit :=
  match lease with
  | none => pure ()
  | some lease =>
    if lease.ownedBy call.owner call.token then dropClaim call.taskId now else notOwner

def finishOwned (target : TaskStatus) (now : Time) (draw : Draw)
    (task : TaskRow) : Session Unit := do
  let graph ← query fun db => db.graphs.get? call.taskId
  if graph.any fun graph => graph.state = requiredGraphState target then do
    let _ ← transitionTask call.projectId call.taskId task.version target draw
    settleAttempt call target now
    dropClaim call.taskId now
  else
    raise .runtimeError ("cannot finish task " ++ target.value ++ " before graph is " ++
      (requiredGraphState target).value)

def finishClaim (service : SchedulerService) (call : Dispatch) (target : TaskStatus) (now : Time)
    (draw : Draw) : Session Unit := do
  if target ∉ terminalTaskStates then
    raise .valueError "worker claim may finish only in a terminal state"
  else do
    match ← selectTaskForUpdate call.projectId call.taskId with
    | none => noSuchTask call.projectId call.taskId
    | some task => do
      let lease ← selectLeaseForUpdate call.taskId
      if task.state = target then finishReplay call lease now
      else
        match lease.filter fun lease => lease.ownedBy call.owner call.token with
        | none => notOwner
        | some lease =>
          if lease.expiresAt ≤ now - service.leaseTtl then
            raise .permissionError "worker lease expired beyond grace; claim ownership lost"
          else finishOwned call target now draw task

/-! ## reclaim_expired -/

/-- `ORDER BY expires_at, task_id`. -/
def expiresBefore (a b : LeaseRow) : Bool :=
  a.expiresAt < b.expiresAt || (a.expiresAt = b.expiresAt && a.taskId.int ≤ b.taskId.int)

def Database.expiredLeases (limit : Nat) : List LeaseRow :=
  ((db.leases.rows.filter fun lease => lease.expiresAt ≤ now).insertionSort
    (expiresBefore · ·)).take limit

def selectTaskByIdForUpdate : Session (Option TaskRow) :=
  queryForUpdate (fun db => db.lockTask taskId) (fun db => db.tasks.get? taskId)

variable (draws : UUID → Draw)

def requeueIfLeased (task : TaskRow) : Session Unit :=
  if task.state = .LEASED then moveTo .READY draws task else pure ()

/-- Lock the pair, verify it again, and return the task. -/
def reclaimCandidate (taskId : UUID) : Session (List UUID) := do
  match ← selectTaskByIdForUpdate taskId with
  | none => pure []
  | some task => do
    match ← selectLeaseForUpdate taskId with
    | none => pure []
    | some lease =>
      if lease.expiresAt > now then pure []
      -- a running task may have a checkpoint; only the reconciler resolves it
      else if task.state = .RUNNING then pure []
      else do
        requeueIfLeased draws task
        dropClaim taskId now
        pure [taskId]

def reclaimExpired (limit : Nat) (draws : UUID → Draw) : Session Nat := do
  let candidates ← query fun db => (db.expiredLeases now limit).map LeaseRow.taskId
  let reclaimed ← collect (reclaimCandidate now draws) candidates
  pure reclaimed.length

/-! ## Cancellation -/

def cancelIfOpen (draw : Draw) (task : TaskRow) : Session Unit :=
  if task.state ≠ .CANCELLED then moveTo .CANCELLED (fun _ => draw) task else pure ()

def cancelTask (projectId taskId : UUID) (now : Time) (draw : Draw) : Session Unit := do
  match ← selectTaskForUpdate projectId taskId with
  | none => noSuchTask projectId taskId
  | some task => do
    cancelIfOpen draw task
    dropClaim taskId now

def Database.cancellableRuns (limit : Nat) : List RunRow :=
  ((db.runs.rows.filter fun run =>
    run.cancellationRequestedAt.isSome && run.state ∉ runTerminalStates).insertionSort
    fun a b => a.cancellationRequestedAt.getD 0 ≤ b.cancellationRequestedAt.getD 0).take limit

def Database.openTasksOf (runId : UUID) : List TaskRow :=
  db.tasks.rows.filter fun task => task.runId = runId && task.state ∉ terminalTaskStates

def cancelRun (runId : UUID) (now : Time) (draw : Draw) : Session Bool := do
  let locked ← queryForUpdate
    (fun db => (db.runs.get? runId).map fun _ => Lock.run runId) (fun db => db.runs.get? runId)
  match locked.filter fun run => run.state ∉ runTerminalStates with
  | none => pure false
  | some run => do
    require (requireRunTransition run.state .CANCELLED)
    recordStateDuration "workflow" run.id run.state.value run.stateEnteredAt now
    execute fun db => { db with
      runs := db.runs.set { run with state := .CANCELLED, stateEnteredAt := now } }
    publish draw.eventId "run.cancelled" "run" runId runId "run-state"
      (.obj [("run_id", .str runId.str), ("reason", .str "operator_cancelled")])
    pure true

/-- Every open task of the run in its own transaction, then the run. -/
def cancelRequestedRun (runId : UUID) : Service Database Raised Bool := do
  let tasks ← transact
    (query fun db => db.openTasksOf runId : Session (List TaskRow))
  each (fun task : TaskRow =>
    transact (cancelTask task.projectId task.id now (draws task.id))) tasks
  transact (cancelRun runId now (draws runId))

def cancelRunsInTurn (now : Time) (draws : UUID → Draw) : List UUID → Service Database Raised Nat
  | [] => pure 0
  | runId :: rest => do
    let resolved ← cancelRequestedRun now draws runId
    let others ← cancelRunsInTurn now draws rest
    pure (if resolved then others + 1 else others)

def cancelRequestedRuns (limit : Nat) (now : Time) (draws : UUID → Draw) :
    Service Database Raised Nat := do
  let runs ← transact
    (query fun db => (db.cancellableRuns limit).map RunRow.id : Session (List UUID))
  cancelRunsInTurn now draws runs

end AutoSwe
