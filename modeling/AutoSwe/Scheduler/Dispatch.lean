import AutoSwe.Scheduler.Admission

/-!
# Dispatch

The dispatcher's side of the scheduler service: `claimReady` admits and leases
ready tasks, `promoteDependencyReady` and `cancelBlockedDependents` move
pending tasks, `heartbeat` renews a lease.

The values that the source draws while it runs, `uuid4()` and `utc_now()`, are
arguments: one `Draw` for each task that a transaction writes.
-/

namespace AutoSwe

open Transaction Prog Database

structure SchedulerService where
  policy : ConcurrencyPolicy
  leaseTtl : Time
  leaseTtl_pos : 0 < leaseTtl

structure TaskClaim where
  taskId : UUID
  projectId : UUID
  owner : String
  token : UUID
  expiresAt : Time
deriving DecidableEq

/-! ## claim_ready -/

/-- `ORDER BY priority DESC, created_at, id`. -/
def claimsBefore (a b : TaskRow) : Bool :=
  a.priority > b.priority || (a.priority = b.priority && (a.createdAt < b.createdAt ||
    (a.createdAt = b.createdAt && a.id.int ≤ b.id.int)))

variable (db : Database)

def Database.readyTasks : List TaskRow :=
  (db.tasks.rows.filter fun task => task.state = .READY).insertionSort (claimsBefore · ·)

/-- A reservation that the request may not ask for at all. -/
def reserveSlots (task : TaskRow) (resource : Resource) (slots cap : Nat) (draw : Draw) :
    Session Bool :=
  if slots = 0 then pure true
  else reserveWithGlobalCap task.id task.projectId resource slots cap draw

variable (service : SchedulerService) (owner : String)

def claimTask (now : Time) (draws : UUID → Draw) (task : TaskRow) : Session (List TaskClaim) := do
  let request := resourceRequest task.estimate
  let draw := draws task.id
  let snapshot ← admissionSnapshot task.projectId
  if (evaluateAdmission service.policy snapshot request).isSome then pure []
  else do
    let reserved ← reserveWithGlobalCap task.id task.projectId .task 1
      service.policy.maxParallelTasks draw
    if !reserved then pure []
    else do
      let modelReserved ← reserveSlots task .model request.modelSlots
        service.policy.maxModelConcurrency draw
      if !modelReserved then do
        releaseReservations task.id now
        pure []
      else do
        let sandboxReserved ← reserveSlots task .sandbox request.sandboxSlots
          service.policy.maxSandboxConcurrency draw
        if !sandboxReserved then do
          releaseReservations task.id now
          pure []
        else do
          let _ ← transitionTask task.projectId task.id task.version .LEASED draw
          createLease task.id owner draw.token (now + service.leaseTtl) draw
          pure [{ taskId := task.id, projectId := task.projectId, owner, token := draw.token,
                  expiresAt := now + service.leaseTtl }]

def claimProject (now : Time) (draws : UUID → Draw)
    (candidates : List TaskRow) (projectId : UUID) : Session (List TaskClaim) := do
  advisory (projectLock projectId)
  collect (claimTask service owner now draws)
    (candidates.filter fun task => task.projectId = projectId)

/-- The keys of `by_project`, sorted. -/
def projectsOf (candidates : List TaskRow) : List UUID :=
  (candidates.map TaskRow.projectId).dedup.insertionSort fun p q => p.int ≤ q.int

variable (limit : Nat)

def claimReady (now : Time) (draws : UUID → Draw) : Session (List TaskClaim) := do
  if limit < 1 then pure []
  else do
    let candidates ← selectSkipLocked readyTasks (fun task => .task task.id) limit
    collect (claimProject service owner now draws candidates) (projectsOf candidates)

/-! ## Pending tasks -/

def dependenciesSatisfied (dependencies : List UUID) (states : UUID → Option TaskStatus) : Bool :=
  dependencies.all fun dependency => states dependency = some .COMPLETED

/-- `dep LEFT JOIN tasks AS resolved ON resolved.id::text = dep.value`: the
joined rows of one dependency text. -/
def Database.resolve (text : String) : List (Option TaskRow) :=
  match db.tasks.rows.filter fun resolved => resolved.id.str = text with
  | [] => [none]
  | resolved => resolved.map some

/-- The server-side predicate of `_DEPENDENCIES_SATISFIED_SQL`. -/
def Database.dependenciesSatisfiedSql (task : TaskRow) : Bool :=
  (((task.dependencies.map UUID.str).flatMap db.resolve).countP fun resolved =>
    match resolved with
    | none => true
    | some row => row.state ≠ .COMPLETED) = 0

/-- `ORDER BY created_at, id`. -/
def createdBefore (a b : TaskRow) : Bool :=
  a.createdAt < b.createdAt || (a.createdAt = b.createdAt && a.id.int ≤ b.id.int)

def Database.pendingTasks : List TaskRow :=
  (db.tasks.rows.filter fun task => task.state = .PENDING).insertionSort (createdBefore · ·)

def Database.promotableTasks : List TaskRow :=
  db.pendingTasks.filter db.dependenciesSatisfiedSql

def moveTo (target : TaskStatus) (draws : UUID → Draw) (task : TaskRow) : Session Unit := do
  let _ ← transitionTask task.projectId task.id task.version target (draws task.id)
  pure ()

def promoteRound (draws : UUID → Draw) : Session Nat := do
  let candidates ← selectSkipLocked promotableTasks (fun task => .task task.id) limit
  each (moveTo .READY draws) candidates
  pure candidates.length

def promoteDependencyReady (limit : Nat) (draws : Nat → UUID → Draw) :
    (maxRounds : Nat) → Service Database Raised Nat
  | 0 => pure 0
  | round + 1 => do
    let promoted ← Service.transact (promoteRound limit (draws round))
    if promoted = 0 then pure 0
    else if promoted < limit then pure promoted
    else do
      let rest ← promoteDependencyReady limit draws round
      pure (promoted + rest)

/-- The ids among `wanted` of tasks that failed or were cancelled. -/
def Database.terminalAmong (wanted : List UUID) : List UUID :=
  (db.tasks.rows.filter fun task =>
    task.id ∈ wanted && (task.state = .FAILED || task.state = .CANCELLED)).map TaskRow.id

def cancelBlockedRound (draws : UUID → Draw) : Session Nat := do
  let candidates ← selectSkipLocked pendingTasks (fun task => .task task.id) limit
  let wanted := candidates.flatMap TaskRow.dependencies
  let terminalIds ← query fun db => db.terminalAmong wanted
  let blocked := candidates.filter fun task => task.dependencies.any fun d => d ∈ terminalIds
  each (moveTo .CANCELLED draws) blocked
  pure blocked.length

def cancelBlockedRounds (limit : Nat) (draws : Nat → UUID → Draw) :
    (rounds : Nat) → Service Database Raised Nat
  | 0 => pure 0
  | round + 1 => do
    let cancelled ← Service.transact (cancelBlockedRound limit (draws round))
    if cancelled = 0 then pure 0
    else do
      let rest ← cancelBlockedRounds limit draws round
      pure (cancelled + rest)

def cancelBlockedDependents (draws : Nat → UUID → Draw) : Service Database Raised Nat :=
  cancelBlockedRounds limit draws 16

/-! ## heartbeat -/

def Database.leaseOf (taskId : UUID) (owner : String) (token : UUID) : Option LeaseRow :=
  (db.leases.get? taskId).filter fun lease => lease.owner = owner && lease.token = token

/-- The `UPDATE` locks the row it changes; nothing else is locked before it. -/
def heartbeat (taskId : UUID) (owner : String) (token : UUID) (now : Time) : Session Bool := do
  let state ← query fun db => (db.tasks.get? taskId).map TaskRow.state
  if state.any (· ∈ terminalTaskStates) then pure false
  else do
    let found ← queryForUpdate
      (fun db => (db.leaseOf taskId owner token).map fun _ => Lock.lease taskId)
      (fun db => db.leaseOf taskId owner token)
    match found with
    | none => pure false
    | some lease => do
      execute fun db => { db with
        leases := db.leases.set
          { lease with heartbeatAt := now, expiresAt := now + service.leaseTtl } }
      pure true

end AutoSwe
