import AutoSwe.Domain.Enums
import AutoSwe.Lib.Prog
import AutoSwe.Lib.Table

/-!
# Tables

The rows that the scheduler, the reconciler and the workflow runtime read and
write, and the database they live in. A table that a statement looks up by a
unique column is a keyed `Table` over that column; the append-only tables are
lists. Surrogate row ids that nothing reads are left out.

`Lock` is what a statement can wait for: a row of `tasks`, `graph_executions`,
`leases` or `runs`, or a two-integer advisory lock.
-/

namespace AutoSwe

open Relational Transaction

theorem noSlots_le : 0 ≤ 1 := by decide

structure ResourceEstimate where
  modelTokens : Nat := 0
  sandboxSlots : Nat := 0
  sandboxSlots_le : sandboxSlots ≤ 1 := by exact noSlots_le
deriving DecidableEq

structure RepositoryRow where
  id : UUID
  projectId : UUID
  sourcePath : String
  defaultBranch : String
deriving DecidableEq

structure RunRow where
  id : UUID
  projectId : UUID
  repositoryId : UUID
  goal : String
  baselineCommit : String
  state : RunStatus := .PENDING
  stateEnteredAt : Time := 0
  cancellationRequestedAt : Option Time := none
  createdAt : Time := 0
deriving DecidableEq

/-- `dependencies` stands for the JSON array of the ids' canonical texts. -/
structure TaskRow where
  id : UUID
  runId : UUID
  projectId : UUID
  repositoryId : UUID
  planRevision : Nat
  title : String
  description : String
  taskType : TaskType
  dependencies : List UUID
  priority : Int
  assignedCapability : String
  acceptanceCriteria : List String
  allowedTools : List String
  riskCeiling : RiskLevel
  estimate : ResourceEstimate
  state : TaskStatus := .PENDING
  version : Nat := 1
  stateEnteredAt : Time
  createdAt : Time
deriving DecidableEq

structure TaskAttemptRow where
  id : UUID
  taskId : UUID
  agentSpecHash : String
  status : TaskStatus := .RUNNING
  startedAt : Time
  endedAt : Option Time := none
deriving DecidableEq

structure ModelCallRow where
  id : UUID
  runId : UUID
  costUsd : Rat
deriving DecidableEq

structure LeaseRow where
  taskId : UUID
  owner : String
  token : UUID
  expiresAt : Time
  heartbeatAt : Time
  createdAt : Time
deriving DecidableEq

inductive Resource
  | task
  | model
  | sandbox
deriving DecidableEq

def Resource.name : Resource → String
  | .task => "task"
  | .model => "model"
  | .sandbox => "sandbox"

structure ReservationRow where
  taskId : UUID
  projectId : UUID
  resource : Resource
  units : Nat
  createdAt : Time
  releasedAt : Option Time := none
deriving DecidableEq

structure GraphExecutionRow where
  id : UUID
  taskId : UUID
  runId : UUID
  repositoryId : UUID
  baselineCommit : String
  threadId : String
  state : GraphExecutionState
  checkpointId : Option String
  stateEnteredAt : Time
deriving DecidableEq

structure AuditEventRow where
  id : UUID
  eventType : String
  aggregateType : String
  aggregateId : UUID
  payload : Json
  correlationId : UUID
  causationId : UUID

structure OutboxRow where
  eventId : UUID
  topic : String
  payload : Json

structure StateDurationRow where
  aggregateType : String
  aggregateId : UUID
  state : String
  enteredAt : Time
  exitedAt : Time
  duration : Time
deriving DecidableEq

/-- `costUsd` counts units of 1e-8. -/
structure BudgetPolicy where
  costUsd : Nat := 0
  wallTimeSeconds : Nat := 0
deriving DecidableEq

structure PlanLimits where
  maxDynamicTasks : Nat
  maxPlanDepth : Nat
  maxTotalBudgetUsd : Nat
  maxTotalExecutionSeconds : Nat
deriving DecidableEq

/-- The part of a planned task that its row keeps or that the validator reads. -/
structure TaskSpec where
  id : UUID
  planRevision : Nat
  projectId : UUID
  repositoryId : UUID
  title : String
  description : String
  taskType : TaskType
  dependencies : List UUID := []
  priority : Int := 0
  assignedCapability : String
  acceptanceCriteria : List String
  allowedTools : List String := []
  riskCeiling : RiskLevel := .LOW
  repositoryPaths : List String := []
  budget : BudgetPolicy := {}
  estimate : ResourceEstimate := {}
deriving DecidableEq

structure TaskPlan where
  runId : UUID
  projectId : UUID
  repositoryId : UUID
  baselineCommit : String
  revision : Nat
  tasks : List TaskSpec
  limits : PlanLimits
deriving DecidableEq

structure TaskPlanMutation where
  mutationId : UUID
  baseRevision : Nat
  reason : String
  tasks : List TaskSpec
deriving DecidableEq

structure PlanRevisionRow where
  runId : UUID
  revision : Nat
  plan : TaskPlan
  createdAt : Time
deriving DecidableEq

/-- The stages of a run outside its tasks; `name` is what the column holds. -/
inductive Stage
  | architect
  | advance (state : RunStatus)
  | finalReview (revision : Nat)
  | debugger (revision : Nat)
deriving DecidableEq

def Stage.name : Stage → String
  | .architect => "architect"
  | .advance state => "advance:" ++ state.value
  | .finalReview revision => "final-review:" ++ toString revision
  | .debugger revision => "debugger:" ++ toString revision

structure RunStageAttemptRow where
  id : UUID
  runId : UUID
  stage : Stage
  agentSpecHash : String
  status : StageStatus := .RUNNING
  startedAt : Time
  endedAt : Option Time := none
deriving DecidableEq

structure RepairMutationRow where
  mutationId : UUID
  runId : UUID
  baseRevision : Nat
  acceptedRevision : Option Nat
  failureSignature : String
  progressFingerprint : String
  mutationHash : String
  verificationArtifactIds : List UUID
  status : RepairAction
  reasonCodes : List String
  mutation : TaskPlanMutation
deriving DecidableEq

structure ArtifactRow where
  id : UUID
  projectId : UUID
  runId : UUID
  taskId : UUID
  sha256 : String
  state : ArtifactState
  storageKey : String
  sizeBytes : Nat
  createdAt : Time
  verifiedAt : Option Time
deriving DecidableEq

/-- `arguments` are the items of the JSON object. -/
structure ToolCallRequest where
  callId : UUID
  runId : UUID
  taskId : UUID
  attemptId : UUID
  requestedBy : String
  toolName : String
  toolVersion : String := "1.0"
  arguments : List (String × Json)
  idempotencyKey : String
deriving DecidableEq

structure ToolExecutionRow where
  call : ToolCallRequest
  status : ToolExecutionStatus
deriving DecidableEq

structure ApprovalRow where
  id : UUID
  callId : UUID
  projectId : UUID
  repositoryId : UUID
  baselineCommit : String
  callHash : String
  status : ApprovalStatus := .PENDING
  expiresAt : Time
  createdAt : Time
  approver : Option String := none
  decidedAt : Option Time := none
deriving DecidableEq

structure MemoryCandidate where
  candidateId : UUID
  projectId : UUID
  sourceRunId : UUID
  sourceTaskId : UUID
  sourceAttemptId : UUID
  classification : String
  content : String
  originatingMessageIds : List UUID
  artifactHashes : List String
  verificationCommands : List (List String)
  confidence : Rat
deriving DecidableEq

structure MemoryCandidateRow where
  candidate : MemoryCandidate
  status : CandidateStatus := .PENDING
  deterministicMemoryId : Option UUID := none
  revisionId : Option String := none
  lastError : Option String := none
  createdAt : Time
  promotedAt : Option Time := none
deriving DecidableEq

def ToolExecutionRow.id (row : ToolExecutionRow) : UUID := row.call.callId

def MemoryCandidateRow.id (row : MemoryCandidateRow) : UUID := row.candidate.candidateId

def MemoryCandidateRow.runId (row : MemoryCandidateRow) : UUID := row.candidate.sourceRunId

/-- The unique constraint `uq_plan_revision`. -/
def PlanRevisionRow.key (row : PlanRevisionRow) : UUID × Nat := (row.runId, row.revision)

/-- The unique constraint `uq_run_stage_attempt`. -/
def RunStageAttemptRow.key (row : RunStageAttemptRow) : UUID × Stage := (row.runId, row.stage)

structure Database where
  repositories : Table UUID RepositoryRow RepositoryRow.id := ∅
  runs : Table UUID RunRow RunRow.id := ∅
  tasks : Table UUID TaskRow TaskRow.id := ∅
  attempts : Table UUID TaskAttemptRow TaskAttemptRow.id := ∅
  modelCalls : List ModelCallRow := []
  leases : Table UUID LeaseRow LeaseRow.taskId := ∅
  reservations : List ReservationRow := []
  graphs : Table UUID GraphExecutionRow GraphExecutionRow.taskId := ∅
  auditEvents : List AuditEventRow := []
  outbox : List OutboxRow := []
  stateDurations : List StateDurationRow := []
  planRevisions : Table (UUID × Nat) PlanRevisionRow PlanRevisionRow.key := ∅
  stageAttempts : Table (UUID × Stage) RunStageAttemptRow RunStageAttemptRow.key := ∅
  repairMutations : Table UUID RepairMutationRow RepairMutationRow.mutationId := ∅
  artifacts : Table UUID ArtifactRow ArtifactRow.id := ∅
  toolExecutions : Table UUID ToolExecutionRow ToolExecutionRow.id := ∅
  approvals : Table UUID ApprovalRow ApprovalRow.id := ∅
  memoryCandidates : Table UUID MemoryCandidateRow MemoryCandidateRow.id := ∅

inductive Lock
  | task (id : UUID)
  | graph (taskId : UUID)
  | lease (taskId : UUID)
  | run (id : UUID)
  | advisory (space : Nat) (key : Nat)
deriving DecidableEq

/-- A transaction body of `async with database.transaction() as session`. -/
abbrev Session := Prog Database Lock Raised

/-- The values that a call draws from its environment for one row: `utc_now()`
and `uuid4()` at each place that reads them. -/
structure Draw where
  now : Time := 0
  enteredAt : Time := 0
  createdAt : Time := 0
  eventId : UUID := 0
  rolloverId : UUID := 0
  rowId : UUID := 0
  token : UUID := 0

/-! ## Locking reads by key -/

def Session.raise (kind : ErrorKind) (message : String) : Session α :=
  Prog.raise ⟨kind, message⟩

def Session.require (checked : Except Raised Unit) : Session Unit :=
  match checked with
  | .ok () => pure ()
  | .error e => Prog.raise e

@[simp] theorem Session.run_raise :
    (Session.raise kind message : Session α).run db = .error ⟨kind, message⟩ := rfl

theorem Session.require_ok :
    (Session.require checked).run db = .ok (u, db') ↔ checked = .ok () ∧ db = db' := by
  rcases checked with e | ⟨⟩ <;> simp [Session.require]

variable (db : Database)

def Database.lockTask (taskId : UUID) : Option Lock :=
  (db.tasks.get? taskId).map fun _ => .task taskId

def Database.lockGraph (taskId : UUID) : Option Lock :=
  (db.graphs.get? taskId).map fun _ => .graph taskId

def Database.lockLease (taskId : UUID) : Option Lock :=
  (db.leases.get? taskId).map fun _ => .lease taskId

/-- The task of the given id when it belongs to the given project. -/
def Database.taskIn (projectId taskId : UUID) : Option TaskRow :=
  (db.tasks.get? taskId).filter fun task => task.projectId = projectId

/-- `SELECT … FROM tasks WHERE id = … AND project_id = … FOR UPDATE`. -/
def selectTaskForUpdate (projectId taskId : UUID) : Session (Option TaskRow) :=
  Prog.queryForUpdate
    (fun db => (db.taskIn projectId taskId).map fun _ => .task taskId)
    (fun db => db.taskIn projectId taskId)

def selectGraphForUpdate (taskId : UUID) : Session (Option GraphExecutionRow) :=
  Prog.queryForUpdate (fun db => db.lockGraph taskId) (fun db => db.graphs.get? taskId)

def selectLeaseForUpdate (taskId : UUID) : Session (Option LeaseRow) :=
  Prog.queryForUpdate (fun db => db.lockLease taskId) (fun db => db.leases.get? taskId)

/-- `SELECT … FROM runs WHERE id = … FOR UPDATE`. -/
def selectRunForUpdate (runId : UUID) : Session (Option RunRow) :=
  Prog.queryForUpdate (fun db => (db.runs.get? runId).map fun _ => .run runId)
    (fun db => db.runs.get? runId)

/-- `DELETE FROM leases WHERE task_id = …`, which locks the row it deletes. -/
def deleteLease (taskId : UUID) : Session Unit := do
  let _ ← selectLeaseForUpdate taskId
  Prog.execute fun db => { db with leases := db.leases.erase taskId }

theorem Database.taskIn_eq_some {db : Database} :
    db.taskIn projectId taskId = some task ↔
      db.tasks.get? taskId = some task ∧ task.projectId = projectId := by
  simp [Database.taskIn, Option.filter_eq_some_iff]

@[simp] theorem run_selectTaskForUpdate (projectId taskId : UUID) (db : Database) :
    (selectTaskForUpdate projectId taskId).run db = .ok (db.taskIn projectId taskId, db) := rfl

@[simp] theorem run_selectGraphForUpdate :
    (selectGraphForUpdate taskId).run db = .ok (db.graphs.get? taskId, db) := rfl

@[simp] theorem run_selectLeaseForUpdate :
    (selectLeaseForUpdate taskId).run db = .ok (db.leases.get? taskId, db) := rfl

@[simp] theorem run_selectRunForUpdate :
    (selectRunForUpdate runId).run db = .ok (db.runs.get? runId, db) := rfl

@[simp] theorem run_deleteLease :
    (deleteLease taskId).run db = .ok ((), { db with leases := db.leases.erase taskId }) := rfl

end AutoSwe
