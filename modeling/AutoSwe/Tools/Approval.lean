import AutoSwe.Domain.Text
import AutoSwe.Persistence.Repositories

/-!
# Approvals

An operator approves one exact tool call. The request stores the call and an
approval that is bound to it by a hash and expires; a decision sets the status
of the approval, and the call is authorised while the approval is granted and
not expired. A decision that comes too late is what marks an approval `EXPIRED`.
-/

namespace AutoSwe

open Transaction Prog Session

structure ToolExecutionContext where
  projectId : UUID
  repositoryId : UUID
  runId : UUID
  taskId : UUID
  attemptId : UUID
  baselineCommit : String
  agentRole : String

/-- `callHash` is the canonical hash of a call in its scope up to its expiry. -/
structure ApprovalService where
  ttl : Time := 3600000000
  callHash : ToolCallRequest → (projectId repositoryId : UUID) → String → Time → String
  uuid5 : UUID → String → UUID
  isoformat : Time → String

def validateCallScope (call : ToolCallRequest) (context : ToolExecutionContext) :
    Except Raised Unit :=
  if call.runId ≠ context.runId ∨ call.taskId ≠ context.taskId ∨
      call.attemptId ≠ context.attemptId ∨ call.requestedBy ≠ context.agentRole then
    .error ⟨.approvalBindingError, "tool call does not match its execution context"⟩
  else .ok ()

def Database.approvalOf (db : Database) (callId : UUID) : Option ApprovalRow :=
  db.approvals.rows.find? fun row => row.callId = callId

def Database.setApproval (row : ApprovalRow) (db : Database) : Database :=
  { db with approvals := db.approvals.set row }

def Database.executionByKey (db : Database) (idempotencyKey : String) : Option ToolExecutionRow :=
  db.toolExecutions.rows.find? fun row => row.call.idempotencyKey = idempotencyKey

/-- `INSERT … ON CONFLICT DO NOTHING`: on the id or on the idempotency key. -/
def insertToolExecution (call : ToolCallRequest) (status : ToolExecutionStatus) : Session Unit :=
  execute fun db =>
    match db.executionByKey call.idempotencyKey with
    | none => { db with toolExecutions := db.toolExecutions.insert ⟨call, status⟩ }
    | some _ => db

namespace ApprovalService

variable (service : ApprovalService)

def approval (call : ToolCallRequest) (context : ToolExecutionContext) (now : Time)
    (draw : Draw) : ApprovalRow where
  id := service.uuid5 namespaceUrl
    ("approval:" ++ call.callId.str ++ ":" ++ service.isoformat (now + service.ttl))
  callId := call.callId
  projectId := context.projectId
  repositoryId := context.repositoryId
  baselineCommit := context.baselineCommit
  callHash := service.callHash call context.projectId context.repositoryId context.baselineCommit
    (now + service.ttl)
  expiresAt := now + service.ttl
  createdAt := draw.createdAt

def createApproval (row : ApprovalRow) : Session Unit :=
  checked fun db =>
    if (db.approvals.get? row.id).isSome then .error ⟨.integrityError, "approvals_pkey"⟩
    else if db.approvals.rows.any fun other => other.callHash = row.callHash then
      .error ⟨.integrityError, "approvals_call_hash_key"⟩
    else .ok fun db => { db with approvals := db.approvals.insert row }

def approvalRequestedPayload (row : ApprovalRow) : Json :=
  .obj [("approval_id", .str row.id.str), ("call_id", .str row.callId.str),
    ("call_hash", .str row.callHash), ("expires_at", .str (service.isoformat row.expiresAt))]

def request (call : ToolCallRequest) (context : ToolExecutionContext) (now : Time)
    (draw : Draw) : Session Unit := do
  require (validateCallScope call context)
  insertToolExecution call .WAITING_FOR_APPROVAL
  let execution ← query fun db => db.toolExecutions.get? call.callId
  if execution.all fun row => row.call ≠ call then
    raise .approvalBindingError
      "approval call does not match its persisted tool execution"
  else do
    match ← query fun db => db.approvalOf call.callId with
    | some existing =>
      if service.callHash call existing.projectId existing.repositoryId existing.baselineCommit
          existing.expiresAt = existing.callHash then pure ()
      else
        raise .approvalBindingError "existing approval is bound to different call arguments"
    | none => do
      let row := service.approval call context now draw
      createApproval row
      let eventId := service.uuid5 namespaceUrl ("approval-requested:" ++ row.id.str)
      let payload := service.approvalRequestedPayload row
      appendAudit ⟨eventId, "approval.requested", "approval", row.id, payload, call.runId,
        call.callId⟩
      enqueueEvent ⟨eventId, "approvals", payload⟩

/-- The records of a decision. The caller raises after a late one is committed. -/
def recordDecision (row : ApprovalRow) (approver : Option String) (now : Time) : Session Unit := do
  recordStateDuration "approval" row.id "PENDING" row.createdAt now
  let eventId := service.uuid5 namespaceUrl
    ("approval-decided:" ++ row.id.str ++ ":" ++ row.status.value)
  let payload := Json.obj [("approval_id", .str row.id.str),
    ("status", .str (row.status.value)), ("approver", Json.ofOption approver)]
  match ← query fun db => db.toolExecutions.get? row.callId with
  | none => raise .approvalBindingError "approval tool execution is missing"
  | some execution => do
    appendNamedAudit ⟨eventId, "approval.decided", "approval", row.id, payload,
      execution.call.runId, row.callId⟩
    enqueueNamedEvent ⟨eventId, "approvals", payload⟩

/-- The result says whether the approval had expired. -/
def decide (approvalId : UUID) (approver : String) (approved : Bool) (expectedCallHash : String)
    (now : Time) : Session Bool := do
  require (if isBlank approver then .error ⟨.valueError, "approver is required"⟩ else .ok ())
  match ← query fun db => db.approvals.get? approvalId with
  | none => raise .lookupError ("approval " ++ approvalId.str ++ " does not exist")
  | some row =>
    if row.callHash ≠ expectedCallHash then
      raise .approvalBindingError "approval decision does not match the exact call"
    else if row.expiresAt ≤ now then do
      let row := { row with status := .EXPIRED, decidedAt := some now }
      execute (Database.setApproval row)
      service.recordDecision row none now
      pure true
    else
      let target := if approved then ApprovalStatus.APPROVED else .REJECTED
      if row.status ≠ .PENDING then
        if row.status = target ∧ row.approver = some approver then pure false
        else raise .approvalBindingError "approval already has a different decision"
      else do
        let row := { row with
          status := target, approver := some approver, decidedAt := some now }
        execute (Database.setApproval row)
        service.recordDecision row (some approver) now
        pure false

def checkAuthorization (row : ApprovalRow) (call : ToolCallRequest)
    (context : ToolExecutionContext) (now : Time) : Except Raised Unit :=
  if row.expiresAt ≤ now then
    .error ⟨.approvalExpired, "approval " ++ row.id.str ++ " expired"⟩
  else if row.status ≠ .APPROVED ∨ row.approver.all (· = "") ∨ row.decidedAt = none then
    .error ⟨.approvalNotGranted, "approval " ++ row.id.str ++ " is not approved"⟩
  else if row.projectId ≠ context.projectId ∨ row.repositoryId ≠ context.repositoryId ∨
      row.baselineCommit ≠ context.baselineCommit ∨
      row.callHash ≠ service.callHash call context.projectId context.repositoryId
        context.baselineCommit row.expiresAt then
    .error ⟨.approvalBindingError,
      "approval is not bound to this exact call, repository, and baseline"⟩
  else .ok ()

def authorize (approvalId : UUID) (call : ToolCallRequest) (context : ToolExecutionContext)
    (now : Time) : Session Unit := do
  require (validateCallScope call context)
  match ← query fun db => db.approvals.get? approvalId with
  | none => raise .lookupError ("approval " ++ approvalId.str ++ " does not exist")
  | some row => require (service.checkAuthorization row call context now)

/-- What an approval that authorises a call is like. -/
structure Authorizes (row : ApprovalRow) (call : ToolCallRequest) (context : ToolExecutionContext)
    (now : Time) : Prop where
  unexpired : now < row.expiresAt
  approved : row.status = .APPROVED
  decided : row.approver ≠ none ∧ row.decidedAt ≠ none
  projectId : row.projectId = context.projectId
  repositoryId : row.repositoryId = context.repositoryId
  baselineCommit : row.baselineCommit = context.baselineCommit
  callHash : row.callHash = service.callHash call context.projectId context.repositoryId
    context.baselineCommit row.expiresAt

variable {service}

theorem authorizes_of_check (h : service.checkAuthorization row call context now = .ok ()) :
    service.Authorizes row call context now := by
  unfold checkAuthorization at h
  split at h
  · cases h
  · rename_i hexpires
    split at h
    · cases h
    · rename_i hdecided
      split at h
      · cases h
      · rename_i hbound
        push Not at hexpires hdecided hbound
        obtain ⟨happroved, happrover, hdecidedAt⟩ := hdecided
        obtain ⟨hproject, hrepository, hbaseline, hhash⟩ := hbound
        refine ⟨hexpires, happroved, ⟨?_, hdecidedAt⟩, hproject, hrepository, hbaseline, hhash⟩
        rintro hnone
        simp [hnone] at happrover

theorem authorize_ok (h : (service.authorize approvalId call context now).run db = .ok (u, db')) :
    ∃ row, db.approvals.get? approvalId = some row ∧ service.Authorizes row call context now := by
  obtain ⟨_, _, hscope, h⟩ := bind_ok.mp h
  obtain ⟨-, rfl⟩ := require_ok.mp hscope
  have h := after h rfl
  cases hrow : db.approvals.get? approvalId with
  | none => simp [hrow] at h
  | some row =>
    simp only [hrow] at h
    exact ⟨row, rfl, authorizes_of_check (require_ok.mp h).1⟩

end ApprovalService

/-! ## The end of an approved call -/

def ToolExecutionStatus.terminal : ToolExecutionStatus → Bool
  | .COMPLETED | .FAILED | .NEEDS_RECONCILIATION => true
  | _ => false

def checkApprovedExecution (row : Option ToolExecutionRow) (call : ToolCallRequest) :
    Except Raised Bool :=
  match row.filter fun row => row.call.callId = call.callId with
  | none => .error ⟨.toolGatewayError, "approved tool execution is missing"⟩
  | some row =>
    if row.call ≠ call then
      .error ⟨.toolIdempotencyConflict,
        "idempotency key replay does not match the exact original tool call"⟩
    else if row.status = .COMPLETED then .ok true
    else if row.status ∉ [ToolExecutionStatus.CLAIMED, .WAITING_FOR_APPROVAL] then
      .error ⟨.toolGatewayError,
        "approved tool call is not executable in status " ++ row.status.value⟩
    else .ok false

/-- The stored result is read by nobody who is modelled. -/
def persistTerminal (uuid5 : UUID → String → UUID) (call : ToolCallRequest)
    (status : ToolExecutionStatus) (risk : RiskLevel) (attempts : Nat) : Session Unit := do
  match ← query fun db => db.toolExecutions.get? call.callId with
  | none => raise .toolGatewayError "owned tool execution is missing"
  | some row =>
    if row.status.terminal then pure ()
    else do
      execute fun db => { db with
        toolExecutions := db.toolExecutions.set { row with status := status } }
      let eventId := uuid5 namespaceUrl
        ("tool-terminal:" ++ call.callId.str ++ ":" ++ status.value)
      let payload := Json.obj [("call_id", .str call.callId.str), ("status", .str status.value),
        ("risk", .str risk.value), ("attempts", .num attempts), ("error", .null)]
      appendAudit ⟨eventId, "tool." ++ status.value.toLower, "tool_call", call.callId, payload,
        call.runId, call.callId⟩
      enqueueEvent ⟨eventId, "tool-execution", payload⟩

end AutoSwe
