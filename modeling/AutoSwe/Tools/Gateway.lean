import AutoSwe.Lib.Process
import AutoSwe.Persistence.GraphExecutions
import AutoSwe.Tools.Approval
import AutoSwe.Worker.Tools

/-!
# The tool gateway

`execute` and `complete_approved` as processes: every transaction and every call
of an executor is one awaited action, and any number of calls, through any
gateways, run at once over one store. An action can fail before or after it took
effect, and a process that is never resumed has crashed.
-/

namespace AutoSwe.Gateway

open Transaction Coroutine Prog Session

inductive ReplayPolicy
  | NEVER
  | SAFE
  | IDEMPOTENT
deriving DecidableEq

inductive SideEffectClass
  | NONE
  | LOCAL
  | EXTERNAL
deriving DecidableEq

inductive NetworkProfile
  | NONE
  | DEPENDENCY_EGRESS
  | PROVIDER_EGRESS
deriving DecidableEq

def NetworkProfile.value : NetworkProfile → String
  | .NONE => "none"
  | .DEPENDENCY_EGRESS => "dependency-egress"
  | .PROVIDER_EGRESS => "provider-egress"

abbrev Arguments := List (String × Json)

abbrev Output := List (String × Json)

structure Context extends ToolExecutionContext where
  agentCapabilities : List String
  riskCeiling : RiskLevel
  worktreeRoot : String
  availableEgress : NetworkProfile := .NONE

/-- What `__post_init__` checks and the gateway relies on is a field. -/
structure ToolSpec where
  name : String
  version : String
  owningCapability : String
  eligibleAgents : List String
  baseRisk : RiskLevel
  maxAttempts : Nat
  replayPolicy : ReplayPolicy
  networkProfile : NetworkProfile
  sideEffect : SideEffectClass
  approvalRequired : Bool
  retryOnTimeout : Bool := true
  retryOnTransient : Bool := true
  initialBackoff : Time := 100000
  maximumBackoff : Time := 2000000
  attemptsInRange : 1 ≤ maxAttempts ∧ maxAttempts ≤ 20
  onceUnlessReplayable : replayPolicy = .NEVER → maxAttempts = 1

/-- `validateArguments` normalises the path fields and validates the argument
model, `validateResult` validates the result model. -/
structure RegisteredTool where
  spec : ToolSpec
  validateArguments : Arguments → (worktreeRoot : String) → Except Raised Arguments
  validateResult : Output → Except Raised Output

def riskOrder : RiskLevel → Nat
  | .LOW => 0
  | .MEDIUM => 1
  | .HIGH => 2
  | .CRITICAL => 3

def riskExceeds (level ceiling : RiskLevel) : Bool := riskOrder ceiling < riskOrder level

namespace RegisteredTool

variable (tool : RegisteredTool)

def authorize (context : Context) (risk : RiskLevel) : Except Raised Unit :=
  if tool.spec.owningCapability ∉ context.agentCapabilities then
    .error ⟨.permissionError, "agent lacks owning capability " ++ tool.spec.owningCapability⟩
  else if context.agentRole ∉ tool.spec.eligibleAgents then
    .error ⟨.permissionError, "agent role " ++ context.agentRole ++ " is not eligible"⟩
  else if riskExceeds risk context.riskCeiling then
    .error ⟨.permissionError, "calculated " ++ risk.value ++ " risk exceeds agent risk ceiling"⟩
  else if tool.spec.networkProfile ≠ .NONE ∧ context.availableEgress ≠ .NONE ∧
      tool.spec.networkProfile ≠ context.availableEgress then
    .error ⟨.permissionError, "tool declares " ++ tool.spec.networkProfile.value ++
      " egress but the sandbox provides " ++ context.availableEgress.value⟩
  else .ok ()

def mayRetry (attempts : Nat) : Bool :=
  tool.spec.replayPolicy ≠ .NEVER ∧ attempts < tool.spec.maxAttempts

def retryDelay (attempts : Nat) : Time :=
  min tool.spec.maximumBackoff (tool.spec.initialBackoff * 2 ^ (attempts - 1))

end RegisteredTool

/-- `calculateRisk` is that of the risk policy; the others are the redactor. -/
structure ToolGateway where
  registry : String → String → Option RegisteredTool
  approvals : ApprovalService
  calculateRisk : RiskLevel → String → Arguments → SideEffectClass → RiskLevel
  redactArguments : Arguments → Json
  redactOutput : Output → Output
  redactText : String → String

structure Prepared where
  tool : RegisteredTool
  call : ToolCallRequest
  risk : RiskLevel

namespace ToolGateway

variable (gateway : ToolGateway)

def resolve (name version : String) : Except Raised RegisteredTool :=
  match gateway.registry name version with
  | some tool => .ok tool
  | none => .error ⟨.lookupError, "tool " ++ name ++ "@" ++ version ++ " is not registered"⟩

def prepare (call : ToolCallRequest) (context : Context) : Except Raised Prepared := do
  let tool ← gateway.resolve call.toolName call.toolVersion
  let arguments ← tool.validateArguments call.arguments context.worktreeRoot
  let risk := gateway.calculateRisk tool.spec.baseRisk tool.spec.name arguments tool.spec.sideEffect
  tool.authorize context risk
  return ⟨tool, { call with arguments }, risk⟩

end ToolGateway

/-! ## The store -/

structure StoredResult where
  output : Output
  error : Option String
  risk : RiskLevel
  attempts : Nat
  completedAt : Time

/-- `results` are the columns `result` and `completed_at` of `tool_executions`
by id. `invocations` is the history of the executor calls: the idempotency key
and the number of the attempt. -/
structure Store where
  db : Database := {}
  results : UUID → Option StoredResult := fun _ => none
  invocations : List (String × Nat) := []

def resultFromRow (row : ToolExecutionRow) (stored : Option StoredResult) (replayed : Bool) :
    ToolCallResult where
  callId := row.id
  toolName := row.call.toolName
  toolVersion := row.call.toolVersion
  status := row.status
  output := (stored.map StoredResult.output).getD []
  error := stored.bind StoredResult.error
  risk := (stored.map StoredResult.risk).getD .LOW
  attempts := (stored.map StoredResult.attempts).getD 0
  replayed := replayed

def validateReplay (row : ToolExecutionRow) (call : ToolCallRequest) : Except Raised Unit :=
  if row.call ≠ call then
    .error ⟨.toolIdempotencyConflict,
      "idempotency key replay does not match the exact original tool call"⟩
  else .ok ()

/-! ## The transactions -/

def checkContext (call : ToolCallRequest) (context : Context) (db : Database) :
    Except Raised Unit :=
  match db.tasks.get? call.taskId, db.attempts.get? call.attemptId, db.runs.get? call.runId with
  | some task, some attempt, some run =>
    if task.state ≠ .RUNNING ∨ task.projectId ≠ context.projectId ∨
        task.repositoryId ≠ context.repositoryId ∨ attempt.taskId ≠ task.id ∨
        run.projectId ≠ context.projectId ∨ run.repositoryId ≠ context.repositoryId ∨
        run.baselineCommit ≠ context.baselineCommit then
      .error ⟨.permissionError,
        "tool call is not bound to the active scheduler task and repository baseline"⟩
    else .ok ()
  | _, _, _ => .error ⟨.permissionError, "tool call domain identity does not exist"⟩

def validateContext (call : ToolCallRequest) (context : Context) (db : Database) :
    Except Raised Unit :=
  if call.runId ≠ context.runId ∨ call.taskId ≠ context.taskId ∨
      call.attemptId ≠ context.attemptId ∨ call.requestedBy ≠ context.agentRole then
    .error ⟨.permissionError, "tool call does not match its execution context"⟩
  else checkContext call context db

/-- Neither the key nor the id is taken. -/
def unclaimed (call : ToolCallRequest) (db : Database) : Bool :=
  (db.executionByKey call.idempotencyKey).isNone ∧ (db.toolExecutions.get? call.callId).isNone

section
variable (gateway : ToolGateway) (call : ToolCallRequest)

def requestedPayload (risk : RiskLevel) : Json :=
  .obj [("call_id", .str call.callId.str),
    ("tool", .str (call.toolName ++ "@" ++ call.toolVersion)), ("risk", .str risk.value),
    ("arguments", gateway.redactArguments call.arguments)]

def claim (call : ToolCallRequest) (initial : ToolExecutionStatus) (risk : RiskLevel) :
    Session (ToolExecutionRow × Bool) := do
  let inserted ← executeIf (unclaimed call) fun db =>
    { db with toolExecutions := db.toolExecutions.insert ⟨call, initial⟩ }
  match ← query fun db => db.executionByKey call.idempotencyKey with
  | none => do
    match ← query fun db => db.toolExecutions.get? call.callId with
    | some _ => raise .toolIdempotencyConflict "call_id is already bound to another key"
    | none => raise .toolGatewayError "tool claim disappeared"
  | some row => do
    require (validateReplay row call)
    if inserted then do
      let eventId := gateway.approvals.uuid5 namespaceUrl ("tool-requested:" ++ call.callId.str)
      let payload := requestedPayload gateway call risk
      appendAudit ⟨eventId, "tool.requested", "tool_call", call.callId, payload, call.runId,
        call.callId⟩
      enqueueEvent ⟨eventId, "tool-execution", payload⟩
    pure (row, inserted)

/-- `ApprovalService.request` with the id of the request that it returns. -/
def requestApproval (context : Context) (now : Time) (draw : Draw) : Session UUID := do
  gateway.approvals.request call context.toToolExecutionContext now draw
  match ← query fun db => db.approvalOf call.callId with
  | some approval => pure approval.id
  | none => raise .approvalBindingError "approval is missing"

/-- `ApprovalService.authorize` for an expected approver. -/
def authorizeApprover (approvalId : UUID) (call : ToolCallRequest) (context : Context)
    (expectedApprover : Option String) (now : Time) : Session Unit := do
  require (validateCallScope call context.toToolExecutionContext)
  let row ← query fun db => db.approvals.get? approvalId
  -- the approver is compared before the binding, but after the decision
  if row.any fun row => now < row.expiresAt ∧ row.status = .APPROVED ∧
      row.approver.any (· ≠ "") ∧ row.decidedAt.isSome ∧
      expectedApprover.any fun expected => row.approver ≠ some expected then
    raise .approvalBindingError "approval is bound to a different approver"
  else gateway.approvals.authorize approvalId call context.toToolExecutionContext now

end

theorem authorizeApprover_ok
    (h : (authorizeApprover gateway approvalId call context expectedApprover now).run db =
      .ok (u, db')) :
    ∃ row, db.approvals.get? approvalId = some row ∧
      gateway.approvals.Authorizes row call context.toToolExecutionContext now := by
  obtain ⟨_, _, hscope, h⟩ := bind_ok.mp h
  obtain ⟨-, rfl⟩ := require_ok.mp hscope
  have h := after h rfl
  split at h
  · simp at h
  · exact ApprovalService.authorize_ok h

/-- The row that `_promote_approved` updates. -/
def promotable (call : ToolCallRequest) (db : Database) : Bool :=
  (db.toolExecutions.get? call.callId).any fun row =>
    row.call.idempotencyKey = call.idempotencyKey ∧ row.status = .WAITING_FOR_APPROVAL

def promoteApproved (call : ToolCallRequest) : Session Bool :=
  executeIf (promotable call) fun db =>
    match db.toolExecutions.get? call.callId with
    | some row => { db with
        toolExecutions := db.toolExecutions.set { row with status := .CLAIMED } }
    | none => db

/-- What `_persist_terminal` records, with its status. -/
inductive Outcome
  | COMPLETED (output : Output)
  | FAILED (error : String)
  | NEEDS_RECONCILIATION (error : String)

namespace Outcome

def status : Outcome → ToolExecutionStatus
  | .COMPLETED _ => .COMPLETED
  | .FAILED _ => .FAILED
  | .NEEDS_RECONCILIATION _ => .NEEDS_RECONCILIATION

def output : Outcome → Output
  | .COMPLETED output => output
  | _ => []

def error : Outcome → Option String
  | .COMPLETED _ => none
  | .FAILED error | .NEEDS_RECONCILIATION error => some error

end Outcome

/-- The result says whether the row was terminal before. -/
def persistTerminal (uuid5 : UUID → String → UUID) (call : ToolCallRequest) (outcome : Outcome)
    (risk : RiskLevel) (attempts : Nat) : Session (ToolExecutionRow × Bool) := do
  match ← Prog.query fun db => db.toolExecutions.get? call.callId with
  | none => raise .toolGatewayError "owned tool execution is missing"
  | some row =>
    if row.status.terminal then pure (row, true)
    else do
      Prog.execute fun db => { db with
        toolExecutions := db.toolExecutions.set { row with status := outcome.status } }
      let eventId := uuid5 namespaceUrl
        ("tool-terminal:" ++ call.callId.str ++ ":" ++ outcome.status.value)
      let payload := Json.obj [("call_id", .str call.callId.str),
        ("status", .str outcome.status.value), ("risk", .str risk.value),
        ("attempts", .num attempts), ("error", .ofOption outcome.error)]
      appendAudit ⟨eventId, "tool." ++ outcome.status.value.toLower, "tool_call", call.callId,
        payload, call.runId, call.callId⟩
      enqueueEvent ⟨eventId, "tool-execution", payload⟩
      pure ({ row with status := outcome.status }, false)

/-- The second transaction of `_uncertain`. -/
def reconcileGraph (call : ToolCallRequest) (draw : Draw) : Session Unit := do
  match ← query fun db => db.graphs.get? call.taskId with
  | none => pure ()
  | some graph =>
    if graph.state = .NEEDS_RECONCILIATION then pure ()
    else (transitionGraphExecution graph.taskId graph.identity graph.threadId
      .NEEDS_RECONCILIATION graph.checkpointId draw).discard

/-! ## Actions -/

/-- What is raised, by the handlers of `_execute_owned` that it meets. -/
inductive Fault
  | unknownSideEffectOutcome (message : String)
  | timeoutError (message : String)
  | transientToolError (message : String)
  | raised (error : Raised)
  | cancelled

/-- `waitForTerminal` is the last round of `_wait_for_terminal`: the rounds
before it read a row that is not terminal, and change nothing. -/
inductive Await
  | validateContext (call : ToolCallRequest) (context : Context)
  | claim (gateway : ToolGateway) (call : ToolCallRequest) (initial : ToolExecutionStatus)
      (risk : RiskLevel)
  | requestApproval (gateway : ToolGateway) (call : ToolCallRequest) (context : Context)
  | authorize (gateway : ToolGateway) (approvalId : UUID) (call : ToolCallRequest)
      (context : Context) (expectedApprover : Option String)
  | promoteApproved (call : ToolCallRequest)
  | waitForTerminal (call : ToolCallRequest)
  | executor (call : ToolCallRequest) (attempts : Nat)
  | retryDelay (call : ToolCallRequest) (delay : Time)
  | persistTerminal (gateway : ToolGateway) (call : ToolCallRequest) (outcome : Outcome)
      (risk : RiskLevel) (attempts : Nat)
  | reconcileGraph (call : ToolCallRequest)
  | checkApproved (call : ToolCallRequest)

/-- The row that `_claim` returns, and whether the caller owns it. -/
structure Claimed where
  row : ToolExecutionRow
  stored : Option StoredResult
  owner : Bool

@[reducible] def Await.Result : Await → Type
  | .claim .. => Claimed
  | .requestApproval .. => UUID
  | .promoteApproved .. => Bool
  | .waitForTerminal .. | .persistTerminal .. => ToolCallResult
  | .executor .. => Output
  | .checkApproved .. => Option ToolCallResult
  | .validateContext .. | .authorize .. | .retryDelay .. | .reconcileGraph .. => Unit

abbrev Task := Process Await Await.Result Fault

def await (a : Await) : Task a.Result := Process.perform a

def lift (result : Except Raised α) : Task α :=
  match result with
  | .ok a => pure a
  | .error error => throw (.raised error)

/-- `try` with the handlers of `_execute_owned`: a cancellation goes through. -/
def attempt (p : Task α) : Task (Except Fault α) :=
  tryCatch (do return .ok (← p)) fun
    | .cancelled => throw .cancelled
    | fault => pure (.error fault)

/-! ## The two programs -/

namespace ToolGateway

variable (gateway : ToolGateway) (prepared : Prepared)

def failed (error : String) (attempts : Nat) : Task ToolCallResult :=
  await (.persistTerminal gateway prepared.call (.FAILED (gateway.redactText error)) prepared.risk
    attempts)

def uncertain (error : String) (attempts : Nat) : Task ToolCallResult := do
  let result ← await (.persistTerminal gateway prepared.call
    (.NEEDS_RECONCILIATION (gateway.redactText error)) prepared.risk attempts)
  await (.reconcileGraph prepared.call)
  return result

/-- The body of `try` in `_execute_owned`. -/
def invoke (attempts : Nat) : Task ToolCallResult := do
  let raw ← await (.executor prepared.call attempts)
  let validated ← lift (prepared.tool.validateResult raw)
  await (.persistTerminal gateway prepared.call (.COMPLETED (gateway.redactOutput validated))
    prepared.risk attempts)

/-- The loop of `_execute_owned`, with the attempts that remain. -/
def executeOwned (prepared : Prepared) : (remaining attempts : Nat) → Task ToolCallResult
  | 0, _ => throw (.raised ⟨.assertionError, "tool attempt loop exited unexpectedly"⟩)
  | remaining + 1, attempts => do
    let external := prepared.tool.spec.sideEffect = .EXTERNAL
    match ← attempt (gateway.invoke prepared attempts) with
    | .ok result => return result
    | .error (.unknownSideEffectOutcome message) => gateway.uncertain prepared message attempts
    | .error (.timeoutError message) =>
      if external then gateway.uncertain prepared "external tool timed out" attempts
      else if prepared.tool.spec.retryOnTimeout ∧ prepared.tool.mayRetry attempts then do
        await (.retryDelay prepared.call (prepared.tool.retryDelay attempts))
        executeOwned prepared remaining (attempts + 1)
      else gateway.failed prepared message attempts
    | .error (.transientToolError message) =>
      if external then gateway.uncertain prepared message attempts
      else if prepared.tool.spec.retryOnTransient ∧ prepared.tool.mayRetry attempts then do
        await (.retryDelay prepared.call (prepared.tool.retryDelay attempts))
        executeOwned prepared remaining (attempts + 1)
      else gateway.failed prepared message attempts
    | .error (.raised error) => gateway.failed prepared error.message attempts
    | .error .cancelled => throw .cancelled

variable (call : ToolCallRequest) (context : Context) (approvalId : Option UUID)
  (expectedApprover : Option String)

/-- The approval of a call, up to its promotion. -/
def approve : Task Bool := do
  let requested ← await (.requestApproval gateway call context)
  match approvalId with
  | none =>
    throw (.raised ⟨.approvalRequired, "tool call requires approval " ++ requested.str⟩)
  | some approvalId =>
    if approvalId ≠ requested then
      throw (.raised ⟨.permissionError, "approval ID does not match this exact tool call"⟩)
    else do
      await (.authorize gateway approvalId call context expectedApprover)
      await (.promoteApproved call)

/-- Whether the caller owns the claimed execution. -/
def acquire (claimed : Claimed) : Task Bool :=
  if prepared.tool.spec.approvalRequired then
    gateway.approve prepared.call context approvalId expectedApprover
  else pure claimed.owner

def executePrepared : Task ToolCallResult := do
  let initial := if prepared.tool.spec.approvalRequired then .WAITING_FOR_APPROVAL else .CLAIMED
  let claimed ← await (.claim gateway prepared.call initial prepared.risk)
  if claimed.row.status.terminal then return resultFromRow claimed.row claimed.stored true
  else do
    let owner ← gateway.acquire prepared context approvalId expectedApprover claimed
    if owner then gateway.executeOwned prepared prepared.tool.spec.maxAttempts 1
    else await (.waitForTerminal prepared.call)

def execute : Task ToolCallResult := do
  await (.validateContext call context)
  let prepared ← lift (gateway.prepare call context)
  gateway.executePrepared prepared context approvalId expectedApprover

def completeApproved (output : Output) (risk : RiskLevel) : Task ToolCallResult := do
  match ← await (.checkApproved call) with
  | some result => return result
  | none =>
    await (.persistTerminal gateway call (.COMPLETED (gateway.redactOutput output)) risk 1)

end ToolGateway

/-! ## The system -/

/-- What the outside decides about one step: the clock, the drawn values, what
the executor returns, and a fault with whether the step took effect before. -/
structure Input where
  now : Time := 0
  draw : Draw := {}
  output : Output := []
  fault : Option Fault := none
  reached : Bool := false

variable (s : Store)

def Store.transact (p : Session α) : Except Fault α × Store :=
  ((p.commit s.db).1.mapError .raised, { s with db := (p.commit s.db).2 })

def Store.persist (gateway : ToolGateway) (call : ToolCallRequest) (outcome : Outcome)
    (risk : RiskLevel) (attempts : Nat) (now : Time) : Except Fault ToolCallResult × Store :=
  match (persistTerminal gateway.approvals.uuid5 call outcome risk attempts).commit s.db with
  | (.error error, db) => (.error (.raised error), { s with db })
  | (.ok (row, true), db) => (.ok (resultFromRow row (s.results row.id) true), { s with db })
  | (.ok (row, false), db) =>
    let stored := ⟨outcome.output, outcome.error, risk, attempts, now⟩
    (.ok (resultFromRow row (some stored) false),
      { s with db, results := Function.update s.results row.id (some stored) })

/-- The last round of `_wait_for_terminal`, after which the deadline has passed. -/
def Store.lastRound (call : ToolCallRequest) : Except Raised ToolCallResult :=
  match s.db.executionByKey call.idempotencyKey with
  | none => .error ⟨.toolGatewayError, "claimed tool execution is missing"⟩
  | some row => do
    validateReplay row call
    if row.status.terminal then return resultFromRow row (s.results row.id) true
    else .error ⟨.toolClaimInProgress,
      "tool execution " ++ call.idempotencyKey ++ " did not reach a terminal state"⟩

/-- The first transaction of `complete_approved`. -/
def Store.checkApproved (call : ToolCallRequest) : Except Raised (Option ToolCallResult) := do
  let row := s.db.executionByKey call.idempotencyKey
  let completed ← checkApprovedExecution row call
  return if completed then row.map fun row => resultFromRow row (s.results row.id) true else none

def Await.effect (input : Input) : (a : Await) → Except Fault a.Result × Store
  | .validateContext call context =>
    ((Gateway.validateContext call context s.db).mapError .raised, s)
  | .claim gateway call initial risk =>
    let (claimed, store) := s.transact (Gateway.claim gateway call initial risk)
    (claimed.map fun (row, owner) => ⟨row, s.results row.id, owner⟩, store)
  | .requestApproval gateway call context =>
    s.transact (Gateway.requestApproval gateway call context input.now input.draw)
  | .authorize gateway approvalId call context expectedApprover =>
    s.transact (authorizeApprover gateway approvalId call context expectedApprover input.now)
  | .promoteApproved call => s.transact (Gateway.promoteApproved call)
  | .waitForTerminal call => ((s.lastRound call).mapError .raised, s)
  | .executor call attempts => (.ok input.output,
      { s with invocations := s.invocations ++ [(call.idempotencyKey, attempts)] })
  | .retryDelay _ _ => (.ok (), s)
  | .persistTerminal gateway call outcome risk attempts =>
    s.persist gateway call outcome risk attempts input.now
  | .reconcileGraph call => s.transact (Gateway.reconcileGraph call input.draw)
  | .checkApproved call => ((s.checkApproved call).mapError .raised, s)

def Await.act (input : Input) (a : Await) : Except Fault a.Result × Store :=
  match input.fault with
  | none => a.effect s input
  | some fault => (.error fault, if input.reached then (a.effect s input).2 else s)

inductive Job
  | execute (gateway : ToolGateway) (call : ToolCallRequest) (context : Context)
      (approvalId : Option UUID) (expectedApprover : Option String)
  | completeApproved (gateway : ToolGateway) (call : ToolCallRequest) (output : Output)
      (risk : RiskLevel)

def Job.body : Job → Task ToolCallResult
  | .execute gateway call context approvalId expectedApprover =>
    gateway.execute call context approvalId expectedApprover
  | .completeApproved gateway call output risk => gateway.completeApproved call output risk

/-- An approval can be requested before the gateway sees the call. All other
services write other tables. -/
inductive Operation
  | request (service : ApprovalService) (call : ToolCallRequest)
      (context : ToolExecutionContext) (now : Time) (draw : Draw)
  | other (db : Database)

def Operation.perform : Operation → Store
  | .request service call context now draw =>
    { s with db := ((service.request call context now draw).commit s.db).2 }
  | .other db => { s with db := { db with toolExecutions := s.db.toolExecutions } }

def gatewaySystem :
    System Job Store Await Await.Result Fault ToolCallResult Input Operation where
  body := Job.body
  act := Await.act
  aside s _ _ := s
  environment := Operation.perform

abbrev Calls := Fleet Job Store Await Await.Result Fault ToolCallResult

abbrev CallEvent := Event Job Input Operation

end AutoSwe.Gateway
