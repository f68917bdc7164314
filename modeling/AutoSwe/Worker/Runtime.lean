import AutoSwe.Lib.Process
import AutoSwe.Scheduler.Claims
import AutoSwe.Persistence.GraphExecutions

/-!
# A worker's execution of one dispatch

`execute` is a worker from the delivery of a dispatch to its end: it starts the claim, records that
the graph runs, prepares the worktree, invokes the checkpointed graph and finishes the claim. Each
transaction is one awaited action, and so is each wait for something outside the database; a wait
can end with an exception or with the cancellation by the heartbeat, at any time.
-/

namespace AutoSwe

open Relational Transaction Coroutine Prog

/-! ## Identities -/

structure CheckpointIdentity where
  runId : UUID
  taskId : UUID
  attemptId : UUID
  projectId : UUID
  repositoryId : UUID
  baselineCommit : String
deriving DecidableEq

/-- Attempt-scoped: every lease attempt executes its own checkpoint chain. -/
def threadId (runId taskId attemptId : UUID) : String :=
  "run:" ++ runId.str ++ ":task:" ++ taskId.str ++ ":attempt:" ++ attemptId.str

theorem UUID.length_str (id : UUID) : id.str.toList.length = 36 := by
  have hex_length : ∀ width n, (hex width n).length = width := by
    intro width
    induction width with
    | zero => exact fun _ => rfl
    | succ width ih => intro n; simp [hex, ih]
  simp [UUID.str, UUID.digits, hex_length]

theorem attempt_of_threadId (h : threadId r t a = threadId r' t' a') : a = a' := by
  have hlist := congrArg String.toList h
  simp only [threadId, String.toList_append] at hlist
  -- both texts end in the 36 characters of the attempt
  have hlast := List.append_inj_right' hlist (by rw [UUID.length_str, UUID.length_str])
  exact UUID.str_injective (String.toList_inj.mp hlast)

namespace CheckpointIdentity

def threadId (identity : CheckpointIdentity) : String :=
  AutoSwe.threadId identity.runId identity.taskId identity.attemptId

def graph (identity : CheckpointIdentity) : GraphIdentity :=
  ⟨identity.runId, identity.repositoryId, identity.baselineCommit⟩

end CheckpointIdentity

def TaskExecutionLease.identity (lease : TaskExecutionLease) : CheckpointIdentity :=
  ⟨lease.runId, lease.taskId, lease.attemptId, lease.projectId, lease.repositoryId,
    lease.baselineCommit⟩

/-! ## The transactions of the runtime -/

def checkActive (identity : CheckpointIdentity) (task : Option TaskRow) (run : Option RunRow)
    (attempt : Option TaskAttemptRow) : Except Raised Unit :=
  match task, run, attempt with
  | some task, some run, some attempt =>
    if task.runId ≠ identity.runId ∨ attempt.taskId ≠ identity.taskId ∨
        task.repositoryId ≠ identity.repositoryId ∨ run.repositoryId ≠ identity.repositoryId ∨
        run.baselineCommit ≠ identity.baselineCommit then
      .error ⟨.checkpointIdentityError,
        "workflow identity does not match run, task, repository, or baseline"⟩
    else if task.state = .CANCELLED ∨ run.cancellationRequestedAt.isSome then
      .error ⟨.workflowCancellation,
        "workflow task " ++ identity.taskId.str ++ " is cancelled"⟩
    else if task.state ≠ .RUNNING then
      .error ⟨.checkpointIdentityError, "scheduler task " ++ identity.taskId.str ++ " is " ++
        task.state.value ++ ", not RUNNING"⟩
    else .ok ()
  | _, _, _ => .error ⟨.checkpointIdentityError, "workflow task or run does not exist"⟩

def assertActive (identity : CheckpointIdentity) : Session Unit := do
  let task ← query fun db =>
    (db.tasks.get? identity.taskId).filter fun task => task.projectId = identity.projectId
  let run ← query fun db => db.runs.get? identity.runId
  let attempt ← query fun db => db.attempts.get? identity.attemptId
  Session.require (checkActive identity task run attempt)

theorem assertActive_reads (identity : CheckpointIdentity) (db : Database) :
    ((assertActive identity).commit db).2 = db := by
  refine (assertActive identity).commit_cases db rfl fun u db' hrun => ?_
  have hrun := after hrun rfl
  have hrun := after hrun rfl
  have hrun := after hrun rfl
  exact (Session.require_ok.mp hrun).2.symm

/-- The one transaction of `_persist_state` and of `_record_preparation_state`. -/
def persistState (identity : CheckpointIdentity) (state : GraphExecutionState)
    (checkpointId : Option String) (draw : Draw) : Session Unit :=
  (transitionGraphExecution identity.taskId identity.graph identity.threadId state checkpointId
    draw).discard

/-- The second transaction of the gateway for a tool whose outcome is unknown:
it parks whatever execution the graph row is at. -/
def parkUncertain (taskId : UUID) (draw : Draw) : Session Unit := do
  let graph ← query fun db => db.graphs.get? taskId
  match graph with
  | none => pure ()
  | some graph =>
    if graph.state = .NEEDS_RECONCILIATION then pure ()
    else
      (transitionGraphExecution graph.taskId graph.identity graph.threadId .NEEDS_RECONCILIATION
        graph.checkpointId draw).discard

section
variable {I : Database → Prop}

theorem commit_persistState (identity : CheckpointIdentity) (state : GraphExecutionState)
    (checkpointId : Option String) (draw : Draw) (h : I db)
    (hwrite : ∀ {row db'}, (transitionGraphExecution identity.taskId identity.graph
      identity.threadId state checkpointId draw).run db = .ok (row, db') → I db') :
    I ((persistState identity state checkpointId draw).commit db).2 := by
  refine commit_cases _ db h fun u db' hrun => ?_
  obtain ⟨row, db₁, hrow, hdone⟩ := bind_ok.mp hrun
  cases hdone
  exact hwrite hrow

theorem commit_parkUncertain (t : UUID) (draw : Draw) (h : I db)
    (hwrite : ∀ {identity thread checkpointId row db'}, (transitionGraphExecution t identity thread
      .NEEDS_RECONCILIATION checkpointId draw).run db = .ok (row, db') → I db') :
    I ((parkUncertain t draw).commit db).2 := by
  refine commit_cases _ db h fun u db' hrun => ?_
  have hrun := after hrun rfl
  split at hrun
  · cases hrun
    exact h
  · rename_i graph hgraph
    have hkey : graph.taskId = t := Table.key_of_get? hgraph
    split at hrun
    · cases hrun
      exact h
    · obtain ⟨row, db₂, hrow, hdone⟩ := bind_ok.mp hrun
      cases hdone
      rw [hkey] at hrow
      exact hwrite hrow

end

/-! ## What a worker awaits -/

inductive WaitKind
  | TOOL
  | APPROVAL
  | UAMS
deriving DecidableEq

def WaitKind.graphState : WaitKind → GraphExecutionState
  | .TOOL => .WAITING_FOR_TOOL
  | .APPROVAL => .WAITING_FOR_APPROVAL
  | .UAMS => .WAITING_FOR_MEMORY

/-- What a run of the graph left: the kind of its first interrupt, or the error
of reading its payload; whether nodes are left; the checkpoint. -/
structure GraphSnapshot where
  interrupt : Option (Except Raised WaitKind)
  unfinished : Bool
  checkpointId : Option String

inductive Await
  | startClaim (call : Dispatch)
  | persistState (identity : CheckpointIdentity) (state : GraphExecutionState)
      (checkpointId : Option String)
  /-- The worktree, the checkpointer, the graph and the dependency context. -/
  | prepare
  | assertActive (identity : CheckpointIdentity)
  | ainvoke (identity : CheckpointIdentity)
  | finishClaim (call : Dispatch) (target : TaskStatus)

def Await.Result : Await → Type
  | .startClaim _ => TaskExecutionLease
  | .ainvoke _ => GraphSnapshot
  | _ => Unit

inductive Failure
  | raised (error : Raised)
  | cancelled

abbrev Execution := Process Await Await.Result Failure

def await (a : Await) : Execution a.Result := Process.perform a

/-! ## CheckpointedWorkflowRuntime.invoke -/

structure CheckpointOutcome where
  state : GraphExecutionState
  checkpointId : Option String

def GraphSnapshot.state (snapshot : GraphSnapshot) : Except Failure GraphExecutionState :=
  match snapshot.interrupt with
  | some (.ok kind) => .ok kind.graphState
  | some (.error error) => .error (.raised error)
  | none => .ok (if snapshot.unfinished then .PAUSED else .COMPLETED)

/-- `except (CancelledError, WorkflowCancellation)` against `except Exception`. -/
def Failure.graphState : Failure → GraphExecutionState
  | .cancelled => .CANCELLED
  | .raised error => if error.kind = .workflowCancellation then .CANCELLED else .FAILED

def runGraph (identity : CheckpointIdentity) : Execution CheckpointOutcome := do
  let snapshot ← await (.ainvoke identity)
  let state ← Process.ofExcept snapshot.state
  await (.assertActive identity)
  await (.persistState identity state snapshot.checkpointId)
  pure { state, checkpointId := snapshot.checkpointId }

def invoke (identity : CheckpointIdentity) : Execution CheckpointOutcome := do
  await (.assertActive identity)
  await (.persistState identity .RUNNING none)
  try runGraph identity
  catch failure =>
    await (.persistState identity failure.graphState none)
    throw failure

/-! ## DispatchedTaskExecutor.execute -/

inductive WorkerOutcome
  | COMPLETED
  | WAITING
  | FAILED
deriving DecidableEq

/-- The subclasses of `PermissionError`, `LookupError` and `RuntimeError`. -/
def ErrorKind.bestEffort : ErrorKind → Bool
  | .valueError | .invalidStateTransition | .integrityError => false
  | _ => true

variable (call : Dispatch)

/-- The handler of a cancelled execution: what it catches it drops. -/
def cleanUpCancelled : Execution Unit :=
  try await (.finishClaim call .FAILED)
  catch failure =>
    match failure with
    | .raised error => if error.kind.bestEffort then pure () else throw failure
    | .cancelled => throw failure

/-- The handler of a failed execution: every exception of the cleanup is logged
and dropped, a cancellation is not. -/
def cleanUpFailed (identity : CheckpointIdentity) (runtimeInvoked : Bool) : Execution Unit :=
  try
    if !runtimeInvoked then
      await (.persistState identity .FAILED none)
    await (.finishClaim call .FAILED)
  catch failure =>
    match failure with
    | .raised _ => pure ()
    | .cancelled => throw failure

def cleanUp (identity : CheckpointIdentity) (runtimeInvoked : Bool)
    (failure : Failure) : Execution WorkerOutcome := do
  match failure with
  | .cancelled => cleanUpCancelled call
  | .raised _ => cleanUpFailed call identity runtimeInvoked
  throw failure

/-- What runs before `runtime_invoked` is set. -/
def prepareTask (identity : CheckpointIdentity) : Execution Unit := do
  await (.persistState identity .RUNNING none)
  await .prepare

def invokeAndFinish (identity : CheckpointIdentity) : Execution WorkerOutcome := do
  let outcome ← invoke identity
  if outcome.state = .COMPLETED then
    await (.finishClaim call .COMPLETED)
    pure .COMPLETED
  else pure .WAITING

def executeLease (lease : TaskExecutionLease) : Execution WorkerOutcome := do
  let identity := lease.identity
  let prepared ←
    try
      prepareTask identity
      pure none
    catch failure => pure (some failure)
  match prepared with
  | some failure => cleanUp call identity false failure
  | none =>
    try invokeAndFinish call identity
    catch failure => cleanUp call identity true failure

def execute : Execution WorkerOutcome := do
  let started ←
    try
      let lease ← await (.startClaim call)
      pure (some lease)
    catch failure =>
      match failure with
      | .raised error => if error.kind = .taskBudgetExhausted then pure none else throw failure
      | .cancelled => throw failure
  match started with
  | none => pure .FAILED
  | some lease => if lease.alreadyTerminal then pure .COMPLETED else executeLease call lease

end AutoSwe
