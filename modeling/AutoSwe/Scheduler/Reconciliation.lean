import AutoSwe.Persistence.GraphExecutions
import AutoSwe.Scheduler.Claims

/-!
# Reconciliation

The task row and the graph row of an execution are written by different
parties. `decide` says which of them wins when they disagree, `reconcile`
applies that to one task, `reconcileDue` to the tasks that a periodic scan
finds, and `resolveNeedsReconciliation` is the operator's way out.
-/

namespace AutoSwe

open Transaction Prog Service

inductive ReconciliationAction
  | NOOP
  | RESUME_CHECKPOINT
  | FINALIZE_DOMAIN
  | REQUEUE_MISSING_CHECKPOINT
  | DOMAIN_TERMINAL_WINS
  | GRAPH_TERMINAL_WINS
  | QUARANTINE
deriving DecidableEq

def ReconciliationAction.value : ReconciliationAction → String
  | .NOOP => "NOOP"
  | .RESUME_CHECKPOINT => "RESUME_CHECKPOINT"
  | .FINALIZE_DOMAIN => "FINALIZE_DOMAIN"
  | .REQUEUE_MISSING_CHECKPOINT => "REQUEUE_MISSING_CHECKPOINT"
  | .DOMAIN_TERMINAL_WINS => "DOMAIN_TERMINAL_WINS"
  | .GRAPH_TERMINAL_WINS => "GRAPH_TERMINAL_WINS"
  | .QUARANTINE => "QUARANTINE"

/-! ## The decision -/

/-- The graph row belongs to another execution than the task's. -/
def graphMismatch (task : TaskRow) (run : Option RunRow) (graph : GraphExecutionRow) : Bool :=
  match run with
  | none => true
  | some run =>
    graph.runId ≠ task.runId || graph.repositoryId ≠ task.repositoryId ||
      graph.baselineCommit ≠ run.baselineCommit

def decideTerminal (task : TaskRow) (graph : Option GraphExecutionRow) : ReconciliationAction :=
  match graph with
  | none => .NOOP
  | some graph =>
    if graph.state = .CANCELLED then .NOOP
    else if graph.state ∈ terminalGraphStates then
      if (task.state = .COMPLETED ∧ graph.state = .COMPLETED) ∨
          (task.state = .FAILED ∧ graph.state = .FAILED) then .NOOP
      else .QUARANTINE
    else .DOMAIN_TERMINAL_WINS

variable (graph : Option GraphExecutionRow)

def decideRunning (lease : Option LeaseRow) (now : Time) : ReconciliationAction :=
  match graph with
  | none => .REQUEUE_MISSING_CHECKPOINT
  | some graph =>
    if graph.state = .COMPLETED then .FINALIZE_DOMAIN
    else if lease.any fun lease => lease.expiresAt ≤ now then .RESUME_CHECKPOINT
    else .NOOP

def decideAction (task : TaskRow) (run : Option RunRow) (graph : Option GraphExecutionRow)
    (lease : Option LeaseRow) (now : Time) : ReconciliationAction :=
  if graph.any fun graph => graph.state = .NEEDS_RECONCILIATION then .NOOP
  else if (graph.any fun graph => graph.state = .CANCELLED) ∧ task.state ∉ terminalTaskStates then
    .GRAPH_TERMINAL_WINS
  else if graph.any (graphMismatch task run) then .QUARANTINE
  else if task.state ∈ terminalTaskStates then decideTerminal task graph
  else if task.state = .RUNNING then decideRunning graph lease now
  else .NOOP

/-! ## reconcile -/

/-- The guarded transition, and the second stamp that the reconciler puts on
the row it holds. -/
def setTaskState (task : TaskRow) (target : TaskStatus) (draw : Draw) : Session TaskRow := do
  let moved ← transitionTask task.projectId task.id task.version target draw
  let stamped := { moved with stateEnteredAt := draw.enteredAt }
  execute fun db => { db with tasks := db.tasks.set stamped }
  pure stamped

/-- A direct write of the graph state, outside the guarded API. -/
def overwriteGraph (state : GraphExecutionState) (now : Time) :
    Session (Option GraphExecutionRow) :=
  match graph with
  | none => pure none
  | some graph => do
    let moved := { graph with state, stateEnteredAt := now }
    execute fun db => { db with graphs := db.graphs.set moved }
    pure (some moved)

def quarantineTarget (state : TaskStatus) : TaskStatus :=
  if .BLOCKED ∈ taskTransitions state then .BLOCKED else .CANCELLED

/-- The state that an action gives the task, if it moves it. -/
def ReconciliationAction.target (action : ReconciliationAction) (task : TaskRow) :
    Option TaskStatus :=
  match action with
  | .NOOP | .DOMAIN_TERMINAL_WINS => none
  | .RESUME_CHECKPOINT | .REQUEUE_MISSING_CHECKPOINT => some .READY
  | .FINALIZE_DOMAIN => some .COMPLETED
  | .GRAPH_TERMINAL_WINS => some .CANCELLED
  | .QUARANTINE =>
    if task.state ∈ terminalTaskStates then none else some (quarantineTarget task.state)

def moveIfAny (task : TaskRow) (target : Option TaskStatus) (draw : Draw) : Session TaskRow :=
  match target with
  | none => pure task
  | some target => setTaskState task target draw

/-- The state that an action gives the graph row, if it has one. -/
def ReconciliationAction.graphState : ReconciliationAction → Option GraphExecutionState
  | .DOMAIN_TERMINAL_WINS => some .CANCELLED
  | .QUARANTINE => some .NEEDS_RECONCILIATION
  | _ => none

def overwriteIfAny (state : Option GraphExecutionState)
    (now : Time) : Session (Option GraphExecutionRow) :=
  match state with
  | none => pure graph
  | some state => overwriteGraph graph state now

def reconciliationPayload (action : ReconciliationAction) (task : TaskRow)
    (graph : Option GraphExecutionRow) : Json :=
  .obj [("action", .str action.value), ("task_id", .str task.id.str),
    ("domain_state", .str task.state.value),
    ("graph_state", .ofOption (graph.map fun graph => graph.state.value))]

/-- Every action but `NOOP` releases the claim and publishes what it did. -/
def applyAction (action : ReconciliationAction) (task : TaskRow)
    (graph : Option GraphExecutionRow) (now : Time) (draw : Draw) : Session Unit := do
  let moved ← moveIfAny task (action.target task) draw
  let written ← overwriteIfAny graph action.graphState now
  dropClaim task.id now
  publish draw.rolloverId ("reconciliation." ++ action.value.toLower) "task" task.id task.runId
    "reconciliation" (reconciliationPayload action moved written)

def reconcile (projectId taskId : UUID) (now : Time) (draw : Draw) :
    Session ReconciliationAction := do
  match ← selectTaskForUpdate projectId taskId with
  | none => noSuchTask projectId taskId
  | some task => do
    let run ← query fun db => db.runs.get? task.runId
    let graph ← selectGraphForUpdate taskId
    let lease ← selectLeaseForUpdate taskId
    let action := decideAction task run graph lease now
    if action = .NOOP then pure action
    else do
      applyAction action task graph now draw
      pure action

/-! ## reconcile_due -/

def enteredBefore (a b : TaskRow) : Bool := a.stateEnteredAt ≤ b.stateEnteredAt

variable (db : Database) (now : Time)

def Database.leaseExpired (taskId : UUID) : Bool :=
  (db.leases.get? taskId).any fun lease => lease.expiresAt ≤ now

def Database.graphTerminal (taskId : UUID) : Bool :=
  (db.graphs.get? taskId).any fun graph => graph.state ∈ terminalGraphStates

variable (limit : Nat)

def Database.inFlight : List TaskRow :=
  ((db.tasks.rows.filter fun task =>
    (task.state = .RUNNING || task.state = .LEASED) &&
      (db.leaseExpired now task.id || db.graphTerminal task.id)).insertionSort
    (enteredBefore · ·)).take limit

def divergent (task : TaskStatus) (graph : GraphExecutionState) : Bool :=
  (task = .COMPLETED && graph ≠ .COMPLETED) || (task = .FAILED && graph ≠ .FAILED) ||
    (task = .CANCELLED && graph ≠ .CANCELLED)

def Database.settledButDivergent : List TaskRow :=
  ((db.tasks.rows.filter fun task =>
    (db.graphs.get? task.id).any fun graph => divergent task.state graph.state).insertionSort
    (enteredBefore · ·)).take limit

/-- The keys that one scan reconciles, first occurrence first. -/
def Database.reconcileTargets : List (UUID × UUID) :=
  ((db.inFlight now limit ++ db.settledButDivergent limit).map fun task =>
    (task.projectId, task.id)).reverse.dedup.reverse

/-- A failing task is logged and does not stop the others. -/
def reconcileLogged (draws : UUID → Draw) (key : UUID × UUID) :
    Service Database Raised (List (UUID × ReconciliationAction)) :=
  rescue
    (do
      let action ← transact (reconcile key.1 key.2 now (draws key.2))
      pure [(key.2, action)])
    fun _ => pure []

def reconcileDue (now : Time) (draws : UUID → Draw) :
    Service Database Raised (List (UUID × ReconciliationAction)) := do
  let targets ← transact
    (query fun db => db.reconcileTargets now limit : Session (List (UUID × UUID)))
  collect (reconcileLogged now draws) targets

/-! ## resolve_needs_reconciliation -/

inductive Resolution
  | fail
  | retry
deriving DecidableEq

def Resolution.value : Resolution → String
  | .fail => "fail"
  | .retry => "retry"

def Resolution.action : Resolution → ReconciliationAction
  | .fail => .DOMAIN_TERMINAL_WINS
  | .retry => .GRAPH_TERMINAL_WINS

def Resolution.graphState : Resolution → GraphExecutionState
  | .fail => .FAILED
  | .retry => .CANCELLED

/-- `fail` leaves a task that already failed; `retry` always requeues. -/
def Resolution.target (resolution : Resolution) (task : TaskRow) : Option TaskStatus :=
  match resolution with
  | .fail => if task.state = .FAILED then none else some .FAILED
  | .retry => some .READY

def resolutionPayload (resolution : Resolution) (task : TaskRow) (graph : GraphExecutionRow) :
    Json :=
  .obj [("action", .str resolution.action.value), ("resolution", .str resolution.value),
    ("task_id", .str task.id.str), ("domain_state", .str task.state.value),
    ("graph_state", .str graph.state.value)]

def resolveNeedsReconciliation (projectId taskId : UUID) (resolution : Resolution) (now : Time)
    (draw graphDraw : Draw) : Session ReconciliationAction := do
  match ← selectTaskForUpdate projectId taskId with
  | none => noSuchTask projectId taskId
  | some task => do
    let graph ← selectGraphForUpdate taskId
    match graph.filter fun graph => graph.state = .NEEDS_RECONCILIATION with
    | none =>
      Session.raise .valueError ("task " ++ taskId.str ++ " is not parked in NEEDS_RECONCILIATION")
    | some graph => do
      let settled ← transitionGraphExecution task.id graph.identity graph.threadId
        resolution.graphState graph.checkpointId graphDraw
      let moved ← moveIfAny task (resolution.target task) draw
      dropClaim task.id now
      publish draw.rolloverId ("reconciliation.resolved." ++ resolution.value) "task" task.id
        task.runId "reconciliation" (resolutionPayload resolution moved settled)
      pure resolution.action

end AutoSwe
