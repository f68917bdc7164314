import AutoSwe.Planning.Plans

/-!
# The planning stage of a run

A dispatcher claims a pending run, or one whose planning has become stale, asks the architect for a
plan outside of any transaction and then persists the plan or fails the run. The stage attempt of
the claim is the fence: its `started_at` is restarted by every claim, and whoever comes back with an
older one has lost the run. Every transaction here locks the row of its run first.
-/

namespace AutoSwe

open Transaction Prog Database Session

/-- `uuid5` and `isoformat` are the library's; `specHash` is the hash of the
architect's specification under the model configuration of a run. -/
structure RunPlanningService where
  staleAfter : Time := 30000000
  specHash : RunRow → String
  uuid5 : UUID → String → UUID
  isoformat : Time → String

/-! ## Claiming -/

def RunRow.claimable (staleBefore : Time) (run : RunRow) : Bool :=
  (run.state = .PENDING || (run.state = .PLANNING && run.stateEnteredAt < staleBefore)) &&
    run.cancellationRequestedAt.isNone

/-- `ORDER BY created_at, id`. -/
def RunRow.createdBefore (a b : RunRow) : Bool :=
  a.createdAt < b.createdAt || (a.createdAt = b.createdAt && a.id.int ≤ b.id.int)

def Database.claimableRuns (db : Database) (staleBefore : Time) : List RunRow :=
  (db.runs.rows.filter (RunRow.claimable staleBefore)).insertionSort (RunRow.createdBefore · ·)

def recordRunDuration (run : RunRow) (exitedAt : Time) : Session Unit :=
  recordStateDuration "workflow" run.id run.state.value run.stateEnteredAt exitedAt

def Database.setRun (run : RunRow) (db : Database) : Database :=
  { db with runs := db.runs.set run }

variable (row : RunStageAttemptRow)

def Database.setStageAttempt (db : Database) : Database :=
  { db with stageAttempts := db.stageAttempts.set row }

def RunRow.enter (run : RunRow) (state : RunStatus) (now : Time) : RunRow :=
  { run with state, stateEnteredAt := now }

/-- A run that is planned already keeps its `state_entered_at`. -/
def enterPlanning (run : RunRow) (now : Time) : Session RunRow :=
  if run.state ≠ .PLANNING then do
    require (requireRunTransition run.state .PLANNING)
    recordRunDuration run now
    execute (setRun (run.enter .PLANNING now))
    pure (run.enter .PLANNING now)
  else pure run

def stageAttemptId (uuid5 : UUID → String → UUID) (runId : UUID) (stage : Stage) : UUID :=
  uuid5 namespaceUrl ("run-stage:" ++ runId.str ++ ":" ++ stage.name)

def Database.stageAttemptById (db : Database) (id : UUID) : Option RunStageAttemptRow :=
  db.stageAttempts.rows.find? fun row => row.id = id

def RunStageAttemptRow.finish (status : StageStatus) (now : Time) : RunStageAttemptRow :=
  { row with status, endedAt := some now }

/-- The attempt that is there, with the clock of the given one. -/
def RunStageAttemptRow.restart (existing row : RunStageAttemptRow) : RunStageAttemptRow :=
  { existing with status := row.status, startedAt := row.startedAt, endedAt := none }

/-- `INSERT … ON CONFLICT (run_id, stage) DO UPDATE`. -/
def startStageAttempt : Session Unit :=
  checked fun db =>
    match db.stageAttempts.get? row.key with
    | some existing => .ok (setStageAttempt (existing.restart row))
    | none =>
      match db.stageAttemptById row.id with
      | some _ => .error ⟨.integrityError, "run_stage_attempts_pkey"⟩
      | none => .ok fun db => { db with stageAttempts := db.stageAttempts.insert row }

structure PlanningClaim where
  run : RunRow
  repository : RepositoryRow
  stageAttemptId : UUID
  fenceStartedAt : Time

namespace RunPlanningService

variable (service : RunPlanningService)

def architectAttempt (run : RunRow) (now : Time) : RunStageAttemptRow where
  id := stageAttemptId service.uuid5 run.id .architect
  runId := run.id
  stage := .architect
  agentSpecHash := service.specHash run
  startedAt := now

def startPlanning (now : Time) (run : RunRow) : Session (Option PlanningClaim) := do
  match ← query fun db => db.repositories.get? run.repositoryId with
  | none => raise .runtimeError "run repository is missing"
  | some repository => do
    let run ← enterPlanning run now
    startStageAttempt (service.architectAttempt run now)
    pure (some ⟨run, repository, stageAttemptId service.uuid5 run.id .architect, now⟩)

def claimRun (now : Time) : Session (Option PlanningClaim) := do
  let selected ← selectSkipLocked
    (fun db => db.claimableRuns (now - service.staleAfter)) (fun run => Lock.run run.id) 1
  match selected.head? with
  | none => pure none
  | some run => service.startPlanning now run

end RunPlanningService

/-! ## The integration sink of a plan -/

/-- The worklist of `ancestors`, its last element first. Every round takes one
element and a task adds its dependencies once, which bounds the rounds. -/
def collectAncestors (tasksById : UUID → Option TaskSpec) :
    Nat → List UUID → List UUID → Except Raised (List UUID)
  | 0, _, found => .ok found
  | _ + 1, [], found => .ok found
  | rounds + 1, dependency :: pending, found =>
    if dependency ∈ found then collectAncestors tasksById rounds pending found
    else
      match tasksById dependency with
      | none => .error ⟨.keyError, "UUID(\x27" ++ dependency.str ++ "\x27)"⟩
      | some task =>
        collectAncestors tasksById rounds (task.dependencies.reverse ++ pending)
          (dependency :: found)

namespace TaskPlan

variable (plan : TaskPlan)

/-- `{task.id: task for task in plan.tasks}`: a later task replaces an earlier one. -/
def tasksById (id : UUID) : Option TaskSpec := plan.tasks.reverse.find? fun task => task.id = id

def edges : Nat := (plan.tasks.map fun task => task.dependencies.length).sum

def ancestors (task : TaskSpec) : Except Raised (List UUID) :=
  let start := ((plan.tasksById task.id).map TaskSpec.dependencies).getD []
  collectAncestors plan.tasksById (start.length + plan.edges + 1) start.reverse []

def sinks : List TaskSpec :=
  plan.tasks.filter fun task => task.id ∉ plan.tasks.flatMap TaskSpec.dependencies

/-- Whether the sink is a validation that covers the plan. -/
def covers (sink : TaskSpec) : Except Raised Bool :=
  if sink.taskType = .VALIDATION then
    (plan.ancestors sink).map fun ancestors =>
      plan.tasks.all (fun task => task.id ∈ sink.id :: ancestors) &&
        (sink.id :: ancestors).all fun id => id ∈ plan.tasks.map TaskSpec.id
  else .ok false

def anyCovers : List TaskSpec → Except Raised Bool
  | [] => .ok false
  | sink :: rest => do
    if ← plan.covers sink then .ok true else anyCovers rest

def requireIntegrationSink : Except Raised Unit := do
  if ← plan.anyCovers plan.sinks then .ok ()
  else .error ⟨.valueError,
    "task DAG requires a final VALIDATION sink transitively depending on every task"⟩

end TaskPlan

/-! ## Persisting -/

def createPlanRevision (runId : UUID) (revision : Nat) (plan : TaskPlan) (createdAt : Time) :
    Session Unit :=
  checked fun db =>
    match db.planRevisions.get? (runId, revision) with
    | none => .ok fun db => { db with
        planRevisions := db.planRevisions.insert ⟨runId, revision, plan, createdAt⟩ }
    | some _ => .error ⟨.integrityError, "uq_plan_revision"⟩

/-- The unique index makes a second insert of a key wait for the first one. -/
def insertPlanned (runId : UUID) (draws : UUID → Draw) (spec : TaskSpec) : Session Unit := do
  advisory (.task spec.id)
  createPlanned runId draws spec

def ownershipLost (message : String) : Session α := raise .planningOwnershipLost message

def planCreatedPayload (runId : UUID) (plan : TaskPlan) : Json :=
  .obj [("run_id", .str runId.str), ("revision", .num plan.revision),
    ("task_ids", .arr (plan.tasks.map fun task => .str task.id.str))]

namespace RunPlanningService

variable (service : RunPlanningService)

/-- What is left of `_persist_plan` once its caller owns the run. -/
def storePlan (plan : TaskPlan) (run : RunRow) (attempt : RunStageAttemptRow) (now : Time)
    (draws : UUID → Draw) : Session TaskPlan := do
  let existing ← query fun db => db.existingIds (plan.tasks.map TaskSpec.id)
  let plan := { plan with tasks := remapTasks service.uuid5 run.id existing plan.tasks }
  require plan.requireIntegrationSink
  createPlanRevision run.id plan.revision plan (draws run.id).createdAt
  each (insertPlanned run.id draws) plan.tasks
  recordRunDuration run now
  require (requireRunTransition run.state .EXECUTING)
  execute (setRun (run.enter .EXECUTING now))
  execute (setStageAttempt (attempt.finish .COMPLETED now))
  let eventId := service.uuid5 namespaceUrl
    ("plan-created:" ++ run.id.str ++ ":" ++ toString plan.revision)
  appendAudit ⟨eventId, "plan.created", "run", run.id, planCreatedPayload run.id plan, run.id,
    attempt.id⟩
  enqueueEvent ⟨eventId, "plan-created", planCreatedPayload run.id plan⟩
  pure plan

def persistPlan (plan : TaskPlan) (stageAttemptId : UUID) (fenceStartedAt now : Time)
    (draws : UUID → Draw) : Session TaskPlan := do
  match ← selectRunForUpdate plan.runId with
  | none => ownershipLost "run is no longer owned by the planning stage"
  | some run =>
    if run.state ≠ .PLANNING ∨ run.cancellationRequestedAt ≠ none then
      ownershipLost "run is no longer owned by the planning stage"
    else do
      match ← query fun db => db.stageAttemptById stageAttemptId with
      | none => ownershipLost "planning attempt is no longer running"
      | some attempt =>
        if attempt.runId ≠ run.id ∨ attempt.status ≠ .RUNNING then
          ownershipLost "planning attempt is no longer running"
        else if attempt.startedAt ≠ fenceStartedAt then
          ownershipLost "planning stage was taken over by another dispatcher"
        else service.storePlan plan run attempt now draws

end RunPlanningService

/-! ## Failing -/

/-- The errors that `_failure_details` tells apart. -/
inductive PlanningError
  | invalidTaskPlan (feedback : Json) (issues : Nat)
  | structuredOutputExhausted
  | modelTimeout
  | modelProvider (failureClass : String)
  | repositoryContext
  | other

def failureDetails : PlanningError → List (String × Json)
  | .invalidTaskPlan feedback issues =>
    [("error_code", .str "INVALID_TASK_PLAN"),
      ("message",
        .str "The generated task plan still violates execution policy after repair."),
      ("validation_issues", feedback), ("validation_issue_count", .num issues)]
  | .structuredOutputExhausted =>
    [("error_code", .str "INVALID_MODEL_OUTPUT"),
      ("message",
        .str "The planning model did not return a valid task plan. Check model support.")]
  | .modelTimeout =>
    [("error_code", .str "MODEL_TIMEOUT"),
      ("message", .str ("The planning model timed out. Check provider availability " ++
        "and timeout settings."))]
  | .modelProvider failureClass =>
    [("error_code", .str "MODEL_PROVIDER_ERROR"),
      ("message", .str ("The planning model provider failed. Check connection, credentials " ++
        "and model support.")),
      ("failure_class", .str failureClass)]
  | .repositoryContext =>
    [("error_code", .str "REPOSITORY_CONTEXT_ERROR"),
      ("message", .str ("Planning could not inspect the repository. Check its path, access " ++
        "permissions and supported project files before retrying."))]
  | .other =>
    [("error_code", .str "PLANNING_ERROR"),
      ("message",
        .str "Planning could not finish. Inspect dispatcher diagnostics before retrying.")]

/-- The attempt is the one that the fence was taken with. -/
def RunStageAttemptRow.owned (runId : UUID) (fenceStartedAt : Time) (row : RunStageAttemptRow) :
    Bool :=
  row.runId = runId && row.status = .RUNNING && row.startedAt = fenceStartedAt

namespace RunPlanningService

variable (service : RunPlanningService)

def markFailed (run : RunRow) (attempt : RunStageAttemptRow) (fenceStartedAt : Time)
    (error : PlanningError) (attempts : Nat) (now : Time) : Session Unit := do
  require (requireRunTransition run.state .FAILED)
  recordRunDuration run now
  execute (setRun (run.enter .FAILED now))
  execute (setStageAttempt (attempt.finish .FAILED now))
  let payload := Json.obj ([("run_id", .str run.id.str), ("stage", .str "architect"),
    ("stage_attempt_id", .str attempt.id.str), ("attempts", .num attempts)] ++
    failureDetails error)
  let eventId := service.uuid5 namespaceUrl ("run-planning-failed:" ++ run.id.str ++ ":" ++
    attempt.id.str ++ ":" ++ service.isoformat fenceStartedAt)
  appendAudit ⟨eventId, "run.planning_failed", "run", run.id, payload, run.id, attempt.id⟩
  enqueueEvent ⟨eventId, "run-state", payload⟩

def failRun (runId stageAttemptId : UUID) (fenceStartedAt : Time) (error : PlanningError)
    (attempts : Nat) (now : Time) : Session Unit := do
  let run ← selectRunForUpdate runId
  let attempt ← query fun db => db.stageAttemptById stageAttemptId
  match run, attempt with
  | some run, some attempt =>
    if run.state = .PLANNING ∧ run.cancellationRequestedAt = none ∧
        attempt.owned run.id fenceStartedAt then
      service.markFailed run attempt fenceStartedAt error attempts now
    else pure ()
  | _, _ => pure ()

end RunPlanningService

/-! ## Cancelling -/

/-- `ORDER BY started_at DESC LIMIT 1` among the attempts of the run. -/
def Database.latestStageAttempt (db : Database) (runId : UUID) : Option RunStageAttemptRow :=
  ((db.stageAttempts.rows.filter fun row => row.runId = runId).insertionSort
    fun a b => b.startedAt ≤ a.startedAt).head?

inductive CancelStatus
  | CANCELLED
  | CANCELLATION_REQUESTED
deriving DecidableEq

namespace Api

def cancelStageAttempt (now : Time) : Option RunStageAttemptRow → Session Unit
  | some attempt =>
    if attempt.status = .RUNNING then
      execute (setStageAttempt (attempt.finish .CANCELLED now))
    else pure ()
  | none => pure ()

/-- A run without dispatched tasks is cancelled on the spot. -/
def cancelUnplanned (run : RunRow) (now : Time) (eventId : UUID) : Session Unit := do
  require (requireRunTransition run.state .CANCELLED)
  recordRunDuration run now
  execute (setRun (run.enter .CANCELLED now))
  let attempt ← query fun db => db.latestStageAttempt run.id
  cancelStageAttempt now attempt
  publish eventId "run.cancelled" "run" run.id run.id "run-state"
    (.obj [("run_id", .str run.id.str), ("reason", .str "operator_cancelled")])

/-- A repeated request keeps the time of the first one. -/
def requested (run : RunRow) (now : Time) : RunRow :=
  { run with cancellationRequestedAt := some (run.cancellationRequestedAt.getD now) }

/-- `POST /runs/{run_id}/cancel`. -/
def cancelRun (runId : UUID) (now : Time) (eventId : UUID) : Session CancelStatus := do
  match ← selectRunForUpdate runId with
  | none => raise .httpException "404: run not found"
  | some run =>
    if run.state ∈ runTerminalStates then
      raise .httpException ("409: run already " ++ run.state.value)
    else do
      execute (setRun (requested run now))
      if run.state = .PENDING ∨ run.state = .PLANNING then do
        cancelUnplanned (requested run now) now eventId
        pure .CANCELLED
      else pure .CANCELLATION_REQUESTED

end Api

end AutoSwe
