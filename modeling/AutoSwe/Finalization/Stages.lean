import AutoSwe.Finalization.Evidence
import AutoSwe.Finalization.Promotion
import AutoSwe.Finalization.Review
import AutoSwe.Tools.Approval

/-!
# The stages of finalization

The transactions and reads by which a finished run is released. A stage of a run
is claimed by a row whose `started_at` is the fence of the owner; a stage that
has been running for too long is taken over.
-/

namespace AutoSwe

open Transaction Prog Database Session

/-- `failureSignature` and `progressFingerprint` are canonical hashes, `split` is
the one of the string class; the last four fields are JSON and its texts. -/
structure RunFinalizationService where
  artifacts : ArtifactService
  approvals : ApprovalService
  promotion : PromotionService
  repair : DurableRepairController
  uuid5 : UUID → String → UUID
  specHash : Stage → RunRow → String
  failureSignature : List String → String
  progressFingerprint : Nat → List UUID → String
  split : String → List String
  loads : Bytes → Option Json
  str : Json → String
  encodeDecision : ReleaseDecision → Bytes
  decodeDecision : Bytes → Option ReleaseDecision

/-! ## The stage of a run -/

def stageStaleAfter : Time := 900000000

def advanceFenceHash : String := String.ofList (List.replicate 64 '0')

def finalizableStates : List RunStatus := [.EXECUTING, .WAITING_FOR_APPROVAL, .WAITING_FOR_MEMORY]

variable (db : Database)

/-- The runs that finalization looks for, the oldest first. -/
def Database.finalizable : List RunRow :=
  (db.runs.rows.filter fun run => run.state ∈ finalizableStates).insertionSort
    (RunRow.createdBefore · ·)

def advanceAttempt (uuid5 : UUID → String → UUID) (runId : UUID) (state : RunStatus) (now : Time) :
    RunStageAttemptRow where
  id := stageAttemptId uuid5 runId (.advance state)
  runId := runId
  stage := .advance state
  agentSpecHash := advanceFenceHash
  startedAt := now

variable (runId : UUID) (state : RunStatus)

/-- The condition of the upsert: the stage is over, or its owner has gone stale. -/
def Database.stageFree (now : Time) : Bool :=
  (db.stageAttempts.get? (runId, .advance state)).all fun row =>
    row.status ≠ .RUNNING || row.startedAt ≤ now - stageStaleAfter

def claimStage (uuid5 : UUID → String → UUID) (runId : UUID) (state : RunStatus) (now : Time) :
    Session (Option Time) := do
  if ← query fun db => db.stageFree runId state now then do
    startStageAttempt (advanceAttempt uuid5 runId state now)
    pure (some now)
  else pure none

def Database.holdsStage (fence : Time) : Bool :=
  (db.stageAttempts.get? (runId, .advance state)).any fun row => row.startedAt = fence

def releaseStage (fence now : Time) : Session Unit := do
  let row ← Prog.query fun db => db.stageAttempts.get? (runId, .advance state)
  match row.filter fun row => row.startedAt = fence with
  | none => pure ()
  | some row => Prog.execute (setStageAttempt (row.finish .COMPLETED now))

def transitionRun (target : RunStatus) (now : Time) : Session Unit := do
  match ← selectRunForUpdate runId with
  | none => raise .lookupError ("run " ++ runId.str ++ " does not exist")
  | some run =>
    if run.state = target then pure ()
    else do
      require (requireRunTransition run.state target)
      recordRunDuration run now
      Prog.execute (setRun (run.enter target now))

/-- `session.merge` of a started attempt: one that is there keeps its clock. -/
def mergeStageAttempt (row : RunStageAttemptRow) : Session Unit :=
  checked fun db =>
    match db.stageAttemptById row.id with
    | some existing => .ok (setStageAttempt { existing with
        agentSpecHash := row.agentSpecHash, status := row.status })
    | none =>
      match db.stageAttempts.get? row.key with
      | some _ => .error ⟨.integrityError, "uq_run_stage_attempt"⟩
      | none => .ok fun db => { db with stageAttempts := db.stageAttempts.insert row }

def finishStageAttempt (id : UUID) (status : StageStatus) (now : Time) : Session Unit := do
  match ← Prog.query fun db => db.stageAttemptById id with
  | none => pure ()
  | some row => Prog.execute (setStageAttempt (row.finish status now))

/-- `ORDER BY plan_revision, id`. -/
def Database.tasksOf : List TaskRow :=
  (db.tasks.rows.filter fun task => task.runId = runId).insertionSort fun a b =>
    a.planRevision < b.planRevision ∨ a.planRevision = b.planRevision ∧ a.id.int ≤ b.id.int

def latestRevision (tasks : List TaskRow) : Nat := (tasks.map TaskRow.planRevision).foldl max 0

def latestTasks (tasks : List TaskRow) : List TaskRow :=
  tasks.filter fun task => task.planRevision = latestRevision tasks

/-- `ORDER BY started_at DESC LIMIT 1` among the attempts of the task. -/
def Database.latestAttempt (taskId : UUID) : Option TaskAttemptRow :=
  ((db.attempts.rows.filter fun row => row.taskId = taskId).insertionSort
    fun a b => b.startedAt ≤ a.startedAt).head?

/-! ## Evidence and review -/

namespace RunFinalizationService

variable (service : RunFinalizationService) (objects : Objects)

/-- The artifacts as the gate reads them in one transaction. -/
def reader (db : Database) (projectId : UUID) : ArtifactReader where
  fetch id :=
    match service.artifacts.fetch objects db projectId id with
    | .ok content => .ok (service.loads content)
    | .error failure => .error failure.className
  str := service.str

/-- The transaction of `verification_evidence`: it marks what does not rehash. -/
def readEvidence (tasks : List TaskRow) (draws : UUID → Draw) : Session Unit := do
  let rows ← query fun db =>
    (db.artifacts.rows.filter fun row => row.taskId ∈ tasks.map TaskRow.id).insertionSort
      (recordedBefore · ·)
  let projectId := (tasks.head?.map TaskRow.projectId).getD 0
  each (fun row =>
    (service.artifacts.getVerified objects projectId row.id (draws row.id)).discard) rows

def verificationEvidence (objects : Objects) (db : Database) (tasks : List TaskRow) :
    Except Raised (List String × List UUID) :=
  (service.reader objects db ((tasks.head?.map TaskRow.projectId).getD 0)).verificationEvidence
    db.artifacts.rows tasks

def decisionArtifactId (runId : UUID) (revision : Nat) : UUID :=
  service.uuid5 namespaceUrl ("release-decision:" ++ runId.str ++ ":" ++ toString revision)

def loadReleaseDecision (projectId artifactId : UUID) (draw : Draw) :
    Session (Option ReleaseDecision) := do
  match ← query fun db => db.artifacts.get? artifactId with
  | none => pure none
  | some _ => do
    match ← service.artifacts.getVerified objects projectId artifactId draw with
    | .error failure => raise .runtimeError failure.text
    | .ok content =>
      match service.decodeDecision content with
      | none => raise .valueError "ReleaseDecision"
      | some decision => pure (some decision)

def decisionArtifact (run : RunRow) (sink : TaskRow) (decision : ReleaseDecision) (draw : Draw) :
    ArtifactRow where
  id := service.decisionArtifactId run.id sink.planRevision
  projectId := run.projectId
  runId := run.id
  taskId := sink.id
  sha256 := service.artifacts.sha256 (service.encodeDecision decision)
  state := .VALID
  storageKey := AutoSwe.storageKey (service.artifacts.sha256 (service.encodeDecision decision))
  sizeBytes := (service.encodeDecision decision).length
  createdAt := draw.createdAt
  verifiedAt := some draw.now

def insertArtifact (row : ArtifactRow) : Session Unit :=
  checked fun db =>
    match db.artifacts.get? row.id with
    | none => .ok fun db => { db with artifacts := db.artifacts.insert row }
    | some _ => .error ⟨.integrityError, "artifacts_pkey"⟩

def reviewedPayload (run : RunRow) (sink : TaskRow) (decision : ReleaseDecision)
    (artifactId : UUID) : Json :=
  .obj [("run_id", .str run.id.str), ("plan_revision", .num sink.planRevision),
    ("approved", .bool decision.approved), ("artifact_id", .str artifactId.str),
    ("failure_reasons", .arr (decision.failureReasons.map Json.str))]

def storeDecision (run : RunRow) (sink : TaskRow) (decision : ReleaseDecision)
    (now : Time) (draw : Draw) : Session Unit := do
  let artifact := service.decisionArtifact run sink decision draw
  require ((service.artifacts.put objects (service.encodeDecision decision)).map
    fun _ => ())
  insertArtifact artifact
  let attemptId := stageAttemptId service.uuid5 run.id (.finalReview sink.planRevision)
  match ← Prog.query fun db => db.stageAttemptById attemptId with
  | none => raise .runtimeError "final review attempt disappeared"
  | some attempt => do
    Prog.execute (setStageAttempt (attempt.finish .COMPLETED now))
    let eventId := service.uuid5 namespaceUrl
      ("release-reviewed:" ++ run.id.str ++ ":" ++ toString sink.planRevision)
    let payload := reviewedPayload run sink decision artifact.id
    appendAudit ⟨eventId, "release.reviewed", "run", run.id, payload, run.id, attempt.id⟩
    enqueueEvent ⟨eventId, "release-review", payload⟩

end RunFinalizationService

/-! ## The release commit -/

def worktreeName (sinkId : UUID) : String := "task-" ++ sinkId.str

namespace RunFinalizationService

variable (service : RunFinalizationService) (run : RunRow)

def goalLine : List Char :=
  (String.intercalate " " (service.split run.goal)).toList

/-- The message of the call that is approved. -/
def approvedMessage : String :=
  "AutoSWE run " ++ run.id.str ++ ": " ++ String.ofList ((service.goalLine run).take 200)

def commitMessage : String :=
  let goal := service.goalLine run
  "AutoSWE run " ++ run.id.str ++ ": " ++
    String.ofList (if 200 < goal.length then goal.take 197 ++ "...".toList else goal)

def commitCall (sink : TaskRow) (attempt : TaskAttemptRow) (treeHash : String) :
    ToolCallRequest where
  callId := service.uuid5 namespaceUrl ("final-git-commit:" ++ run.id.str ++ ":" ++ sink.id.str)
  runId := run.id
  taskId := sink.id
  attemptId := attempt.id
  requestedBy := "final-reviewer"
  toolName := "git_commit"
  arguments := [("worktree", .str (worktreeName sink.id)),
    ("message", .str (service.approvedMessage run)), ("baseline_commit", .str run.baselineCommit),
    ("tree_hash", .str treeHash)]
  idempotencyKey := "final-git-commit:" ++ run.id.str ++ ":" ++ sink.id.str

end RunFinalizationService

def approvalContext (run : RunRow) (sink : TaskRow) (attempt : TaskAttemptRow) :
    ToolExecutionContext where
  projectId := run.projectId
  repositoryId := run.repositoryId
  runId := run.id
  taskId := sink.id
  attemptId := attempt.id
  baselineCommit := run.baselineCommit
  agentRole := "final-reviewer"

def ToolCallRequest.argument? (call : ToolCallRequest) (key : String) : Option Json :=
  (call.arguments.find? fun argument => argument.1 = key).map Prod.snd

/-- `str(call.arguments[key])` -/
def RunFinalizationService.argumentText? (service : RunFinalizationService)
    (call : ToolCallRequest) (key : String) : Option String :=
  (call.argument? key).map fun
    | .str text => text
    | value => service.str value

structure ReleaseIdentity where
  run : RunRow
  sink : TaskRow
  attempt : TaskAttemptRow
  call : ToolCallRequest

/-- `_approval_identity`: what was stored, not what the current plan would give. -/
def Database.releaseIdentity (db : Database) (run : RunRow) : Option ReleaseIdentity := do
  let stored ← db.toolExecutions.rows.find? fun row =>
    row.call.runId = run.id && row.call.toolName = "git_commit"
  let sink ← db.tasks.get? stored.call.taskId
  let attempt ← db.attempts.get? stored.call.attemptId
  pure ⟨run, sink, attempt, stored.call⟩

def Database.finalStageIdentity (db : Database) (runId : UUID) :
    Except Raised (RunRow × TaskRow × TaskAttemptRow) :=
  match db.runs.get? runId with
  | none => .error ⟨.lookupError, "run " ++ runId.str ++ " does not exist"⟩
  | some run => do
    let sink ← integrationSink (latestTasks (db.tasksOf runId))
    match db.latestAttempt sink.id with
    | none => .error ⟨.runtimeError, "integration attempt is missing"⟩
    | some attempt => .ok (run, sink, attempt)

structure MemoryReceipt where
  searchable : Bool
  revisionId : Option String
  status : String

end AutoSwe
