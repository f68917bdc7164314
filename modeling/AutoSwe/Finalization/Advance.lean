import AutoSwe.Finalization.Stages
import AutoSwe.Lib.Process
import AutoSwe.Scheduler.Claims

/-!
# Run finalization

A dispatcher takes the oldest run that is past planning and advances it by one
stage: it collects the evidence of the executed tasks, reviews the release or
asks for a repair, requests an approval, commits and promotes. Nothing of this is
one transaction; what a dispatcher awaits is an `Activity`, and between two of
them other dispatchers, the scheduler and operators go on.
-/

namespace AutoSwe

open Coroutine

/-! ## Activities -/

/-- What a dispatcher awaits: a transaction, a read or somebody outside. -/
inductive Activity
  | claimStage (runId : UUID) (state : RunStatus)
  | holdsStage (runId : UUID) (state : RunStatus) (fence : Time)
  | releaseStage (runId : UUID) (state : RunStatus) (fence : Time)
  | tasksOf (runId : UUID)
  | verificationEvidence (tasks : List TaskRow)
  | currentPlan (runId : UUID)
  | loadReleaseDecision (projectId artifactId : UUID)
  | getRun (runId : UUID)
  | startStage (run : RunRow) (stage : Stage)
  | finishStage (runId : UUID) (stage : Stage) (status : StageStatus)
  | askReviewer (run : RunRow) (criteria : List String) (evidenceIds : List UUID)
  | audit (request : ReleaseReviewRequest)
  | storeDecision (run : RunRow) (sink : TaskRow) (decision : ReleaseDecision)
  | repairContext (runId : UUID)
  | askDebugger (run : RunRow) (current : TaskPlan) (failures : List String)
      (evidenceIds : List UUID) (repairs : Nat)
  | applyRepair (runId : UUID) (outcome : VerificationOutcome) (mutation : TaskPlanMutation)
  | transitionRun (runId : UUID) (target : RunStatus)
  | promoteRound (limit : Nat)
  | releaseAttempt (runId sinkId : UUID)
  | worktreeTreeHash (worktree : String)
  | requestApproval (call : ToolCallRequest) (context : ToolExecutionContext)
  | approvalIdentity (runId : UUID)
  | approvalOf (callId : UUID)
  | authorize (approvalId : UUID) (call : ToolCallRequest) (context : ToolExecutionContext)
  | commitTaskWorktree (runId : UUID) (worktree message treeHash : String)
  | checkApproved (call : ToolCallRequest)
  | persistTerminal (call : ToolCallRequest)
  | prepareCandidate (run : RunRow) (sink : TaskRow) (attempt : TaskAttemptRow)
      (plan : TaskPlan) (commit : String)
  | latestCandidate (runId : UUID)
  | finalStageIdentity (runId : UUID)
  | promotionReview (runId sinkId : UUID) (attemptStatus : TaskStatus)
  | setLocalState (candidate : MemoryCandidate) (status : CandidateStatus)
      (error revisionId : Option String)
  | remember (candidate : MemoryCandidate)
  | complete (candidate : MemoryCandidate) (revisionId : String)
  | cleanupRun (run : RunRow)
  | cancellableRuns (limit : Nat)
  | openTasks (runId : UUID)
  | cancelTask (projectId taskId : UUID)
  | cancelRun (runId : UUID)

abbrev Activity.Result : Activity → Type
  | .claimStage .. => Option Time
  | .holdsStage .. | .checkApproved .. | .cancelRun .. => Bool
  | .tasksOf .. | .openTasks .. => List TaskRow
  | .verificationEvidence .. => List String × List UUID
  | .currentPlan .. => Option PlanRevisionRow
  | .loadReleaseDecision .. => Option ReleaseDecision
  | .getRun .. => Option RunRow
  | .askReviewer .. => ReleaseDecision
  | .audit .. => Audit
  | .repairContext .. => Option PlanRevisionRow × Option RunRow × Nat
  | .askDebugger .. => TaskPlanMutation
  | .applyRepair .. => RepairDecision
  | .promoteRound .. => Nat
  | .releaseAttempt .. => Option RunRow × Option TaskAttemptRow
  | .worktreeTreeHash .. | .commitTaskWorktree .. => String
  | .approvalIdentity .. => Option ReleaseIdentity
  | .approvalOf .. => Option ApprovalRow
  | .prepareCandidate .. => Option MemoryCandidate
  | .latestCandidate .. => Option RunRow × Option MemoryCandidateRow
  | .finalStageIdentity .. => RunRow × TaskRow × TaskAttemptRow
  | .promotionReview .. => PromotionReview
  | .remember .. => Except String MemoryReceipt
  | .cancellableRuns .. => List UUID
  | _ => Unit

/-- The database, and the runs for which a release commit or a promotion was
started, one entry for each start. -/
structure Platform where
  db : Database := {}
  releases : List UUID := []
  promotions : List UUID := []

/-- What the outside decides about one step of a dispatcher: the clock, the drawn
values, the files, a failure instead of the step, and what the models, Git and
the memory answer. -/
structure Answer where
  now : Time := 0
  draw : Draw := {}
  draws : UUID → Draw := fun _ => {}
  objects : Objects := fun _ => .error ⟨"FileNotFoundError", ""⟩
  failure : Option Raised := none
  review : ReleaseDecision := ⟨false, "-", [], [], dash_length, noReasons_length⟩
  mutation : TaskPlanMutation := ⟨0, 0, "", []⟩
  text : String := ""
  messages : List UUID := []
  receipt : Except String MemoryReceipt := .error ""

def Platform.transact (s : Platform) (p : Session α) : Except Raised α × Platform :=
  ((p.commit s.db).1, { s with db := (p.commit s.db).2 })

/-- The release commits and promotions that an activity starts. -/
def Activity.start (s : Platform) : Activity → Platform
  | .commitTaskWorktree runId .. => { s with releases := s.releases ++ [runId] }
  | .setLocalState candidate .PROMOTING .. =>
    { s with promotions := s.promotions ++ [candidate.sourceRunId] }
  | _ => s

section
variable (service : RunFinalizationService)

def Activity.carryOut (s : Platform) (answer : Answer) :
    (a : Activity) → Except Raised a.Result × Platform
  | .claimStage runId state => s.transact (AutoSwe.claimStage service.uuid5 runId state answer.now)
  | .holdsStage runId state fence => (.ok (s.db.holdsStage runId state fence), s)
  | .releaseStage runId state fence =>
    s.transact (AutoSwe.releaseStage runId state fence answer.now)
  | .tasksOf runId => (.ok (s.db.tasksOf runId), s)
  | .verificationEvidence tasks =>
    (service.verificationEvidence answer.objects s.db tasks,
      (s.transact (service.readEvidence answer.objects tasks answer.draws)).2)
  | .currentPlan runId => (.ok (s.db.currentPlan runId), s)
  | .loadReleaseDecision projectId artifactId =>
    s.transact (service.loadReleaseDecision answer.objects projectId artifactId answer.draw)
  | .getRun runId => (.ok (s.db.runs.get? runId), s)
  | .startStage run stage =>
    s.transact (mergeStageAttempt ⟨stageAttemptId service.uuid5 run.id stage, run.id, stage,
      service.specHash stage run, .RUNNING, answer.now, none⟩)
  | .finishStage runId stage status =>
    s.transact (finishStageAttempt (stageAttemptId service.uuid5 runId stage) status answer.now)
  | .askReviewer .. => (.ok answer.review, s)
  | .audit request => s.transact (service.artifacts.audit answer.objects request answer.draws)
  | .storeDecision run sink decision =>
    s.transact (service.storeDecision answer.objects run sink decision answer.now answer.draw)
  | .repairContext runId =>
    (.ok (s.db.currentPlan runId, s.db.runs.get? runId,
      (s.db.repairMutations.rows.filter fun row => row.runId = runId).length), s)
  | .askDebugger .. => (.ok answer.mutation, s)
  | .applyRepair runId outcome mutation =>
    s.transact (service.repair.apply answer.objects runId outcome mutation answer.draws)
  | .transitionRun runId target => s.transact (AutoSwe.transitionRun runId target answer.now)
  | .promoteRound limit => s.transact (AutoSwe.promoteRound limit answer.draws)
  | .releaseAttempt runId sinkId =>
    (.ok (s.db.runs.get? runId, s.db.latestAttempt sinkId), s)
  | .worktreeTreeHash _ => (.ok answer.text, s)
  | .requestApproval call context =>
    s.transact (service.approvals.request call context answer.now answer.draw)
  | .approvalIdentity runId =>
    match s.db.runs.get? runId with
    | none => (.error ⟨.lookupError, "run " ++ runId.str ++ " does not exist"⟩, s)
    | some run => (.ok (s.db.releaseIdentity run), s)
  | .approvalOf callId => (.ok (s.db.approvalOf callId), s)
  | .authorize approvalId call context =>
    s.transact (service.approvals.authorize approvalId call context answer.now)
  | .commitTaskWorktree .. => (.ok answer.text, s)
  | .checkApproved call =>
    (checkApprovedExecution (s.db.executionByKey call.idempotencyKey) call, s)
  | .persistTerminal call =>
    s.transact (AutoSwe.persistTerminal service.uuid5 call .COMPLETED .HIGH 1)
  | .prepareCandidate run sink attempt plan commit =>
    s.transact (service.promotion.prepareCandidate run sink attempt plan commit answer.messages
      answer.draw)
  | .latestCandidate runId =>
    (.ok (s.db.runs.get? runId, s.db.latestCandidate runId), s)
  | .finalStageIdentity runId => (s.db.finalStageIdentity runId, s)
  | .promotionReview runId sinkId attemptStatus =>
    (.ok (s.db.promotionReview runId sinkId attemptStatus), s)
  | .setLocalState candidate status error revisionId =>
    s.transact (service.promotion.setLocalState candidate status error revisionId answer.draw)
  | .remember _ => (.ok answer.receipt, s)
  | .complete candidate revisionId =>
    s.transact (service.promotion.complete candidate revisionId answer.now answer.draw)
  | .cleanupRun _ => (.ok (), s)
  | .cancellableRuns limit => (.ok ((s.db.cancellableRuns limit).map RunRow.id), s)
  | .openTasks runId => (.ok (s.db.openTasksOf runId), s)
  | .cancelTask projectId taskId =>
    s.transact (AutoSwe.cancelTask projectId taskId answer.now answer.draw)
  | .cancelRun runId => s.transact (AutoSwe.cancelRun runId answer.now answer.draw)

/-- One awaited activity. A failure from outside leaves no trace but the start. -/
def Activity.act (s : Platform) (answer : Answer) (a : Activity) :
    Except Raised a.Result × Platform :=
  match answer.failure with
  | some error => (.error error, a.start s)
  | none => a.carryOut service (a.start s) answer

end

/-! ## Advancing a run -/

abbrev Dispatching := Process Activity Activity.Result Raised

def activity (a : Activity) : Dispatching a.Result := Process.perform a

def Dispatching.finally (p : Dispatching α) (last : Dispatching Unit) : Dispatching α := do
  let result ← try p catch error => do
    last
    throw error
  last
  pure result

namespace RunFinalizationService

variable (service : RunFinalizationService)

/-- The part of `_review_release` that its `try` covers. -/
def reviewOutput (run : RunRow) (sink : TaskRow) (criteria : List String)
    (evidenceIds : List UUID) : Dispatching ReleaseDecision := do
  let review ← activity (.askReviewer run criteria evidenceIds)
  let output := review.downgraded criteria
  let request := output.request run criteria
  Process.ofExcept request.check
  let audit ← activity (.audit request)
  let audited ← Process.ofExcept (audit.decision request)
  let decision ← Process.ofExcept (output.decision audited)
  activity (.storeDecision run sink decision)
  pure decision

variable (runId : UUID)

def reviewFresh (sink : TaskRow) (criteria : List String)
    (evidenceIds : List UUID) : Dispatching ReleaseDecision := do
  match ← activity (.getRun runId) with
  | none => throw ⟨.lookupError, "run " ++ runId.str ++ " does not exist"⟩
  | some run => do
    activity (.startStage run (.finalReview sink.planRevision))
    try reviewOutput run sink criteria evidenceIds
    catch error => do
      activity (.finishStage runId (.finalReview sink.planRevision) .FAILED)
      throw error

variable (latest : List TaskRow)

def reviewRelease (evidenceIds : List UUID) : Dispatching ReleaseDecision := do
  let sink ← Process.ofExcept (integrationSink latest)
  match ← activity (.currentPlan runId) with
  | none => throw ⟨.lookupError, "run " ++ runId.str ++ " has no durable plan"⟩
  | some row => do
    Process.ofExcept row.plan.requireIntegrationPlan
    match row.plan.criteria with
    | [] => Process.ofExcept (ReleaseDecision.make false "The release has no acceptance criteria."
        [] ["release has no acceptance criteria"])
    | criteria => do
      match ← activity (.loadReleaseDecision sink.projectId
          (service.decisionArtifactId runId sink.planRevision)) with
      | some replay => pure replay
      | none => reviewFresh runId sink criteria evidenceIds

/-- `str` of a tuple of codes. -/
def tupleText (codes : List String) : String :=
  "(" ++ String.intercalate ", " (codes.map fun code => "\x27" ++ code ++ "\x27") ++
    (if codes.length = 1 then ",)" else ")")

/-- What `_request_repair` does with a decision. -/
def settleRepair (revision : Nat) (decision : RepairDecision) : Dispatching Unit := do
  activity (.finishStage runId (.debugger revision)
    (if decision.action = .APPLY_MUTATION then .COMPLETED else .FAILED))
  if decision.action ≠ .APPLY_MUTATION then do
    activity (.transitionRun runId .FAILED)
    throw ⟨.runtimeError, "bounded repair terminated: " ++ tupleText decision.reasonCodes⟩
  else
    match decision.plan with
    | none => throw ⟨.runtimeError, "accepted repair is missing its durable plan revision"⟩
    | some plan => Process.ofExcept plan.requireIntegrationPlan

def requestRepair (failures : List String) (evidenceIds : List UUID) : Dispatching Unit := do
  match ← activity (.repairContext runId) with
  | (some planRow, some run, repairs) => do
    let current := planRow.plan
    activity (.startStage run (.debugger (current.revision + 1)))
    let mutation ← activity (.askDebugger run current failures evidenceIds repairs)
    let outcome ← Process.ofExcept (VerificationOutcome.failed (service.failureSignature failures)
      (service.progressFingerprint current.revision evidenceIds) evidenceIds)
    let decision ← activity (.applyRepair runId outcome mutation)
    settleRepair runId (current.revision + 1) decision
  | _ => throw ⟨.runtimeError, "repair run or plan is missing"⟩

/-- `promote_dependency_ready`, one transaction a round. -/
def promoteReady (limit : Nat) : Nat → Dispatching Unit
  | 0 => pure ()
  | rounds + 1 => do
    let promoted ← activity (.promoteRound limit)
    if promoted = 0 ∨ promoted < limit then pure () else promoteReady limit rounds

def addRepair (failures : List String) (evidenceIds : List UUID) : Dispatching (Option String) := do
  service.requestRepair runId failures evidenceIds
  promoteReady 500 32
  pure (some "REPAIR_ADDED")

def requestCommitApproval : Dispatching Unit := do
  let sink ← Process.ofExcept (integrationSink latest)
  match ← activity (.releaseAttempt runId sink.id) with
  | (some run, some attempt) => do
    let treeHash ← activity (.worktreeTreeHash (worktreeName sink.id))
    activity (.requestApproval (service.commitCall run sink attempt treeHash)
      (approvalContext run sink attempt))
    activity (.transitionRun runId .WAITING_FOR_APPROVAL)
  | _ => throw ⟨.runtimeError, "integration sink or attempt is missing"⟩

def failRelease : Dispatching (Option String) := do
  activity (.transitionRun runId .FAILED)
  pure (some "FAILED")

/-- The tasks of the run are all completed. -/
def advanceCompleted : Dispatching (Option String) := do
  let (failures, evidenceIds) ← activity (.verificationEvidence latest)
  if failures ≠ [] then
    if evidenceIds = [] then failRelease runId
    else service.addRepair runId failures evidenceIds
  else do
    let decision ← service.reviewRelease runId latest evidenceIds
    if decision.approved then do
      service.requestCommitApproval runId latest
      pure (some "WAITING_FOR_APPROVAL")
    else
      service.addRepair runId
        (if decision.failureReasons = [] then [decision.summary] else decision.failureReasons)
        evidenceIds

def advanceExecuting : Dispatching (Option String) := do
  let tasks ← activity (.tasksOf runId)
  if tasks = [] ∨ tasks.any (fun task => task.state ∉ terminalTaskStates) then pure none
  else if tasks.any fun task => task.state = .FAILED || task.state = .CANCELLED then
    failRelease runId
  else service.advanceCompleted runId (latestTasks tasks)

def waitForUams (candidate : MemoryCandidate) (error : String) (revisionId : Option String) :
    Dispatching PromotionOutcome := do
  activity (.setLocalState candidate .WAITING_FOR_MEMORY (some error) revisionId)
  pure .WAITING_FOR_MEMORY

def promote (candidate : MemoryCandidate) (review : PromotionReview) :
    Dispatching PromotionOutcome := do
  match service.promotion.gate.evaluate candidate review with
  | [] => do
    activity (.setLocalState candidate .PROMOTING none none)
    match ← activity (.remember candidate) with
    | .error unavailable => waitForUams candidate unavailable none
    | .ok receipt =>
      match receipt.revisionId with
      | some revisionId =>
        if receipt.searchable ∧ revisionId ≠ "" then do
          activity (.complete candidate revisionId)
          pure .PROMOTED
        else
          waitForUams candidate ("UAMS revision is not searchable: " ++ receipt.status)
            receipt.revisionId
      | none => waitForUams candidate ("UAMS revision is not searchable: " ++ receipt.status) none
  | reasons => do
    activity (.setLocalState candidate .REJECTED (some (String.intercalate ", " reasons)) none)
    pure .REJECTED

def promoteRunMemory (identity : ReleaseIdentity) (commit : String) :
    Dispatching PromotionOutcome := do
  match ← activity (.currentPlan identity.run.id) with
  | none => throw ⟨.lookupError, "run " ++ identity.run.id.str ++ " has no durable plan"⟩
  | some row => do
    match ← activity (.prepareCandidate identity.run identity.sink identity.attempt row.plan
        commit) with
    | none => pure .PROMOTED
    | some candidate => do
      let review ← activity
        (.promotionReview identity.run.id identity.sink.id identity.attempt.status)
      service.promote candidate review

def completeApproved (call : ToolCallRequest) : Dispatching Unit := do
  if ← activity (.checkApproved call) then pure () else activity (.persistTerminal call)

def completeRun (run : RunRow) : Dispatching (Option String) := do
  activity (.transitionRun run.id .COMPLETED)
  activity (.cleanupRun run)
  pure (some "COMPLETED")

/-- The approval is granted and the stage is still held. -/
def commitApproved (identity : ReleaseIdentity) (approval : ApprovalRow) :
    Dispatching (Option String) := do
  activity (.authorize approval.id identity.call
    (approvalContext identity.run identity.sink identity.attempt))
  match service.argumentText? identity.call "tree_hash" with
  | none => throw ⟨.keyError, "\x27tree_hash\x27"⟩
  | some treeHash => do
    let commit ← activity (.commitTaskWorktree runId (worktreeName identity.sink.id)
      (service.commitMessage identity.run) treeHash)
    completeApproved identity.call
    let outcome ← service.promoteRunMemory identity commit
    if outcome = .PROMOTED then completeRun identity.run
    else do
      activity (.transitionRun runId .WAITING_FOR_MEMORY)
      pure (some "WAITING_FOR_MEMORY")

def advanceApproval (fence : Time) : Dispatching (Option String) := do
  match ← activity (.approvalIdentity runId) with
  | none => pure none
  | some identity => do
    match ← activity (.approvalOf identity.call.callId) with
    | none => pure none
    | some approval =>
      if approval.status = .PENDING then pure none
      else if approval.status ≠ .APPROVED then failRelease runId
      else do
        if ← activity (.holdsStage runId .WAITING_FOR_APPROVAL fence) then
          service.commitApproved runId identity approval
        else pure none

def advanceMemory : Dispatching (Option String) := do
  match ← activity (.latestCandidate runId) with
  | (some run, some row) => do
    let (_, sink, attempt) ← activity (.finalStageIdentity run.id)
    let review ← activity (.promotionReview run.id sink.id attempt.status)
    let outcome ← service.promote row.candidate review
    if outcome = .PROMOTED then completeRun run else pure none
  | _ => throw ⟨.runtimeError, "memory-waiting run has no candidate"⟩

def advanceStage (state : RunStatus) (fence : Time) : Dispatching (Option String) :=
  match state with
  | .EXECUTING => service.advanceExecuting runId
  | .WAITING_FOR_APPROVAL => service.advanceApproval runId fence
  | _ => service.advanceMemory runId

/-- `advance_next`, once it has selected a run. -/
def advanceRun (state : RunStatus) : Dispatching (Option String) := do
  match ← activity (.claimStage runId state) with
  | none => pure none
  | some fence =>
    (service.advanceStage runId state fence).finally (activity (.releaseStage runId state fence))

end RunFinalizationService

/-! ## Resolving cancellations -/

namespace Sweep

def cancelTasks : List TaskRow → Dispatching Unit
  | [] => pure ()
  | task :: rest => do
    activity (.cancelTask task.projectId task.id)
    cancelTasks rest

def cancelRun (runId : UUID) : Dispatching Bool := do
  let tasks ← activity (.openTasks runId)
  cancelTasks tasks
  activity (.cancelRun runId)

def cancelRuns : List UUID → Dispatching Nat
  | [] => pure 0
  | runId :: rest => do
    let resolved ← cancelRun runId
    let others ← cancelRuns rest
    pure (if resolved then others + 1 else others)

/-- `cancel_requested_runs` with its transactions apart. -/
def cancelRequestedRuns (limit : Nat) : Dispatching Nat := do
  let runs ← activity (.cancellableRuns limit)
  cancelRuns runs

end Sweep

end AutoSwe
