import AutoSwe.Finalization.Advance
import AutoSwe.Planning.Writes
import AutoSwe.Scheduler.Footprints

/-!
# The tables that finalization writes

One lemma for each session of the release, the repair, the approval and the
promotion, and from them what an activity writes (`Activity.carryOut_agree`).
-/

namespace AutoSwe

open Transaction Activity Touches

/-- The tables that a transition of a graph writes, and those that every
transaction of the scheduler may clear. -/
def graphTables : List TableName :=
  [.attempts, .leases, .reservations, .graphs, .auditEvents, .outbox, .stateDurations]

/-- What is read as evidence is marked if it does not rehash. -/
def evidenceTables : List TableName := [.artifacts, .auditEvents, .outbox]

section
variable {tables : List TableName}

theorem RowWrite.agree (h : RowWrite may creates False write)
    (hgraph : ∀ t ∈ graphTables, t ∈ tables)
    (htasks : ∀ state, may (.tasks state) → .tasks ∈ tables) (db : Database) :
    Agree tables db (write db) := by
  intro t ht
  refine h.keeps (fun hwritable => ht ?_) db
  cases t with
  | attempts | leases | reservations | graphs | auditEvents | outbox | stateDurations =>
    exact hgraph _ (by decide)
  | tasks =>
    obtain ⟨state, hmay⟩ := hwritable
    exact htasks state hmay
  | _ => exact False.elim hwritable

end

/-! ## What leaves a trail -/

def Touches.repairTables : List TableName :=
  .planRevisions :: .tasks :: .repairMutations :: evidenceTables

namespace Logs

open Trails (query queryForUpdate)
open Touches (repairTables)

variable {tables : List TableName} {controller : DurableRepairController}
  {service : PromotionService}

theorem getVerified {service : ArtifactService} :
    Logs evidenceTables (service.getVerified objects projectId artifactId draw) := by
  refine .bind (query _) (.option .done fun row => .ite .done ?_)
  split
  · exact .done
  · refine .bind (.bind (execute .artifacts (by decide) (by decide) fun _ => ⟨_, rfl⟩)
      fun _ => ?_) fun _ => .done
    exact publish (by decide) (by decide) (by decide)

theorem verifyEvidence :
    Logs evidenceTables (controller.verifyEvidence objects projectId runId draws artifactIds) := by
  refine .bind (.collect (fun artifactId => ?_) _) fun _ => .done
  refine .bind getVerified fun content => ?_
  cases content with
  | error failure => exact .done
  | ok content =>
    refine .bind (query _) fun row => ?_
    split <;> exact .done

theorem decideNew :
    Logs evidenceTables (controller.decideNew objects run current outcome mutation draws) := by
  refine .bind (query _) fun rows => ?_
  split
  · exact .raise
  · refine .bind verifyEvidence fun errors => .ite .done ?_
    split
    · exact .raise
    · exact .done

theorem replayedDecision :
    Logs tables (AutoSwe.replayedDecision row runId mutationHash outcome) := by
  refine .ite .raise ?_
  split
  · exact .done
  · exact .bind (query _) (.option .raise fun _ => .done)

theorem insertRepairMutation (h : .repairMutations ∈ tables) (row : RepairMutationRow) :
    Logs tables (AutoSwe.insertRepairMutation row) := by
  refine checked .repairMutations h (by decide) fun view w hw db => ?_
  split at hw <;> cases hw
  exact ⟨_, rfl⟩

theorem record : Logs repairTables (controller.record runId outcome mutation draws decision) := by
  refine .bind (insertRepairMutation (by decide) _) fun _ => ?_
  cases decision.accepted with
  | none =>
    exact .bind
      (appendAudit (by decide) (show isTracked "plan.repair_terminated" = false by decide))
      fun _ => .bind (enqueueEvent (by decide) _) fun _ => .done
  | some plan =>
    refine .bind (.bind (createPlanRevision (by decide)) fun _ => .each (fun spec => ?_) _) fun _ =>
      .bind (appendAudit (by decide) (show isTracked "plan.repair_accepted" = false by decide))
      fun _ => .bind (enqueueEvent (by decide) _) fun _ => .done
    exact .bind (createTask (by decide)) fun _ => .done

theorem apply : Logs repairTables (controller.apply objects runId outcome mutation draws) := by
  refine .ite .raise (.bind (queryForUpdate _ _) (.option .raise fun run =>
    .bind (query _) (.option ?_ fun known => replayedDecision)))
  exact .bind (query _) (.option .raise fun current =>
    .bind (decideNew.weaken (by decide)) fun _ => record)

theorem transitionGraphExecution {threadId} : Logs graphTables
    (AutoSwe.transitionGraphExecution taskId identity threadId target checkpointId draw) :=
  (Schedules.transitionGraphExecution rfl : Schedules (· = .graphs) False False _).mono
    fun _ hwrite db => hwrite.agree (fun _ => id) (fun _ ht => by cases ht) db

theorem setCandidate (h : .memoryCandidates ∈ tables) (row : MemoryCandidateRow) :
    Logs tables (Prog.execute (Database.setCandidate row)) :=
  execute .memoryCandidates h (by decide) fun _ => ⟨_, rfl⟩

theorem waitForMemory : Logs graphTables (PromotionService.waitForMemory taskId draw) :=
  .bind (queryForUpdate _ _) (.option .done fun _ =>
    .ite transitionGraphExecution.discard .done)

theorem setLocalState : Logs (.memoryCandidates :: graphTables)
    (service.setLocalState candidate status error revisionId draw) :=
  .bind (query _) (.option .raise fun _ => .bind (setCandidate (by decide) _) fun _ =>
    .ite (waitForMemory.weaken (by decide)) .done)

theorem resumeGraph :
    Logs graphTables (PromotionService.resumeGraph candidateId taskId now draw) := by
  refine .bind (queryForUpdate _ _) (.option .done fun graph => .ite ?_ .done)
  exact .bind (recordStateDuration (by decide)) fun _ => transitionGraphExecution.discard

theorem complete : Logs (.memoryCandidates :: graphTables)
    (service.complete candidate revisionId now draw) := by
  refine .bind (query _) (.option .raise fun row => .ite .done ?_)
  exact .bind (setCandidate (by decide) _) fun _ => .bind (resumeGraph.weaken (by decide))
    fun _ => .bind ⟨Touches.appendNamedAudit (by decide) _,
      .appendNamedAudit (show isTracked "memory.promoted" = false by decide)⟩
    fun _ => ⟨Touches.enqueueNamedEvent (by decide) _, .enqueueNamedEvent _⟩

end Logs

/-! ## Stages -/

namespace Touches


variable {tables : List TableName}

theorem taskWrites (h : Schedules (fun _ => True) False False p) :
    Touches (.tasks :: graphTables) p :=
  h.writes.mono fun _ hwrite db => hwrite.agree (by decide) (by simp) db

theorem claimStage : Touches [.stageAttempts] (AutoSwe.claimStage uuid5 runId state now) := by
  refine .bind (query _) fun free => ?_
  cases free with
  | false => exact trivial
  | true => exact .bind (Logs.startStageAttempt (by decide) _).writes fun _ => trivial

theorem releaseStage : Touches [.stageAttempts] (AutoSwe.releaseStage runId state fence now) := by
  refine .bind (query _) fun row => ?_
  cases row.filter fun row => decide (row.startedAt = fence) with
  | none => exact trivial
  | some row => exact (Logs.setStageAttempt (by decide) _).writes

theorem mergeStageAttempt (row : RunStageAttemptRow) :
    Touches [.stageAttempts] (AutoSwe.mergeStageAttempt row) := by
  refine checked .stageAttempts (by decide) fun view w hw db => ?_
  split at hw
  · cases hw
    exact ⟨_, rfl⟩
  · split at hw <;> cases hw
    exact ⟨_, rfl⟩

theorem finishStageAttempt :
    Touches [.stageAttempts] (AutoSwe.finishStageAttempt attemptId status now) := by
  exact .bind (query _) (.option trivial fun row => (Logs.setStageAttempt (by decide) _).writes)

/-! ## Evidence and review -/

variable {service : RunFinalizationService}

theorem readEvidence : Touches evidenceTables (service.readEvidence objects tasks draws) :=
  .bind (query _) fun _ => .each (fun _ => Logs.getVerified.writes.discard) _

theorem loadReleaseDecision :
    Touches evidenceTables (service.loadReleaseDecision objects projectId artifactId draw) := by
  refine .bind (query _) fun row => ?_
  cases row with
  | none => exact trivial
  | some row =>
    refine .bind Logs.getVerified.writes fun content => ?_
    cases content with
    | error failure => exact trivial
    | ok content =>
      dsimp only
      split <;> exact trivial

theorem auditArtifact {service : ArtifactService} :
    Touches evidenceTables (service.auditArtifact objects request draws criterion artifactId) := by
  refine .bind Logs.getVerified.writes fun content => ?_
  cases content with
  | error failure => exact trivial
  | ok content =>
    refine .bind (query _) fun row => ?_
    split <;> exact trivial

theorem auditArtifacts {service : ArtifactService} : ∀ artifactIds,
    Touches evidenceTables (service.auditArtifacts objects request draws criterion artifactIds)
  | [] => trivial
  | artifactId :: rest => .bind auditArtifact fun failure =>
      .bind (auditArtifacts rest) fun others => by cases failure <;> exact trivial

theorem auditCriterion {service : ArtifactService} :
    Touches evidenceTables (service.auditCriterion objects request draws criterion) := by
  unfold ArtifactService.auditCriterion
  split
  · exact trivial
  · refine .bind (auditArtifacts _) fun others => ?_
    dsimp only
    split <;> exact trivial

theorem auditCriteria {service : ArtifactService} : ∀ criteria,
    Touches evidenceTables (service.auditCriteria objects request draws criteria)
  | [] => trivial
  | _ :: rest => .bind auditCriterion fun _ => .bind (auditCriteria rest) fun _ => trivial

theorem audit {service : ArtifactService} :
    Touches evidenceTables (service.audit objects request draws) :=
  .bind (auditCriteria _) fun _ => trivial

theorem storeDecision :
    Touches (.stageAttempts :: evidenceTables)
      (service.storeDecision objects run sink decision now draw) := by
  refine .bind (require _) fun _ =>
    .bind (checked .artifacts (by decide) fun view w hw db => ?_) fun _ =>
    .bind (query _) (.option trivial fun attempt => ?_)
  · split at hw <;> cases hw
    exact ⟨_, rfl⟩
  · exact .bind (Logs.setStageAttempt (by decide) _).writes fun _ =>
      .bind (appendAudit (by decide) _) fun _ => enqueueEvent (by decide) _

/-! ## Approvals -/

def approvalTables : List TableName := [.toolExecutions, .approvals, .auditEvents, .outbox]

theorem insertToolExecution (h : .toolExecutions ∈ tables) :
    Touches tables (AutoSwe.insertToolExecution call status) := by
  refine execute .toolExecutions h fun db => ?_
  split
  · exact ⟨_, rfl⟩
  · exact ⟨db.toolExecutions, rfl⟩

theorem createApproval (h : .approvals ∈ tables) (row : ApprovalRow) :
    Touches tables (ApprovalService.createApproval row) := by
  refine checked .approvals h fun view w hw db => ?_
  split at hw
  · cases hw
  · split at hw <;> cases hw
    exact ⟨_, rfl⟩

theorem request {service : ApprovalService} :
    Touches approvalTables (service.request call context now draw) := by
  refine .bind (require _) fun _ => .bind (insertToolExecution (by decide)) fun _ =>
    .bind (query _) fun execution => .ite trivial (.bind (query _)
      (.option ?_ fun existing => .ite trivial trivial))
  exact .bind (createApproval (by decide) _) fun _ =>
    .bind (appendAudit (by decide) _) fun _ => enqueueEvent (by decide) _

theorem authorize {service : ApprovalService} :
    Touches tables (service.authorize approvalId call context now) :=
  .bind (require _) fun _ => .bind (query _) (.option trivial fun _ => require _)

theorem decide {service : ApprovalService} : Touches (.stateDurations :: approvalTables)
    (service.decide approvalId approver approved callHash now) := by
  have hset : ∀ row, Touches (.stateDurations :: approvalTables)
      (Prog.execute (Database.setApproval row)) := fun _ =>
    execute .approvals (by decide) fun _ => ⟨_, rfl⟩
  have hrecord : ∀ row approver, Touches (.stateDurations :: approvalTables)
      (service.recordDecision row approver now) := by
    intro row approver
    refine .bind (recordStateDuration (by decide)) fun _ => .bind (query _)
      (.option trivial fun execution => ?_)
    exact .bind (appendNamedAudit (by decide) _) fun _ => enqueueNamedEvent (by decide) _
  refine .bind (require _) fun _ => .bind (query _) (.option trivial fun row =>
    .ite trivial (.ite ?_ (.ite (.ite trivial trivial) ?_))) <;>
  exact .bind (hset _) fun _ => .bind (hrecord _ _) fun _ => trivial

theorem persistTerminal : Touches [.toolExecutions, .auditEvents, .outbox]
    (AutoSwe.persistTerminal uuid5 call status risk attempts) := by
  refine .bind (query _) (.option trivial fun row => .ite trivial ?_)
  exact .bind (execute .toolExecutions (by decide) fun _ => ⟨_, rfl⟩) fun _ =>
    .bind (appendAudit (by decide) _) fun _ => enqueueEvent (by decide) _

/-! ## Promotion -/

variable {service : PromotionService}

theorem prepareCandidate : Touches [.memoryCandidates]
    (service.prepareCandidate run sink attempt plan commit messages draw) := by
  refine .bind (query _) fun artifacts => .bind (require _) fun _ => .bind (query _) fun row => ?_
  cases row with
  | some row => exact trivial
  | none =>
    refine .bind (query _) fun twin => ?_
    cases twin with
    | true => exact trivial
    | false =>
      exact .bind (execute .memoryCandidates (by decide) fun _ => ⟨_, rfl⟩) fun _ => trivial

/-! ## Runs and tasks -/

def runTables : List TableName := [.runs, .stateDurations, .auditEvents, .outbox]

theorem transitionRun : Touches runTables (AutoSwe.transitionRun runId target now) := by
  refine .bind (queryForUpdate _ _) (.option trivial fun run => .ite trivial ?_)
  exact .bind (require _) fun _ => .bind (recordStateDuration (by decide)) fun _ =>
    execute .runs (by decide) fun _ => ⟨_, rfl⟩

theorem cancelRun : Touches runTables (AutoSwe.cancelRun runId now draw) := by
  refine .bind (queryForUpdate _ _) fun locked => ?_
  split
  · exact trivial
  · exact .bind (require _) fun _ => .bind (recordStateDuration (by decide)) fun _ =>
      .bind (execute .runs (by decide) fun _ => ⟨_, rfl⟩) fun _ =>
      .bind (publish (by decide) (by decide)) fun _ => trivial

end Touches

/-! ## Activities -/

@[simp] theorem Activity.start_db (a : Activity) (s : Platform) : (a.start s).db = s.db := by
  unfold start
  split <;> rfl

theorem Activity.act_ok {service : RunFinalizationService} {s : Platform} {answer : Answer}
    {a : Activity} {b : a.Result} (h : (a.act service s answer).1 = .ok b) :
    a.act service s answer = a.carryOut service (a.start s) answer := by
  unfold act at h ⊢
  split at h
  · cases h
  · rfl

/-- The tables that an activity writes. -/
def Activity.tables : Activity → List TableName
  | .claimStage .. | .releaseStage .. | .startStage .. | .finishStage .. => [.stageAttempts]
  | .verificationEvidence .. | .loadReleaseDecision .. | .audit .. => evidenceTables
  | .storeDecision .. => .stageAttempts :: evidenceTables
  | .applyRepair .. => repairTables
  | .transitionRun .. | .cancelRun .. => runTables
  | .promoteRound .. | .cancelTask .. => .tasks :: graphTables
  | .requestApproval .. => approvalTables
  | .persistTerminal .. => [.toolExecutions, .auditEvents, .outbox]
  | .prepareCandidate .. => [.memoryCandidates]
  | .setLocalState .. | .complete .. => .memoryCandidates :: graphTables
  | _ => []

section
variable (service : RunFinalizationService)

theorem Activity.carryOut_agree (s : Platform) (answer : Answer) (a : Activity) :
    Agree a.tables s.db (a.carryOut service s answer).2.db := by
  cases a with
  | claimStage => exact Touches.claimStage.committed
  | releaseStage => exact Touches.releaseStage.committed
  | startStage => exact (Touches.mergeStageAttempt _).committed
  | finishStage => exact Touches.finishStageAttempt.committed
  | verificationEvidence => exact Touches.readEvidence.committed
  | loadReleaseDecision => exact Touches.loadReleaseDecision.committed
  | audit => exact Touches.audit.committed
  | storeDecision => exact Touches.storeDecision.committed
  | applyRepair => exact Touches.committed Logs.apply.writes
  | transitionRun => exact Touches.transitionRun.committed
  | cancelRun => exact Touches.cancelRun.committed
  | requestApproval => exact Touches.request.committed
  | authorize => exact Touches.authorize.committed
  | persistTerminal => exact Touches.persistTerminal.committed
  | prepareCandidate => exact Touches.prepareCandidate.committed
  | setLocalState => exact Touches.committed Logs.setLocalState.writes
  | complete => exact Touches.committed Logs.complete.writes
  | promoteRound => exact (Touches.taskWrites (Schedules.promoteRound trivial)).committed
  | cancelTask => exact (Touches.taskWrites (Schedules.cancelTask trivial)).committed
  | approvalIdentity =>
    simp only [carryOut]
    split <;> exact .refl _
  | holdsStage | tasksOf | currentPlan | getRun | askReviewer | repairContext | askDebugger
  | releaseAttempt | worktreeTreeHash | approvalOf | commitTaskWorktree | checkApproved
  | latestCandidate | finalStageIdentity | promotionReview | remember | cleanupRun
  | cancellableRuns | openTasks => exact .refl _

theorem Activity.act_agree (s : Platform) (answer : Answer) (a : Activity) :
    Agree a.tables s.db (a.act service s answer).2.db := by
  unfold act
  cases answer.failure with
  | some error =>
    simp only [start_db]
    exact .refl _
  | none => simpa only [start_db] using a.carryOut_agree service (a.start s) answer

end

end AutoSwe
