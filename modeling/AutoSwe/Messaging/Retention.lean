import AutoSwe.Messaging.Store
import AutoSwe.Persistence.GraphExecutions

/-!
# Retention

`enforce` trims the streams and then, in one transaction, empties and deletes what is past its
window. What is still needed is told by references that other modules write. Three of these are
looked up where their writers do not put them: the message ids that a candidate lists, the audit
events of a tool call and the checkpoint threads of earlier attempts.
-/

namespace AutoSwe

open Relational List

structure AgentMessageRow where
  id : UUID
  runId : UUID
  taskId : UUID
  payload : Json
  createdAt : Time
  payloadPurgedAt : Option Time := none

/-- The two stores, with the tables and the columns that retention alone reads. A row of a
checkpoint table is its `thread_id`, one of `workflow_node_executions` its `attempt_id`. -/
structure Archive where
  db : Database := {}
  messaging : Messaging.Store := {}
  messages : Table UUID AgentMessageRow AgentMessageRow.id := ∅
  toolCreatedAt : UUID → Time := fun _ => 0
  auditCreatedAt : UUID → Time := fun _ => 0
  checkpointBlobs : List String := []
  checkpointWrites : List String := []
  checkpoints : List String := []
  nodeExecutions : List UUID := []

def hours (n : Int) : Time := n * 3600000000

structure RetentionPolicy where
  redisStreams : Time := hours 24
  agentMessagePayloads : Time := hours (90 * 24)
  resolvedDeadLetters : Time := hours (30 * 24)
  operationalMetadata : Time := hours (365 * 24)
  checkpointState : Time := hours (30 * 24)

structure RetentionResult where
  redisEntriesDeleted : Nat
  messagePayloadsPurged : Nat
  deadLettersDeleted : Nat
  operationalRowsDeleted : Nat
  checkpointRowsDeleted : Nat

/-- `trimBefore` is Redis's `XTRIM … MINID` on one stream. -/
structure RetentionService where
  trimBefore : String → Time → List Messaging.RedisStreamRecord → List Messaging.RedisStreamRecord
  policy : RetentionPolicy := {}

/-- One call; `locked` are the messages that other transactions hold, which `SKIP LOCKED` leaves. -/
structure Enforcement where
  now : Time
  streams : List String := []
  locked : List UUID := []

def currentPromotionStates : List CandidateStatus := [.PENDING, .PROMOTING, .WAITING_FOR_MEMORY]

/-- `document[key].as_string()`, where only the text of a string can be that of an id. -/
def idText (document : Json) (key : String) : Option String :=
  match document.get? key with
  | some (.str text) => some text
  | _ => none

/-- `candidate.model_dump(mode="json")`, as far as the candidate is modelled; `confidence`, a
number, is left out. -/
def MemoryCandidate.document (candidate : MemoryCandidate) : Json :=
  .obj [("candidate_id", .str candidate.candidateId.str),
    ("project_id", .str candidate.projectId.str),
    ("source_run_id", .str candidate.sourceRunId.str),
    ("source_task_id", .str candidate.sourceTaskId.str),
    ("source_attempt_id", .str candidate.sourceAttemptId.str),
    ("classification", .str candidate.classification), ("content", .str candidate.content),
    ("originating_message_ids", .arr (candidate.originatingMessageIds.map (.str ·.str))),
    ("artifact_hashes", .arr (candidate.artifactHashes.map .str)),
    ("verification_commands", .arr (candidate.verificationCommands.map (.arr <| ·.map .str)))]

namespace Archive

variable (s : Archive)

def runIsTerminal (runId : UUID) : Bool :=
  match s.db.runs.get? runId with
  | none => true
  | some run => run.state ∈ runTerminalStates

def hasAuditReference (aggregateType : String) (aggregateId : UUID) : Bool :=
  s.db.auditEvents.any fun event =>
    event.aggregateType = aggregateType && event.aggregateId = aggregateId

/-! ## Message payloads -/

variable (message : AgentMessageRow)

def auditRef : Bool :=
  s.db.auditEvents.any fun event =>
    (event.aggregateType = "message" && event.aggregateId = message.id) ||
      idText event.payload "message_id" = some message.id.str

def promotionRef : Bool :=
  s.db.memoryCandidates.rows.any fun row => row.status ∈ currentPromotionStates &&
    idText row.candidate.document "source_message_id" = some message.id.str

def approvalRef : Bool :=
  s.db.approvals.rows.any fun approval => approval.status = .PENDING &&
    (s.db.toolExecutions.get? approval.callId).any fun tool => tool.call.taskId = message.taskId

def messageIsProtected : Bool :=
  s.auditRef message || s.promotionRef message || s.approvalRef message

/-! ## Rows -/

variable (cutoff : Time)

def purgeDeadLetters : Archive :=
  { s with
    messaging.deadLetters := s.messaging.deadLetters.deleteWhere fun letter =>
      letter.resolvedAt.any (· ≤ cutoff) && !s.hasAuditReference "dead_letter" letter.id }

def approvalExpired (approval : ApprovalRow) : Bool :=
  approval.createdAt ≤ cutoff && approval.status ≠ .PENDING &&
    ((s.db.toolExecutions.get? approval.callId).any fun tool => s.runIsTerminal tool.call.runId) &&
    !s.hasAuditReference "approval" approval.id

def purgeApprovals : Archive :=
  { s with db.approvals := s.db.approvals.deleteWhere (s.approvalExpired cutoff) }

def toolExpired (tool : ToolExecutionRow) : Bool :=
  s.toolCreatedAt tool.id ≤ cutoff && !(s.db.approvals.rows.any (·.callId = tool.id)) &&
    s.runIsTerminal tool.call.runId && !s.hasAuditReference "tool_execution" tool.id

def purgeTools : Archive :=
  { s with db.toolExecutions := s.db.toolExecutions.deleteWhere (s.toolExpired cutoff) }

def auditExpired (event : AuditEventRow) : Bool :=
  s.auditCreatedAt event.id ≤ cutoff && s.runIsTerminal event.correlationId &&
    !(event.aggregateType = "approval" &&
      (s.db.approvals.get? event.aggregateId).any (·.status = .PENDING)) &&
    !(event.aggregateType = "memory_candidate" &&
      (s.db.memoryCandidates.get? event.aggregateId).any (·.status ∈ currentPromotionStates))

def purgeAudits : Archive :=
  { s with db.auditEvents := s.db.auditEvents.filter (!s.auditExpired cutoff ·) }

def purgeOperationalMetadata : Archive :=
  ((s.purgeApprovals cutoff).purgeTools cutoff).purgeAudits cutoff

def purgeOutbox : Archive :=
  { s with
    messaging.outbox := (s.messaging.outbox.deleteWhere
      (·.publishedAt.any (· ≤ cutoff))).deleteWhere (·.deadLetteredAt.any (· ≤ cutoff)) }

/-! ## Checkpoints -/

/-- The task belongs to a terminal run that was created by the cutoff. -/
def closed (taskId : UUID) : Bool :=
  (s.db.tasks.get? taskId).any fun task => (s.db.runs.get? task.runId).any fun run =>
    run.state ∈ runTerminalStates && run.createdAt ≤ cutoff

def closedThreads : List String :=
  (s.db.graphs.rows.filter (s.closed cutoff ·.taskId)).map GraphExecutionRow.threadId

def closedAttempts : List UUID :=
  (s.db.attempts.rows.filter (s.closed cutoff ·.taskId)).map TaskAttemptRow.id

def purgeCheckpointState : Archive :=
  { s with
    checkpointBlobs := s.checkpointBlobs.filter (· ∉ s.closedThreads cutoff)
    checkpointWrites := s.checkpointWrites.filter (· ∉ s.closedThreads cutoff)
    checkpoints := s.checkpoints.filter (· ∉ s.closedThreads cutoff)
    nodeExecutions := s.nodeExecutions.filter (· ∉ s.closedAttempts cutoff) }

def operationalRows : Nat :=
  s.db.approvals.rows.length + s.db.toolExecutions.rows.length + s.db.auditEvents.length +
    s.messaging.outbox.rows.length

def checkpointRows : Nat :=
  s.checkpointBlobs.length + s.checkpointWrites.length + s.checkpoints.length +
    s.nodeExecutions.length

end Archive

namespace RetentionService

variable (service : RetentionService) (call : Enforcement) (s : Archive)

/-- The messages that the purge selects: not locked, old enough, not purged, of a terminal run. -/
def outdated (message : AgentMessageRow) : Bool :=
  message.id ∉ call.locked && message.createdAt ≤ call.now - service.policy.agentMessagePayloads &&
    message.payloadPurgedAt = none &&
      (s.db.runs.get? message.runId).any fun run => run.state ∈ runTerminalStates

def purgeMessages : Archive :=
  { s with
    messages := s.messages.updateWhere
      (fun message => service.outdated call s message && !s.messageIsProtected message)
      (fun message => { message with payload := .obj [], payloadPurgedAt := some call.now })
      fun _ => rfl }

def purgePostgres : Archive :=
  ((((service.purgeMessages call s).purgeDeadLetters
    (call.now - service.policy.resolvedDeadLetters)).purgeOperationalMetadata
    (call.now - service.policy.operationalMetadata)).purgeOutbox
    (call.now - service.policy.operationalMetadata)).purgeCheckpointState
    (call.now - service.policy.checkpointState)

def trimStreams : Archive :=
  { s with
    messaging.stream := call.streams.foldl (fun records stream =>
      service.trimBefore stream (call.now - service.policy.redisStreams) records)
      s.messaging.stream }

/-- The row counts that the statements return are the differences of the tables' sizes. -/
def enforce : RetentionResult × Archive :=
  let trimmed := service.trimStreams call s
  let purged := service.purgePostgres call trimmed
  ({ redisEntriesDeleted := s.messaging.stream.length - trimmed.messaging.stream.length
     messagePayloadsPurged := (s.messages.rows.filter fun message =>
       service.outdated call s message && !s.messageIsProtected message).length
     deadLettersDeleted :=
       s.messaging.deadLetters.rows.length - purged.messaging.deadLetters.rows.length
     operationalRowsDeleted := s.operationalRows - purged.operationalRows
     checkpointRowsDeleted := s.checkpointRows - purged.checkpointRows }, purged)

def enforceAll (calls : List Enforcement) : Archive :=
  calls.foldl (fun s call => (service.enforce call s).2) s

end RetentionService

/-! ## Evidence in use -/

/-- A candidate under promotion lists the message among its originating messages. -/
def Archive.Originates (s : Archive) (message : AgentMessageRow) : Prop :=
  ∃ row ∈ s.db.memoryCandidates.rows, row.status ∈ currentPromotionStates ∧
    message.id ∈ row.candidate.originatingMessageIds

/-- A candidate's document has no field `source_message_id`. -/
theorem promotionRef_eq_false (s : Archive) (message : AgentMessageRow) :
    s.promotionRef message = false := by
  refine any_eq_false.mpr fun row _ => ?_
  have hdocument : idText row.candidate.document "source_message_id" = none := by
    simp [MemoryCandidate.document, idText, Json.get?]
  simp [hdocument]

variable {service : RetentionService}

theorem enforce_keeps_message_iff (h : message ∈ s.messages.rows) :
    (service.enforce call s).2.messages.get? message.id = some message ↔
      (service.outdated call s message → s.auditRef message ∨ s.approvalRef message) := by
  have hget : (service.enforce call s).2.messages.get? message.id = some
      (if service.outdated call s message && !s.messageIsProtected message then
        { message with payload := .obj [], payloadPurgedAt := some call.now }
      else message) := by
    refine (Table.get?_updateWhere s.messages _ _ (by intro; rfl) message.id).trans ?_
    rw [Table.get?_of_mem h]
    rfl
  rw [hget]
  simp only [Archive.messageIsProtected, promotionRef_eq_false, Bool.or_false]
  cases houtdated : service.outdated call s message with
  | false => simp
  | true =>
    -- a purged row differs from an outdated one in the time of its purge
    have hnone : message.payloadPurgedAt = none := by
      simp only [RetentionService.outdated, Bool.and_eq_true, decide_eq_true_eq] at houtdated
      exact houtdated.1.2
    cases s.auditRef message <;> cases s.approvalRef message <;> simp
    intro h
    have := congrArg AgentMessageRow.payloadPurgedAt h
    simp [hnone] at this

/-- A call purges no message in use, that is one that a candidate under promotion lists, that an
audit event refers to or whose task waits for an approval, if and only if every listed message
that could be purged is in use in one of the other two ways. -/
theorem enforce_protects_iff (service : RetentionService) (call : Enforcement) (s : Archive) :
    (∀ message ∈ s.messages.rows,
      s.Originates message ∨ s.auditRef message ∨ s.approvalRef message →
        (service.enforce call s).2.messages.get? message.id = some message) ↔
      ∀ message ∈ s.messages.rows, s.Originates message → service.outdated call s message →
        s.auditRef message ∨ s.approvalRef message := by
  constructor
  · intro h message hmessage hlisted
    exact (enforce_keeps_message_iff hmessage).mp (h message hmessage (.inl hlisted))
  · intro h message hmessage huse
    refine (enforce_keeps_message_iff hmessage).mpr fun houtdated => ?_
    rcases huse with hlisted | hother
    · exact h message hmessage hlisted houtdated
    · exact hother

def sampleRetention : RetentionService where
  trimBefore _ _ records := records

def sampleListed : Archive where
  db.runs :=
    ⟨[{ id := 1, projectId := 2, repositoryId := 3, goal := "g", baselineCommit := "c",
        state := .COMPLETED }], by decide⟩
  db.memoryCandidates := ⟨[⟨
    { candidateId := 6, projectId := 2, sourceRunId := 1, sourceTaskId := 4, sourceAttemptId := 5,
      classification := "semantic", content := "fact", originatingMessageIds := [7],
      artifactHashes := ["h"], verificationCommands := [["test"]], confidence := 1 },
    .PENDING, none, none, none, 0, none⟩], by decide⟩
  messages := ⟨[{ id := 7, runId := 1, taskId := 4, payload := .str "p", createdAt := 0 }],
    by decide⟩

/-- The message that a pending candidate lists is purged. -/
theorem enforce_purges_listed :
    sampleListed.Originates ⟨7, 1, 4, .str "p", 0, none⟩ ∧
      ((sampleRetention.enforce { now := hours (90 * 24) } sampleListed).2.messages.get? 7).map
        (·.payload) = some (.obj []) :=
  ⟨⟨_, mem_singleton_self _, by decide, by decide⟩, by decide +kernel⟩

/-! ## Audited tool calls -/

/-- The gateway's audit events of a call. -/
def AuditEventRow.RecordedFor (event : AuditEventRow) (tool : ToolExecutionRow) : Prop :=
  event.aggregateType = "tool_call" ∧ event.aggregateId = tool.id

/-- No tool row goes while an audit event of its call stays. -/
def Archive.KeepsAudited (s s' : Archive) : Prop :=
  ∀ tool ∈ s.db.toolExecutions.rows, tool ∉ s'.db.toolExecutions.rows →
    ∀ event ∈ s'.db.auditEvents, ¬ event.RecordedFor tool

/-- A call whose row can be deleted has audit events only that can be deleted as well. -/
def Archive.Settled (s : Archive) (cutoff : Time) : Prop :=
  ∀ tool ∈ s.db.toolExecutions.rows, s.toolCreatedAt tool.id ≤ cutoff →
    (∀ approval ∈ s.db.approvals.rows, approval.callId = tool.id →
      s.approvalExpired cutoff approval) →
    s.runIsTerminal tool.call.runId → ¬ s.hasAuditReference "tool_execution" tool.id →
    ∀ event ∈ s.db.auditEvents, event.RecordedFor tool →
      s.auditCreatedAt event.id ≤ cutoff ∧ s.runIsTerminal event.correlationId

theorem toolExpired_purgeApprovals {s : Archive} :
    (s.purgeApprovals cutoff).toolExpired cutoff tool = true ↔
      s.toolCreatedAt tool.id ≤ cutoff ∧
        (∀ approval ∈ s.db.approvals.rows, approval.callId = tool.id →
          s.approvalExpired cutoff approval) ∧
        s.runIsTerminal tool.call.runId ∧ ¬ s.hasAuditReference "tool_execution" tool.id := by
  have happrovals : (s.purgeApprovals cutoff).db.approvals.rows =
      s.db.approvals.rows.filter (!s.approvalExpired cutoff ·) := rfl
  simp only [Archive.toolExpired, happrovals, Bool.and_eq_true, Bool.not_eq_true',
    decide_eq_true_eq, and_assoc, any_eq_false, mem_filter]
  refine and_congr_right fun _ => and_congr (forall_congr' fun approval => ?_) ?_
  · grind
  · simp [Archive.runIsTerminal, Archive.hasAuditReference, Archive.purgeApprovals]

theorem auditExpired_of_recordedFor {s : Archive} (h : event.RecordedFor tool) :
    s.auditExpired cutoff event ↔
      s.auditCreatedAt event.id ≤ cutoff ∧ s.runIsTerminal event.correlationId := by
  simp [Archive.auditExpired, h.1]

theorem keepsAudited_iff {call : Enforcement} {s : Archive} :
    s.KeepsAudited (service.enforce call s).2 ↔
      s.Settled (call.now - service.policy.operationalMetadata) := by
  generalize hcutoff : call.now - service.policy.operationalMetadata = cutoff
  have hdb : (service.enforce call s).2.db = (s.purgeOperationalMetadata cutoff).db := hcutoff ▸ rfl
  have htools : ∀ tool, tool ∈ (s.purgeOperationalMetadata cutoff).db.toolExecutions.rows ↔
      tool ∈ s.db.toolExecutions.rows ∧
        (!(s.purgeApprovals cutoff).toolExpired cutoff tool) = true :=
    fun tool => mem_filter
  have hevents : ∀ event, event ∈ (s.purgeOperationalMetadata cutoff).db.auditEvents ↔
      event ∈ s.db.auditEvents ∧
        (!((s.purgeApprovals cutoff).purgeTools cutoff).auditExpired cutoff event) = true :=
    fun event => mem_filter
  have hkept : ∀ tool event, event.RecordedFor tool →
      (event ∈ (s.purgeOperationalMetadata cutoff).db.auditEvents ↔ event ∈ s.db.auditEvents ∧
        ¬ (s.auditCreatedAt event.id ≤ cutoff ∧ s.runIsTerminal event.correlationId)) := by
    intro tool event h
    rw [hevents, Bool.not_eq_true', ← Bool.not_eq_true, auditExpired_of_recordedFor h]
    rfl
  simp only [Archive.KeepsAudited, Archive.Settled, hdb, htools, not_and, Bool.not_eq_true',
    Bool.not_eq_false, toolExpired_purgeApprovals]
  refine forall₂_congr fun tool htool => ?_
  constructor
  · intro h hold hfree hterminal hunaudited event hevent hrecorded
    by_contra hstays
    exact h (fun _ => ⟨hold, hfree, hterminal, hunaudited⟩) event
      ((hkept tool event hrecorded).mpr ⟨hevent, hstays⟩) hrecorded
  · intro h hgone event hevent hrecorded
    obtain ⟨hmem, hstays⟩ := (hkept tool event hrecorded).mp hevent
    obtain ⟨hold, hfree, hterminal, hunaudited⟩ := hgone htool
    exact hstays (h hold hfree hterminal hunaudited event hmem hrecorded)

/-- Along any calls of `enforce`, no tool row is deleted while an audit event of its call stays,
if and only if each call finds the calls whose rows it deletes settled. -/
theorem enforce_keeps_audited_iff (service : RetentionService) (s : Archive)
    (calls : List Enforcement) :
    (∀ done call, done ++ [call] <+: calls →
      (service.enforceAll s done).KeepsAudited (service.enforceAll s (done ++ [call]))) ↔
      ∀ done call, done ++ [call] <+: calls →
        (service.enforceAll s done).Settled (call.now - service.policy.operationalMetadata) := by
  refine forall₃_congr fun done call _ => ?_
  have hlast : service.enforceAll s (done ++ [call]) =
      (service.enforce call (service.enforceAll s done)).2 := by
    simp [RetentionService.enforceAll]
  rw [hlast, keepsAudited_iff]

def sampleAudited : Archive where
  db.runs := sampleListed.db.runs
  db.toolExecutions := ⟨[⟨
    { callId := 8, runId := 1, taskId := 4, attemptId := 5, requestedBy := "coder",
      toolName := "run", arguments := [], idempotencyKey := "k" }, .COMPLETED⟩], by decide⟩
  db.auditEvents := [⟨11, "tool.requested", "tool_call", 8, .null, 1, 8⟩,
    ⟨12, "tool.completed", "tool_call", 8, .null, 1, 8⟩]
  auditCreatedAt id := if id = 11 then 0 else 1

/-- The row is deleted with the event of its request, and the event of its end stays. -/
theorem enforce_orphans_audit :
    let s := (sampleRetention.enforce { now := hours (365 * 24) } sampleAudited).2
    s.db.toolExecutions.rows = [] ∧ s.db.auditEvents.map (·.eventType) = ["tool.completed"] := by
  decide +kernel

/-! ## Checkpoint threads -/

def Archive.Holds (s : Archive) (threadId : String) : Prop :=
  threadId ∈ s.checkpointBlobs ∨ threadId ∈ s.checkpointWrites ∨ threadId ∈ s.checkpoints

/-- The task has used the thread in one of the states of the database, and its run is now terminal
and was created before the cutoff. -/
def Archive.Outlived (s : Archive) (history : List Database) (cutoff : Time) (threadId : String) :
    Prop :=
  ∃ db ∈ history, ∃ graph ∈ db.graphs.rows, graph.threadId = threadId ∧
    ∃ task run, s.db.tasks.get? graph.taskId = some task ∧ s.db.runs.get? task.runId = some run ∧
      run.state ∈ runTerminalStates ∧ run.createdAt < cutoff

theorem holds_enforce :
    (service.enforce call s).2.Holds threadId ↔ s.Holds threadId ∧
      threadId ∉ s.closedThreads (call.now - service.policy.checkpointState) := by
  have hthreads : ∀ threads : List String, threadId ∈ threads.filter
      (· ∉ s.closedThreads (call.now - service.policy.checkpointState)) ↔ threadId ∈ threads ∧
        threadId ∉ s.closedThreads (call.now - service.policy.checkpointState) := by
    simp
  refine (or_congr (hthreads _) (or_congr (hthreads _) (hthreads _))).trans ?_
  rw [← or_and_right, ← or_and_right]
  rfl

/-- After a call, no checkpoint rows remain of the threads that a task of an old terminal run used
at any time, if and only if each of these that has rows is the current thread of some graph row of
such a run. -/
theorem enforce_checkpoints_iff (service : RetentionService) (call : Enforcement) (s : Archive)
    (history : List Database) :
    (∀ threadId, s.Outlived history (call.now - service.policy.checkpointState) threadId →
      ¬ (service.enforce call s).2.Holds threadId) ↔
      ∀ threadId, s.Outlived history (call.now - service.policy.checkpointState) threadId →
        s.Holds threadId →
          threadId ∈ s.closedThreads (call.now - service.policy.checkpointState) := by
  refine forall₂_congr fun threadId _ => ?_
  rw [holds_enforce, not_and, not_not]

def sampleOutlived : Database where
  runs := sampleListed.db.runs
  tasks := ⟨[
    { id := 4, runId := 1, projectId := 2, repositoryId := 3, planRevision := 1, title := "t",
      description := "d", taskType := .IMPLEMENTATION, dependencies := [], priority := 0,
      assignedCapability := "code", acceptanceCriteria := [], allowedTools := [],
      riskCeiling := .LOW, estimate := {}, stateEnteredAt := 0, createdAt := 0 }], by decide⟩

/-- A task starts under one thread and restarts under another one. -/
def sampleRollover : Session Unit := do
  let _ ← transitionGraphExecution 4 ⟨1, 3, "c"⟩ "first" .RUNNING none {}
  let _ ← transitionGraphExecution 4 ⟨1, 3, "c"⟩ "second" .RUNNING none {}

/-- The checkpoints of the first attempt stay. -/
theorem enforce_leaves_first_thread :
    ((sampleRollover.run sampleOutlived).toOption.map fun (_, db) =>
      (sampleRetention.enforce { now := hours (30 * 24) + 1 }
        { db, checkpoints := ["first", "second"] }).2.checkpoints) = some ["first"] := by
  decide +kernel

end AutoSwe
