import AutoSwe.Persistence.GraphExecutions

/-!
# Promotion of verified knowledge

A released run leaves a memory candidate. The gate accepts it on the strength of
a review that is read off the tables: the attempt of the validation task, the
artifacts of the run and the tool executions of the task. An accepted candidate
is written to the external memory, which may be unavailable.
-/

namespace AutoSwe

open Transaction Prog

structure PromotionReview where
  outcomeVerified : Bool
  artifactEvidenceVerified : Bool
  verificationPassed : Bool
  contradictionFound : Bool := false
  duplicateFound : Bool := false
  structuralQuality : Rat
  evidenceQuality : Rat
  sourceKind : String
  sensitiveCategories : List String := []
  crossProject : Bool := false
  humanApproved : Bool := false

structure PromotionGate where
  minimumQuality : Rat := 3 / 4
  /-- `_contains_sensitive_data`. -/
  containsSensitiveData : String → Bool
  casefold : String → String

namespace PromotionGate

variable (gate : PromotionGate) (candidate : MemoryCandidate) (review : PromotionReview)

def quality : Rat :=
  min (min review.structuralQuality review.evidenceQuality) candidate.confidence

def approvalSensitive : Bool :=
  review.crossProject || review.sensitiveCategories.any fun category =>
    gate.casefold category ∈ ["identity", "preference", "security"]

/-- The reasons against a candidate, in the order in which they are looked for. -/
def evaluate : List String :=
  ([(!review.outcomeVerified, "outcome_not_verified"),
    (!review.artifactEvidenceVerified || candidate.artifactHashes.isEmpty,
      "artifact_evidence_not_verified"),
    (!review.verificationPassed || candidate.verificationCommands.isEmpty, "verification_failed"),
    (decide (candidate.classification ∉ ["semantic", "episodic", "procedural"]),
      "unsupported_classification"),
    (review.contradictionFound, "contradiction_detected"),
    (review.duplicateFound, "duplicate_detected"),
    (decide (review.sourceKind ≠ "distilled"), "non_distilled_source"),
    (gate.containsSensitiveData candidate.content, "sensitive_data_detected"),
    (decide (quality candidate review < gate.minimumQuality), "quality_below_threshold"),
    (gate.approvalSensitive review && !review.humanApproved, "human_approval_required")].filter
      Prod.fst).map Prod.snd

end PromotionGate

/-! ## The review -/

def Database.promotionReview (db : Database) (runId sinkId : UUID) (attemptStatus : TaskStatus) :
    PromotionReview :=
  let artifacts := db.artifacts.rows.filter fun row => row.runId = runId
  let valid := artifacts.filter fun row => row.state = .VALID
  let statuses := (db.toolExecutions.rows.filter fun row => row.call.taskId = sinkId).map
    ToolExecutionRow.status
  let outcomeVerified := attemptStatus = .COMPLETED
  let checks := [decide outcomeVerified, !statuses.isEmpty, decide (0 < artifacts.length)]
  { outcomeVerified := outcomeVerified
    artifactEvidenceVerified := 0 < artifacts.length && valid.length = artifacts.length
    verificationPassed := !statuses.isEmpty && statuses.all fun status => status = .COMPLETED
    structuralQuality := (checks.filter id).length / 3
    evidenceQuality := if artifacts.length = 0 then 0 else valid.length / artifacts.length
    sourceKind := "distilled" }

/-! ## Candidates -/

/-- `content` is the note on a verified run, `deterministicMemoryId` its identity
by content. -/
structure PromotionService where
  gate : PromotionGate
  content : RunRow → TaskRow → TaskPlan → String → String
  deterministicMemoryId : MemoryCandidate → UUID
  uuid5 : UUID → String → UUID

def MemoryCandidate.check (candidate : MemoryCandidate) : Except Raised Unit :=
  if candidate.content.length < 1 ∨ 20000 < candidate.content.length then
    .error ⟨.valueError, "content"⟩
  else if candidate.originatingMessageIds = [] then .error ⟨.valueError, "originating_message_ids"⟩
  else if candidate.artifactHashes = [] then .error ⟨.valueError, "artifact_hashes"⟩
  else .ok ()

def Database.setCandidate (row : MemoryCandidateRow) (db : Database) : Database :=
  { db with memoryCandidates := db.memoryCandidates.set row }

/-- `ORDER BY created_at DESC LIMIT 1` among the candidates of the run. -/
def Database.latestCandidate (db : Database) (runId : UUID) : Option MemoryCandidateRow :=
  ((db.memoryCandidates.rows.filter fun row => row.runId = runId).insertionSort
    fun a b => b.createdAt ≤ a.createdAt).head?

/-- The states in which a graph can wait for the memory. -/
def waitingGraphStates : List GraphExecutionState := [.RUNNING, .PAUSED, .WAITING_FOR_MEMORY]

namespace PromotionService

variable (service : PromotionService)

def buildMemoryCandidate (run : RunRow) (sink : TaskRow) (attempt : TaskAttemptRow)
    (plan : TaskPlan) (commit : String) (artifacts : List ArtifactRow) (messages : List UUID) :
    MemoryCandidate where
  candidateId := service.uuid5 namespaceUrl ("memory-candidate:" ++ run.id.str ++ ":" ++ commit)
  projectId := run.projectId
  sourceRunId := run.id
  sourceTaskId := sink.id
  sourceAttemptId := attempt.id
  classification := "procedural"
  content := service.content run sink plan commit
  originatingMessageIds := messages.take 1000
  artifactHashes := (artifacts.map ArtifactRow.sha256).take 1000
  verificationCommands := [["git", "rev-parse", commit]]
  confidence := 19 / 20

variable (candidate : MemoryCandidate)

def candidateRow (draw : Draw) : MemoryCandidateRow where
  candidate := candidate
  createdAt := draw.createdAt

/-- Another run has promoted the same knowledge. -/
def promotedTwin (db : Database) (candidate : MemoryCandidate) : Bool :=
  db.memoryCandidates.rows.any fun row =>
    row.deterministicMemoryId = some (service.deterministicMemoryId candidate) &&
      row.status = .PROMOTED

/-- The transaction of `_promote_run_memory`: no candidate is left for promotion
if the knowledge is there already. -/
def prepareCandidate (run : RunRow) (sink : TaskRow) (attempt : TaskAttemptRow) (plan : TaskPlan)
    (commit : String) (messages : List UUID) (draw : Draw) :
    Session (Option MemoryCandidate) := do
  let artifacts ← query fun db =>
    db.artifacts.rows.filter fun row => row.runId = run.id && row.state = .VALID
  let candidate := service.buildMemoryCandidate run sink attempt plan commit artifacts messages
  Session.require candidate.check
  match ← query fun db => db.memoryCandidates.get? candidate.candidateId with
  | some _ => pure (some candidate)
  | none => do
    if ← query fun db => service.promotedTwin db candidate then pure none
    else do
      execute fun db => { db with
        memoryCandidates := db.memoryCandidates.insert (candidateRow candidate draw) }
      pure (some candidate)

def noSuchCandidate (candidateId : UUID) : Session α :=
  Session.raise .lookupError ("memory candidate " ++ candidateId.str ++ " does not exist")

def waitForMemory (taskId : UUID) (draw : Draw) : Session Unit := do
  match ← selectGraphForUpdate taskId with
  | none => pure ()
  | some graph =>
    if graph.state ∈ waitingGraphStates ∧ graph.state ≠ .WAITING_FOR_MEMORY then
      (transitionGraphExecution graph.taskId graph.identity graph.threadId .WAITING_FOR_MEMORY
        graph.checkpointId draw).discard
    else pure ()

def setLocalState (status : CandidateStatus) (error : Option String)
    (revisionId : Option String) (draw : Draw) : Session Unit := do
  match ← query fun db => db.memoryCandidates.get? candidate.candidateId with
  | none => noSuchCandidate candidate.candidateId
  | some row => do
    execute (Database.setCandidate { row with
      status
      deterministicMemoryId := some (service.deterministicMemoryId candidate)
      revisionId := revisionId.or row.revisionId
      lastError := error })
    if status = .WAITING_FOR_MEMORY then waitForMemory candidate.sourceTaskId draw
    else pure ()

def resumeGraph (candidateId taskId : UUID) (now : Time) (draw : Draw) : Session Unit := do
  match ← selectGraphForUpdate taskId with
  | none => pure ()
  | some graph =>
    if graph.state = .WAITING_FOR_MEMORY then do
      recordStateDuration "uams" candidateId "WAITING_FOR_MEMORY" graph.stateEnteredAt now
      (transitionGraphExecution graph.taskId graph.identity graph.threadId .RUNNING
        graph.checkpointId draw).discard
    else pure ()

def promotedPayload (memoryId : UUID) (revisionId : String) : Json :=
  .obj [("candidate_id", .str candidate.candidateId.str), ("memory_id", .str memoryId.str),
    ("revision_id", .str revisionId), ("project_id", .str candidate.projectId.str),
    ("run_id", .str candidate.sourceRunId.str), ("task_id", .str candidate.sourceTaskId.str)]

def complete (revisionId : String) (now : Time) (draw : Draw) : Session Unit := do
  let memoryId := service.deterministicMemoryId candidate
  match ← query fun db => db.memoryCandidates.get? candidate.candidateId with
  | none => noSuchCandidate candidate.candidateId
  | some row =>
    if row.status = .PROMOTED ∧ row.revisionId = some revisionId then pure ()
    else do
      execute (Database.setCandidate { row with
        status := .PROMOTED, deterministicMemoryId := some memoryId,
        revisionId := some revisionId, promotedAt := some now, lastError := none })
      resumeGraph row.id candidate.sourceTaskId now draw
      let eventId := service.uuid5 namespaceUrl
        ("autoswe:memory-promoted:" ++ memoryId.str ++ ":" ++ revisionId)
      let payload := promotedPayload candidate memoryId revisionId
      appendNamedAudit ⟨eventId, "memory.promoted", "memory_candidate", candidate.candidateId,
        payload, candidate.sourceRunId, candidate.candidateId⟩
      enqueueNamedEvent ⟨eventId, "memory-promoted", payload⟩

end PromotionService

end AutoSwe
