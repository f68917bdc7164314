import AutoSwe.Persistence.Artifacts
import AutoSwe.Planning.Validator

/-!
# Durable repair of a plan

A failed verification may add tasks to the plan of its run. The decision is made
under the lock of the run: a mutation whose id is known is replayed, evidence
that does not hold, a failure that was repaired before or a plan that does not
validate end the repair, and what is left becomes a new revision and new pending
tasks. The state of the run is not looked at.
-/

namespace AutoSwe

open Transaction List Session TaskPlanValidator

/-! ## Mutations of a plan -/

def TaskPlan.checkTasks (plan : TaskPlan) : List TaskSpec → Except Raised Unit
  | [] => .ok ()
  | task :: rest =>
    if task.projectId ≠ plan.projectId ∨ task.repositoryId ≠ plan.repositoryId then
      .error ⟨.valueError, "task scope must match plan scope"⟩
    else if task.planRevision > plan.revision then
      .error ⟨.valueError, "task creation revision cannot exceed plan revision"⟩
    else plan.checkTasks rest

/-- What the model class checks of a plan that is built. -/
def TaskPlan.check (plan : TaskPlan) : Except Raised Unit :=
  if plan.tasks.length < 1 ∨ 500 < plan.tasks.length then .error ⟨.valueError, "tasks"⟩
  else if ¬ (plan.tasks.map TaskSpec.id).Nodup then
    .error ⟨.valueError, "task IDs must be unique within a plan"⟩
  else plan.checkTasks plan.tasks

/-- The issues of the new tasks, given the ids of the current plan and those seen. -/
def mutationTaskIssues (currentIds : List UUID) (nextRevision : Nat) :
    (mutationIds : List UUID) → List TaskSpec → List ValidationIssue
  | _, [] => []
  | mutationIds, task :: rest =>
    (if task.id ∈ currentIds then
      [⟨"EXISTING_TASK_MUTATION", "a mutation cannot replace or edit an existing task",
        some task.id⟩] else []) ++
    (if task.id ∈ mutationIds then
      [⟨"DUPLICATE_TASK_ID", "a mutation cannot add the same task twice", some task.id⟩]
      else []) ++
    (if task.planRevision ≠ nextRevision then
      [⟨"PLAN_REVISION", "new tasks must be created in revision " ++ toString nextRevision,
        some task.id⟩] else []) ++
    mutationTaskIssues currentIds nextRevision (task.id :: mutationIds) rest

def TaskPlan.mutationIssues (current : TaskPlan) (mutation : TaskPlanMutation) :
    List ValidationIssue :=
  (if mutation.baseRevision ≠ current.revision then
    [⟨"STALE_PLAN_REVISION", "mutation targets revision " ++ toString mutation.baseRevision ++
      "; current revision is " ++ toString current.revision, none⟩] else []) ++
  mutationTaskIssues (current.tasks.map TaskSpec.id) (current.revision + 1) [] mutation.tasks

def TaskPlan.mutated (current : TaskPlan) (mutation : TaskPlanMutation) : TaskPlan :=
  { current with revision := current.revision + 1, tasks := current.tasks ++ mutation.tasks }

structure MutationValidationResult where
  issues : List ValidationIssue
  proposedPlan : Option TaskPlan

def TaskPlanValidator.validateMutation (validator : TaskPlanValidator) (current : TaskPlan)
    (mutation : TaskPlanMutation) : Except Raised MutationValidationResult :=
  match current.mutationIssues mutation with
  | [] => do
    let proposed := current.mutated mutation
    proposed.check
    let validation ← validator.validate proposed
    if validation.valid then .ok ⟨[], some proposed⟩ else .ok ⟨validation.issues, none⟩
  | issues => .ok ⟨issues, none⟩

/-- Nothing is found exactly if the tasks are new, different and of the next revision. -/
theorem mutationTaskIssues_eq_nil : ∀ {mutationIds : List UUID} {tasks : List TaskSpec},
      mutationTaskIssues currentIds nextRevision mutationIds tasks = [] ↔
        (∀ task ∈ tasks, task.id ∉ currentIds ∧ task.planRevision = nextRevision) ∧
          (∀ task ∈ tasks, task.id ∉ mutationIds) ∧ (tasks.map TaskSpec.id).Nodup
  | _, [] => by simp [mutationTaskIssues]
  | mutationIds, task :: rest => by
    rw [forall_mem_cons, forall_mem_cons]
    simp only [mutationTaskIssues, append_eq_nil_iff, ite_eq_right_iff, cons_ne_nil,
      imp_false, not_not, mutationTaskIssues_eq_nil, map_cons, nodup_cons,
      mem_cons, not_or, mem_map, not_exists, not_and, forall_and]
    constructor
    · rintro ⟨⟨⟨hnew, hunseen⟩, hrevision⟩, hrest, ⟨hother, hseen⟩, hnodup⟩
      exact ⟨⟨⟨hnew, hrevision⟩, hrest⟩, ⟨hunseen, hseen⟩, hother, hnodup⟩
    · rintro ⟨⟨⟨hnew, hrevision⟩, hrest⟩, ⟨hunseen, hseen⟩, hother, hnodup⟩
      exact ⟨⟨⟨hnew, hunseen⟩, hrevision⟩, hrest, ⟨hother, hseen⟩, hnodup⟩

/-- An accepted mutation adds new tasks of the next revision to the current plan. -/
structure TaskPlanValidator.Mutates (validator : TaskPlanValidator) (current : TaskPlan)
    (mutation : TaskPlanMutation) (plan : TaskPlan) : Prop where
  base : mutation.baseRevision = current.revision
  result : plan = current.mutated mutation
  tasks : ∀ task ∈ mutation.tasks,
    task.id ∉ current.tasks.map TaskSpec.id ∧ task.planRevision = current.revision + 1
  accepted : validator.Accepts plan

theorem validateMutation_mutates {validator : TaskPlanValidator} {current plan : TaskPlan}
    (h : validator.validateMutation current mutation = .ok result)
    (hplan : result.proposedPlan = some plan) : validator.Mutates current mutation plan := by
  unfold validateMutation at h
  split at h
  next hissues =>
    obtain ⟨-, -, h⟩ := except_bind_ok.mp h
    obtain ⟨validation, hvalidation, h⟩ := except_bind_ok.mp h
    simp only [TaskPlan.mutationIssues, append_eq_nil_iff, ite_eq_right_iff, cons_ne_nil,
      imp_false, not_not] at hissues
    split at h
    next hvalid =>
      cases h
      cases hplan
      exact ⟨hissues.1, rfl, (mutationTaskIssues_eq_nil.mp hissues.2).1, validation, hvalidation,
        hvalid⟩
    next =>
      cases h
      cases hplan
  next =>
    cases h
    cases hplan

theorem validateMutation_of_accepts {validator : TaskPlanValidator} {current : TaskPlan}
    (hissues : current.mutationIssues mutation = [])
    (hcheck : (current.mutated mutation).check = .ok ())
    (haccepts : validator.Accepts (current.mutated mutation)) :
    validator.validateMutation current mutation = .ok ⟨[], some (current.mutated mutation)⟩ := by
  obtain ⟨validation, hvalidation, hvalid⟩ := haccepts
  simp only [validateMutation, hissues, hcheck, hvalidation, bind, Except.bind]
  exact if_pos hvalid

/-! ## The policy -/

@[ext] structure VerificationOutcome where
  passed : Bool
  failureSignature : Option String
  progressFingerprint : String
  artifactIds : List UUID
  signature_matches_outcome : failureSignature.isSome = !passed
  artifactIds_length : 1 ≤ artifactIds.length ∧ artifactIds.length ≤ 1000

/-- The outcome of a failed verification, which the model class checks. -/
def VerificationOutcome.failed (failureSignature progressFingerprint : String)
    (artifactIds : List UUID) : Except Raised VerificationOutcome :=
  if h : 1 ≤ artifactIds.length ∧ artifactIds.length ≤ 1000 then
    .ok ⟨false, some failureSignature, progressFingerprint, artifactIds, rfl, h⟩
  else .error ⟨.valueError, "artifact_ids"⟩

structure RepairHistory where
  failureSignature : String
  progressFingerprint : String
  acceptedRevision : Nat

structure RepairDecision where
  action : RepairAction
  reasonCodes : List String
  plan : Option TaskPlan
  mutationId : Option UUID := none
  replayed : Bool := false

def RepairDecision.accepted (decision : RepairDecision) : Option TaskPlan :=
  if decision.action = .APPLY_MUTATION then decision.plan else none

def RepairDecision.terminate (reasonCodes : List String) (mutationId : UUID) : RepairDecision :=
  ⟨.TERMINATE, reasonCodes, none, some mutationId, false⟩

/-- `RepairPolicy.decide` for a mutation that was proposed. -/
def decideRepair (validator : TaskPlanValidator) (current : TaskPlan)
    (outcome : VerificationOutcome) (mutation : TaskPlanMutation) (history : List RepairHistory) :
    Except Raised RepairDecision :=
  if outcome.passed then pure ⟨.COMPLETE, [], some current, none, false⟩
  else if history.any fun item => some item.failureSignature = outcome.failureSignature then
    pure (.terminate ["REPEATED_FAILURE_SIGNATURE"] mutation.mutationId)
  else if history.any fun item => item.progressFingerprint = outcome.progressFingerprint then
    pure (.terminate ["NO_PROGRESS"] mutation.mutationId)
  else do
    let validation ← validator.validateMutation current mutation
    match validation.proposedPlan with
    | none => pure (.terminate (validation.issues.map ValidationIssue.code).eraseDups
        mutation.mutationId)
    | some plan => pure ⟨.APPLY_MUTATION, [], some plan, some mutation.mutationId, false⟩

/-! ## The controller -/

structure DurableRepairController where
  artifacts : ArtifactService
  validator : TaskPlanValidator
  mutationHash : TaskPlanMutation → String
  uuid5 : UUID → String → UUID

/-- `ORDER BY revision DESC LIMIT 1`. -/
def Database.currentPlan (db : Database) (runId : UUID) : Option PlanRevisionRow :=
  ((db.planRevisions.rows.filter fun row => row.runId = runId).insertionSort
    fun a b => b.revision ≤ a.revision).head?

/-- `ORDER BY accepted_revision`, nulls last. -/
def Database.acceptedRepairs (db : Database) (runId : UUID) : List RepairMutationRow :=
  (db.repairMutations.rows.filter fun row =>
    row.runId = runId && row.status = .APPLY_MUTATION).insertionSort fun a b =>
      b.acceptedRevision = none ∨ a.acceptedRevision ≠ none ∧
        a.acceptedRevision.getD 0 ≤ b.acceptedRevision.getD 0

def RepairMutationRow.history (row : RepairMutationRow) : Except Raised RepairHistory :=
  match row.acceptedRevision with
  | none =>
    .error ⟨.repairIntegrityError, "accepted repair history is missing its plan revision"⟩
  | some revision => .ok ⟨row.failureSignature, row.progressFingerprint, revision⟩

def repairHistory (rows : List RepairMutationRow) : Except Raised (List RepairHistory) :=
  rows.mapM RepairMutationRow.history

def insertRepairMutation (row : RepairMutationRow) : Session Unit :=
  Prog.checked fun db =>
    match db.repairMutations.get? row.mutationId with
    | none => .ok fun db => { db with repairMutations := db.repairMutations.insert row }
    | some _ => .error ⟨.integrityError, "repair_mutations_pkey"⟩

def replayedDecision (row : RepairMutationRow) (runId : UUID) (mutationHash : String)
    (outcome : VerificationOutcome) : Session RepairDecision := do
  if row.runId ≠ runId ∨ row.mutationHash ≠ mutationHash ∨
      some row.failureSignature ≠ outcome.failureSignature ∨
      row.progressFingerprint ≠ outcome.progressFingerprint ∨
      row.verificationArtifactIds ≠ outcome.artifactIds then
    raise .repairIntegrityError
      "mutation_id replay does not match its original run and content"
  else
    match row.acceptedRevision with
    | none => pure ⟨row.status, row.reasonCodes, none, some row.mutationId, true⟩
    | some revision => do
      match ← Prog.query fun db => db.planRevisions.get? (runId, revision) with
      | none => raise .repairIntegrityError "accepted repair revision is missing"
      | some planRow =>
        pure ⟨row.status, row.reasonCodes, some planRow.plan, some row.mutationId, true⟩

namespace DurableRepairController

variable (controller : DurableRepairController) (objects : Objects)

/-- What is wrong with one artifact of the evidence. -/
def evidenceError (projectId runId : UUID) (draws : UUID → Draw)
    (artifactId : UUID) : Session (List String) := do
  match ← controller.artifacts.getVerified objects projectId artifactId (draws artifactId) with
  | .error _ => pure ["INVALID_REPAIR_EVIDENCE"]
  | .ok _ => do
    let row ← Prog.query fun db => db.artifacts.get? artifactId
    if row.all fun row => row.runId ≠ runId then pure ["REPAIR_EVIDENCE_RUN_MISMATCH"]
    else pure []

def verifyEvidence (projectId runId : UUID) (draws : UUID → Draw)
    (artifactIds : List UUID) : Session (List String) := do
  let errors ← Prog.collect (controller.evidenceError objects projectId runId draws) artifactIds
  pure errors.eraseDups

variable (runId : UUID) (outcome : VerificationOutcome) (mutation : TaskPlanMutation)

def decisionRow
    (decision : RepairDecision) (acceptedRevision : Option Nat) : RepairMutationRow where
  mutationId := mutation.mutationId
  runId := runId
  baseRevision := mutation.baseRevision
  acceptedRevision := acceptedRevision
  failureSignature := outcome.failureSignature.getD (String.ofList (replicate 64 '0'))
  progressFingerprint := outcome.progressFingerprint
  mutationHash := controller.mutationHash mutation
  verificationArtifactIds := outcome.artifactIds
  status := decision.action
  reasonCodes := decision.reasonCodes
  mutation := mutation

variable (draws : UUID → Draw)

/-- The revision and the tasks of an accepted mutation. -/
def storeMutation (plan : TaskPlan) : Session Unit := do
  createPlanRevision runId plan.revision plan (draws runId).createdAt
  createMutationTasks runId mutation.tasks draws

def decisionPayload (decision : RepairDecision) (acceptedRevision : Option Nat) : Json :=
  .obj [("mutation_id", .str mutation.mutationId.str), ("run_id", .str runId.str),
    ("action", .str decision.action.value), ("base_revision", .num mutation.baseRevision),
    ("accepted_revision", (acceptedRevision.map fun revision => Json.num revision).getD .null),
    ("reason_codes", .arr (decision.reasonCodes.map Json.str))]

/-- What is left of `apply` once the decision is made. -/
def record (decision : RepairDecision) : Session RepairDecision := do
  let accepted := decision.accepted
  let acceptedRevision := accepted.map TaskPlan.revision
  insertRepairMutation (controller.decisionRow runId outcome mutation decision acceptedRevision)
  match accepted with
  | some plan => storeMutation runId mutation draws plan
  | none => pure ()
  let eventId := controller.uuid5 namespaceUrl ("repair-decision:" ++ mutation.mutationId.str)
  let payload := decisionPayload runId mutation decision acceptedRevision
  let eventType := if accepted.isSome then "plan.repair_accepted" else "plan.repair_terminated"
  appendAudit ⟨eventId, eventType, "run", runId, payload, runId, mutation.mutationId⟩
  enqueueEvent ⟨eventId, "plan-repair", payload⟩
  pure decision

/-- The decision on a mutation that is not known yet. -/
def decideNew (run : RunRow) (current : PlanRevisionRow)
    (outcome : VerificationOutcome) (mutation : TaskPlanMutation) (draws : UUID → Draw) :
    Session RepairDecision := do
  let rows ← Prog.query fun db => db.acceptedRepairs run.id
  match repairHistory rows with
  | .error error => Prog.raise error
  | .ok history => do
    let errors ← controller.verifyEvidence objects run.projectId run.id draws outcome.artifactIds
    if errors ≠ [] then pure (.terminate errors mutation.mutationId)
    else
      match decideRepair controller.validator current.plan outcome mutation history with
      | .error error => Prog.raise error
      | .ok decision => pure decision

def apply : Session RepairDecision := do
  if outcome.passed then
    raise .valueError "a successful verification does not require a repair mutation"
  else do
    match ← selectRunForUpdate runId with
    | none => raise .lookupError ("run " ++ runId.str ++ " does not exist")
    | some run => do
      match ← Prog.query fun db => db.repairMutations.get? mutation.mutationId with
      | some existing =>
        replayedDecision existing runId (controller.mutationHash mutation) outcome
      | none => do
        -- its `FOR UPDATE` locks a row that is written under the lock of the run only
        match ← Prog.query fun db => db.currentPlan runId with
        | none =>
          raise .lookupError ("run " ++ runId.str ++ " has no durable plan revision")
        | some current => do
          let decision ← controller.decideNew objects run current outcome mutation draws
          controller.record runId outcome mutation draws decision

end DurableRepairController

end AutoSwe
