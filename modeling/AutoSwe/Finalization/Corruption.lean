import AutoSwe.Finalization.Dispatchers
import AutoSwe.Persistence.ArtifactStore

/-!
# Durable corruption

Four transactions read artifacts through `get_verified`. Three of them catch what it
raises and go on to their commit; `_load_release_decision` lets it out, so that the
mark on the row is rolled back while the file stays in quarantine.
`corruption_durable_iff` is the whole story.
-/

namespace AutoSwe

open Relational Transaction RunFinalizationService Service

open Body (statement getVerified Marked Tracks)

def Thrown.className : Thrown → String
  | .artifact failure => failure.className
  | .statement _ => "DBAPIError"

def Thrown.text : Thrown → String
  | .artifact failure => failure.text
  | .statement error => error.message

/-! ## The callers -/

namespace RunFinalizationService

variable (service : RunFinalizationService) (draws : UUID → Draw)

/-- One artifact as `verification_evidence` has got it. -/
def readerOf (fetched : Except Thrown Bytes) : ArtifactReader where
  fetch _ :=
    match fetched with
    | .ok content => .ok (service.loads content)
    | .error thrown => .error thrown.className
  str := service.str

def collectEvidence (projectId : UUID) : List ArtifactRow → Collected → Body Collected
  | [], collected => pure collected
  | row :: rest, collected => do
    -- `except Exception`
    let fetched ← (getVerified service.artifacts projectId row.id (draws row.id)).attempt
    collectEvidence projectId rest ((service.readerOf fetched).readArtifact collected row)

/-- The transaction of `verification_evidence`. -/
def evidenceBody (tasks : List TaskRow) : Body Collected := do
  let rows ← statement (Prog.query fun db =>
    (db.artifacts.rows.filter fun row => row.taskId ∈ tasks.map TaskRow.id).insertionSort
      (recordedBefore · ·))
  collectEvidence service draws ((tasks.head?.map TaskRow.projectId).getD 0) rows {}

/-- The transaction of `_load_release_decision`. -/
def loadBody (projectId artifactId : UUID) : Body (Option Bytes) := do
  match ← statement (Prog.query fun db => db.artifacts.get? artifactId) with
  | none => pure none
  | some _ => do
    let content ← getVerified service.artifacts projectId artifactId (draws artifactId)
    pure (some content)

end RunFinalizationService

namespace ArtifactService

variable (service : ArtifactService) (draws : UUID → Draw) (request : ReleaseReviewRequest)
  (criterion : String)

/-- An artifact that is proposed for a criterion, or why it does not count. -/
def reviewArtifact (artifactId : UUID) : Body (List (Except String UUID)) := do
  match ← (Body.getVerified service request.projectId artifactId (draws artifactId)).attempt with
  | .error thrown =>
    if thrown.isCaught then
      pure [.error (criterion ++ ": artifact " ++ artifactId.str ++ " invalid: " ++ thrown.text)]
    else raise thrown
  | .ok _ => do
    let row ← statement (Prog.query fun db => db.artifacts.get? artifactId)
    if row.any (ArtifactRow.verifiedIn request.runId) then pure [.ok artifactId]
    else pure [.error
      (criterion ++ ": artifact " ++ artifactId.str ++ " is outside the verified run")]

/-- What the artifacts of a criterion come to. -/
def criterionAudit (outcomes : List (Except String UUID)) : Audit :=
  let failures := outcomes.filterMap fun outcome =>
    match outcome with
    | .error failure => some failure
    | .ok _ => none
  match outcomes.filterMap Except.toOption with
  | [] => ⟨[], failures ++ [criterion ++ ": no verified evidence remains"]⟩
  | verified => ⟨[(criterion, verified)], failures⟩

def reviewCriterion : Body (List Audit) := do
  match (request.proposedEvidence.get criterion).eraseDups with
  | [] => pure [⟨[], [criterion ++ ": no evidence was provided"]⟩]
  | proposed => do
    let outcomes ← collect (service.reviewArtifact draws request criterion) proposed
    pure [criterionAudit criterion outcomes]

/-- The transaction of `review`. -/
def reviewBody : Body Audit := do
  let audits ← collect (service.reviewCriterion draws request) request.acceptanceCriteria
  pure {
    evidence := audits.flatMap Audit.evidence
    failures := request.extras.map ("Unexpected evidence mapping: " ++ ·) ++
      audits.flatMap Audit.failures }

end ArtifactService

namespace DurableRepairController

variable (controller : DurableRepairController) (draws : UUID → Draw)

/-- What `_verify_evidence` notes of one artifact. -/
def repairEvidence (projectId runId artifactId : UUID) : Body (List String) := do
  match ← (getVerified controller.artifacts projectId artifactId (draws artifactId)).attempt with
  | .error thrown =>
    if thrown.isCaught then pure ["INVALID_REPAIR_EVIDENCE"] else raise thrown
  | .ok _ => do
    let row ← statement (Prog.query fun db => db.artifacts.get? artifactId)
    if row.all fun row => row.runId ≠ runId then pure ["REPAIR_EVIDENCE_RUN_MISMATCH"]
    else pure []

/-- What is left of `apply` once the evidence has been verified. -/
def decideBody (run : RunRow) (current : PlanRevisionRow) (outcome : VerificationOutcome)
    (mutation : TaskPlanMutation) (history : List RepairHistory) (errors : List String) :
    Body RepairDecision :=
  if errors.eraseDups ≠ [] then
    statement (controller.record run.id outcome mutation draws
      (.terminate errors.eraseDups mutation.mutationId))
  else
    match decideRepair controller.validator current.plan outcome mutation history with
    | .error error => raise (.statement error)
    | .ok decision => statement (controller.record run.id outcome mutation draws decision)

/-- `apply`, whose transaction starts after its first check. -/
def applyBody (runId : UUID) (outcome : VerificationOutcome) (mutation : TaskPlanMutation) :
    Body RepairDecision := do
  if outcome.passed then raise (.statement
    ⟨.valueError, "a successful verification does not require a repair mutation"⟩)
  match ← statement (selectRunForUpdate runId) with
  | none => raise (.statement ⟨.lookupError, "run " ++ runId.str ++ " does not exist"⟩)
  | some run => do
    match ← statement (Prog.query fun db => db.repairMutations.get? mutation.mutationId) with
    | some existing =>
      statement (replayedDecision existing runId (controller.mutationHash mutation) outcome)
    | none => do
      match ← statement (Prog.query fun db => db.currentPlan runId) with
      | none => raise (.statement
          ⟨.lookupError, "run " ++ runId.str ++ " has no durable plan revision"⟩)
      | some current => do
        match repairHistory (← statement (Prog.query fun db => db.acceptedRepairs run.id)) with
        | .error error => raise (.statement error)
        | .ok history => do
          let errors ← collect (controller.repairEvidence draws run.projectId runId)
            outcome.artifactIds
          controller.decideBody draws run current outcome mutation history errors

end DurableRepairController

/-- The transactions that call `get_verified`. -/
inductive Caller
  | verificationEvidence (tasks : List TaskRow)
  | review (request : ReleaseReviewRequest)
  | repair (runId : UUID) (outcome : VerificationOutcome) (mutation : TaskPlanMutation)
  | loadReleaseDecision (projectId artifactId : UUID)

def Caller.body (service : RunFinalizationService) (draws : UUID → Draw) : Caller → Body Unit
  | .verificationEvidence tasks => do
    let _ ← service.evidenceBody draws tasks
  | .review request => do
    let _ ← service.artifacts.reviewBody draws request
  | .repair runId outcome mutation => do
    let _ ← service.repair.applyBody draws runId outcome mutation
  | .loadReleaseDecision projectId artifactId => do
    let _ ← service.loadBody draws projectId artifactId

/-! ## What they leave -/

theorem Body.statement_found (hfound : s.found = []) :
    (statement p).Triple s (fun _ s' => s'.found = []) fun _ s' => s'.found = [] := by
  unfold Triple statement
  split
  · rename_i a s' hrun
    split at hrun <;> cases hrun
    exact hfound
  · rename_i thrown s' hrun
    split at hrun <;> cases hrun
    exact hfound

theorem Body.statement_query (read : Database → α) (s : Storage) :
    (statement (Prog.query read)).Triple s (fun a s' => read s.db = a ∧ s = s') E :=
  ⟨rfl, rfl⟩

variable {draws : UUID → Draw} {s₀ s : Storage}

/-- The result of a call that is caught: an exception is one of those that are caught
everywhere, and a content was read without a change. -/
theorem Body.getVerified_attempt (service : ArtifactService) (projectId artifactId : UUID)
    (draw : Draw) (h : Tracks s₀ s) :
    (getVerified service projectId artifactId draw).attempt.Triple s
      (fun fetched s' => Tracks s₀ s' ∧
        match fetched with
        | .ok _ => s' = s
        | .error thrown => thrown.isCaught = true) E := by
  refine .attempt ((getVerified_tracks h).mono ?_ fun _ _ => id)
  rintro content _ rfl
  exact ⟨h, rfl⟩

variable {service : RunFinalizationService}

theorem RunFinalizationService.collectEvidence_tracks (rows : List ArtifactRow)
    (collected : Collected) (h : Tracks s₀ s) :
    (collectEvidence service draws projectId rows collected).Triple s (fun _ s' => Tracks s₀ s')
      E := by
  induction rows generalizing collected s with
  | nil => exact h
  | cons row rest ih =>
    refine (Body.getVerified_attempt service.artifacts projectId row.id (draws row.id) h).bind ?_
    rintro fetched s' ⟨htracks, -⟩
    exact ih _ htracks

theorem ArtifactService.reviewArtifact_tracks {service : ArtifactService} (h : Tracks s₀ s) :
    (service.reviewArtifact draws request criterion artifactId).Triple s
      (fun _ s' => Tracks s₀ s') E := by
  refine (Body.getVerified_attempt service request.projectId artifactId (draws artifactId)
    h).bind ?_
  rintro (thrown | content) s' ⟨htracks, hfetched⟩
  · dsimp only at hfetched ⊢
    rw [if_pos hfetched]
    exact htracks
  · refine (Body.statement_query _ s').bind ?_
    rintro row _ ⟨-, rfl⟩
    split <;> exact htracks

theorem ArtifactService.reviewBody_tracks {service : ArtifactService} (h : Tracks s₀ s) :
    (service.reviewBody draws request).Triple s (fun _ s' => Tracks s₀ s') E := by
  refine Triple.bind (R := fun _ s' => Tracks s₀ s') ?_ fun _ _ htracks => htracks
  refine Triple.collect (J := fun _ s' => Tracks s₀ s') ?_ _ [] s h
  intro criterion found s htracks
  unfold reviewCriterion
  split
  · exact htracks
  · refine Triple.bind (R := fun _ s' => Tracks s₀ s') ?_ fun _ _ htracks => htracks
    exact Triple.collect (J := fun _ s' => Tracks s₀ s')
      (fun artifactId _ _ htracks => reviewArtifact_tracks htracks) _ [] s htracks

namespace DurableRepairController

variable {controller : DurableRepairController}

theorem repairEvidence_tracks (artifactId : UUID) (h : Tracks s₀ s ∧ (errors = [] → s.found = [])) :
    (controller.repairEvidence draws projectId runId artifactId).Triple s
      (fun more s' => Tracks s₀ s' ∧ (errors ++ more = [] → s'.found = [])) E := by
  refine (Body.getVerified_attempt controller.artifacts projectId artifactId (draws artifactId)
    h.1).bind ?_
  rintro (thrown | content) s' ⟨htracks, hfetched⟩
  · dsimp only at hfetched ⊢
    rw [if_pos hfetched]
    exact ⟨htracks, by simp⟩
  · obtain rfl : s' = s := hfetched
    refine (Body.statement_query _ s').bind ?_
    rintro row _ ⟨-, rfl⟩
    split
    · exact ⟨htracks, by simp⟩
    · exact ⟨htracks, by simpa using h.2⟩

variable (controller draws) in
theorem record_terminate (hnew : db.repairMutations.get? mutation.mutationId = none) :
    ∃ db', (controller.record runId outcome mutation draws
        (.terminate reasons mutation.mutationId)).run db =
          .ok (.terminate reasons mutation.mutationId, db') ∧
      db'.artifacts = db.artifacts ∧ ∃ event, db'.auditEvents = db.auditEvents ++ [event] := by
  have haccepted : (RepairDecision.terminate reasons mutation.mutationId).accepted = none := rfl
  simp only [record, haccepted, Option.map_none, insertRepairMutation, decisionRow,
    Prog.run_bind, Prog.run_checked, hnew, Prog.run_pure]
  exact ⟨_, rfl, rfl, _, rfl⟩

theorem decideBody_marked (hnew : s₀.db.repairMutations.get? mutation.mutationId = none)
    (htracks : Tracks s₀ s) (hintact : errors = [] → s.found = []) :
    (controller.decideBody draws run current outcome mutation history errors).Triple s
      (fun _ s' => Marked s₀ s') fun _ s' => s'.found = [] := by
  unfold decideBody
  split
  · -- the evidence was damaged, and the decision is recorded
    rw [← show s.db.repairMutations = s₀.db.repairMutations from
      htracks.others .repairMutations (by decide)] at hnew
    obtain ⟨db', hrun, hartifacts, event, haudit⟩ :=
      record_terminate draws controller hnew
    unfold Triple statement
    rw [hrun]
    refine ⟨htracks.before, ?_, ?_⟩
    · simpa only [hartifacts] using htracks.corrupt
    · intro id hid
      obtain ⟨found, hmem, hfound⟩ := htracks.audited id hid
      exact ⟨found, haudit ▸ List.mem_append_left _ hmem, hfound⟩
  · rename_i hnone
    have herrors : errors = [] := by
      cases errors with
      | nil => rfl
      | cons => simp [List.eraseDups_cons] at hnone
    have hfound := hintact herrors
    split
    · exact hfound
    · exact (Body.statement_found hfound).mono (fun _ _ => .of_nothing) fun _ _ => id

/-- `apply` raises only if its evidence was intact. -/
theorem applyBody_marked (hfound : s.found = []) :
    (controller.applyBody draws runId outcome mutation).Triple s
      (fun _ s' => Marked s s') fun _ s' => s'.found = [] := by
  unfold applyBody
  split
  · exact hfound
  · have hlocked : (statement (selectRunForUpdate runId)).Triple s (fun _ s' => s = s')
        fun _ s' => s'.found = [] := rfl
    refine hlocked.bind ?_
    rintro (_ | run) _ rfl
    · exact hfound
    · refine (Body.statement_query _ s).bind ?_
      rintro (_ | existing) _ ⟨hnew, rfl⟩
      · refine (Body.statement_query _ s).bind ?_
        rintro (_ | current) _ ⟨-, rfl⟩
        · exact hfound
        · refine (Body.statement_query _ s).bind ?_
          rintro rows _ ⟨-, rfl⟩
          split
          · exact hfound
          · refine Triple.bind (Triple.collect
              (J := fun errors s' => Tracks s s' ∧ (errors = [] → s'.found = []))
              (fun artifactId _ _ h => repairEvidence_tracks artifactId h) _ [] s
              ⟨.start hfound, fun _ => hfound⟩) ?_
            rintro errors s' ⟨htracks, hintact⟩
            exact decideBody_marked hnew htracks hintact
      · exact (Body.statement_found hfound).mono (fun _ _ => .of_nothing) fun _ _ => id

end DurableRepairController

theorem RunFinalizationService.loadBody_tracks (hfound : s.found = []) :
    (service.loadBody draws projectId artifactId).Triple s (fun _ s' => s'.found = [])
      fun _ s' => Tracks s s' := by
  refine (Body.statement_query _ s).bind ?_
  rintro (_ | row) _ ⟨-, rfl⟩
  · exact hfound
  · refine ((Body.getVerified_tracks (.start hfound)).mono (fun _ _ => id) fun _ _ h => h.1).bind ?_
    rintro content _ rfl
    exact hfound

def Caller.letsOut : Caller → Bool
  | .loadReleaseDecision .. => true
  | _ => false

/-- A caller that catches raises only if nothing was found. -/
theorem Caller.body_marked {caller : Caller} (hcatches : caller.letsOut = false)
    (hfound : s.found = []) :
    (caller.body service draws).Triple s (fun _ s' => Marked s s') fun _ s' => s'.found = [] := by
  have htracks := Tracks.start hfound
  cases caller with
  | verificationEvidence tasks =>
    refine Triple.bind (R := fun _ s' => Tracks s s') ?_ fun _ _ h => h.toMarked
    refine (Body.statement_query _ s).bind ?_
    rintro rows _ ⟨-, rfl⟩
    exact collectEvidence_tracks rows {} htracks
  | review request =>
    exact (ArtifactService.reviewBody_tracks htracks).bind fun _ _ h => h.toMarked
  | repair runId outcome mutation =>
    exact (DurableRepairController.applyBody_marked hfound).bind
      fun _ _ => id
  | loadReleaseDecision => cases hcatches

/-- The corruption of the artifact is on record: its row says so, the event is there, and
no file is in quarantine beside a valid row. -/
structure Durable (artifactId : UUID) (s : Storage) : Prop where
  corrupt : ∃ row, s.db.artifacts.get? artifactId = some row ∧ row.state = .CORRUPT
  audited : ∃ event ∈ s.db.auditEvents,
    event.eventType = "artifact.corrupt" ∧ event.aggregateId = artifactId
  agree : ∀ digest content, s.disk.quarantine artifactId digest = some content →
    ∀ row, s.db.artifacts.get? artifactId = some row → row.state ≠ .VALID

theorem Body.Marked.durable (h : Marked s₀ s) (hid : artifactId ∈ s.found) :
    Durable artifactId s := by
  obtain ⟨row, hrow, hcorrupt⟩ := h.corrupt artifactId hid
  refine ⟨⟨row, hrow, hcorrupt⟩, h.audited artifactId hid, fun _ _ _ other hother => ?_⟩
  rw [hrow] at hother
  cases hother
  simp [hcorrupt]

theorem Body.Marked.not_durable (h : Marked s₀ s) (hid : artifactId ∈ s.found) :
    ¬ Durable artifactId { s with db := s₀.db } := by
  rintro ⟨⟨row, hrow, hcorrupt⟩, -⟩
  obtain ⟨before, hbefore, hvalid⟩ := h.before artifactId hid
  rw [hbefore] at hrow
  cases hrow
  rw [hvalid] at hcorrupt
  cases hcorrupt

/-- What a call found is durable just if the caller catches what it raises, and its
transaction is committed. -/
theorem corruption_durable_iff (service : RunFinalizationService) (draws : UUID → Draw)
    (caller : Caller) (lost : Bool) (s : Storage) (artifactId : UUID) (hstart : s.found = [])
    (hfound : artifactId ∈ (Body.transaction lost (caller.body service draws) s).2.found) :
    Durable artifactId (Body.transaction lost (caller.body service draws) s).2 ↔
      caller.letsOut = false ∧ lost = false := by
  cases hlets : caller.letsOut with
  | false =>
    have hbody : (caller.body service draws).Triple s (fun _ s' => Marked s s')
      fun _ s' => s'.found = [] := Caller.body_marked hlets hstart
    unfold Triple at hbody
    unfold Body.transaction at hfound ⊢
    generalize caller.body service draws s = result at hbody hfound ⊢
    rcases result with ⟨thrown | u, s'⟩
    · simp [show s'.found = [] from hbody] at hfound
    · cases lost with
      | false => exact iff_of_true (hbody.durable hfound) ⟨rfl, rfl⟩
      | true => exact iff_of_false (hbody.not_durable hfound) (by simp)
  | true =>
    have hbody : (caller.body service draws).Triple s (fun _ s' => s'.found = [])
        fun _ s' => Tracks s s' := by
      cases caller with
      | loadReleaseDecision =>
        exact (loadBody_tracks hstart).bind fun _ _ => id
      | _ => cases hlets
    unfold Triple at hbody
    unfold Body.transaction at hfound ⊢
    generalize caller.body service draws s = result at hbody hfound ⊢
    rcases result with ⟨thrown | u, s'⟩
    · exact iff_of_false (hbody.toMarked.not_durable hfound) (by simp)
    · have hnone : s'.found = [] := hbody
      cases lost <;> simp [hnone] at hfound

/-- A valid row over an object that has other bytes. -/
def sampleDamaged : Storage where
  db := { artifacts := Table.empty.insert (sampleEvidence true) }
  disk := { objects := fun _ => some [0] }

def sampleRequest : ReleaseReviewRequest where
  projectId := 20
  runId := 40
  acceptanceCriteria := ["tests pass"]
  proposedEvidence := [("tests pass", [60])]
  summary := "summary"

/-- The review finds the damage and puts it on record. -/
theorem corruption_durable_sample : Durable 60 (Body.transaction false
    ((Caller.review sampleRequest).body sampleFinalizer fun _ => {}) sampleDamaged).2 :=
  (corruption_durable_iff sampleFinalizer (fun _ => {}) (.review sampleRequest) false sampleDamaged
    60 rfl (by decide +kernel)).mpr ⟨rfl, rfl⟩

/-- The release decision is found to be damaged and moved, and its row stays valid. -/
theorem corruption_rolled_back :
    let s := (Body.transaction false
      ((Caller.loadReleaseDecision 20 60).body sampleFinalizer fun _ => {}) sampleDamaged).2
    s.found = [60] ∧ s.disk.objects "report" = none ∧ s.disk.quarantine 60 "\x01" = some [0] ∧
      (s.db.artifacts.get? 60).map ArtifactRow.state = some .VALID ∧
      s.db.auditEvents.length = 0 := by
  decide +kernel

end AutoSwe
