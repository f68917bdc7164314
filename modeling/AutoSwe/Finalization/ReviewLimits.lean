import AutoSwe.Finalization.ReviewRuns

/-!
# The limits of the release review

The request for the audit, the decision and the outcome that a repair starts from
each have limits of their own, which nothing in a plan or in the answer of the
model is held to. A review completes exactly within them (`review_completes_iff`).
-/

namespace AutoSwe

open Relational Table List RunFinalizationService ArtifactService

/-! ## The review of a release -/

theorem TaskPlanValidator.Accepts.integrationPlan {validator : TaskPlanValidator} {plan : TaskPlan}
    (h : validator.Accepts plan) (hrequired : validator.requireFinalValidationSink = true) :
    plan.requireIntegrationPlan = .ok () := by
  obtain ⟨valid, hvalid, hlength⟩ := except_bind_ok.mp (h.sink hrequired)
  obtain ⟨sink, rfl⟩ := length_eq_one_iff.mp (of_decide_eq_true (Except.ok.inj hlength))
  simp only [TaskPlan.requireIntegrationPlan, hvalid]
  rfl

theorem TaskPlanValidator.Accepts.plan_criteria {validator : TaskPlanValidator} {plan : TaskPlan}
    (h : validator.Accepts plan) (hrequired : validator.requireFinalValidationSink = true) :
    plan.criteria ≠ [] := by
  cases htasks : plan.tasks with
  | nil =>
    obtain ⟨valid, hvalid, hlength⟩ := except_bind_ok.mp (h.sink hrequired)
    rw [TaskPlan.sinks, htasks] at hvalid
    cases hvalid
    cases hlength
  | cons task rest =>
    have htask := h.criteria (show task ∈ plan.tasks by simp [htasks])
    cases hcriteria : task.acceptanceCriteria with
    | nil => exact absurd hcriteria htask
    | cons => simp [TaskPlan.criteria, htasks, hcriteria, eraseDups_cons]

/-- `_review_release` is called: the tasks of the run are completed, no
verification of the latest revision failed, and the plan is one that the validator
accepts. A stage that was started before has the id of the stage. -/
structure ReviewPoint (service : RunFinalizationService) (validator : TaskPlanValidator)
    (objects : Objects) (db : Database) where
  run : RunRow
  planRow : PlanRevisionRow
  sink : TaskRow
  evidenceIds : List UUID
  run_found : db.runs.get? run.id = some run
  plan_found : db.currentPlan run.id = some planRow
  accepted : validator.Accepts planRow.plan
  completed : ∀ task ∈ db.tasksOf run.id, task.state = .COMPLETED
  sink_found : integrationSink (latestTasks (db.tasksOf run.id)) = .ok sink
  evidence_found : service.verificationEvidence objects db (latestTasks (db.tasksOf run.id)) =
    .ok ([], evidenceIds)
  stage_id : ∀ row, db.stageAttempts.get? (run.id, .finalReview sink.planRevision) = some row →
    row.id = stageAttemptId service.uuid5 run.id (.finalReview sink.planRevision)

namespace ReviewPoint

variable {service : RunFinalizationService} {validator : TaskPlanValidator} {objects : Objects}
  {db : Database}

section
variable (point : ReviewPoint service validator objects db)

def artifactId : UUID := service.decisionArtifactId point.run.id point.sink.planRevision

def criteria : List String := point.planRow.plan.criteria

def Stored (db' : Database) (decision : ReleaseDecision) : Prop :=
  ∃ row content, db'.artifacts.get? point.artifactId = some row ∧ row.state = .VALID ∧
    service.artifacts.sha256 content = row.sha256 ∧ content.length = row.sizeBytes ∧
    (content = service.encodeDecision decision ∨ service.decodeDecision content = some decision)

/-- The review returns a decision, which is stored, and the outcome that the repair
of a negative one starts from can be built. -/
def Completes (result : Except Raised ReleaseDecision × Platform) : Prop :=
  ∃ decision, result.1 = .ok decision ∧ point.Stored result.2.db decision ∧
    (decision.approved = false → ∃ outcome, VerificationOutcome.failed
      (service.failureSignature
        (if decision.failureReasons = [] then [decision.summary] else decision.failureReasons))
      (service.progressFingerprint point.planRow.plan.revision point.evidenceIds)
      point.evidenceIds = .ok outcome)

/-- What the code checks nowhere before the review. -/
def WithinLimits (review : ReleaseDecision) : Prop :=
  match db.artifacts.get? point.artifactId with
  | some _ => ∃ content decision,
      service.artifacts.fetch objects db point.sink.projectId point.artifactId = .ok content ∧
      service.decodeDecision content = some decision ∧
      (decision.approved = true ∨ point.evidenceIds.length ≤ 1000)
  | none => service.FreshLimits objects db point.run point.criteria review ∧
      (review.approved = true ∧
          service.reviewObjections objects db point.run point.criteria review = [] ∨
        point.evidenceIds.length ≤ 1000)

end

variable {s s' : Platform} {answers : Activity → Answer} {review : ReleaseDecision}
  {point : ReviewPoint service validator objects s.db}

theorem reviewRelease_completes (h : Quiet answers objects review)
    (hrequired : validator.requireFinalValidationSink = true)
    (hload : service.act s (answers (.loadReleaseDecision point.sink.projectId point.artifactId))
      (.loadReleaseDecision point.sink.projectId point.artifactId) = (.ok replay, s₁))
    (hrest : (match replay with
      | some replay => pure replay
      | none => reviewFresh point.run.id point.sink point.criteria
          point.evidenceIds : Dispatching ReleaseDecision).runAlone service.act answers s₁ =
        (.ok decision, s')) :
    (service.reviewRelease point.run.id (latestTasks (s.db.tasksOf point.run.id))
      point.evidenceIds).runAlone service.act answers s = (.ok decision, s') := by
  have hplan : service.act s (answers (.currentPlan point.run.id)) (.currentPlan point.run.id) =
      (.ok (some point.planRow), s) := by
    refine act_eq_ok.mpr ⟨h.failure _, ?_⟩
    rw [Activity.carryOut, ← point.plan_found]
    rfl
  obtain ⟨criterion, others, hcons⟩ :=
    exists_cons_of_ne_nil (point.accepted.plan_criteria hrequired)
  refine ofExcept_ok.mpr ⟨point.sink, point.sink_found, activity_ok.mpr ⟨_, s, hplan, ?_⟩⟩
  refine ofExcept_ok.mpr ⟨(), point.accepted.integrationPlan hrequired, ?_⟩
  simp only [hcons]
  refine activity_ok.mpr ⟨replay, s₁, hload, ?_⟩
  cases replay with
  | none => rwa [criteria, hcons] at hrest
  | some replay => exact hrest

/-- A decision that is returned was stored already, or comes from the model. -/
theorem reviewRelease_cases (h : Quiet answers objects review)
    (hrequired : validator.requireFinalValidationSink = true)
    (hreturns : (service.reviewRelease point.run.id (latestTasks (s.db.tasksOf point.run.id))
      point.evidenceIds).runAlone service.act answers s = (.ok decision, s')) :
    (∃ row content, s.db.artifacts.get? point.artifactId = some row ∧
      service.artifacts.fetch objects s.db point.sink.projectId point.artifactId = .ok content ∧
      service.decodeDecision content = some decision) ∨
    s.db.artifacts.get? point.artifactId = none ∧
      (reviewFresh point.run.id point.sink point.criteria
        point.evidenceIds).runAlone service.act answers s = (.ok decision, s') := by
  obtain ⟨sink, planRow, hsink, hplan, hreview⟩ :=
    reviewRelease_returns h.toSteady hreturns
  cases point.sink_found.symm.trans hsink
  cases point.plan_found.symm.trans hplan
  rcases hreview with ⟨hnone, -⟩ | ⟨row, content, hrow, hfetch, hdecode, -⟩ | hfresh
  · exact absurd hnone (point.accepted.plan_criteria hrequired)
  · exact .inl ⟨row, content, hrow, hfetch, hdecode⟩
  · exact .inr hfresh

theorem evidenceIds_pos (point : ReviewPoint service validator objects db) :
    1 ≤ point.evidenceIds.length := by
  have hevidence := point.evidence_found
  simp only [verificationEvidence, ArtifactReader.verificationEvidence]
    at hevidence
  split at hevidence
  · cases hevidence
  · obtain ⟨sink, -, hevidence⟩ := except_bind_ok.mp hevidence
    obtain ⟨hfailures, hids⟩ := Prod.mk.inj (Except.ok.inj hevidence)
    have hsome := (append_eq_nil_iff.mp (append_eq_nil_iff.mp hfailures).1).2
    rw [hids] at hsome
    refine length_pos_of_ne_nil fun hnone => ?_
    simp [hnone] at hsome

theorem outcome_ok (point : ReviewPoint service validator objects db) (decision : ReleaseDecision) :
    (decision.approved = false → ∃ outcome, VerificationOutcome.failed
      (service.failureSignature
        (if decision.failureReasons = [] then [decision.summary] else decision.failureReasons))
      (service.progressFingerprint point.planRow.plan.revision point.evidenceIds)
      point.evidenceIds = .ok outcome) ↔
      decision.approved = true ∨ point.evidenceIds.length ≤ 1000 := by
  rw [VerificationOutcome.failed_ok, and_iff_right point.evidenceIds_pos]
  cases decision.approved <;> simp

theorem completes_stored (h : Quiet answers objects review)
    (hrequired : validator.requireFinalValidationSink = true)
    (hrow : s.db.artifacts.get? point.artifactId = some row) :
    point.Completes ((service.reviewRelease point.run.id (latestTasks (s.db.tasksOf point.run.id))
        point.evidenceIds).runAlone service.act answers s) ↔
      ∃ content decision,
        service.artifacts.fetch objects s.db point.sink.projectId point.artifactId = .ok content ∧
        service.decodeDecision content = some decision ∧
        (decision.approved = true ∨ point.evidenceIds.length ≤ 1000) := by
  constructor
  · rintro ⟨decision, hdecision, -, houtcome⟩
    rcases reviewRelease_cases h hrequired (Prod.ext hdecision rfl) with
      ⟨-, content, -, hfetch, hdecode⟩ | ⟨hfree, -⟩
    · exact ⟨content, decision, hfetch, hdecode, (point.outcome_ok decision).mp houtcome⟩
    · cases hrow.symm.trans hfree
  · rintro ⟨content, decision, hfetch, hdecode, houtcome⟩
    have hload : service.act s
        (answers (.loadReleaseDecision point.sink.projectId point.artifactId))
        (.loadReleaseDecision point.sink.projectId point.artifactId) = (.ok (some decision), s) :=
      act_eq_ok.mpr ⟨h.failure _, (load_stored (h.objects _) hrow).mpr
        ⟨content, decision, hfetch, hdecode, rfl, rfl⟩⟩
    rw [reviewRelease_completes h hrequired hload (pure_ok.mpr ⟨rfl, rfl⟩)]
    obtain ⟨row', hrow', -, hvalid, hread⟩ := fetch_ok hfetch
    obtain ⟨-, hdigest, hsize⟩ := readVerified_ok.mp hread
    exact ⟨decision, rfl, ⟨row', content, hrow', hvalid, hdigest, hsize, .inr hdecode⟩,
      (point.outcome_ok decision).mpr houtcome⟩

theorem starts (h : Quiet answers objects review)
    (point : ReviewPoint service validator objects s.db) :
    ∃ s₁ attempt,
      service.act s (answers (.startStage point.run (.finalReview point.sink.planRevision)))
        (.startStage point.run (.finalReview point.sink.planRevision)) = (.ok (), s₁) ∧
      s₁.db.stageAttemptById (stageAttemptId service.uuid5 point.run.id
        (.finalReview point.sink.planRevision)) = some attempt := by
  let row : RunStageAttemptRow := ⟨stageAttemptId service.uuid5 point.run.id
    (.finalReview point.sink.planRevision), point.run.id, .finalReview point.sink.planRevision,
    service.specHash (.finalReview point.sink.planRevision) point.run, .RUNNING,
    (answers (.startStage point.run (.finalReview point.sink.planRevision))).now, none⟩
  have hid : ∀ existing, s.db.stageAttempts.get? row.key = some existing → existing.id = row.id :=
    point.stage_id
  obtain ⟨db₁, hmerge, attempt, hattempt⟩ := run_mergeStageAttempt hid
  refine ⟨{ s with db := db₁ }, attempt, act_eq_ok.mpr ⟨h.failure _, ?_⟩, hattempt⟩
  exact Platform.transact_eq_ok.mpr ⟨db₁, hmerge, rfl⟩

theorem completes_fresh (h : Quiet answers objects review)
    (hstores : service.StoresDecisions objects)
    (hrequired : validator.requireFinalValidationSink = true)
    (hfree : s.db.artifacts.get? point.artifactId = none) :
    point.Completes ((service.reviewRelease point.run.id (latestTasks (s.db.tasksOf point.run.id))
        point.evidenceIds).runAlone service.act answers s) ↔
      service.FreshLimits objects s.db point.run point.criteria review ∧
        (review.approved = true ∧
            service.reviewObjections objects s.db point.run point.criteria review = [] ∨
          point.evidenceIds.length ≤ 1000) := by
  obtain ⟨s₁, attempt, hstart, hattempt⟩ := point.starts h
  have hartifacts := startStage_artifacts hstart
  constructor
  · rintro ⟨decision, hdecision, -, houtcome⟩
    rcases reviewRelease_cases h hrequired (Prod.ext hdecision rfl) with
      ⟨row, -, hrow, -⟩ | ⟨-, hreturns⟩
    · cases hfree.symm.trans hrow
    · obtain ⟨run, s₂, hrun, hstart', hreturns⟩ :=
        reviewFresh_returns hreturns
      cases point.run_found.symm.trans hrun
      cases hstart.symm.trans hstart'
      obtain ⟨hlimits, happroved, -⟩ :=
        reviewOutput_returns h.toSteady hartifacts hreturns
      exact ⟨hlimits, ((point.outcome_ok decision).mp houtcome).imp_left happroved.mp⟩
  · rintro ⟨hlimits, houtcome⟩
    obtain ⟨decision, s', hreturns⟩ := reviewOutput_completes point.evidenceIds
      h hstores hartifacts (point.accepted.plan_criteria hrequired) hfree hattempt hlimits
    obtain ⟨-, happroved, -, files, audited, draw, -, -, hnew, hput⟩ :=
      reviewOutput_returns h.toSteady hartifacts hreturns
    rw [reviewRelease_completes h hrequired
      (act_eq_ok.mpr ⟨h.failure _, load_missing hfree _⟩)
      (reviewFresh_completes h point.run_found hstart hreturns)]
    refine ⟨decision, rfl, ⟨service.decisionArtifact point.run point.sink decision draw,
      service.encodeDecision decision, ?_, rfl, rfl, rfl, .inl rfl⟩,
      (point.outcome_ok decision).mpr (houtcome.imp_left happroved.mpr)⟩
    rw [hput]
    exact (get?_insert hnew _).trans (if_pos rfl)

end ReviewPoint

/-- A release is reviewed, and a repair can start from a negative review, exactly
within limits that the validator of the plan does not know. -/
theorem review_completes_iff (service : RunFinalizationService) (ceiling : RiskLevel)
    (repr : String → String) (money : Nat → String) (objects : Objects) (s : Platform)
    (point : ReviewPoint service (platformValidator ceiling repr money) objects s.db)
    (review : ReleaseDecision) (answers : Activity → Answer)
    (hanswers : Quiet answers objects review) (hstores : service.StoresDecisions objects) :
    point.Completes ((service.reviewRelease point.run.id (latestTasks (s.db.tasksOf point.run.id))
        point.evidenceIds).runAlone service.act answers s) ↔ point.WithinLimits review := by
  unfold ReviewPoint.WithinLimits
  cases hrow : s.db.artifacts.get? point.artifactId with
  | some row => exact ReviewPoint.completes_stored hanswers rfl hrow
  | none => exact ReviewPoint.completes_fresh hanswers hstores rfl hrow

variable (many : Bool)

def sampleCriteria : List String :=
  if many then (range 100).map fun n => String.ofList (hex 2 n)
  else ["it is known"]

def sampleResearch : TaskSpec where
  id := 2
  planRevision := 1
  projectId := 20
  repositoryId := 30
  title := "research"
  description := "find out"
  taskType := .RESEARCH
  assignedCapability := "research"
  acceptanceCriteria := sampleCriteria many
  allowedTools := ["read_file", "search_code"]

def sampleFinalValidation : TaskSpec where
  id := 1
  planRevision := 1
  projectId := 20
  repositoryId := 30
  title := "validate"
  description := "run the tests"
  taskType := .VALIDATION
  dependencies := [2]
  assignedCapability := "validation"
  acceptanceCriteria := ["tests pass"]
  allowedTools := ["read_file", "run_tests"]
  riskCeiling := .MEDIUM

def sampleResearchPlan : TaskPlan where
  runId := 40
  projectId := 20
  repositoryId := 30
  baselineCommit := sampleRun.baselineCommit
  revision := 1
  tasks := [sampleResearch many, sampleFinalValidation]
  limits := ⟨100, 20, 10000000000, 86400⟩

def samplePlanRow : PlanRevisionRow := ⟨40, 1, sampleResearchPlan many, 0⟩

def sampleDone (spec : TaskSpec) : TaskRow := { spec.row 40 {} with state := .COMPLETED }

/-- Both tasks are completed, and the validation has left its report. -/
def sampleValidated : Platform where
  db := {
    runs := insert ∅ { sampleRun with state := .EXECUTING }
    planRevisions := insert ∅ (samplePlanRow many)
    tasks := (insert ∅ (sampleDone (sampleResearch many))).insert
      (sampleDone sampleFinalValidation)
    artifacts := insert ∅ (sampleEvidence true) }

def sampleValidator : TaskPlanValidator := platformValidator .HIGH id toString

theorem sampleResearchPlan_accepted : sampleValidator.Accepts (sampleResearchPlan many) := by
  cases many <;> decide +kernel

def sampleReports : Objects := fun key =>
  if key = "report" then .ok [1] else .error ⟨"FileNotFoundError", ""⟩

def sampleReviewPoint :
    ReviewPoint sampleFinalizer sampleValidator sampleReports (sampleValidated many).db where
  run := { sampleRun with state := .EXECUTING }
  planRow := samplePlanRow many
  sink := sampleDone sampleFinalValidation
  evidenceIds := [60]
  run_found := rfl
  plan_found := rfl
  accepted := sampleResearchPlan_accepted many
  completed := by cases many <;> decide +kernel
  sink_found := by cases many <;> decide +kernel
  evidence_found := by cases many <;> decide +kernel
  stage_id := by rintro row ⟨⟩

def sampleVerdict : ReleaseDecision :=
  ⟨true, "summary", ("tests pass", [60]) :: (sampleCriteria many).map fun criterion =>
    (criterion, [60]), [], summary_length, noReasons_length⟩

def sampleVerdictAnswers (_ : Activity) : Answer :=
  { objects := sampleReports, review := sampleVerdict many }

theorem sampleVerdictAnswers_quiet :
    Quiet (sampleVerdictAnswers many) sampleReports (sampleVerdict many) :=
  ⟨⟨fun _ => rfl, fun _ => rfl⟩, fun _ => rfl⟩

theorem sampleReports_stores : sampleFinalizer.StoresDecisions sampleReports := by
  intro decision
  have hkey : sampleReports (storageKey (sampleArtifacts.sha256
      (sampleFinalizer.encodeDecision decision))) = .error ⟨"FileNotFoundError", ""⟩ := by
    cases happroved : decision.approved <;>
      simp only [sampleFinalizer, happroved, Bool.false_eq_true, if_true, if_false] <;>
      decide +kernel
  simp only [ArtifactService.put]
  rw [show sampleFinalizer.artifacts = sampleArtifacts from rfl, hkey]
  exact ⟨_, rfl⟩

def sampleReview : Except Raised ReleaseDecision × Platform :=
  (sampleFinalizer.reviewRelease 40 (latestTasks ((sampleValidated many).db.tasksOf 40))
    [60]).runAlone sampleFinalizer.act (sampleVerdictAnswers many) (sampleValidated many)

theorem review_completes_iff_sample : (sampleReviewPoint false).Completes (sampleReview false) := by
  refine (review_completes_iff sampleFinalizer .HIGH id toString sampleReports
    (sampleValidated false) (sampleReviewPoint false) (sampleVerdict false)
    (sampleVerdictAnswers false) (sampleVerdictAnswers_quiet false) sampleReports_stores).mpr ?_
  refine ⟨⟨?_, ?_, ?_⟩, .inr ?_⟩ <;> decide +kernel

/-- A plan of two tasks with 101 criteria is accepted; the model maps every criterion
to a report that passed, and the request for the audit cannot be built. -/
theorem review_fails_beyond_limits :
    (sampleResearchPlan true).WellFormed ∧ sampleValidator.Accepts (sampleResearchPlan true) ∧
      (sampleReview true).1 = .error ⟨.valueError, "acceptance_criteria"⟩ ∧
      ¬ (sampleReviewPoint true).Completes (sampleReview true) := by
  have hcheck : (match (sampleReview true).1 with
      | .ok _ => false
      | .error e => decide (e = ⟨.valueError, "acceptance_criteria"⟩)) = true := by
    decide +kernel
  have hfails : (sampleReview true).1 = .error ⟨.valueError, "acceptance_criteria"⟩ := by
    cases hresult : (sampleReview true).1 with
    | ok decision =>
      rw [hresult] at hcheck
      cases hcheck
    | error e =>
      rw [hresult] at hcheck
      exact congrArg _ (of_decide_eq_true hcheck)
  refine ⟨by decide +kernel, sampleResearchPlan_accepted true, hfails, ?_⟩
  rintro ⟨decision, hdecision, -⟩
  cases hfails.symm.trans hdecision

end AutoSwe
