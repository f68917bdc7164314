import AutoSwe.Finalization.AdvanceNext
import AutoSwe.Finalization.Audit

/-!
# Reviews that nobody disturbs

What a call of `_review_release` returns and stores, in the terms of the database
it starts from: a decision that is stored already is returned as it is, and
otherwise the answer of the model and the objections of the audit make a new one.
-/

namespace AutoSwe

open Relational Transaction Coroutine Table List Process RunFinalizationService Session
  ArtifactService ReleaseDecision Except

/-! ## Calls that return -/

section
variable {service : RunFinalizationService} {answers : Activity → Answer} {s s' : Platform}
  {r : α}

theorem activity_ok : (activity a >>= f).runAlone service.act answers s = (.ok r, s') ↔
      ∃ b s₁, service.act s (answers a) a = (.ok b, s₁) ∧
        (f b).runAlone service.act answers s₁ = (.ok r, s') := by
  rw [runAlone_bind_ok]
  simp only [activity, runAlone_perform]

theorem ofExcept_ok : (ofExcept x >>= f).runAlone service.act answers s = (.ok r, s') ↔
      ∃ b, x = .ok b ∧ (f b).runAlone service.act answers s = (.ok r, s') := by
  rw [runAlone_bind_ok]
  simp only [runAlone_ofExcept, Prod.mk.injEq]
  constructor
  · rintro ⟨b, s₁, ⟨hb, rfl⟩, h⟩
    exact ⟨b, hb, h⟩
  · rintro ⟨b, hb, h⟩
    exact ⟨b, s, ⟨hb, rfl⟩, h⟩

theorem pure_ok : (pure a : Dispatching α).runAlone service.act answers s = (.ok r, s') ↔
    a = r ∧ s = s' := by
  simp [pure, runAlone]

end

/-! ## What the model classes check -/

theorem ReleaseDecision.make_ok {approved : Bool} {summary : String} {evidence : EvidenceMap}
    {reasons : List String} {decision : ReleaseDecision} :
    make approved summary evidence reasons = .ok decision ↔
      (1 ≤ summary.length ∧ summary.length ≤ 20000) ∧ reasons.length ≤ 100 ∧
        decision.approved = approved ∧ decision.summary = summary ∧
        decision.acceptanceEvidence = evidence ∧ decision.failureReasons = reasons := by
  unfold make
  split
  · rename_i hsummary
    split
    · rename_i hreasons
      obtain ⟨approved', summary', evidence', reasons', _, _⟩ := decision
      simp only [ok.injEq, mk.injEq, hsummary, hreasons, and_self, true_and,
        eq_comm]
    · rename_i hreasons
      simp [hreasons]
  · rename_i hsummary
    simp [hsummary]

theorem ReleaseDecision.make_exists {approved : Bool} {summary : String}
    (hsummary : 1 ≤ summary.length ∧ summary.length ≤ 20000) :
    (∃ decision, make approved summary evidence reasons = .ok decision) ↔
      reasons.length ≤ 100 := by
  unfold make
  rw [dif_pos hsummary]
  split <;> rename_i hreasons <;> simp [hreasons]

theorem ReleaseReviewRequest.check_ok (request : ReleaseReviewRequest) :
    request.check = .ok () ↔
      (1 ≤ request.acceptanceCriteria.length ∧ request.acceptanceCriteria.length ≤ 100) ∧
        1 ≤ request.summary.length ∧ request.summary.length ≤ 20000 := by
  unfold ReleaseReviewRequest.check
  split
  · simp only [reduceCtorEq, false_iff]
    omega
  · split
    · simp only [reduceCtorEq, false_iff]
      omega
    · simp only [true_iff]
      omega

theorem VerificationOutcome.failed_ok :
    (∃ outcome, VerificationOutcome.failed signature fingerprint ids = .ok outcome) ↔
      1 ≤ ids.length ∧ ids.length ≤ 1000 := by
  unfold VerificationOutcome.failed
  split <;> rename_i h <;> simp [h]

theorem ReviewOutput.length_failures {output : ReviewOutput} :
    (output.failures audited).length ≤ 100 ↔
      (output.failureReasons ++ audited.failureReasons).eraseDups.length ≤ 100 := by
  unfold ReviewOutput.failures
  split
  · rename_i hnone
    rw [hnone]
    split <;> simp
  · rfl

@[simp] theorem ReleaseDecision.downgraded_summary (output : ReleaseDecision)
    (criteria : List String) : (output.downgraded criteria).summary = output.summary := by
  unfold downgraded
  split
  · rfl
  · split <;> rfl

@[simp] theorem ReleaseDecision.downgraded_evidence {output : ReleaseDecision} :
    (output.downgraded criteria).acceptanceEvidence = output.acceptanceEvidence := by
  unfold downgraded
  split
  · rfl
  · split <;> rfl

theorem ReleaseDecision.downgraded_approved {output : ReleaseDecision} {criteria : List String}
    (h : ∀ criterion ∈ criteria, output.acceptanceEvidence.get criterion ≠ []) :
    (output.downgraded criteria).approved = output.approved := by
  have hmapped : (criteria.filter fun criterion =>
      output.acceptanceEvidence.get criterion = []) = [] := by
    simpa using h
  simp only [downgraded, hmapped]

/-! ## Reviews that return -/

theorem Platform.transact_eq_ok {s s' : Platform} {p : Session α} :
    s.transact p = (.ok a, s') ↔ ∃ db', p.run s.db = .ok (a, db') ∧ s' = { s with db := db' } := by
  unfold Platform.transact Prog.commit
  cases hrun : p.run s.db with
  | error e => simp
  | ok outcome =>
    obtain ⟨b, db'⟩ := outcome
    simp only [Prod.mk.injEq, ok.injEq]
    constructor
    · rintro ⟨rfl, rfl⟩
      exact ⟨db', ⟨rfl, rfl⟩, rfl⟩
    · rintro ⟨db'', ⟨rfl, rfl⟩, rfl⟩
      exact ⟨rfl, rfl⟩

/-- The files stay, and the model answers `review`. -/
structure Steady (answers : Activity → Answer) (objects : Objects) (review : ReleaseDecision) :
    Prop where
  objects (a : Activity) : (answers a).objects = objects
  review (a : Activity) : (answers a).review = review

structure Quiet (answers : Activity → Answer) (objects : Objects) (review : ReleaseDecision) : Prop
    extends Steady answers objects review where
  failure (a : Activity) : (answers a).failure = none

/-- No damaged file lies where a decision would be stored. -/
def RunFinalizationService.StoresDecisions (service : RunFinalizationService) (objects : Objects) :
    Prop :=
  ∀ decision, ∃ files, service.artifacts.put objects (service.encodeDecision decision) = .ok files

section
variable {service : RunFinalizationService} {answers : Activity → Answer} {objects : Objects}
  {review : ReleaseDecision} {s s' : Platform}

theorem act_eq_ok :
    service.act s (answers a) a = (.ok b, s') ↔
      (answers a).failure = none ∧ a.carryOut service (a.start s) (answers a) = (.ok b, s') := by
  rw [act, Activity.act]
  cases (answers a).failure <;> simp

/-- The request that the review makes of the answer of the model. -/
abbrev ReleaseDecision.auditRequest (review : ReleaseDecision) (run : RunRow)
    (criteria : List String) : ReleaseReviewRequest :=
  (review.downgraded criteria).request run criteria

theorem agree_of_act
    (h : service.act s (answers a) a = (r, s')) (hsub : ∀ t ∈ a.tables, t ∈ tables) :
    Agree tables s.db s'.db := by
  have hagree := a.act_agree service s (answers a)
  rw [show a.act service s (answers a) = (r, s') from h] at hagree
  exact hagree.weaken hsub

theorem reviewOutput_ok (h : Steady answers objects review) :
    (reviewOutput run sink criteria evidenceIds).runAlone service.act answers
        s = (.ok decision, s') ↔
      (answers (.askReviewer run criteria evidenceIds)).failure = none ∧
      (review.auditRequest run criteria).check = .ok () ∧
      ∃ audit s₁ audited, service.act s (answers (.audit (review.auditRequest run criteria)))
          (.audit (review.auditRequest run criteria)) = (.ok audit, s₁) ∧
        audit.decision (review.auditRequest run criteria) = .ok audited ∧
        (review.downgraded criteria).decision audited = .ok decision ∧
        service.act s₁ (answers (.storeDecision run sink decision))
          (.storeDecision run sink decision) = (.ok (), s') := by
  have hask : ∀ {review' s₁}, service.act s (answers (.askReviewer run criteria evidenceIds))
      (.askReviewer run criteria evidenceIds) = (.ok review', s₁) ↔
      (answers (.askReviewer run criteria evidenceIds)).failure = none ∧
        review = review' ∧ s = s₁ := by
    intro review' s₁
    rw [act_eq_ok, Activity.carryOut, h.review, Prod.mk.injEq, ok.injEq]
    rfl
  constructor
  · intro hrun
    obtain ⟨_, _, hasked, hrun⟩ := activity_ok.mp hrun
    obtain ⟨hquiet, rfl, rfl⟩ := hask.mp hasked
    obtain ⟨⟨⟩, hcheck, hrun⟩ := ofExcept_ok.mp hrun
    obtain ⟨audit, s₁, haudit, hrun⟩ := activity_ok.mp hrun
    obtain ⟨audited, haudited, hrun⟩ := ofExcept_ok.mp hrun
    obtain ⟨_, hdecision, hrun⟩ := ofExcept_ok.mp hrun
    obtain ⟨⟨⟩, _, hstored, hrun⟩ := activity_ok.mp hrun
    obtain ⟨rfl, rfl⟩ := pure_ok.mp hrun
    exact ⟨hquiet, hcheck, audit, s₁, audited, haudit, haudited, hdecision, hstored⟩
  · rintro ⟨hquiet, hcheck, audit, s₁, audited, haudit, haudited, hdecision, hstored⟩
    refine activity_ok.mpr ⟨review, s, hask.mpr ⟨hquiet, rfl, rfl⟩,
      ofExcept_ok.mpr ⟨(), hcheck, ?_⟩⟩
    refine activity_ok.mpr ⟨audit, s₁, haudit, ofExcept_ok.mpr ⟨audited, haudited, ?_⟩⟩
    refine ofExcept_ok.mpr ⟨decision, hdecision, activity_ok.mpr ⟨(), s', hstored, ?_⟩⟩
    exact pure_ok.mpr ⟨rfl, rfl⟩

theorem carryOut_audit (service : RunFinalizationService) (h : Steady answers objects review)
    {db : Database}
    (hartifacts : s.db.artifacts = db.artifacts) (request : ReleaseReviewRequest) :
    ∃ db', (Activity.audit request).carryOut service s (answers (.audit request)) =
        (.ok ⟨service.artifacts.verifiedEvidence objects db request request.acceptanceCriteria,
          (service.artifacts.objections objects db request).map Objection.text⟩,
          { s with db := db' }) ∧
      Agree evidenceTables s.db db' ∧
      service.artifacts.Marked objects request.projectId db
        (request.acceptanceCriteria.flatMap request.proposed) db' := by
  have hstart : service.artifacts.Marked objects request.projectId db [] s.db := .start hartifacts
  obtain ⟨db', hrun, hmarked⟩ :=
    run_audit (answers (.audit request)).draws hstart
  refine ⟨db', ?_, Touches.audit.refines trivial hrun, hmarked⟩
  rw [Activity.carryOut, h.objects]
  exact Platform.transact_eq_ok.mpr ⟨db', hrun, rfl⟩

variable {service : RunFinalizationService}

theorem run_storeDecision (hput : service.artifacts.put objects (service.encodeDecision decision) =
      .ok files)
    (hfree : db.artifacts.get? (service.decisionArtifactId run.id sink.planRevision) = none)
    (hattempt : db.stageAttemptById
      (stageAttemptId service.uuid5 run.id (.finalReview sink.planRevision)) = some attempt) :
    ∃ db', (service.storeDecision objects run sink decision now draw).run db = .ok ((), db') := by
  let db₁ := { db with
    artifacts := db.artifacts.insert (service.decisionArtifact run sink decision draw) }
  have hinsert : (insertArtifact
      (service.decisionArtifact run sink decision draw)).run db = .ok ((), db₁) := by
    refine Prog.checked_ok.mpr ⟨fun db => { db with
      artifacts := db.artifacts.insert (service.decisionArtifact run sink decision draw) }, ?_, rfl⟩
    rw [show db.artifacts.get? (service.decisionArtifact run sink decision draw).id = none from
      hfree]
  have hquery : (Prog.query fun db => db.stageAttemptById (stageAttemptId service.uuid5 run.id
      (.finalReview sink.planRevision)) : Session _).run db₁ = .ok (some attempt, db₁) := by
    rw [Prog.run_query]
    exact congrArg (fun found => ok (found, db₁)) hattempt
  have hrequire : (require ((service.artifacts.put objects
      (service.encodeDecision decision)).map fun _ => ())).run db = .ok ((), db) := by
    rw [hput]
    rfl
  exact ⟨_, Prog.bind_ok.mpr ⟨(), db, hrequire, Prog.bind_ok.mpr ⟨(), db₁, hinsert,
    Prog.bind_ok.mpr ⟨some attempt, db₁, hquery, rfl⟩⟩⟩⟩

theorem storeDecision_stored
    (h : (service.storeDecision objects run sink decision now draw).run db = .ok ((), db')) :
    (∃ files, service.artifacts.put objects (service.encodeDecision decision) = .ok files) ∧
      db.artifacts.get? (service.decisionArtifactId run.id sink.planRevision) = none ∧
      db'.artifacts = db.artifacts.insert (service.decisionArtifact run sink decision draw) := by
  obtain ⟨⟨⟩, _, hrequire, h⟩ := Prog.bind_ok.mp h
  obtain ⟨hput, rfl⟩ := require_ok.mp hrequire
  obtain ⟨⟨⟩, db₁, hinsert, h⟩ := Prog.bind_ok.mp h
  obtain ⟨w, hw, rfl⟩ := Prog.checked_ok.mp hinsert
  split at hw
  · rename_i hfree
    cases hw
    have h := Prog.after h rfl
    split at h
    · cases h
    · cases h
      refine ⟨?_, hfree, rfl⟩
      cases hfiles : service.artifacts.put objects (service.encodeDecision decision) with
      | ok files => exact ⟨files, rfl⟩
      | error e =>
        rw [hfiles] at hput
        cases hput
  · cases hw

theorem run_mergeStageAttempt
    (hid : ∀ existing, db.stageAttempts.get? row.key = some existing → existing.id = row.id) :
    ∃ db', (mergeStageAttempt row).run db = .ok ((), db') ∧
      ∃ attempt, db'.stageAttemptById row.id = some attempt := by
  have hfound : ∀ {table : Table (UUID × Stage) RunStageAttemptRow RunStageAttemptRow.key} {k r},
      table.get? k = some r → r.id = row.id →
      ∃ attempt, (table.rows.find? fun r => r.id = row.id) = some attempt := by
    intro table k r hr hr'
    refine Option.isSome_iff_exists.mp (find?_isSome.mpr ⟨r, mem_of_get? hr, ?_⟩)
    exact decide_eq_true hr'
  cases hexisting : db.stageAttemptById row.id with
  | some existing =>
    have hexistingId : existing.id = row.id := by simpa using find?_some hexisting
    have hget := get?_of_mem (mem_of_find?_eq_some hexisting)
    refine ⟨_, Prog.checked_ok.mpr ⟨Database.setStageAttempt { existing with
      agentSpecHash := row.agentSpecHash, status := row.status }, by rw [hexisting], rfl⟩, ?_⟩
    exact hfound (show (db.stageAttempts.set { existing with
      agentSpecHash := row.agentSpecHash, status := row.status }).get? existing.key = _ from
        get?_set_self hget) hexistingId
  | none =>
    have hfree : db.stageAttempts.get? row.key = none := by
      cases hget : db.stageAttempts.get? row.key with
      | none => rfl
      | some existing =>
        obtain ⟨attempt, hattempt⟩ := hfound hget (hid existing hget)
        cases hexisting.symm.trans hattempt
    refine ⟨_, Prog.checked_ok.mpr ⟨fun db => { db with
      stageAttempts := db.stageAttempts.insert row }, by rw [hexisting, hfree], rfl⟩, ?_⟩
    exact hfound ((get?_insert hfree row.key).trans (if_pos rfl)) rfl

end

/-! ## A review without a stored decision -/

namespace RunFinalizationService

section
variable (service : RunFinalizationService) (objects : Objects) (db : Database) (run : RunRow)
  (criteria : List String) (review : ReleaseDecision)

def reviewObjections : List Objection :=
  service.artifacts.objections objects db (review.auditRequest run criteria)

def reviewReasons : List String :=
  ((review.downgraded criteria).failureReasons ++
    (service.reviewObjections objects db run criteria review).map Objection.text).eraseDups

/-- The limits of the request, of the decision of the audit and of the decision. -/
def FreshLimits : Prop :=
  criteria.length ≤ 100 ∧ (service.reviewObjections objects db run criteria review).length ≤ 100 ∧
    (service.reviewReasons objects db run criteria review).length ≤ 100

end

variable {service : RunFinalizationService} {answers : Activity → Answer} {objects : Objects}
  {review : ReleaseDecision} {s s' : Platform} {db : Database} {run : RunRow}
  {criteria : List String}

/-- The decision becomes an artifact, after the audit has marked what it could not
read. -/
def Stores (service : RunFinalizationService) (objects : Objects) (db : Database) (run : RunRow)
    (sink : TaskRow) (criteria : List String) (review decision : ReleaseDecision)
    (db' : Database) : Prop :=
  ∃ files audited draw,
    service.artifacts.put objects (service.encodeDecision decision) = .ok files ∧
    service.artifacts.Marked objects run.projectId db
      (criteria.flatMap (review.auditRequest run criteria).proposed) audited ∧
    audited.artifacts.get? (service.decisionArtifactId run.id sink.planRevision) = none ∧
    db'.artifacts = audited.artifacts.insert (service.decisionArtifact run sink decision draw)

def auditOf (service : RunFinalizationService) (objects : Objects) (db : Database) (run : RunRow)
    (criteria : List String) (review : ReleaseDecision) : Audit where
  evidence := service.artifacts.verifiedEvidence objects db (review.auditRequest run criteria)
    criteria
  failures := (service.reviewObjections objects db run criteria review).map Objection.text

theorem auditOf_decision :
    (service.auditOf objects db run criteria review).decision (review.auditRequest run criteria) =
        .ok audited ↔
      (service.reviewObjections objects db run criteria review).length ≤ 100 ∧
      (audited.approved = decide (service.reviewObjections objects db run criteria review = [])) ∧
      audited.summary = review.summary ∧
      audited.acceptanceEvidence = (service.auditOf objects db run criteria review).evidence ∧
      audited.failureReasons =
        (service.reviewObjections objects db run criteria review).map Objection.text := by
  have hcovered : service.reviewObjections objects db run criteria review = [] →
      ∀ criterion ∈ criteria, criterion ∈
        (service.auditOf objects db run criteria review).evidence.map Prod.fst := by
    intro hnone criterion hcriterion
    obtain ⟨hsome, hverified⟩ :=
      of_objections_eq_nil hnone criterion hcriterion
    simp only [auditOf, verifiedEvidence, map_map]
    refine mem_map.mpr ⟨criterion, mem_filter.mpr ⟨hcriterion, ?_⟩, rfl⟩
    rw [hverified]
    exact decide_eq_true hsome
  have happroved : (decide ((service.auditOf objects db run criteria review).failures = []) &&
      (review.auditRequest run criteria).acceptanceCriteria.all fun criterion =>
        criterion ∈ (service.auditOf objects db run criteria review).evidence.map Prod.fst) =
      decide (service.reviewObjections objects db run criteria review = []) := by
    by_cases hnone : service.reviewObjections objects db run criteria review = []
    · have hall : ((review.auditRequest run criteria).acceptanceCriteria.all fun criterion =>
          criterion ∈ (service.auditOf objects db run criteria review).evidence.map Prod.fst) =
          true := by
        refine all_eq_true.mpr fun criterion hcriterion => ?_
        exact decide_eq_true (hcovered hnone criterion hcriterion)
      rw [hall]
      simp [auditOf, hnone]
    · simp [auditOf, hnone]
  rw [Audit.decision, make_ok, happroved]
  simp only [auditOf, length_map, ReviewOutput.request, downgraded_summary,
    review.summary_length, and_self, true_and]

/-- What is approved: a positive answer of the model that the audit confirms. -/
theorem approved_iff
    (haudited : (service.auditOf objects db run criteria review).decision
      (review.auditRequest run criteria) = .ok audited)
    (hdecision : (review.downgraded criteria).decision audited = .ok decision) :
    decision.approved = true ↔
      review.approved = true ∧ service.reviewObjections objects db run criteria review = [] := by
  obtain ⟨-, happroved, -, -, -⟩ := auditOf_decision.mp haudited
  obtain ⟨-, -, hdecided, -⟩ := make_ok.mp hdecision
  rw [hdecided, happroved, Bool.and_eq_true, decide_eq_true_eq]
  refine and_congr_left fun hnone => ?_
  rw [downgraded_approved]
  intro criterion hcriterion hunmapped
  refine (of_objections_eq_nil hnone criterion hcriterion).1 ?_
  simp [ReleaseReviewRequest.proposed, ReviewOutput.request, hunmapped]

theorem decision_ok
    (haudited : (service.auditOf objects db run criteria review).decision
      (review.auditRequest run criteria) = .ok audited) :
    (∃ decision, (review.downgraded criteria).decision audited = .ok decision) ↔
      (service.reviewReasons objects db run criteria review).length ≤ 100 := by
  obtain ⟨-, -, -, -, hreasons⟩ := auditOf_decision.mp haudited
  rw [reviewReasons, ← hreasons, ← ReviewOutput.length_failures]
  exact make_exists (by simpa using review.summary_length)

theorem auditOf_decision_exists :
    (∃ audited, (service.auditOf objects db run criteria review).decision
        (review.auditRequest run criteria) = .ok audited) ↔
      (service.reviewObjections objects db run criteria review).length ≤ 100 := by
  rw [← length_map (f := Objection.text)]
  exact make_exists (by simpa [ReviewOutput.request] using review.summary_length)

-- what the review does with it

theorem reviewOutput_returns (h : Steady answers objects review)
    (hartifacts : s.db.artifacts = db.artifacts)
    (hreturns : (reviewOutput run sink criteria evidenceIds).runAlone service.act answers s =
      (.ok decision, s')) :
    service.FreshLimits objects db run criteria review ∧
      (decision.approved = true ↔ review.approved = true ∧
        service.reviewObjections objects db run criteria review = []) ∧
      decision.acceptanceEvidence = (service.auditOf objects db run criteria review).evidence ∧
      service.Stores objects db run sink criteria review decision s'.db := by
  obtain ⟨-, hcheck, audit, s₁, audited, haudit, haudited, hdecision, hstored⟩ :=
    (reviewOutput_ok h).mp hreturns
  obtain ⟨db', haudit', -, hmarked⟩ :=
    carryOut_audit service h hartifacts (review.auditRequest run criteria)
  cases (act_eq_ok.mp haudit).2.symm.trans haudit'
  have hcarried := (act_eq_ok.mp hstored).2
  rw [Activity.carryOut, h.objects] at hcarried
  obtain ⟨db₂, hrun, rfl⟩ := Platform.transact_eq_ok.mp hcarried
  refine ⟨⟨?_, (auditOf_decision.mp haudited).1, (decision_ok haudited).mp ⟨_, hdecision⟩⟩,
    approved_iff haudited hdecision, ?_, ?_⟩
  · exact ((ReleaseReviewRequest.check_ok _).mp hcheck).1.2
  · obtain ⟨-, -, -, -, hevidence, -⟩ := make_ok.mp hdecision
    exact hevidence.trans (auditOf_decision.mp haudited).2.2.2.1
  · obtain ⟨⟨files, hput⟩, hfree, hinserted⟩ := storeDecision_stored hrun
    exact ⟨files, db', _, hput, hmarked, hfree, hinserted⟩

theorem reviewOutput_completes (evidenceIds : List UUID) (h : Quiet answers objects review)
    (hstores : service.StoresDecisions objects)
    (hartifacts : s.db.artifacts = db.artifacts) (hcriteria : criteria ≠ [])
    (hfree : db.artifacts.get? (service.decisionArtifactId run.id sink.planRevision) = none)
    (hattempt : s.db.stageAttemptById
      (stageAttemptId service.uuid5 run.id (.finalReview sink.planRevision)) = some attempt)
    (hlimits : service.FreshLimits objects db run criteria review) :
    ∃ decision s', (reviewOutput run sink criteria evidenceIds).runAlone service.act answers s =
      (.ok decision, s') := by
  obtain ⟨hlength, hobjections, hreasons⟩ := hlimits
  have hcheck : (review.auditRequest run criteria).check = .ok () := by
    refine (ReleaseReviewRequest.check_ok _).mpr ⟨⟨length_pos_of_ne_nil hcriteria, hlength⟩, ?_⟩
    simpa [ReviewOutput.request] using review.summary_length
  obtain ⟨db', haudit, hagree, hmarked⟩ :=
    carryOut_audit service h.toSteady hartifacts (review.auditRequest run criteria)
  obtain ⟨audited, haudited⟩ := auditOf_decision_exists.mpr hobjections
  obtain ⟨decision, hdecision⟩ := (decision_ok haudited).mpr hreasons
  have hattempt' : db'.stageAttemptById
      (stageAttemptId service.uuid5 run.id (.finalReview sink.planRevision)) = some attempt := by
    have hstages : db'.stageAttempts = s.db.stageAttempts := hagree .stageAttempts (by decide)
    rw [Database.stageAttemptById, hstages]
    exact hattempt
  have hfree' : db'.artifacts.get? (service.decisionArtifactId run.id sink.planRevision) =
    none := by
    rw [hmarked, hfree, Option.map_none]
  obtain ⟨files, hput⟩ := hstores decision
  obtain ⟨db'', hstored⟩ := run_storeDecision
    hput hfree' hattempt'
  refine ⟨decision, { s with db := db'' }, (reviewOutput_ok h.toSteady).mpr ⟨h.failure _, hcheck, _,
    _, audited, act_eq_ok.mpr ⟨h.failure _, haudit⟩, haudited, hdecision,
    act_eq_ok.mpr ⟨h.failure _, ?_⟩⟩⟩
  rw [Activity.carryOut, h.objects]
  exact Platform.transact_eq_ok.mpr ⟨db'', hstored, rfl⟩

theorem reviewFresh_returns
    (hreturns : (reviewFresh runId sink criteria evidenceIds).runAlone service.act answers s =
      (.ok decision, s')) :
    ∃ run s₁, s.db.runs.get? runId = some run ∧
      service.act s (answers (.startStage run (.finalReview sink.planRevision)))
        (.startStage run (.finalReview sink.planRevision)) = (.ok (), s₁) ∧
      (reviewOutput run sink criteria evidenceIds).runAlone service.act answers s₁ =
        (.ok decision, s') := by
  obtain ⟨found, _, hfound, hreturns⟩ := activity_ok.mp hreturns
  obtain ⟨-, hfound⟩ := act_eq_ok.mp hfound
  cases hfound
  split at hreturns
  · cases hreturns
  · rename_i run hrun
    obtain ⟨⟨⟩, s₁, hstarted, hreturns⟩ := activity_ok.mp hreturns
    rcases runAlone_tryCatch_ok.mp hreturns with hreturns | ⟨e, s₂, -, hthrown⟩
    · exact ⟨run, s₁, hrun, hstarted, hreturns⟩
    · obtain ⟨_, _, _, hthrown⟩ := activity_ok.mp hthrown
      cases hthrown

theorem reviewFresh_completes (h : Quiet answers objects review)
    (hrun : s.db.runs.get? run.id = some run)
    (hstarted : service.act s (answers (.startStage run (.finalReview sink.planRevision)))
      (.startStage run (.finalReview sink.planRevision)) = (.ok (), s₁))
    (hreturns : (reviewOutput run sink criteria evidenceIds).runAlone service.act answers s₁ =
      (.ok decision, s')) :
    (reviewFresh run.id sink criteria evidenceIds).runAlone service.act answers s =
      (.ok decision, s') := by
  have hget : service.act s (answers (.getRun run.id)) (.getRun run.id) = (.ok (some run), s) := by
    refine act_eq_ok.mpr ⟨h.failure _, ?_⟩
    rw [Activity.carryOut, ← hrun]
    rfl
  refine activity_ok.mpr ⟨some run, s, hget, activity_ok.mpr ⟨(), s₁, hstarted, ?_⟩⟩
  exact runAlone_tryCatch_ok.mpr (.inl hreturns)

theorem startStage_artifacts
    (h : service.act s (answers (.startStage run stage)) (.startStage run stage) = (.ok (), s')) :
    s'.db.artifacts = s.db.artifacts :=
  agree_of_act h (fun _ ht => ht) .artifacts (by simp [Activity.tables])

/-! ## A decision that is stored already -/

theorem load_missing (h : s.db.artifacts.get? artifactId = none) (answer : Answer) :
    (Activity.loadReleaseDecision projectId artifactId).carryOut service s answer =
      (.ok none, s) := by
  refine Platform.transact_eq_ok.mpr ⟨s.db, ?_, rfl⟩
  simp only [loadReleaseDecision, Prog.run_bind, Prog.run_query, h]
  rfl

theorem load_stored {answer : Answer} (hobjects : answer.objects = objects)
    (hrow : s.db.artifacts.get? artifactId = some row) :
    (Activity.loadReleaseDecision projectId artifactId).carryOut service s answer =
        (.ok replay, s') ↔
      ∃ content decision, service.artifacts.fetch objects s.db projectId artifactId = .ok content ∧
        service.decodeDecision content = some decision ∧ replay = some decision ∧ s' = s := by
  rw [Activity.carryOut, hobjects, Platform.transact_eq_ok]
  obtain ⟨db', hread, hmarks⟩ := @ArtifactService.run_getVerified service.artifacts
    objects projectId
    artifactId answer.draw s.db
  simp only [loadReleaseDecision, Prog.run_bind, Prog.run_query, hrow, hread]
  cases hfetch : service.artifacts.fetch objects s.db projectId artifactId with
  | error failure => simp [raise]
  | ok content =>
    have hkept : db' = s.db := by
      refine hmarks.resolve_right ?_
      rintro ⟨row', hrow', ⟨failure, hfailure⟩, -⟩
      obtain ⟨row'', hrow'', -, -, hcontent⟩ := fetch_ok hfetch
      cases hrow'.symm.trans hrow''
      cases hfailure.symm.trans hcontent
    subst hkept
    cases hdecode : service.decodeDecision content with
    | none => simp [hdecode, raise]
    | some decision =>
      simp only [hdecode, Prog.run_pure, ok.injEq, Prod.mk.injEq]
      constructor
      · rintro ⟨db', ⟨rfl, rfl⟩, rfl⟩
        exact ⟨content, decision, rfl, hdecode, rfl, rfl⟩
      · rintro ⟨_, decision', rfl, hdecode', rfl, rfl⟩
        exact ⟨s'.db, ⟨hdecode.symm.trans hdecode', rfl⟩, rfl⟩

/-- Where a decision comes from: there is nothing to decide about, a decision is
stored already, or the answer of the model is audited. -/
theorem reviewRelease_returns (h : Steady answers objects review)
    (hreturns : (service.reviewRelease runId latest evidenceIds).runAlone service.act answers s =
      (.ok decision, s')) :
    ∃ sink planRow, integrationSink latest = .ok sink ∧ s.db.currentPlan runId = some planRow ∧
      (planRow.plan.criteria = [] ∧ decision.approved = false ∨
        (∃ row content, s.db.artifacts.get? (service.decisionArtifactId runId sink.planRevision) =
            some row ∧
          service.artifacts.fetch objects s.db sink.projectId
            (service.decisionArtifactId runId sink.planRevision) = .ok content ∧
          service.decodeDecision content = some decision ∧ s' = s) ∨
        s.db.artifacts.get? (service.decisionArtifactId runId sink.planRevision) = none ∧
          (reviewFresh runId sink planRow.plan.criteria evidenceIds).runAlone service.act
            answers s =
            (.ok decision, s')) := by
  obtain ⟨sink, hsink, hreturns⟩ := ofExcept_ok.mp hreturns
  obtain ⟨found, _, hfound, hreturns⟩ := activity_ok.mp hreturns
  obtain ⟨-, hfound⟩ := act_eq_ok.mp hfound
  cases hfound
  split at hreturns
  · cases hreturns
  · rename_i planRow hplan
    refine ⟨sink, planRow, hsink, hplan, ?_⟩
    obtain ⟨⟨⟩, -, hreturns⟩ := ofExcept_ok.mp hreturns
    cases hcriteria : planRow.plan.criteria with
    | nil =>
      simp only [hcriteria, runAlone_ofExcept, Prod.mk.injEq] at hreturns
      exact .inl ⟨rfl, (make_ok.mp hreturns.1).2.2.1⟩
    | cons =>
      simp only [hcriteria] at hreturns
      obtain ⟨replay, s₁, hload, hend⟩ := activity_ok.mp hreturns
      obtain ⟨-, hload⟩ := act_eq_ok.mp hload
      cases hrow : s.db.artifacts.get? (service.decisionArtifactId runId sink.planRevision) with
      | none =>
        cases (load_missing hrow _).symm.trans hload
        exact .inr (.inr ⟨rfl, hend⟩)
      | some row =>
        obtain ⟨content, decision', hfetch, hdecode, rfl, rfl⟩ :=
          (load_stored (h.objects _) hrow).mp hload
        obtain ⟨rfl, rfl⟩ := pure_ok.mp hend
        exact .inr (.inl ⟨row, content, rfl, hfetch, hdecode, rfl⟩)

end RunFinalizationService

end AutoSwe
