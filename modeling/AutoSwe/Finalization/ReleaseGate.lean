import AutoSwe.Finalization.ReviewLimits

/-!
# The gate of a release

A run that `_advance_executing` moves on has completed tasks, a verified sink, no
failed verification and a decision that maps every criterion to valid artifacts.
The last part rests on the audit, and a decision that is found stored is not
audited again: for such a decision it has to hold already (`release_gate_iff`).
-/

namespace AutoSwe

open Relational Transaction Coroutine Prog Table List Process RunFinalizationService Function
  ArtifactService

/-! ## What the gate is for -/

namespace RunFinalizationService

section
variable (service : RunFinalizationService) (files : Objects) (db : Database) (runId : UUID)

/-- The artifact rehashes, and its document says this about the verification. -/
def Reports (row : ArtifactRow) (passed : Bool) : Prop :=
  ∃ content document, service.artifacts.readVerified files row = .ok content ∧
    service.loads content = some document ∧ persistedClaim document = some (.bool passed)

def Holds (artifactId : UUID) : Prop :=
  ∃ row, db.artifacts.get? artifactId = some row ∧ row.runId = runId ∧ row.state = .VALID ∧
    service.artifacts.Rehashes files row

/-- The decision maps every criterion to artifacts that hold. -/
def Maps (criteria : List String) (decision : ReleaseDecision) : Prop :=
  ∀ criterion ∈ criteria, decision.acceptanceEvidence.get criterion ≠ [] ∧
    ∀ artifactId ∈ decision.acceptanceEvidence.get criterion,
      service.Holds files db runId artifactId

structure GateHolds (decision : ReleaseDecision) : Prop where
  completed : ∀ task ∈ db.tasksOf runId, task.state = .COMPLETED
  verified : ∃ sink, integrationSink (latestTasks (db.tasksOf runId)) = .ok sink ∧
    ∃ row ∈ db.artifacts.rows, row.taskId = sink.id ∧ service.Reports files row true
  intact : ∀ row ∈ db.artifacts.rows,
    row.taskId ∈ (latestTasks (db.tasksOf runId)).map TaskRow.id →
      service.artifacts.Rehashes files row ∧ ¬ service.Reports files row false
  stored : ∃ sink row content, integrationSink (latestTasks (db.tasksOf runId)) = .ok sink ∧
    db.artifacts.get? (service.decisionArtifactId runId sink.planRevision) = some row ∧
    service.artifacts.readVerified files row = .ok content ∧
    (content = service.encodeDecision decision ∨ service.decodeDecision content = some decision)
  mapped : ∃ planRow, db.currentPlan runId = some planRow ∧
    service.Maps files db runId planRow.plan.criteria decision

/-- A decision that is stored already maps every criterion of the current plan to
artifacts that hold. -/
def ReplayHolds : Prop :=
  ∀ sink planRow content decision,
    integrationSink (latestTasks (db.tasksOf runId)) = .ok sink →
    db.currentPlan runId = some planRow →
    service.artifacts.fetch files db sink.projectId
      (service.decisionArtifactId runId sink.planRevision) = .ok content →
    service.decodeDecision content = some decision →
    service.Maps files db runId planRow.plan.criteria decision

/-- The review that `_advance_executing` asks for. -/
def gateReview (answers : Activity → Answer) (s : Platform) : Except Raised ReleaseDecision :=
  match service.verificationEvidence files s.db (latestTasks (s.db.tasksOf runId)) with
  | .error e => .error e
  | .ok (_, evidenceIds) =>
    ((service.reviewRelease runId (latestTasks (s.db.tasksOf runId)) evidenceIds).runAlone
      service.act answers s).1

def filesAfter (decision : ReleaseDecision) : Objects :=
  match integrationSink (latestTasks (db.tasksOf runId)) with
  | .error _ => files
  | .ok sink =>
    match db.artifacts.get? (service.decisionArtifactId runId sink.planRevision) with
    | some _ => files
    | none =>
      (service.artifacts.put files (service.encodeDecision decision)).toOption.getD files

end

end RunFinalizationService

/-! ## Files -/

namespace ArtifactService

variable {service : ArtifactService} {objects files : Objects}

theorem put_ok (hput : service.put objects content = .ok files) :
    (∃ stored, files (storageKey (service.sha256 content)) = .ok stored ∧
      service.sha256 stored = service.sha256 content) ∧
      ∀ key bytes, objects key = .ok bytes → files key = .ok bytes := by
  unfold put at hput
  cases hobject : objects (storageKey (service.sha256 content)) with
  | ok stored =>
    simp only [hobject] at hput
    split at hput
    · cases hput
    · rename_i hmatch
      cases hput
      exact ⟨⟨stored, hobject, not_not.mp (not_or.mp hmatch).1⟩, fun _ _ h => h⟩
  | error failure =>
    simp only [hobject] at hput
    split at hput
    · cases hput
      refine ⟨⟨content, if_pos rfl, rfl⟩, fun key bytes h => (if_neg ?_).trans h⟩
      rintro rfl
      cases hobject.symm.trans h
    · cases hput

theorem readVerified_put (hput : service.put objects content = .ok files)
    (h : service.readVerified objects row = .ok bytes) :
    service.readVerified files row = .ok bytes := by
  obtain ⟨hread, hdigest, hsize⟩ := readVerified_ok.mp h
  exact readVerified_ok.mpr ⟨(put_ok hput).2 _ _ hread, hdigest, hsize⟩

theorem rehashes_of_read (h : service.readVerified objects row = .ok content) :
    service.Rehashes objects row :=
  ⟨content, readVerified_ok.mp h⟩

theorem rehashes_put (hput : service.put objects content = .ok files)
    (h : service.Rehashes objects row) : service.Rehashes files row := by
  obtain ⟨bytes, hbytes⟩ := h
  exact rehashes_of_read (readVerified_put hput (readVerified_ok.mpr hbytes))

end ArtifactService

/-! ## The scan -/

namespace RunFinalizationService

variable {service : RunFinalizationService} {objects : Objects} {db : Database}

theorem fetch_of_clean (h : (service.reader objects db projectId).Clean row) :
    ∃ content, service.artifacts.fetch objects db projectId row.id = .ok content ∧
      ∀ document, service.loads content = some document →
        persistedClaim document ≠ some (.bool false) := by
  obtain ⟨content, hfetch, hclaim⟩ := h
  simp only [reader] at hfetch
  split at hfetch
  · rename_i bytes hbytes
    cases hfetch
    exact ⟨bytes, hbytes, hclaim⟩
  · cases hfetch

theorem readVerified_of_fetch (hrow : row ∈ db.artifacts.rows)
    (hfetch : service.artifacts.fetch objects db projectId row.id = .ok content) :
    service.artifacts.readVerified objects row = .ok content := by
  obtain ⟨row', hrow', -, -, hread⟩ := fetch_ok hfetch
  cases (get?_of_mem hrow).symm.trans hrow'
  exact hread

theorem reports_of_passing (hrow : row ∈ db.artifacts.rows)
    (h : (service.reader objects db projectId).Passing row) : service.Reports objects row true := by
  obtain ⟨document, hfetch, hclaim⟩ := h
  simp only [reader] at hfetch
  split at hfetch
  · rename_i bytes hbytes
    exact ⟨bytes, document, readVerified_of_fetch hrow hbytes, Except.ok.inj hfetch, hclaim⟩
  · cases hfetch

theorem readEvidence_clean
    (h : ∀ row ∈ db.artifacts.rows, row.taskId ∈ tasks.map TaskRow.id →
      (service.reader objects db ((tasks.head?.map TaskRow.projectId).getD 0)).Clean row) :
    ((service.readEvidence objects tasks draws).commit db).2 = db := by
  have hread : (service.readEvidence objects tasks draws).Refines (fun d => d = db)
      fun d d' => d' = d := by
    rintro d ⟨⟩ d' hd hrun
    rw [hd] at hrun ⊢
    have hrun := after hrun rfl
    refine Refines.each (R := fun d d' => d' = d)
      (I := fun rows d => d = db ∧ ∀ row ∈ rows,
        (service.reader objects db ((tasks.head?.map TaskRow.projectId).getD 0)).Clean row)
      (fun _ => rfl) (fun hab hbc => hbc.trans hab) (fun row rest => ?_) _
      ⟨rfl, fun row hrow => ?_⟩ hrun
    · rintro d ⟨⟩ d' ⟨hd, hclean⟩ hrun
      rw [hd] at hrun ⊢
      obtain ⟨result, _, hresult, hrun⟩ := bind_ok.mp hrun
      cases hrun
      obtain ⟨content, hfetch, -⟩ := fetch_of_clean (hclean row mem_cons_self)
      obtain ⟨db', hrun', hmarks⟩ := @ArtifactService.run_getVerified service.artifacts objects
        ((tasks.head?.map TaskRow.projectId).getD 0) row.id (draws row.id) db
      cases hresult.symm.trans hrun'
      have hkept : d' = db := by
        refine hmarks.resolve_right ?_
        rintro ⟨row', hrow', ⟨failure, hfailure⟩, -⟩
        obtain ⟨row'', hrow'', -, -, hcontent⟩ := fetch_ok hfetch
        cases hrow'.symm.trans hrow''
        cases hfailure.symm.trans hcontent
      exact ⟨hkept, hkept, fun other hother => hclean other (mem_cons_of_mem _ hother)⟩
    · obtain ⟨hmem, htask⟩ := mem_filter.mp ((mem_insertionSort _).mp hrow)
      exact h row hmem (of_decide_eq_true htask)
  exact hread.commit (fun _ => rfl) rfl

/-! ## What the stage did -/

variable {answers : Activity → Answer} {review decision : ReleaseDecision} {s s' : Platform}
  {run : RunRow} {sink : TaskRow} {criteria : List String}

def requestTables : List TableName := Touches.approvalTables ++ Touches.runTables

theorem requestCommitApproval_agree
    (h : (service.requestCommitApproval runId latest).runAlone service.act answers s =
      (.ok (), s')) : Agree requestTables s.db s'.db := by
  obtain ⟨sink, -, h⟩ := ofExcept_ok.mp h
  obtain ⟨found, s₁, hfound, h⟩ := activity_ok.mp h
  cases (act_eq_ok.mp hfound).2
  split at h
  · rename_i run attempt hrows
    obtain ⟨treeHash, s₂, hhash, h⟩ := activity_ok.mp h
    obtain ⟨⟨⟩, s₃, hrequest, h⟩ := activity_ok.mp h
    have hmoved := (runAlone_perform _ _).symm.trans h
    exact ((agree_of_act hhash fun _ ht => (not_mem_nil ht).elim).trans
      (agree_of_act hrequest fun _ => mem_append_left _)).trans
      (agree_of_act hmoved fun _ => mem_append_right _)
  · cases h

theorem addRepair_ok (h : (service.addRepair runId failures evidenceIds).runAlone service.act
    answers s = (.ok r, s')) : r = some "REPAIR_ADDED" := by
  obtain ⟨_, _, _, h⟩ := runAlone_bind_ok.mp h
  obtain ⟨_, _, _, h⟩ := runAlone_bind_ok.mp h
  exact (pure_ok.mp h).1.symm

theorem failRelease_ok (h : (failRelease runId).runAlone service.act answers s = (.ok r, s')) :
    r = some "FAILED" := by
  obtain ⟨_, _, _, h⟩ := activity_ok.mp h
  exact (pure_ok.mp h).1.symm

/-- A stage that comes to ask for the approval has found nothing wrong, and changes
nothing before the review. -/
theorem advanceExecuting_approves (h : Steady answers objects review)
    (hmoved : (service.advanceExecuting runId).runAlone service.act answers s =
      (.ok (some "WAITING_FOR_APPROVAL"), s')) :
    (∀ task ∈ s.db.tasksOf runId, task.state = .COMPLETED) ∧
      ∃ evidenceIds decision s₁,
        service.verificationEvidence objects s.db (latestTasks (s.db.tasksOf runId)) =
          .ok ([], evidenceIds) ∧
        (service.reviewRelease runId (latestTasks (s.db.tasksOf runId)) evidenceIds).runAlone
          service.act answers s = (.ok decision, s₁) ∧
        decision.approved = true ∧ Agree requestTables s₁.db s'.db := by
  obtain ⟨tasks, s₀, htasks, hmoved⟩ := activity_ok.mp hmoved
  cases (act_eq_ok.mp htasks).2
  split at hmoved
  · cases hmoved
  rename_i hterminal
  split at hmoved
  · exact absurd (failRelease_ok hmoved) (by decide)
  rename_i hgood
  refine ⟨fun task htask => ?_, ?_⟩
  · simp only [not_or, any_eq_true, not_exists, not_and, decide_eq_true_eq, Bool.or_eq_true,
      not_not] at hterminal hgood
    have hmem := hterminal.2 task htask
    obtain ⟨hfailed, hcancelled⟩ := hgood task htask
    cases hstate : task.state <;> simp_all [terminalTaskStates]
  · obtain ⟨⟨failures, evidenceIds⟩, s₁, hscan, hmoved⟩ := activity_ok.mp hmoved
    obtain ⟨-, hscan⟩ := act_eq_ok.mp hscan
    rw [Activity.carryOut, h.objects] at hscan
    obtain ⟨hevidence, hread⟩ := Prod.mk.inj hscan
    dsimp only at hmoved
    split at hmoved
    · split at hmoved
      · exact absurd (failRelease_ok hmoved) (by decide)
      · exact absurd (addRepair_ok hmoved) (by decide)
    · rename_i hnone
      cases not_not.mp hnone
      have hkept : s₁ = s := by
        have hclean := ((service.reader _ _ _).verificationEvidence_clean hevidence).2
        rw [← hread]
        exact congrArg (fun db => { s with db := db }) (readEvidence_clean hclean)
      subst hkept
      obtain ⟨decision, s₂, hreview, hmoved⟩ := runAlone_bind_ok.mp hmoved
      split at hmoved
      · rename_i happroved
        obtain ⟨⟨⟩, s₃, hrequest, hmoved⟩ := runAlone_bind_ok.mp hmoved
        obtain ⟨-, rfl⟩ := pure_ok.mp hmoved
        exact ⟨evidenceIds, decision, s₂, hevidence, hreview, happroved,
          requestCommitApproval_agree hrequest⟩
      · exact absurd (addRepair_ok hmoved) (by decide)

theorem reviewFresh_agree (h : Steady answers objects review)
    (hreturns : (reviewFresh runId sink criteria evidenceIds).runAlone service.act answers s =
      (.ok decision, s')) : Agree (.stageAttempts :: evidenceTables) s.db s'.db := by
  obtain ⟨run, s₁, -, hstarted, hreturns⟩ := reviewFresh_returns hreturns
  obtain ⟨-, -, audit, s₂, audited, haudit, -, -, hstored⟩ := (reviewOutput_ok h).mp hreturns
  have hstage : Agree (.stageAttempts :: evidenceTables) s.db s₁.db :=
    agree_of_act hstarted fun _ ht => mem_append_left evidenceTables ht
  exact (hstage.trans (agree_of_act haudit fun _ => mem_cons_of_mem _)).trans
    (agree_of_act hstored fun _ ht => ht)

theorem artifacts_stored
    (hstores : service.Stores objects db run sink criteria review decision db')
    (hobjections : service.reviewObjections objects db run criteria review = []) :
    ∃ files draw, service.artifacts.put objects (service.encodeDecision decision) = .ok files ∧
      ∀ id, db'.artifacts.get? id = if id = service.decisionArtifactId run.id sink.planRevision then
        some (service.decisionArtifact run sink decision draw) else db.artifacts.get? id := by
  obtain ⟨files, audited, draw, hput, hmarked, hfree, hinserted⟩ := hstores
  have hread : ∀ id ∈ criteria.flatMap (review.auditRequest run criteria).proposed,
      (service.artifacts.fetch objects db run.projectId id).isOk = true := by
    intro id hid
    obtain ⟨criterion, hcriterion, hproposed⟩ := mem_flatMap.mp hid
    rw [← (of_objections_eq_nil hobjections criterion hcriterion).2] at hproposed
    exact (Bool.and_eq_true_iff.mp (mem_filter.mp hproposed).2).1
  refine ⟨files, draw, hput, fun id => ?_⟩
  rw [hinserted, get?_insert hfree, hmarked.get?_eq hread id]
  rfl

theorem maps_of_audit
    (hobjections : service.reviewObjections objects db run criteria review = [])
    (hevidence : decision.acceptanceEvidence =
      (service.auditOf objects db run criteria review).evidence) :
    service.Maps objects db run.id criteria decision := by
  intro criterion hcriterion
  obtain ⟨hsome, hverified⟩ :=
    of_objections_eq_nil hobjections criterion hcriterion
  have hget : decision.acceptanceEvidence.get criterion =
      service.artifacts.verified objects db (review.auditRequest run criteria) criterion := by
    rw [hevidence, auditOf, verifiedEvidence, EvidenceMap.get_map, if_pos]
    rw [mem_filter, decide_eq_true_eq]
    exact ⟨hcriterion, hverified ▸ hsome⟩
  rw [hget]
  refine ⟨hverified ▸ hsome, fun artifactId hartifact => ?_⟩
  obtain ⟨hfetch, hmine⟩ := Bool.and_eq_true_iff.mp (mem_filter.mp hartifact).2
  cases hread : service.artifacts.fetch objects db run.projectId artifactId with
  | error failure =>
    rw [show (review.auditRequest run criteria).projectId = run.projectId from rfl, hread] at hfetch
    cases hfetch
  | ok content =>
    obtain ⟨row, hrow, -, hvalid, hread⟩ := fetch_ok hread
    simp only [hrow, Option.any_some, ArtifactRow.verifiedIn, Bool.and_eq_true,
      decide_eq_true_eq] at hmine
    exact ⟨row, hrow, hmine.1.1, hvalid, rehashes_of_read hread⟩

/-! ## The gate -/

theorem reports_put (hput : service.artifacts.put objects bytes = .ok files)
    (hrow : service.artifacts.Rehashes objects row) :
    service.Reports files row passed ↔ service.Reports objects row passed := by
  obtain ⟨content, hcontent⟩ := hrow
  have hread := readVerified_ok.mpr hcontent
  have hread' := readVerified_put hput hread
  unfold Reports
  rw [hread, hread']

theorem scan_verified
    (h : service.verificationEvidence objects db tasks = .ok ([], evidenceIds)) :
    ∃ sink, integrationSink tasks = .ok sink ∧
      ∃ row ∈ db.artifacts.rows, row.taskId = sink.id ∧ service.Reports objects row true := by
  obtain ⟨⟨sink, hsink, row, hrow, htask, hpassing⟩, -⟩ :=
    (service.reader _ _ _).verificationEvidence_clean h
  exact ⟨sink, hsink, row, hrow, htask, reports_of_passing hrow hpassing⟩

theorem scan_intact
    (h : service.verificationEvidence objects db tasks = .ok ([], evidenceIds)) :
    ∀ row ∈ db.artifacts.rows, row.taskId ∈ tasks.map TaskRow.id →
      service.artifacts.Rehashes objects row ∧ ¬ service.Reports objects row false := by
  intro row hrow htask
  obtain ⟨-, hclean⟩ := (service.reader _ _ _).verificationEvidence_clean h
  obtain ⟨content, hfetch, hclaim⟩ := fetch_of_clean (hclean row hrow htask)
  have hread := readVerified_of_fetch hrow hfetch
  refine ⟨rehashes_of_read hread, ?_⟩
  rintro ⟨content', document, hread', hloads, hfalse⟩
  cases hread.symm.trans hread'
  exact hclaim document hloads hfalse

/-- The tasks and the plans of the run stay. -/
structure SameRun (runId : UUID) (db db' : Database) : Prop where
  tasks : db'.tasksOf runId = db.tasksOf runId
  plan : db'.currentPlan runId = db.currentPlan runId

theorem SameRun.of_agree (h : Agree tables db db') (htasks : .tasks ∉ tables)
    (hplans : .planRevisions ∉ tables) : SameRun runId db db' where
  tasks := by
    rw [Database.tasksOf, show db'.tasks = db.tasks from h .tasks htasks]
    rfl
  plan := by
    have hrows : db'.planRevisions = db.planRevisions := h .planRevisions hplans
    rw [Database.currentPlan, hrows]
    rfl

theorem SameRun.symm (h : SameRun runId db db') : SameRun runId db' db :=
  ⟨h.tasks.symm, h.plan.symm⟩

theorem GateHolds.of_same (h : service.GateHolds files db runId decision)
    (hsame : SameRun runId db db') (hartifacts : db'.artifacts = db.artifacts) :
    service.GateHolds files db' runId decision where
  completed := by
    rw [hsame.tasks]
    exact h.completed
  verified := by
    rw [hsame.tasks, hartifacts]
    exact h.verified
  intact := by
    rw [hsame.tasks, hartifacts]
    exact h.intact
  stored := by
    rw [hsame.tasks, hartifacts]
    exact h.stored
  mapped := by
    obtain ⟨planRow, hplan, hmaps⟩ := h.mapped
    refine ⟨planRow, hsame.plan.trans hplan, fun criterion hcriterion => ?_⟩
    unfold Holds
    rw [hartifacts]
    exact hmaps criterion hcriterion

section
variable (hcompleted : ∀ task ∈ db.tasksOf runId, task.state = .COMPLETED)
  (hscan : service.verificationEvidence objects db (latestTasks (db.tasksOf runId)) =
    .ok ([], evidenceIds))
  (hsink : integrationSink (latestTasks (db.tasksOf runId)) = .ok sink)
  (hplan : db.currentPlan runId = some planRow)

include hcompleted hscan hsink hplan

/-- Of a replayed decision everything is known but what it maps. -/
theorem gate_of_replay
    (hfetch : service.artifacts.fetch objects db sink.projectId
      (service.decisionArtifactId runId sink.planRevision) = .ok content)
    (hdecode : service.decodeDecision content = some decision) :
    service.GateHolds objects db runId decision ↔
      service.Maps objects db runId planRow.plan.criteria decision := by
  constructor
  · rintro ⟨-, -, -, -, planRow', hplan', hmaps⟩
    cases hplan.symm.trans hplan'
    exact hmaps
  · intro hmaps
    obtain ⟨row, hrow, -, -, hread⟩ := fetch_ok hfetch
    exact ⟨hcompleted, scan_verified hscan, scan_intact hscan,
      ⟨sink, row, content, hsink, hrow, hread, .inr hdecode⟩, planRow, hplan, hmaps⟩

/-- A decision that has just been audited and stored passes the gate. -/
theorem gate_of_audit (hsha : Injective service.artifacts.sha256)
    (hjson : ∀ document, service.loads (service.encodeDecision decision) = some document →
      document.get? "output" = none)
    (hrun : run.id = runId) (hsame : SameRun runId db db')
    (hput : service.artifacts.put objects (service.encodeDecision decision) = .ok files)
    (hfree : db.artifacts.get? (service.decisionArtifactId runId sink.planRevision) = none)
    (hartifacts : ∀ id, db'.artifacts.get? id =
      if id = service.decisionArtifactId run.id sink.planRevision then
        some (service.decisionArtifact run sink decision draw) else db.artifacts.get? id)
    (hmaps : service.Maps objects db runId planRow.plan.criteria decision) :
    service.GateHolds files db' runId decision := by
  subst hrun
  have hkept : ∀ {id row}, db.artifacts.get? id = some row → db'.artifacts.get? id = some row := by
    intro id row hrow
    rw [hartifacts, if_neg]
    · exact hrow
    · rintro rfl
      cases hfree.symm.trans hrow
  have hstored : db'.artifacts.get? (service.decisionArtifactId run.id sink.planRevision) =
      some (service.decisionArtifact run sink decision draw) := by
    rw [hartifacts, if_pos rfl]
  have hread : service.artifacts.readVerified files
      (service.decisionArtifact run sink decision draw) =
        .ok (service.encodeDecision decision) := by
    obtain ⟨⟨content, hcontent, hdigest⟩, -⟩ := put_ok hput
    rw [hsha hdigest] at hcontent
    exact readVerified_ok.mpr ⟨hcontent, rfl, rfl⟩
  refine ⟨?_, ?_, ?_, ?_, ?_⟩
  · rw [hsame.tasks]
    exact hcompleted
  · obtain ⟨sink', hsink', row, hrow, htask, hreports⟩ := scan_verified hscan
    obtain ⟨content, document, hcontent, hdocument⟩ := hreports
    rw [hsame.tasks]
    exact ⟨sink', hsink', row, mem_of_get? (hkept (get?_of_mem hrow)), htask, content,
      document, readVerified_put hput hcontent, hdocument⟩
  · intro row hrow htask
    have hget := hartifacts row.id
    rw [get?_of_mem hrow] at hget
    split at hget
    · cases hget
      refine ⟨rehashes_of_read hread, ?_⟩
      rintro ⟨content, document, hcontent, hloads, hclaim⟩
      cases hread.symm.trans hcontent
      rw [persistedClaim, hjson document hloads] at hclaim
      cases hclaim
    · rw [hsame.tasks] at htask
      obtain ⟨hrehashes, hclaims⟩ := scan_intact hscan row (mem_of_get? hget.symm) htask
      rw [reports_put hput hrehashes]
      exact ⟨rehashes_put hput hrehashes, hclaims⟩
  · rw [hsame.tasks]
    exact ⟨sink, _, _, hsink, hstored, hread, .inl rfl⟩
  · refine ⟨planRow, hsame.plan.trans hplan, fun criterion hcriterion => ?_⟩
    obtain ⟨hsome, hall⟩ := hmaps criterion hcriterion
    refine ⟨hsome, fun artifactId hartifact => ?_⟩
    obtain ⟨row, hrow, hmine, hvalid, hrehashes⟩ := hall artifactId hartifact
    exact ⟨row, hkept hrow, hmine, hvalid, rehashes_put hput hrehashes⟩

theorem gate_of_fresh (hsha : Injective service.artifacts.sha256)
    (hjson : ∀ document, service.loads (service.encodeDecision decision) = some document →
      document.get? "output" = none)
    (hanswers : Steady answers objects review) (hs : s.db = db)
    (hfree : db.artifacts.get? (service.decisionArtifactId runId sink.planRevision) = none)
    (hfresh : (reviewFresh runId sink planRow.plan.criteria evidenceIds).runAlone service.act
      answers s = (.ok decision, s')) (happroved : decision.approved = true) :
    service.GateHolds (service.filesAfter objects db runId decision) s'.db runId decision := by
  subst hs
  have hsame : SameRun runId s.db s'.db :=
    .of_agree (reviewFresh_agree hanswers hfresh) (by decide) (by decide)
  obtain ⟨run, s₁, hrun, hstart, hreturns⟩ := reviewFresh_returns hfresh
  have hid : run.id = runId := key_of_get? hrun
  obtain ⟨-, hdecided, hevidence, hstores⟩ :=
    reviewOutput_returns hanswers (startStage_artifacts hstart) hreturns
  obtain ⟨-, hobjections⟩ := hdecided.mp happroved
  obtain ⟨files, draw, hput, hartifacts⟩ := artifacts_stored hstores hobjections
  have hfiles : service.filesAfter objects s.db runId decision = files := by
    simp only [filesAfter, hsink, hfree, hput, Except.toOption, Option.getD_some]
  have hmaps := maps_of_audit hobjections hevidence
  rw [hid] at hmaps
  rw [hfiles]
  exact gate_of_audit hcompleted hscan hsink hplan hsha hjson hid hsame hput hfree hartifacts hmaps

end

end RunFinalizationService

/-- A run that is moved on to its approval passes the gate exactly when a decision
that was stored before, if there is one, still maps every criterion to artifacts
that hold. -/
theorem release_gate_iff (service : RunFinalizationService)
    (hsha : Injective service.artifacts.sha256)
    (hjson : ∀ decision document, service.loads (service.encodeDecision decision) = some document →
      document.get? "output" = none)
    (objects : Objects) (review : ReleaseDecision) (answers : Activity → Answer)
    (hanswers : Steady answers objects review) (runId : UUID) (s s' : Platform)
    (hmoved : (service.advanceExecuting runId).runAlone service.act answers s =
      (.ok (some "WAITING_FOR_APPROVAL"), s')) :
    ∃ decision, service.gateReview objects runId answers s = .ok decision ∧
      (service.GateHolds (service.filesAfter objects s.db runId decision) s'.db runId decision ↔
        service.ReplayHolds objects s.db runId) := by
  obtain ⟨hcompleted, evidenceIds, decision, s₁, hscan, hreview, happroved, hrequest⟩ :=
    advanceExecuting_approves hanswers hmoved
  refine ⟨decision, ?_, ?_⟩
  · rw [gateReview, hscan]
    exact congrArg Prod.fst hreview
  obtain ⟨sink, planRow, hsink, hplan, hdecided⟩ :=
    reviewRelease_returns hanswers hreview
  have hrequested : SameRun runId s₁.db s'.db :=
    .of_agree hrequest (by decide) (by decide)
  have hartifacts : s'.db.artifacts = s₁.db.artifacts := hrequest .artifacts (by decide)
  rcases hdecided with ⟨-, hrejected⟩ | ⟨row, content, hrow, hfetch, hdecode, rfl⟩ | ⟨hfree, hfresh⟩
  · cases hrejected.symm.trans happroved
  · have hfiles : service.filesAfter objects s₁.db runId decision = objects := by
      simp only [filesAfter, hsink, hrow]
    have hreplay :=
      gate_of_replay hcompleted hscan hsink hplan hfetch hdecode
    rw [hfiles]
    constructor
    · intro hgate sink' planRow' content' decision' hsink' hplan' hfetch' hdecode'
      cases hsink.symm.trans hsink'
      cases hplan.symm.trans hplan'
      cases hfetch.symm.trans hfetch'
      cases hdecode.symm.trans hdecode'
      exact hreplay.mp (hgate.of_same hrequested.symm hartifacts.symm)
    · intro hholds
      have hmaps := hholds sink planRow content decision hsink hplan hfetch hdecode
      exact (hreplay.mpr hmaps).of_same hrequested hartifacts
  · have hgate := gate_of_fresh hcompleted hscan hsink hplan hsha
      (hjson decision) hanswers rfl hfree hfresh happroved
    refine ⟨fun _ sink' planRow' content' decision' hsink' _ hfetch' => ?_,
      fun _ => hgate.of_same hrequested hartifacts⟩
    -- No decision is stored, so that none can be replayed.
    cases hsink.symm.trans hsink'
    obtain ⟨row, hrow, -⟩ := fetch_ok hfetch'
    cases hfree.symm.trans hrow

def sampleApproving (artifactId : UUID) : ReleaseDecision :=
  ⟨true, "summary", [("tests pass", [artifactId])], [], summary_length, noReasons_length⟩

/-- Reports of one byte are read, and decisions of two. -/
def sampleGate : RunFinalizationService :=
  { sampleFinalizer with
    loads := fun content =>
      if content.length = 1 then sampleReport content else some (.obj [("approved", .bool true)])
    decodeDecision := fun content => if content = [1, 1] then some (sampleApproving 61) else none }

theorem sampleArtifacts_injective : Injective sampleArtifacts.sha256 := by
  have hbyte : Injective fun b : UInt8 => Char.ofNat b.toNat := by
    intro a b h
    have hvalid : ∀ c : UInt8, (Char.ofNat c.toNat).toNat = c.toNat := by
      intro c
      rw [Char.ofNat, dif_pos (.inl (by have := c.toNat_lt; omega))]
      rfl
    exact UInt8.toNat_inj.mp ((hvalid a).symm.trans ((congrArg Char.toNat h).trans (hvalid b)))
  intro a b h
  exact map_injective_iff.mpr hbyte (String.ofList_injective h)

theorem sampleGate_decisions (decision : ReleaseDecision) (document : Json)
    (h : sampleGate.loads (sampleGate.encodeDecision decision) = some document) :
    document.get? "output" = none := by
  have hloads : sampleGate.loads (sampleGate.encodeDecision decision) =
      some (.obj [("approved", .bool true)]) := by
    cases happroved : decision.approved <;> simp [sampleGate, sampleFinalizer, happroved]
  cases hloads.symm.trans h
  decide

/-- The plan was repaired: the second revision validates again. -/
def sampleLater : TaskSpec := { sampleFinalValidation with planRevision := 2, dependencies := [] }

def sampleEarlierReport : ArtifactRow :=
  { sampleEvidence true with id := 61, taskId := 2, storageKey := "earlier" }

variable (decided : Bool)

/-- The second revision is done. A decision about it may be stored already, and it
cites a report of the first one. -/
def samplePrepared : Platform where
  db := {
    runs := insert ∅ { sampleRun with state := .EXECUTING }
    planRevisions := insert ∅
      ⟨40, 2, { sampleResearchPlan false with revision := 2, tasks := [sampleLater] }, 0⟩
    tasks := (insert ∅ (sampleDone (sampleResearch false))).insert (sampleDone sampleLater)
    attempts := insert ∅ ⟨50, 1, "spec", .COMPLETED, 0, some 1⟩
    artifacts :=
      let reports := (insert ∅ (sampleEvidence true)).insert sampleEarlierReport
      if decided then
        reports.insert
          (sampleGate.decisionArtifact sampleRun (sampleDone sampleLater) (sampleApproving 61) {})
      else reports }

def sampleLost : Objects := fun key =>
  if key = "report" then .ok [1]
  else if key = storageKey (sampleArtifacts.sha256 [1, 1]) then .ok [1, 1]
  else .error ⟨"FileNotFoundError", ""⟩

def sampleGateAnswers (_ : Activity) : Answer :=
  { objects := sampleLost, review := sampleApproving 60, text := "tree" }

def sampleStage : Except Raised (Option String) × Platform :=
  (sampleGate.advanceExecuting 40).runAlone sampleGate.act sampleGateAnswers
    (samplePrepared decided)

theorem samplePrepared_sink :
    integrationSink (latestTasks ((samplePrepared decided).db.tasksOf 40)) =
      .ok (sampleDone sampleLater) := by
  cases decided <;> decide +kernel

theorem sampleStage_moved : (sampleStage decided).1 = .ok (some "WAITING_FOR_APPROVAL") := by
  cases decided <;> decide +kernel

theorem release_gate_iff_sample :
    ∃ decision, sampleGate.gateReview sampleLost 40 sampleGateAnswers (samplePrepared false) =
        .ok decision ∧
      sampleGate.GateHolds
        (sampleGate.filesAfter sampleLost (samplePrepared false).db 40 decision)
        (sampleStage false).2.db 40 decision := by
  obtain ⟨decision, hdecision, hgate⟩ := release_gate_iff sampleGate sampleArtifacts_injective
    sampleGate_decisions sampleLost (sampleApproving 60) sampleGateAnswers
    ⟨fun _ => rfl, fun _ => rfl⟩ 40 (samplePrepared false) (sampleStage false).2
    (Prod.ext (sampleStage_moved false) rfl)
  refine ⟨decision, hdecision, hgate.mpr ?_⟩
  intro sink planRow content stored hsink _ hfetch
  rw [samplePrepared_sink] at hsink
  cases hsink
  have hmissing : (samplePrepared false).db.artifacts.get?
      (sampleGate.decisionArtifactId 40 (sampleDone sampleLater).planRevision) = none := by
    decide +kernel
  obtain ⟨row, hrow, -⟩ := fetch_ok hfetch
  cases hmissing.symm.trans hrow

/-- A decision is stored, and the file of the only artifact that it cites is gone: the
run is moved on to its approval all the same. -/
theorem stale_decision_released :
    (sampleStage true).1 = .ok (some "WAITING_FOR_APPROVAL") ∧
      ∃ decision, sampleGate.gateReview sampleLost 40 sampleGateAnswers (samplePrepared true) =
          .ok decision ∧ decision.acceptanceEvidence = [("tests pass", [61])] ∧
        ¬ sampleGate.artifacts.Rehashes sampleLost sampleEarlierReport ∧
        ¬ sampleGate.GateHolds
          (sampleGate.filesAfter sampleLost (samplePrepared true).db 40 decision)
          (sampleStage true).2.db 40 decision := by
  have hlost : ¬ sampleGate.artifacts.Rehashes sampleLost sampleEarlierReport := by
    rintro ⟨content, hcontent, -⟩
    have herror : sampleLost "earlier" = .error ⟨"FileNotFoundError", ""⟩ := by decide +kernel
    cases herror.symm.trans hcontent
  have hreviewed : (sampleGate.gateReview sampleLost 40 sampleGateAnswers
      (samplePrepared true)).toOption.map ReleaseDecision.acceptanceEvidence =
        some [("tests pass", [61])] := by
    decide +kernel
  refine ⟨sampleStage_moved true, ?_⟩
  cases hdecision : sampleGate.gateReview sampleLost 40 sampleGateAnswers (samplePrepared true) with
  | error e =>
    rw [hdecision] at hreviewed
    cases hreviewed
  | ok decision =>
    rw [hdecision] at hreviewed
    have hevidence : decision.acceptanceEvidence = [("tests pass", [61])] :=
      Option.some.inj hreviewed
    refine ⟨decision, rfl, hevidence, hlost, ?_⟩
    rintro ⟨-, -, -, -, planRow, hplan, hmaps⟩
    have hcriteria : ((sampleStage true).2.db.currentPlan 40).map (·.plan.criteria) =
        some ["tests pass"] := by
      decide +kernel
    have hrow : (sampleStage true).2.db.artifacts.get? 61 = some sampleEarlierReport := by
      decide +kernel
    have hstored : (samplePrepared true).db.artifacts.get?
        (sampleGate.decisionArtifactId 40 (sampleDone sampleLater).planRevision) =
          some (sampleGate.decisionArtifact sampleRun (sampleDone sampleLater)
            (sampleApproving 61) {}) := by
      decide +kernel
    rw [hplan] at hcriteria
    have hcriteria : planRow.plan.criteria = ["tests pass"] := Option.some.inj hcriteria
    have hcited := hmaps "tests pass" (hcriteria ▸ mem_singleton_self _)
    simp only [filesAfter, samplePrepared_sink, hstored] at hcited
    obtain ⟨row, hrow', -, -, hrehashes⟩ := hcited.2 61 (by rw [hevidence]; decide)
    cases hrow.symm.trans hrow'
    exact hlost hrehashes

end AutoSwe
