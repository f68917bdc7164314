import AutoSwe.Finalization.Review

/-!
# What the audit finds

The audit of a release reads artifacts in one transaction and marks those that do
not rehash, so that a later criterion that names such an artifact is answered
differently. Here it is a function of the database it starts from
(`run_audit`): the objections, in the order in which they are raised, and the
artifacts that are left for each criterion.
-/

namespace AutoSwe

open Relational Transaction Prog Table List Database

/-- What is wrong with the evidence that was proposed. -/
inductive Objection
  | unexpected (criterion : String)
  | noEvidence (criterion : String)
  | invalid (criterion : String) (artifactId : UUID) (failure : String)
  | outside (criterion : String) (artifactId : UUID)
  | nothingLeft (criterion : String)

def Objection.text : Objection → String
  | .unexpected criterion => "Unexpected evidence mapping: " ++ criterion
  | .noEvidence criterion => criterion ++ ": no evidence was provided"
  | .invalid criterion artifactId failure =>
    criterion ++ ": artifact " ++ artifactId.str ++ " invalid: " ++ failure
  | .outside criterion artifactId =>
    criterion ++ ": artifact " ++ artifactId.str ++ " is outside the verified run"
  | .nothingLeft criterion => criterion ++ ": no verified evidence remains"

namespace ArtifactService

variable (service : ArtifactService) (objects : Objects)

/-! ## Marked artifacts -/

/-- A row that a read of the project marks. -/
def unreadable (projectId : UUID) (row : ArtifactRow) : Bool :=
  row.projectId = projectId && row.state = .VALID && !(service.readVerified objects row).isOk

/-- The artifacts after a read of the given ones. -/
def Marked (projectId : UUID) (db : Database) (seen : List UUID) (db' : Database) : Prop :=
  ∀ id, db'.artifacts.get? id = (db.artifacts.get? id).map fun row =>
    if id ∈ seen ∧ service.unreadable objects projectId row then row.corrupt else row

def fetchAfter (db : Database) (projectId : UUID) (seen : List UUID) (artifactId : UUID) :
    Except ArtifactFailure Bytes :=
  if artifactId ∈ seen ∧ (db.artifacts.get? artifactId).any (service.unreadable objects projectId)
  then .error ⟨"ArtifactIntegrityError", "artifact " ++ artifactId.str ++ " is not valid evidence"⟩
  else service.fetch objects db projectId artifactId

variable {service objects}

theorem unreadable_corrupt (projectId : UUID) (row : ArtifactRow) :
    service.unreadable objects projectId row.corrupt = false := by
  simp [unreadable, ArtifactRow.corrupt]

theorem unreadable_of_fetch (h : (service.fetch objects db projectId artifactId).isOk = true)
    (hrow : db.artifacts.get? artifactId = some row) :
    service.unreadable objects projectId row = false := by
  cases hfetch : service.fetch objects db projectId artifactId with
  | error failure =>
    rw [hfetch] at h
    cases h
  | ok content =>
    obtain ⟨row', hrow', -, -, hread⟩ := fetch_ok hfetch
    cases hrow.symm.trans hrow'
    simp [unreadable, hread, Except.isOk, Except.toBool]

namespace Marked

theorem start (h : db'.artifacts = db.artifacts) : service.Marked objects projectId db [] db' := by
  intro id
  simp [h]

theorem append (h : service.Marked objects projectId db seen db')
    (h' : service.Marked objects projectId db' seen' db'') :
    service.Marked objects projectId db (seen ++ seen') db'' := by
  intro id
  rw [h' id, h id, Option.map_map]
  refine congrArg (Option.map · _) (funext fun row => ?_)
  by_cases hmarked : id ∈ seen ∧ service.unreadable objects projectId row = true
  · simp [hmarked, unreadable_corrupt]
  · by_cases hread : service.unreadable objects projectId row = true
    · have hseen : id ∉ seen := fun hseen => hmarked ⟨hseen, hread⟩
      simp [hread, hseen]
    · simp [hread]

theorem fetch (h : service.Marked objects projectId db seen db') (artifactId : UUID) :
    service.fetch objects db' projectId artifactId =
      service.fetchAfter objects db projectId seen artifactId := by
  have hget := h artifactId
  cases hrow : db.artifacts.get? artifactId with
  | none => simp [fetchAfter, ArtifactService.fetch, artifactIn, hget, hrow]
  | some row =>
    rw [hrow, Option.map_some] at hget
    simp only [fetchAfter, hrow, Option.any_some]
    split at hget
    · rename_i hmarked
      rw [if_pos hmarked]
      obtain ⟨⟨hproject, -⟩, -⟩ : (row.projectId = projectId ∧ row.state = .VALID) ∧ _ := by
        simpa [unreadable] using hmarked.2
      have hin : db'.artifactIn projectId artifactId = some row.corrupt :=
        Option.filter_eq_some_iff.mpr ⟨hget, decide_eq_true hproject⟩
      simp [ArtifactService.fetch, hin, ArtifactRow.corrupt]
    · rename_i hmarked
      rw [if_neg hmarked]
      simp [ArtifactService.fetch, artifactIn, hget, hrow]

theorem get?_eq (h : service.Marked objects projectId db seen db')
    (hread : ∀ id ∈ seen, (service.fetch objects db projectId id).isOk = true) (id : UUID) :
    db'.artifacts.get? id = db.artifacts.get? id := by
  rw [h id]
  cases hrow : db.artifacts.get? id with
  | none => rfl
  | some row =>
    rw [Option.map_some, if_neg]
    rintro ⟨hseen, hmarked⟩
    rw [unreadable_of_fetch (hread id hseen) hrow] at hmarked
    cases hmarked

end Marked

variable (service objects) in
theorem getVerified_marked (projectId artifactId : UUID) (draw : Draw) (db : Database) :
    ∃ db', (service.getVerified objects projectId artifactId draw).run db =
        .ok (service.fetch objects db projectId artifactId, db') ∧
      service.Marked objects projectId db [artifactId] db' := by
  have hkept : (∀ row, db.artifacts.get? artifactId = some row →
      service.unreadable objects projectId row = false) →
      service.Marked objects projectId db [artifactId] db := by
    intro h id
    cases hrow : db.artifacts.get? id with
    | none => rfl
    | some row =>
      rw [Option.map_some, if_neg]
      rintro ⟨hid, hmarked⟩
      cases mem_singleton.mp hid
      rw [h row hrow] at hmarked
      cases hmarked
  simp only [getVerified, run_bind, run_query, ArtifactService.fetch]
  cases hrow : db.artifactIn projectId artifactId with
  | none =>
    refine ⟨db, rfl, hkept fun row hget => ?_⟩
    have hproject : ¬ row.projectId = projectId := by
      simpa [artifactIn, hget] using hrow
    simp [unreadable, hproject]
  | some row =>
    obtain ⟨hget, hproject⟩ := Option.filter_eq_some_iff.mp hrow
    by_cases hvalid : row.state ≠ .VALID
    · simp only [if_pos hvalid]
      refine ⟨db, rfl, hkept fun row' hget' => ?_⟩
      cases hget.symm.trans hget'
      simp [unreadable, hvalid]
    · simp only [if_neg hvalid]
      cases hread : service.readVerified objects row with
      | ok content =>
        refine ⟨db, rfl, hkept fun row' hget' => ?_⟩
        cases hget.symm.trans hget'
        simp [unreadable, hread, Except.isOk, Except.toBool]
      | error failure =>
        refine ⟨_, rfl, fun id => ?_⟩
        have hunreadable : service.unreadable objects projectId row = true := by
          simp [unreadable, of_decide_eq_true hproject, not_not.mp hvalid, hread, Except.isOk,
            Except.toBool]
        show (db.artifacts.set row.corrupt).get? id = _
        have hkey : row.id = artifactId := key_of_get? hget
        by_cases hid : id = artifactId
        · subst hid
          rw [get?_set, if_pos (show id = row.corrupt.id from hkey.symm), hget]
          simp [hunreadable]
        · rw [get?_set_ne _ (show id ≠ row.corrupt.id from hkey ▸ hid)]
          simp [hid]

/-! ## The objections -/

end ArtifactService

def ReleaseReviewRequest.proposed (request : ReleaseReviewRequest) (criterion : String) :
    List UUID :=
  (request.proposedEvidence.get criterion).eraseDups

theorem EvidenceMap.get_map (f : String → List UUID) (criterion : String) :
    ∀ criteria : List String, EvidenceMap.get (criteria.map fun other => (other, f other))
      criterion =
      if criterion ∈ criteria then f criterion else []
  | [] => rfl
  | other :: rest => by
    have ih := get_map f criterion rest
    unfold EvidenceMap.get at ih ⊢
    rw [map_cons, find?_cons]
    by_cases hother : other = criterion
    · simp [hother]
    · simp only [decide_eq_false hother, mem_cons, Ne.symm hother, false_or]
      exact ih

namespace ArtifactService

section
variable (service : ArtifactService) (objects : Objects) (db : Database)
  (request : ReleaseReviewRequest)

/-- A valid artifact of the run that rehashes. -/
def counts (artifactId : UUID) : Bool :=
  (service.fetch objects db request.projectId artifactId).isOk &&
    (db.artifacts.get? artifactId).any (ArtifactRow.verifiedIn request.runId)

/-- The objection to an artifact, once the given ones have been read. -/
def defect (criterion : String) (seen : List UUID) (artifactId : UUID) : Option Objection :=
  match service.fetchAfter objects db request.projectId seen artifactId with
  | .error failure => some (.invalid criterion artifactId failure.text)
  | .ok _ =>
    if (db.artifacts.get? artifactId).any (ArtifactRow.verifiedIn request.runId) then none
    else some (.outside criterion artifactId)

def defects (criterion : String) : List UUID → List UUID → List Objection
  | _, [] => []
  | seen, artifactId :: rest =>
    (service.defect objects db request criterion seen artifactId).toList ++
      defects criterion (seen ++ [artifactId]) rest

def verified (criterion : String) : List UUID :=
  (request.proposed criterion).filter (service.counts objects db request)

def criterionObjections (seen : List UUID) (criterion : String) : List Objection :=
  if request.proposed criterion = [] then [.noEvidence criterion]
  else
    service.defects objects db request criterion seen (request.proposed criterion) ++
      (if service.verified objects db request criterion = [] then [.nothingLeft criterion] else [])

def criteriaObjections : List UUID → List String → List Objection
  | _, [] => []
  | seen, criterion :: rest =>
    service.criterionObjections objects db request seen criterion ++
      criteriaObjections (seen ++ request.proposed criterion) rest

/-- Everything that the audit objects to. -/
def objections : List Objection :=
  request.extras.map .unexpected ++
    service.criteriaObjections objects db request [] request.acceptanceCriteria

def verifiedEvidence (criteria : List String) : EvidenceMap :=
  (criteria.filter fun criterion => service.verified objects db request criterion ≠ []).map
    fun criterion => (criterion, service.verified objects db request criterion)

end

variable {service : ArtifactService} {objects : Objects} {db : Database}
  {request : ReleaseReviewRequest}

theorem fetchAfter_ok (h : service.fetchAfter objects db projectId seen artifactId = .ok content) :
    service.fetch objects db projectId artifactId = .ok content := by
  unfold fetchAfter at h
  split at h
  · cases h
  · exact h

theorem defect_eq_none :
    service.defect objects db request criterion seen artifactId = none ↔
      service.counts objects db request artifactId = true := by
  unfold defect counts
  cases hafter : service.fetchAfter objects db request.projectId seen artifactId with
  | ok content => simp [fetchAfter_ok hafter, Except.isOk, Except.toBool]
  | error failure =>
    simp only [reduceCtorEq, false_iff, Bool.and_eq_true, not_and]
    intro hok
    exfalso
    unfold fetchAfter at hafter
    split at hafter
    · rename_i hmarked
      obtain ⟨row, hrow, hunreadable⟩ := Option.any_eq_true _ _ |>.mp hmarked.2
      rw [unreadable_of_fetch hok hrow] at hunreadable
      cases hunreadable
    · rw [hafter] at hok
      cases hok

/-! ## The audit computes them -/

section
variable {db' : Database} (draws : UUID → Draw)

theorem run_auditArtifact (h : service.Marked objects request.projectId db seen db')
    (criterion : String) (artifactId : UUID) :
    ∃ db'', (service.auditArtifact objects request draws criterion artifactId).run db' =
        .ok ((service.defect objects db request criterion seen artifactId).map Objection.text,
          db'') ∧
      service.Marked objects request.projectId db (seen ++ [artifactId]) db'' := by
  obtain ⟨db'', hrun, hmarked⟩ := getVerified_marked service objects request.projectId artifactId
    (draws artifactId) db'
  refine ⟨db'', ?_, h.append hmarked⟩
  rw [h.fetch] at hrun
  simp only [auditArtifact, run_bind, hrun, defect]
  cases hafter : service.fetchAfter objects db request.projectId seen artifactId with
  | error failure => rfl
  | ok content =>
    -- what was read is not marked, so that the row is the one of before
    have hrow : db''.artifacts.get? artifactId = db.artifacts.get? artifactId := by
      rw [h.append hmarked artifactId]
      cases hget : db.artifacts.get? artifactId with
      | none => rfl
      | some row =>
        have hfetch := fetchAfter_ok hafter
        rw [Option.map_some, unreadable_of_fetch (by rw [hfetch]; rfl) hget]
        simp
    simp only [run_bind, run_query, hrow]
    split <;> rfl

theorem run_auditArtifacts (draws : UUID → Draw) (criterion : String) :
    ∀ {seen db'} (artifactIds : List UUID), service.Marked objects request.projectId db seen db' →
    ∃ db'', (service.auditArtifacts objects request draws criterion artifactIds).run db' =
        .ok ((artifactIds.filter (service.counts objects db request),
          (service.defects objects db request criterion seen artifactIds).map Objection.text),
          db'') ∧
      service.Marked objects request.projectId db (seen ++ artifactIds) db''
  | seen, db', [], h => ⟨db', rfl, by simpa using h⟩
  | seen, db', artifactId :: rest, h => by
    obtain ⟨db₁, hrun, h₁⟩ := run_auditArtifact draws h criterion artifactId
    obtain ⟨db₂, hrest, h₂⟩ := run_auditArtifacts draws criterion rest h₁
    refine ⟨db₂, ?_, by simpa using h₂⟩
    simp only [auditArtifacts, run_bind, hrun, hrest, defects]
    cases hdefect : service.defect objects db request criterion seen artifactId with
    | none => simp [defect_eq_none.mp hdefect]
    | some objection =>
      have hcounts : service.counts objects db request artifactId = false := by
        rw [Bool.eq_false_iff]
        intro hcounts
        rw [defect_eq_none.mpr hcounts] at hdefect
        cases hdefect
      simp [hcounts]

theorem verifiedEvidence_single (criterion : String) :
    service.verifiedEvidence objects db request [criterion] =
      if service.verified objects db request criterion = [] then []
      else [(criterion, service.verified objects db request criterion)] := by
  unfold verifiedEvidence
  split <;> rename_i hleft <;> simp [hleft]

theorem run_auditCriterion (h : service.Marked objects request.projectId db seen db') :
    ∃ db'', (service.auditCriterion objects request draws criterion).run db' =
        .ok (⟨service.verifiedEvidence objects db request [criterion],
          (service.criterionObjections objects db request seen criterion).map Objection.text⟩,
          db'') ∧
      service.Marked objects request.projectId db (seen ++ request.proposed criterion) db'' := by
  obtain ⟨db'', hrun, h'⟩ := run_auditArtifacts draws criterion (request.proposed criterion) h
  rw [verifiedEvidence_single, criterionObjections, verified]
  cases hproposed : request.proposed criterion with
  | nil =>
    refine ⟨db', ?_, by simpa using h⟩
    rw [ReleaseReviewRequest.proposed] at hproposed
    simp only [auditCriterion, hproposed, filter_nil, if_true]
    rfl
  | cons artifactId rest =>
    rw [hproposed] at hrun h'
    refine ⟨db'', ?_, h'⟩
    rw [ReleaseReviewRequest.proposed] at hproposed
    simp only [auditCriterion, hproposed, run_bind, hrun, reduceCtorEq, if_false]
    cases (artifactId :: rest).filter (service.counts objects db request) with
    | nil =>
      simp only [if_true, map_append]
      rfl
    | cons =>
      simp only [reduceCtorEq, if_false, append_nil]
      rfl

theorem verifiedEvidence_cons (criterion : String) (rest : List String) :
    service.verifiedEvidence objects db request (criterion :: rest) =
      service.verifiedEvidence objects db request [criterion] ++
        service.verifiedEvidence objects db request rest := by
  simp only [verifiedEvidence, filter_cons, filter_nil]
  split <;> rfl

theorem run_auditCriteria (draws : UUID → Draw) :
    ∀ {seen db'} (criteria : List String), service.Marked objects request.projectId db seen db' →
    ∃ db'', (service.auditCriteria objects request draws criteria).run db' =
        .ok (⟨service.verifiedEvidence objects db request criteria,
          (service.criteriaObjections objects db request seen criteria).map Objection.text⟩,
          db'') ∧
      service.Marked objects request.projectId db (seen ++ criteria.flatMap request.proposed) db''
  | seen, db', [], h => ⟨db', rfl, by simpa using h⟩
  | seen, db', criterion :: rest, h => by
    obtain ⟨db₁, hrun, h₁⟩ := run_auditCriterion draws h
    obtain ⟨db₂, hrest, h₂⟩ := run_auditCriteria draws rest h₁
    refine ⟨db₂, ?_, by simpa using h₂⟩
    simp only [auditCriteria, run_bind, hrun, hrest, criteriaObjections, map_append]
    rw [verifiedEvidence_cons criterion rest]
    rfl

/-- The audit, as a function of the artifacts it starts from. -/
theorem run_audit (h : service.Marked objects request.projectId db [] db') :
    ∃ db'', (service.audit objects request draws).run db' =
        .ok (⟨service.verifiedEvidence objects db request request.acceptanceCriteria,
          (service.objections objects db request).map Objection.text⟩, db'') ∧
      service.Marked objects request.projectId db
        (request.acceptanceCriteria.flatMap request.proposed) db'' := by
  obtain ⟨db'', hrun, h'⟩ := run_auditCriteria draws request.acceptanceCriteria h
  refine ⟨db'', ?_, by simpa using h'⟩
  simp only [audit, run_bind, hrun, objections, map_append, map_map]
  rfl

end

/-! ## An audit without objections -/

theorem defects_eq_nil : ∀ {seen : List UUID} (artifactIds : List UUID),
    service.defects objects db request criterion seen artifactIds = [] ↔
      ∀ artifactId ∈ artifactIds, service.counts objects db request artifactId = true
  | _, [] => by simp [defects]
  | _, artifactId :: rest => by
    simp [defects, defects_eq_nil rest, Option.toList_eq_nil_iff, defect_eq_none]

theorem criterionObjections_eq_nil :
    service.criterionObjections objects db request seen criterion = [] ↔
      request.proposed criterion ≠ [] ∧ ∀ artifactId ∈ request.proposed criterion,
        service.counts objects db request artifactId = true := by
  unfold criterionObjections
  split
  · rename_i hnone
    simp [hnone]
  · rename_i hsome
    rw [append_eq_nil_iff, defects_eq_nil]
    constructor
    · rintro ⟨hcounts, -⟩
      exact ⟨hsome, hcounts⟩
    · rintro ⟨-, hcounts⟩
      refine ⟨hcounts, if_neg ?_⟩
      rw [verified, filter_eq_self.mpr hcounts]
      exact hsome

theorem criteriaObjections_eq_nil : ∀ {seen : List UUID} (criteria : List String),
    service.criteriaObjections objects db request seen criteria = [] ↔
      ∀ criterion ∈ criteria, request.proposed criterion ≠ [] ∧
        ∀ artifactId ∈ request.proposed criterion,
          service.counts objects db request artifactId = true
  | _, [] => by simp [criteriaObjections]
  | _, criterion :: rest => by
    rw [criteriaObjections, append_eq_nil_iff, criterionObjections_eq_nil,
      criteriaObjections_eq_nil rest, forall_mem_cons]

/-- Without objections every criterion has artifacts, and all of them count. -/
theorem of_objections_eq_nil (h : service.objections objects db request = []) :
    ∀ criterion ∈ request.acceptanceCriteria, request.proposed criterion ≠ [] ∧
      service.verified objects db request criterion = request.proposed criterion := by
  intro criterion hcriterion
  obtain ⟨hsome, hcounts⟩ :=
    (criteriaObjections_eq_nil _).mp (append_eq_nil_iff.mp h).2 criterion hcriterion
  exact ⟨hsome, filter_eq_self.mpr hcounts⟩

end ArtifactService

end AutoSwe
