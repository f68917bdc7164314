import AutoSwe.Finalization.Repair

/-!
# The release review

The final reviewer is a model: it maps acceptance criteria to artifacts. What it
says is downgraded when a criterion has no artifact, and the artifacts that it
names are audited: each has to rehash, to be valid and to be one of the run. The
decision is the conjunction of both.
-/

namespace AutoSwe

open Transaction Prod

/-- The items of a JSON object that maps criteria to artifact ids. -/
abbrev EvidenceMap := List (String × List UUID)

def EvidenceMap.get (evidence : EvidenceMap) (criterion : String) : List UUID :=
  ((evidence.find? fun item => item.1 = criterion).map snd).getD []

structure ReleaseDecision where
  approved : Bool
  summary : String
  acceptanceEvidence : EvidenceMap := []
  failureReasons : List String := []
  summary_length : 1 ≤ summary.length ∧ summary.length ≤ 20000
  failureReasons_length : failureReasons.length ≤ 100

theorem noReasons_length : ([] : List String).length ≤ 100 := by decide

theorem dash_length : 1 ≤ "-".length ∧ "-".length ≤ 20000 := by decide

theorem summary_length : 1 ≤ "summary".length ∧ "summary".length ≤ 20000 := by decide

/-- What the model class checks of a decision that is built. -/
def ReleaseDecision.make (approved : Bool) (summary : String) (acceptanceEvidence : EvidenceMap)
    (failureReasons : List String) : Except Raised ReleaseDecision :=
  if hsummary : 1 ≤ summary.length ∧ summary.length ≤ 20000 then
    if hreasons : failureReasons.length ≤ 100 then
      .ok ⟨approved, summary, acceptanceEvidence, failureReasons, hsummary, hreasons⟩
    else .error ⟨.valueError, "failure_reasons"⟩
  else .error ⟨.valueError, "summary"⟩

structure ReleaseReviewRequest where
  projectId : UUID
  runId : UUID
  acceptanceCriteria : List String
  proposedEvidence : EvidenceMap
  summary : String

def ReleaseReviewRequest.check (request : ReleaseReviewRequest) : Except Raised Unit :=
  if request.acceptanceCriteria.length < 1 ∨ 100 < request.acceptanceCriteria.length then
    .error ⟨.valueError, "acceptance_criteria"⟩
  else if request.summary.length < 1 ∨ 20000 < request.summary.length then
    .error ⟨.valueError, "summary"⟩
  else .ok ()

/-! ## The audit -/

structure Audit where
  evidence : EvidenceMap := []
  failures : List String := []

/-- The mappings of texts that are no criteria. -/
def ReleaseReviewRequest.extras (request : ReleaseReviewRequest) : List String :=
  ((request.proposedEvidence.map fst).eraseDups.filter fun criterion =>
    criterion ∉ request.acceptanceCriteria).insertionSort (· ≤ ·)

/-- The row is one of the run and counts as verified. -/
def ArtifactRow.verifiedIn (runId : UUID) (row : ArtifactRow) : Bool :=
  row.runId = runId && row.state = .VALID && row.verifiedAt.isSome

namespace ArtifactService

variable (service : ArtifactService) (objects : Objects) (request : ReleaseReviewRequest)
  (draws : UUID → Draw)

/-- The failure that the artifact adds, if it does not count. -/
def auditArtifact (criterion : String) (artifactId : UUID) : Session (Option String) := do
  match ← service.getVerified objects request.projectId artifactId (draws artifactId) with
  | .error failure =>
    pure (some (criterion ++ ": artifact " ++ artifactId.str ++ " invalid: " ++ failure.text))
  | .ok _ => do
    let row ← Prog.query fun db => db.artifacts.get? artifactId
    if row.any (ArtifactRow.verifiedIn request.runId) then pure none
    else pure (some
      (criterion ++ ": artifact " ++ artifactId.str ++ " is outside the verified run"))

/-- The verified artifacts of a criterion and the failures of the others. -/
def auditArtifacts (criterion : String) : List UUID → Session (List UUID × List String)
  | [] => pure ([], [])
  | artifactId :: rest => do
    let failure ← service.auditArtifact objects request draws criterion artifactId
    let (verified, failures) ← auditArtifacts criterion rest
    match failure with
    | none => pure (artifactId :: verified, failures)
    | some failure => pure (verified, failure :: failures)

def auditCriterion (criterion : String) : Session Audit := do
  match (request.proposedEvidence.get criterion).eraseDups with
  | [] => pure ⟨[], [criterion ++ ": no evidence was provided"]⟩
  | proposed => do
    let (verified, failures) ← service.auditArtifacts objects request draws criterion proposed
    match verified with
    | [] => pure ⟨[], failures ++ [criterion ++ ": no verified evidence remains"]⟩
    | verified => pure ⟨[(criterion, verified)], failures⟩

def auditCriteria : List String → Session Audit
  | [] => pure {}
  | criterion :: rest => do
    let audit ← service.auditCriterion objects request draws criterion
    let others ← auditCriteria rest
    pure ⟨audit.evidence ++ others.evidence, audit.failures ++ others.failures⟩

/-- The transaction of `ReleaseReviewer.review`. -/
def audit : Session Audit := do
  let audit ← service.auditCriteria objects request draws request.acceptanceCriteria
  pure { audit with
    failures := request.extras.map ("Unexpected evidence mapping: " ++ ·) ++ audit.failures }

end ArtifactService

/-- What `ReleaseReviewer.review` makes of its audit. -/
def Audit.decision (audit : Audit) (request : ReleaseReviewRequest) :
    Except Raised ReleaseDecision :=
  ReleaseDecision.make
    (audit.failures = [] && request.acceptanceCriteria.all fun criterion =>
      criterion ∈ audit.evidence.map fst)
    request.summary audit.evidence audit.failures

/-! ## The verdict of the reviewer -/

/-- What is left of the output of the model once it is checked for criteria that
it did not map. The copy that the check makes is not validated. -/
structure ReviewOutput where
  approved : Bool
  summary : String
  acceptanceEvidence : EvidenceMap
  failureReasons : List String

def unmappedReason (unmapped : List String) : String :=
  "final reviewer left acceptance criteria without artifact evidence: " ++
    String.intercalate "; " (unmapped.take 10)

def ReleaseDecision.downgraded (output : ReleaseDecision) (criteria : List String) :
    ReviewOutput :=
  match criteria.filter fun criterion => output.acceptanceEvidence.get criterion = [] with
  | [] => ⟨output.approved, output.summary, output.acceptanceEvidence, output.failureReasons⟩
  | unmapped =>
    if output.approved then
      ⟨false, output.summary, output.acceptanceEvidence,
        output.failureReasons ++ [unmappedReason unmapped]⟩
    else ⟨false, output.summary, output.acceptanceEvidence, output.failureReasons⟩

def ReviewOutput.request (output : ReviewOutput) (run : RunRow) (criteria : List String) :
    ReleaseReviewRequest where
  projectId := run.projectId
  runId := run.id
  acceptanceCriteria := criteria
  proposedEvidence := output.acceptanceEvidence
  summary := output.summary

/-- The reasons of the model and of the audit, without repetitions. -/
def ReviewOutput.failures (output : ReviewOutput) (audited : ReleaseDecision) : List String :=
  match (output.failureReasons ++ audited.failureReasons).eraseDups with
  | [] =>
    if output.approved && audited.approved then [] else ["final reviewer rejected the release"]
  | failures => failures

def ReviewOutput.decision (output : ReviewOutput) (audited : ReleaseDecision) :
    Except Raised ReleaseDecision :=
  ReleaseDecision.make (output.approved && audited.approved) output.summary
    audited.acceptanceEvidence (output.failures audited)

def TaskPlan.criteria (plan : TaskPlan) : List String :=
  (plan.tasks.flatMap TaskSpec.acceptanceCriteria).eraseDups

/-- One final validation covers the plan. -/
def TaskPlan.requireIntegrationPlan (plan : TaskPlan) : Except Raised Unit := do
  match ← plan.sinks.filterM plan.covers with
  | [_] => .ok ()
  | _ => .error ⟨.runtimeError,
      "current plan requires exactly one final VALIDATION sink covering every task"⟩

end AutoSwe
