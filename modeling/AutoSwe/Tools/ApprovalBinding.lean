import AutoSwe.Tools.Decisions
import AutoSwe.Tools.Gateway

/-!
# What an approval is bound to

The hash of an approval is taken of the compact JSON text of the call, its scope
and the expiry. Two such texts are equal just if the documents are equal up to
the order of keys; so a call that is authorised is the call that the approval was
requested for, in every field, and in the same project, repository and baseline
(`approval_binding_exact`). SHA-256 is a parameter without collisions.
-/

namespace AutoSwe

open Relational Transaction Gateway Prog Table Option Session Function

/-! ## The document that is hashed -/

/-- The bytes that `canonical_sha256` hashes. -/
def canonicalBytes (value : Json) : ByteArray := value.dumps.toUTF8

def canonicalSha256 (sha256 : ByteArray → String) (value : Json) : String :=
  sha256 (canonicalBytes value)

/-- `model_dump(mode="json")` of a call -/
def ToolCallRequest.modelDump (call : ToolCallRequest) : Json :=
  .obj [("schema_version", .str "1.0"), ("call_id", .str call.callId.str),
    ("run_id", .str call.runId.str), ("task_id", .str call.taskId.str),
    ("attempt_id", .str call.attemptId.str), ("requested_by", .str call.requestedBy),
    ("tool_name", .str call.toolName), ("tool_version", .str call.toolVersion),
    ("arguments", .obj call.arguments), ("idempotency_key", .str call.idempotencyKey)]

/-- The value that `ApprovalRequest.call_hash` hashes. -/
def approvalDocument (isoformat : Time → String) (call : ToolCallRequest)
    (projectId repositoryId : UUID) (baselineCommit : String) (expiresAt : Time) : Json :=
  .obj [("call", call.modelDump), ("project_id", .str projectId.str),
    ("repository_id", .str repositoryId.str), ("baseline_commit", .str baselineCommit),
    ("expires_at", .str (isoformat expiresAt))]

/-- The service with the hash of `ApprovalRequest`. -/
def ApprovalService.canonical (ttl : Time) (uuid5 : UUID → String → UUID)
    (isoformat : Time → String) (sha256 : ByteArray → String) : ApprovalService where
  ttl := ttl
  uuid5 := uuid5
  isoformat := isoformat
  callHash call projectId repositoryId baselineCommit expiresAt :=
    canonicalSha256 sha256
      (approvalDocument isoformat call projectId repositoryId baselineCommit expiresAt)

/-- Two calls that differ at most in the order of keys inside of their arguments. -/
structure ToolCallRequest.SameCall (call call' : ToolCallRequest) : Prop where
  callId : call.callId = call'.callId
  runId : call.runId = call'.runId
  taskId : call.taskId = call'.taskId
  attemptId : call.attemptId = call'.attemptId
  requestedBy : call.requestedBy = call'.requestedBy
  toolName : call.toolName = call'.toolName
  toolVersion : call.toolVersion = call'.toolVersion
  arguments : Json.Same (.obj call.arguments) (.obj call'.arguments)
  idempotencyKey : call.idempotencyKey = call'.idempotencyKey

theorem canonicalBytes_injective (h : canonicalBytes a = canonicalBytes b) : a.dumps = b.dumps := by
  exact String.toByteArray_inj.mp h

theorem canonicalBytes_eq_iff (ha : a.WellFormed) :
    canonicalBytes a = canonicalBytes b ↔ Json.Same a b := by
  rw [← Json.dumps_eq_iff ha]
  exact ⟨canonicalBytes_injective, fun h => congrArg String.toUTF8 h⟩

theorem nodup_modelDump : (["schema_version", "call_id", "run_id", "task_id", "attempt_id",
    "requested_by", "tool_name", "tool_version", "arguments", "idempotency_key"]).Nodup := by
  decide

theorem sameCall_of_sortKeys {call call' : ToolCallRequest}
    (h : call.modelDump.sortKeys = call'.modelDump.sortKeys) : call.SameCall call' where
  callId := UUID.str_injective
    (Json.text_of_obj "call_id" h nodup_modelDump (by simp) (by simp))
  runId := UUID.str_injective (Json.text_of_obj "run_id" h nodup_modelDump (by simp) (by simp))
  taskId := UUID.str_injective (Json.text_of_obj "task_id" h nodup_modelDump (by simp) (by simp))
  attemptId := UUID.str_injective
    (Json.text_of_obj "attempt_id" h nodup_modelDump (by simp) (by simp))
  requestedBy := Json.text_of_obj "requested_by" h nodup_modelDump (by simp) (by simp)
  toolName := Json.text_of_obj "tool_name" h nodup_modelDump (by simp) (by simp)
  toolVersion := Json.text_of_obj "tool_version" h nodup_modelDump (by simp) (by simp)
  arguments := Json.same_of_sortKeys
    (Json.sortKeys_of_obj "arguments" h nodup_modelDump (by simp) (by simp))
  idempotencyKey := Json.text_of_obj "idempotency_key" h nodup_modelDump (by simp) (by simp)

theorem sameCall_of_callHash {isoformat : Time → String} {sha256 : ByteArray → String}
    (hsha256 : Injective sha256)
    (h : canonicalSha256 sha256 (approvalDocument isoformat call p r c t) =
      canonicalSha256 sha256 (approvalDocument isoformat call' p' r' c' t')) :
    call.SameCall call' := by
  have hsorted := Json.sortKeys_of_dumps (canonicalBytes_injective (hsha256 h))
  have hnodup : (["call", "project_id", "repository_id", "baseline_commit",
      "expires_at"]).Nodup := by decide
  exact sameCall_of_sortKeys (Json.sortKeys_of_obj "call" hsorted hnodup (by simp) (by simp))

/-! ## Runs -/

/-- The approval service's operations; all others leave the approvals alone. -/
inductive ApprovalOperation
  | request (call : ToolCallRequest) (context : ToolExecutionContext) (now : Time) (draw : Draw)
  | decide (approvalId : UUID) (d : Decision)
  | other (db : Database)

namespace ApprovalService

variable (service : ApprovalService)

def perform (db : Database) : ApprovalOperation → Database
  | .request call context now draw => ((service.request call context now draw).commit db).2
  | .decide approvalId d => (service.decided approvalId d db).2
  | .other db' => { db' with approvals := db.approvals }

def performAll (operations : List ApprovalOperation) : Database :=
  operations.foldl service.perform {}

/-- The operation after `before` creates the approval. -/
structure CreatedBy (approvalId : UUID) (before : List ApprovalOperation) (call : ToolCallRequest)
    (context : ToolExecutionContext) (now : Time) (draw : Draw) : Prop where
  absent : (service.performAll before).approvals.get? approvalId = none
  present : (service.performAll (before ++ [.request call context now draw])).approvals.get?
    approvalId = some (service.approval call context now draw)

variable {service}

theorem insertToolExecution_approvals
    (h : (insertToolExecution call status).run db = .ok (u, db')) :
    db'.approvals = db.approvals := by
  unfold insertToolExecution at h
  rw [run_execute] at h
  cases h
  split <;> rfl

theorem createApproval_ok (h : (createApproval row).run db = .ok (u, db')) :
    db.approvals.get? row.id = none ∧ db'.approvals = db.approvals.insert row := by
  obtain ⟨write, hwrite, rfl⟩ := checked_ok.mp h
  split at hwrite
  · cases hwrite
  · rename_i hfree
    split at hwrite
    · cases hwrite
    · cases hwrite
      exact ⟨by simpa using hfree, rfl⟩

theorem request_ok (h : (service.request call context now draw).run db = .ok (u, db')) :
    db'.approvals = db.approvals ∨
    (db.approvals.get? (service.approval call context now draw).id = none ∧
      db'.approvals = db.approvals.insert (service.approval call context now draw)) := by
  unfold request at h
  obtain ⟨_, _, hscope, h⟩ := bind_ok.mp h
  obtain ⟨-, rfl⟩ := require_ok.mp hscope
  obtain ⟨_, db₁, hinsert, h⟩ := bind_ok.mp h
  have hsame := insertToolExecution_approvals hinsert
  have h := after h rfl
  split at h
  · simp at h
  · have h := after h rfl
    split at h
    · -- the call has its approval already
      split at h
      · cases h
        exact .inl hsame
      · simp at h
    · obtain ⟨_, db₂, hcreate, h⟩ := bind_ok.mp h
      obtain ⟨hfree, hcreated⟩ := createApproval_ok hcreate
      obtain ⟨_, db₃, haudit, henqueue⟩ := bind_ok.mp h
      cases haudit
      cases henqueue
      rw [hsame] at hfree hcreated
      exact .inr ⟨hfree, hcreated⟩

theorem request_approvals (service : ApprovalService) (call : ToolCallRequest)
    (context : ToolExecutionContext) (now : Time) (draw : Draw) (db : Database) :
    ((service.request call context now draw).commit db).2.approvals = db.approvals ∨
    (db.approvals.get? (service.approval call context now draw).id = none ∧
      ((service.request call context now draw).commit db).2.approvals =
        db.approvals.insert (service.approval call context now draw)) := by
  exact (service.request call context now draw).commit_cases db (.inl rfl)
    fun _ _ hrun => request_ok hrun

structure Bound (row row' : ApprovalRow) : Prop where
  projectId : row'.projectId = row.projectId
  repositoryId : row'.repositoryId = row.repositoryId
  baselineCommit : row'.baselineCommit = row.baselineCommit
  expiresAt : row'.expiresAt = row.expiresAt
  callHash : row'.callHash = row.callHash

theorem Bound.refl (row : ApprovalRow) : Bound row row := ⟨rfl, rfl, rfl, rfl, rfl⟩

theorem Bound.trans (h : Bound row row') (h' : Bound row' row'') : Bound row row'' :=
  ⟨h'.projectId.trans h.projectId, h'.repositoryId.trans h.repositoryId,
    h'.baselineCommit.trans h.baselineCommit, h'.expiresAt.trans h.expiresAt,
    h'.callHash.trans h.callHash⟩

theorem Settled.bound (h : service.Settled row' db db')
    (hold : db.approvals.get? approvalId = some old) (hid : row'.id = old.id)
    (hbound : Bound old row') (hrow : db'.approvals.get? other = some row) :
    ∃ before, db.approvals.get? other = some before ∧ Bound before row := by
  by_cases hother : other = approvalId
  · subst hother
    obtain rfl : row' = row := some.inj ((h.get? hold hid).symm.trans hrow)
    exact ⟨old, hold, hbound⟩
  · have hkey : other ≠ row'.id := by
      rw [hid, key_of_get? hold]
      exact hother
    rw [h.recorded.approvals] at hrow
    exact ⟨row, (get?_set_ne _ hkey).symm.trans hrow, .refl row⟩

theorem decided_bound (h : (service.decided approvalId d db).2.approvals.get? other = some row) :
    ∃ old, db.approvals.get? other = some old ∧ Bound old row := by
  cases hrow : db.approvals.get? approvalId with
  | none =>
    have hrefused : (service.decided approvalId d db).2 = db := by
      cases hblank : isBlank d.approver <;>
        simp [decided, decide, require, commit, hblank, hrow]
    exact ⟨row, hrefused ▸ h, .refl row⟩
  | some old =>
    have hverdict := verdict service hrow d
    generalize service.decided approvalId d db = result at hverdict h
    cases hverdict with
    | unchanged => exact ⟨row, h, .refl row⟩
    | decides _ _ _ _ hsettled => exact hsettled.bound hrow rfl ⟨rfl, rfl, rfl, rfl, rfl⟩ h
    | expires _ hsettled => exact hsettled.bound hrow rfl ⟨rfl, rfl, rfl, rfl, rfl⟩ h

theorem performAll_append : service.performAll (operations ++ [operation]) =
    service.perform (service.performAll operations) operation := by
  simp [performAll]

/-- One operation: a row was there with the same binding, or the operation is the request
that creates it. -/
theorem perform_bound (h : (service.perform db operation).approvals.get? approvalId = some row) :
    (∃ old, db.approvals.get? approvalId = some old ∧ Bound old row) ∨
    ∃ call context now draw, operation = .request call context now draw ∧
      db.approvals.get? approvalId = none ∧ row = service.approval call context now draw := by
  cases operation with
  | request call context now draw =>
    rcases request_approvals service call context now draw db with hsame | ⟨hfree, hinserted⟩
    · exact .inl ⟨row, hsame ▸ h, .refl row⟩
    · have hget : (db.approvals.insert (service.approval call context now draw)).get? approvalId =
          some row := hinserted ▸ h
      rw [get?_insert hfree] at hget
      split at hget
      · rename_i hid
        subst hid
        exact .inr ⟨call, context, now, draw, rfl, hfree, (some.inj hget).symm⟩
      · exact .inl ⟨row, hget, .refl row⟩
  | decide => exact .inl (decided_bound h)
  | other db' => exact .inl ⟨row, h, .refl row⟩

/-- Every approval was created by a request, and is bound to what that request named. -/
theorem performAll_created
    (h : (service.performAll operations).approvals.get? approvalId = some row) :
    ∃ before call context now draw after,
      operations = before ++ .request call context now draw :: after ∧
      service.CreatedBy approvalId before call context now draw ∧
      Bound (service.approval call context now draw) row := by
  induction operations using List.reverseRecOn generalizing row with
  | nil => simp [performAll] at h
  | append_singleton operations operation ih =>
    rw [performAll_append] at h
    rcases perform_bound h with ⟨old, hold, hbound⟩ | ⟨call, context, now, draw, rfl, hfree, rfl⟩
    · obtain ⟨before, call, context, now, draw, after, rfl, hcreated, hbound'⟩ := ih hold
      exact ⟨before, call, context, now, draw, after ++ [operation], by simp, hcreated,
        hbound'.trans hbound⟩
    · refine ⟨operations, call, context, now, draw, [], rfl, ⟨hfree, ?_⟩, .refl _⟩
      rw [performAll_append]
      exact h

end ApprovalService

/-- Two values have the same bytes just if they are equal up to the order of keys, and what
is authorised is the call that the approval was created for, in its scope. -/
theorem approval_binding_exact {sha256 : ByteArray → String} (hsha256 : Injective sha256)
    (ttl : Time) (uuid5 : UUID → String → UUID) (isoformat : Time → String) :
    (∀ a b : Json, a.WellFormed → b.WellFormed →
      (canonicalBytes a = canonicalBytes b ↔ Json.Same a b)) ∧
    ∀ (gateway : ToolGateway) (operations : List ApprovalOperation) (approvalId : UUID)
      (call : ToolCallRequest) (context : Context) (expectedApprover : Option String) (now : Time)
      (db' : Database),
      gateway.approvals = .canonical ttl uuid5 isoformat sha256 →
      (authorizeApprover gateway approvalId call context expectedApprover now).run
        (gateway.approvals.performAll operations) = .ok ((), db') →
      ∃ before call₀ context₀ now₀ draw₀ after row,
        operations = before ++ .request call₀ context₀ now₀ draw₀ :: after ∧
        gateway.approvals.CreatedBy approvalId before call₀ context₀ now₀ draw₀ ∧
        call.SameCall call₀ ∧ context.projectId = context₀.projectId ∧
        context.repositoryId = context₀.repositoryId ∧
        context.baselineCommit = context₀.baselineCommit ∧
        (gateway.approvals.performAll operations).approvals.get? approvalId = some row ∧
        row.expiresAt = now₀ + ttl := by
  refine ⟨fun a b ha _ => canonicalBytes_eq_iff ha, ?_⟩
  intro gateway operations approvalId call context expectedApprover now db' hservice hauthorized
  obtain ⟨row, hrow, hbinds⟩ := authorizeApprover_ok hauthorized
  obtain ⟨before, call₀, context₀, now₀, draw₀, after, rfl, hcreated, hbound⟩ :=
    ApprovalService.performAll_created hrow
  have hhash := hbinds.callHash.symm.trans hbound.callHash
  rw [hservice] at hhash
  refine ⟨before, call₀, context₀, now₀, draw₀, after, row, rfl, hcreated,
    sameCall_of_callHash hsha256 hhash, ?_, ?_, ?_, hrow, ?_⟩
  · exact hbinds.projectId.symm.trans hbound.projectId
  · exact hbinds.repositoryId.symm.trans hbound.repositoryId
  · exact hbinds.baselineCommit.symm.trans hbound.baselineCommit
  · rw [hbound.expiresAt, hservice]
    rfl

theorem authorizeApprover_of_check
    (hscope : validateCallScope call context.toToolExecutionContext = .ok ())
    (hrow : db.approvals.get? approvalId = some row)
    (hcheck : gateway.approvals.checkAuthorization row call context.toToolExecutionContext now =
      .ok ()) :
    (authorizeApprover gateway approvalId call context none now).run db = .ok ((), db) := by
  simp [authorizeApprover, ApprovalService.authorize, require, hscope, hrow, hcheck]

def bytesText (bytes : ByteArray) : String :=
  String.ofList (bytes.data.toList.map fun byte => Char.ofNat byte.toNat)

theorem bytesText_injective : Injective bytesText := by
  have hcode : ∀ byte : UInt8, (Char.ofNat byte.toNat).toNat = byte.toNat := by
    intro byte
    have hlt := byte.toNat_lt
    have hvalid : byte.toNat.isValidChar := .inl (by omega)
    unfold Char.ofNat
    rw [dif_pos hvalid]
    rfl
  have hchar : Injective fun byte : UInt8 => Char.ofNat byte.toNat := by
    intro x y h
    have hnat := congrArg Char.toNat h
    simp only [hcode] at hnat
    exact UInt8.toNat_inj.mp hnat
  intro x y h
  have hlist := List.map_injective_iff.mpr hchar (String.ofList_injective h)
  exact ByteArray.ext (Array.toList_inj.mp hlist)

def bindingGateway : ToolGateway where
  registry _ _ := none
  approvals := .canonical 10 (fun _ name => OfNat.ofNat name.length) (fun _ => "") bytesText
  calculateRisk risk _ _ _ := risk
  redactArguments _ := .null
  redactOutput output := output
  redactText text := text

def boundContext : Context where
  projectId := 3
  repositoryId := 4
  runId := 5
  taskId := 6
  attemptId := 7
  baselineCommit := "c"
  agentRole := "coder"
  agentCapabilities := []
  riskCeiling := .LOW
  worktreeRoot := ""

def boundCall : ToolCallRequest :=
  ⟨2, 5, 6, 7, "coder", "git_commit", "1.0", [("path", .str "a"), ("depth", .num 1)], "k"⟩

def boundRequest : ApprovalOperation :=
  .request boundCall boundContext.toToolExecutionContext 0 {}

def boundRow : ApprovalRow :=
  bindingGateway.approvals.approval boundCall boundContext.toToolExecutionContext 0 {}

def boundDecision : Decision := ⟨"operator", true, boundRow.callHash, 1⟩

theorem bound_requested :
    (bindingGateway.approvals.performAll [boundRequest]).approvals.get? 46 = some boundRow := by
  rfl

theorem bound_recordable : bindingGateway.approvals.Recordable boundRow .APPROVED
    (bindingGateway.approvals.performAll [boundRequest]) := by
  refine ⟨?_, by decide +kernel, by decide +kernel⟩
  exact ne_none_iff_exists'.mpr ⟨⟨boundCall, .WAITING_FOR_APPROVAL⟩, rfl⟩

theorem bound_check : bindingGateway.approvals.checkAuthorization
    (ApprovalService.decidedRow boundRow boundDecision) boundCall
    boundContext.toToolExecutionContext 2 = .ok () := by
  unfold ApprovalService.checkAuthorization
  rw [if_neg (by decide), if_neg (by decide)]
  simp [ApprovalService.decidedRow, boundRow, ApprovalService.approval]

theorem bound_decided :
    (bindingGateway.approvals.performAll [boundRequest, .decide 46 boundDecision]).approvals.get?
      46 = some (ApprovalService.decidedRow boundRow boundDecision) := by
  have happend : ∀ service : ApprovalService, service.performAll [boundRequest,
      .decide 46 boundDecision] =
        (service.decided 46 boundDecision (service.performAll [boundRequest])).2 := fun _ => rfl
  have hsettled := ApprovalService.decided_pending (d := boundDecision) bound_requested
    (by decide) rfl (by decide) rfl bound_recordable
  rw [happend]
  exact hsettled.get? bound_requested rfl

theorem approval_binding_sample : ∃ db' before call₀ context₀ now₀ draw₀ after row,
    (authorizeApprover bindingGateway 46 boundCall boundContext none 2).run
      (bindingGateway.approvals.performAll [boundRequest, .decide 46 boundDecision]) =
        .ok ((), db') ∧
    [boundRequest, .decide 46 boundDecision] =
      before ++ .request call₀ context₀ now₀ draw₀ :: after ∧
    bindingGateway.approvals.CreatedBy 46 before call₀ context₀ now₀ draw₀ ∧
    boundCall.SameCall call₀ ∧ boundContext.projectId = context₀.projectId ∧
    boundContext.repositoryId = context₀.repositoryId ∧
    boundContext.baselineCommit = context₀.baselineCommit ∧
    (bindingGateway.approvals.performAll [boundRequest, .decide 46 boundDecision]).approvals.get?
      46 = some row ∧ row.expiresAt = now₀ + 10 := by
  have hscope : validateCallScope boundCall boundContext.toToolExecutionContext = .ok () := rfl
  have hrun := authorizeApprover_of_check hscope bound_decided bound_check
  obtain ⟨before, call₀, context₀, now₀, draw₀, after, row, hbinding⟩ :=
    (approval_binding_exact bytesText_injective 10 _ _).2 bindingGateway
      [boundRequest, .decide 46 boundDecision] 46 boundCall boundContext none 2 _ rfl hrun
  exact ⟨_, before, call₀, context₀, now₀, draw₀, after, row, hrun, hbinding⟩

end AutoSwe
