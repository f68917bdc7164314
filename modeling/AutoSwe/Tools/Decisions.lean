import AutoSwe.Tools.Approval

/-!
# Deciding an approval

Operators decide one approval any number of times. Before its expiry the first
decision stands and every other one is refused; the expiry is looked at first,
however, so that a decision that comes too late overwrites what was decided. The
status changes only once, and a repeated call ends alike, just if no decision
comes too late (`decided_once_iff`).
-/

namespace AutoSwe

open Relational Transaction Prog Table List Option Session

structure Decision where
  approver : String
  approved : Bool
  callHash : String
  now : Time

def Decision.target (d : Decision) : ApprovalStatus :=
  if d.approved then .APPROVED else .REJECTED

/-- The decision names the approval and comes too late. -/
structure ApprovalRow.Late (row : ApprovalRow) (d : Decision) : Prop where
  approver : isBlank d.approver = false
  callHash : row.callHash = d.callHash
  expired : row.expiresAt ≤ d.now

theorem exists_first {p : α → Prop} {xs : List α} (h : ∃ x ∈ xs, p x) :
    ∃ before x rest, xs = before ++ x :: rest ∧ p x ∧ ∀ y ∈ before, ¬ p y := by
  classical
  have hfound : (xs.find? fun x => decide (p x)).isSome := by simpa using h
  obtain ⟨x, hx⟩ := isSome_iff_exists.mp hfound
  obtain ⟨hp, before, rest, rfl, hbefore⟩ := find?_eq_some_iff_append.mp hx
  exact ⟨before, x, rest, rfl, by simpa using hp, by simpa using hbefore⟩

namespace ApprovalService

variable (service : ApprovalService)

/-- `decide` as its caller sees it: a decision that comes too late is committed, then
refused. -/
def decided (approvalId : UUID) (d : Decision) (db : Database) :
    Except Raised Unit × Database :=
  match (service.decide approvalId d.approver d.approved d.callHash d.now).commit db with
  | (.ok true, db') =>
    (.error ⟨.approvalExpired, "approval " ++ approvalId.str ++ " expired"⟩, db')
  | (.ok false, db') => (.ok (), db')
  | (.error error, db') => (.error error, db')

def decideAll (approvalId : UUID) (db : Database) (ds : List Decision) : Database :=
  ds.foldl (fun db d => (service.decided approvalId d db).2) db

/-- The status never changes again once it is not `PENDING`, and a call that is repeated
at once ends as before and changes no row. -/
structure DecidedOnce (approvalId : UUID) (db : Database) (ds : List Decision) : Prop where
  final : ∀ before later rest, ds = before ++ later ++ rest → ∀ row,
    (service.decideAll approvalId db before).approvals.get? approvalId = some row →
    row.status ≠ .PENDING → ∃ row',
      (service.decideAll approvalId db (before ++ later)).approvals.get? approvalId = some row' ∧
      row'.status = row.status
  repeats : ∀ before d rest, ds = before ++ d :: rest →
    service.decided approvalId d (service.decideAll approvalId db (before ++ [d])) =
      ((service.decided approvalId d (service.decideAll approvalId db before)).1,
        service.decideAll approvalId db (before ++ [d]))

/-! ## One decision -/

/-- The id of the event that a decision is recorded under. -/
def decisionId (row : ApprovalRow) (status : ApprovalStatus) : UUID :=
  service.uuid5 namespaceUrl ("approval-decided:" ++ row.id.str ++ ":" ++ status.value)

/-- The tool execution is there, and the event of the decision is not. -/
structure Recordable (row : ApprovalRow) (status : ApprovalStatus) (db : Database) : Prop where
  execution : db.toolExecutions.get? row.callId ≠ none
  audit : ∀ event ∈ db.auditEvents, event.id ≠ service.decisionId row status
  outbox : ∀ event ∈ db.outbox, event.eventId ≠ service.decisionId row status

/-- The decision is recorded under its id, and nothing else that a decision reads changes. -/
structure Recorded (row : ApprovalRow) (db db' : Database) : Prop where
  approvals : db'.approvals = db.approvals
  toolExecutions : db'.toolExecutions = db.toolExecutions
  audit : ∃ event : AuditEventRow, event.id = service.decisionId row row.status ∧
    db'.auditEvents = db.auditEvents ++ [event]
  outbox : ∃ event : OutboxRow, event.eventId = service.decisionId row row.status ∧
    db'.outbox = db.outbox ++ [event]

variable {service}

theorem recordDecision_ok
    (h : (service.recordDecision row approver now).run db = .ok (u, db')) :
    service.Recordable row row.status db ∧ service.Recorded row db db' := by
  unfold recordDecision recordStateDuration at h
  have h := after h rfl
  have h := after h rfl
  cases hexecution : db.toolExecutions.get? row.callId with
  | none => simp [hexecution] at h
  | some execution =>
    simp only [hexecution] at h
    obtain ⟨_, _, haudit, houtbox⟩ := bind_ok.mp h
    obtain ⟨hfree, rfl⟩ := appendNamedAudit_ok.mp haudit
    obtain ⟨hunsent, rfl⟩ := enqueueNamedEvent_ok.mp houtbox
    exact ⟨⟨by simp [hexecution], hfree, hunsent⟩, rfl, rfl, ⟨_, rfl, rfl⟩, ⟨_, rfl, rfl⟩⟩

theorem recordDecision_of_recordable (h : service.Recordable row row.status db)
    (approver : Option String) (now : Time) :
    ∃ db', (service.recordDecision row approver now).run db = .ok ((), db') := by
  obtain ⟨execution, hexecution⟩ := ne_none_iff_exists'.mp h.execution
  simp only [recordDecision, recordStateDuration, run_bind, run_execute, run_query,
    hexecution]
  rw [(appendNamedAudit_ok (u := ())).mpr ⟨h.audit, rfl⟩]
  exact ⟨_, enqueueNamedEvent_ok.mpr ⟨h.outbox, rfl⟩⟩

structure Settled (row : ApprovalRow) (db db' : Database) : Prop where
  recordable : service.Recordable row row.status db
  recorded : service.Recorded row (db.setApproval row) db'

theorem settled_of_ok
    (h : (service.recordDecision row approver now).run (db.setApproval row) = .ok (u, db')) :
    service.Settled row db db' := by
  obtain ⟨hrecordable, hrecorded⟩ := recordDecision_ok h
  exact ⟨⟨hrecordable.execution, hrecordable.audit, hrecordable.outbox⟩, hrecorded⟩

def lateRow (row : ApprovalRow) (d : Decision) : ApprovalRow :=
  { row with status := .EXPIRED, decidedAt := some d.now }

def decidedRow (row : ApprovalRow) (d : Decision) : ApprovalRow :=
  { row with status := d.target, approver := some d.approver, decidedAt := some d.now }

/-- What a decision does: nothing, or the decision of a pending approval, or its expiry. -/
inductive Verdict (service : ApprovalService) (approvalId : UUID) (row : ApprovalRow)
    (d : Decision) (db : Database) : Except Raised Unit × Database → Prop
  | unchanged (outcome : Except Raised Unit)
    (h : ¬ (row.Late d ∧ service.Recordable row .EXPIRED db)) :
    Verdict service approvalId row d db (outcome, db)
  | decides (hnamed : isBlank d.approver = false) (hhash : row.callHash = d.callHash)
    (hearly : d.now < row.expiresAt) (hpending : row.status = .PENDING)
    (hsettled : service.Settled (decidedRow row d) db db') :
    Verdict service approvalId row d db (.ok (), db')
  | expires (hlate : row.Late d) (hsettled : service.Settled (lateRow row d) db db') :
    Verdict service approvalId row d db
      (.error ⟨.approvalExpired, "approval " ++ approvalId.str ++ " expired"⟩, db')

/-! ## The branches of `decide` -/

section
variable (service) {db : Database} {approvalId : UUID} {row : ApprovalRow} {d : Decision}
  (hrow : db.approvals.get? approvalId = some row)
include hrow

theorem run_decide_late (h : row.Late d) :
    (service.decide approvalId d.approver d.approved d.callHash d.now).run db =
      ((service.recordDecision (lateRow row d) none d.now) >>= fun _ => pure true).run
        (db.setApproval (lateRow row d)) := by
  simp [decide, require, hrow, h.approver, h.callHash, h.expired, lateRow]

theorem run_decide_pending (hnamed : isBlank d.approver = false)
    (hhash : row.callHash = d.callHash) (hearly : d.now < row.expiresAt)
    (hpending : row.status = .PENDING) :
    (service.decide approvalId d.approver d.approved d.callHash d.now).run db =
      ((service.recordDecision (decidedRow row d) (some d.approver) d.now) >>=
        fun _ => pure false).run (db.setApproval (decidedRow row d)) := by
  simp [decide, require, hrow, hnamed, hhash, not_le.mpr hearly, hpending, decidedRow,
    Decision.target]

/-- A decision of a decided approval is confirmed if it is the same one, and refused otherwise. -/
theorem run_decide_again (hnamed : isBlank d.approver = false)
    (hhash : row.callHash = d.callHash) (hearly : d.now < row.expiresAt)
    (hdecided : row.status ≠ .PENDING) :
    (service.decide approvalId d.approver d.approved d.callHash d.now).run db =
      if row.status = d.target ∧ row.approver = some d.approver then .ok (false, db)
      else .error ⟨.approvalBindingError, "approval already has a different decision"⟩ := by
  simp only [decide, require, hnamed, hhash, not_le.mpr hearly, run_bind,
    run_query, hrow, Bool.false_eq_true, ↓reduceIte, ne_eq, not_true_eq_false, hdecided,
    not_false_eq_true, run_pure, Decision.target]
  rw [apply_ite (fun p : Session Bool => p.run db)]
  rfl

end

theorem decided_of_error
    (h : (service.decide approvalId d.approver d.approved d.callHash d.now).run db = .error e) :
    service.decided approvalId d db = (.error e, db) := by
  unfold decided
  rw [commit_of_error h]

theorem verdict_late (hrow : db.approvals.get? approvalId = some row) (hlate : row.Late d) :
    Verdict service approvalId row d db (service.decided approvalId d db) := by
  have hrun := run_decide_late service hrow hlate
  cases hrecord : (service.recordDecision (lateRow row d) none d.now).run
      (db.setApproval (lateRow row d)) with
  | error e =>
    rw [run_bind, hrecord] at hrun
    rw [decided_of_error hrun]
    refine .unchanged _ fun h => ?_
    have hrecordable : service.Recordable (lateRow row d) (lateRow row d).status
        (db.setApproval (lateRow row d)) := ⟨h.2.execution, h.2.audit, h.2.outbox⟩
    obtain ⟨_, hok⟩ := recordDecision_of_recordable hrecordable none d.now
    rw [hrecord] at hok
    cases hok
  | ok r =>
    rw [run_bind, hrecord] at hrun
    unfold decided
    rw [commit_of_ok hrun]
    exact .expires hlate (settled_of_ok hrecord)

theorem verdict_early (hrow : db.approvals.get? approvalId = some row)
    (hnamed : isBlank d.approver = false) (hhash : row.callHash = d.callHash)
    (hearly : d.now < row.expiresAt) :
    Verdict service approvalId row d db (service.decided approvalId d db) := by
  have hnot : ¬ (row.Late d ∧ service.Recordable row .EXPIRED db) :=
    fun h => absurd h.1.expired (not_le.mpr hearly)
  by_cases hpending : row.status = .PENDING
  · have hrun := run_decide_pending service hrow hnamed hhash hearly hpending
    cases hrecord : (service.recordDecision (decidedRow row d) (some d.approver) d.now).run
        (db.setApproval (decidedRow row d)) with
    | error e =>
      rw [run_bind, hrecord] at hrun
      rw [decided_of_error hrun]
      exact .unchanged _ hnot
    | ok r =>
      rw [run_bind, hrecord] at hrun
      unfold decided
      rw [commit_of_ok hrun]
      exact .decides hnamed hhash hearly hpending (settled_of_ok hrecord)
  · have hrun := run_decide_again service hrow hnamed hhash hearly hpending
    split at hrun
    · unfold decided
      rw [commit_of_ok hrun]
      exact .unchanged _ hnot
    · rw [decided_of_error hrun]
      exact .unchanged _ hnot

theorem verdict (service : ApprovalService) (hrow : db.approvals.get? approvalId = some row)
    (d : Decision) :
    Verdict service approvalId row d db (service.decided approvalId d db) := by
  cases hblank : isBlank d.approver with
  | true =>
    rw [decided_of_error (e := ⟨.valueError, "approver is required"⟩)
      (by simp [decide, require, hblank])]
    refine .unchanged _ fun h => ?_
    have hnamed := h.1.approver
    simp [hblank] at hnamed
  | false =>
    by_cases hhash : row.callHash = d.callHash
    · rcases lt_or_ge d.now row.expiresAt with hearly | hlate
      · exact verdict_early hrow hblank hhash hearly
      · exact verdict_late hrow ⟨hblank, hhash, hlate⟩
    · rw [decided_of_error (e := ⟨.approvalBindingError,
          "approval decision does not match the exact call"⟩)
        (by simp [decide, require, hblank, hrow, hhash])]
      exact .unchanged _ fun h => hhash h.1.callHash

theorem decided_pending (hrow : db.approvals.get? approvalId = some row)
    (hnamed : isBlank d.approver = false) (hhash : row.callHash = d.callHash)
    (hearly : d.now < row.expiresAt) (hpending : row.status = .PENDING)
    (hrecordable : service.Recordable row d.target db) :
    service.Settled (decidedRow row d) db (service.decided approvalId d db).2 := by
  have hrecordable' : service.Recordable (decidedRow row d) (decidedRow row d).status
      (db.setApproval (decidedRow row d)) :=
    ⟨hrecordable.execution, hrecordable.audit, hrecordable.outbox⟩
  obtain ⟨db', hrecord⟩ := recordDecision_of_recordable hrecordable' (some d.approver) d.now
  have hrun := run_decide_pending service hrow hnamed hhash hearly hpending
  rw [run_bind, hrecord] at hrun
  unfold decided
  rw [commit_of_ok hrun]
  exact settled_of_ok hrecord

theorem Settled.get? (h : service.Settled row' db db')
    (hrow : db.approvals.get? approvalId = some row) (hid : row'.id = row.id) :
    db'.approvals.get? approvalId = some row' := by
  have hkey : approvalId = row'.id := (key_of_get? hrow).symm.trans hid.symm
  subst hkey
  rw [h.recorded.approvals]
  exact get?_set_self hrow

/-! ## A decision that does not expire the approval -/

def Holds (approvalId : UUID) (row : ApprovalRow) (db : Database) (now : ApprovalRow) : Prop :=
  db.approvals.get? approvalId = some now ∧ now.id = row.id ∧ now.callId = row.callId ∧
    now.callHash = row.callHash ∧ now.expiresAt = row.expiresAt

/-- No decision of the list would expire the approval. -/
def Calm (service : ApprovalService) (row : ApprovalRow) (db : Database) (ds : List Decision) :
    Prop :=
  ¬ (service.Recordable row .EXPIRED db ∧ ∃ d ∈ ds, row.Late d)

theorem Holds.late (h : Holds approvalId row db current) : current.Late d ↔ row.Late d := by
  obtain ⟨-, -, -, hhash, hexpires⟩ := h
  constructor
  · intro hlate
    exact ⟨hlate.approver, hhash ▸ hlate.callHash, hexpires ▸ hlate.expired⟩
  · intro hlate
    exact ⟨hlate.approver, hhash ▸ hlate.callHash, hexpires ▸ hlate.expired⟩

theorem Holds.recordable (h : Holds approvalId row db current) :
    service.Recordable current status db' ↔ service.Recordable row status db' := by
  obtain ⟨-, hid, hcall, -, -⟩ := h
  have heq : service.decisionId current status = service.decisionId row status := by
    simp [decisionId, hid]
  constructor
  · rintro ⟨hexecution, haudit, houtbox⟩
    rw [hcall] at hexecution
    rw [heq] at haudit houtbox
    exact ⟨hexecution, haudit, houtbox⟩
  · rintro ⟨hexecution, haudit, houtbox⟩
    rw [← hcall] at hexecution
    rw [← heq] at haudit houtbox
    exact ⟨hexecution, haudit, houtbox⟩

/-- What a decision is recorded under stays in use. -/
theorem Recorded.unrecordable (h : service.Recorded row (db.setApproval row) db')
    (hnot : ¬ service.Recordable row' status db) : ¬ service.Recordable row' status db' := by
  obtain ⟨event, -, haudit⟩ := h.audit
  obtain ⟨sent, -, houtbox⟩ := h.outbox
  intro hr
  refine hnot ⟨?_, ?_, ?_⟩
  · have := hr.execution
    rwa [h.toolExecutions] at this
  · intro other hother
    exact hr.audit other (haudit ▸ mem_append_left _ hother)
  · intro other hother
    exact hr.outbox other (houtbox ▸ mem_append_left _ hother)

theorem recordable_of_expired (h : service.Settled (lateRow row d) db db') :
    service.Recordable row .EXPIRED db :=
  ⟨h.recordable.execution, h.recordable.audit, h.recordable.outbox⟩

/-- One decision that does not expire the approval: it stays about its call, a status that
is not `PENDING` stays, and nothing later expires it either. -/
theorem decided_calm (hholds : Holds approvalId row db current)
    (hcalm : Calm service row db (d :: ds)) :
    ∃ next, Holds approvalId row (service.decided approvalId d db).2 next ∧
      (current.status ≠ .PENDING → next.status = current.status) ∧
      Calm service row (service.decided approvalId d db).2 ds := by
  have hcalm' : ∀ db',
      (¬ service.Recordable row .EXPIRED db → ¬ service.Recordable row .EXPIRED db') →
      Calm service row db' ds := by
    rintro db' hstays ⟨hr, d', hd', hlate⟩
    by_cases hwas : service.Recordable row .EXPIRED db
    · exact hcalm ⟨hwas, d', mem_cons_of_mem _ hd', hlate⟩
    · exact hstays hwas hr
  have hverdict := verdict service hholds.1 d
  generalize service.decided approvalId d db = result at hverdict ⊢
  cases hverdict with
  | unchanged => exact ⟨current, hholds, fun _ => rfl, hcalm' db id⟩
  | decides hnamed hhash hearly hpending hsettled =>
    refine ⟨decidedRow current d, ⟨hsettled.get? hholds.1 rfl, hholds.2⟩, ?_, ?_⟩
    · exact fun h => absurd hpending h
    · exact hcalm' _ hsettled.recorded.unrecordable
  | expires hlate hsettled =>
    have hrecordable := hholds.recordable.mp (recordable_of_expired hsettled)
    exact absurd ⟨hrecordable, d, mem_cons_self, hholds.late.mp hlate⟩ hcalm

/-- Repeating such a decision ends alike and changes nothing. -/
theorem decided_again (hholds : Holds approvalId row db current)
    (hcalm : Calm service row db (d :: ds)) :
    service.decided approvalId d (service.decided approvalId d db).2 =
      service.decided approvalId d db := by
  have hverdict := verdict service hholds.1 d
  generalize hresult : service.decided approvalId d db = result at hverdict ⊢
  cases hverdict with
  | unchanged => exact hresult
  | decides hnamed hhash hearly hpending hsettled =>
    have hdecided : (decidedRow current d).status ≠ .PENDING := by
      cases h : d.approved <;> simp [decidedRow, Decision.target, h]
    have hrun := run_decide_again service (hsettled.get? hholds.1 rfl) hnamed hhash
      hearly hdecided
    have hsame : (decidedRow current d).status = d.target ∧
        (decidedRow current d).approver = some d.approver := ⟨rfl, rfl⟩
    rw [if_pos hsame] at hrun
    unfold decided
    rw [commit_of_ok hrun]
  | expires hlate hsettled =>
    have hrecordable := hholds.recordable.mp (recordable_of_expired hsettled)
    exact absurd ⟨hrecordable, d, mem_cons_self, hholds.late.mp hlate⟩ hcalm

theorem decideAll_append : service.decideAll approvalId db (before ++ later) =
    service.decideAll approvalId (service.decideAll approvalId db before) later :=
  foldl_append

theorem decideAll_calm (hholds : Holds approvalId row db current)
    (hcalm : Calm service row db (before ++ rest)) :
    ∃ next, Holds approvalId row (service.decideAll approvalId db before) next ∧
      (current.status ≠ .PENDING → next.status = current.status) ∧
      Calm service row (service.decideAll approvalId db before) rest := by
  induction before generalizing db current with
  | nil => exact ⟨current, hholds, fun _ => rfl, hcalm⟩
  | cons d before ih =>
    obtain ⟨mid, hmid, hstays, hcalm'⟩ := decided_calm hholds hcalm
    obtain ⟨next, hnext, hstays', hcalm''⟩ := ih hmid hcalm'
    refine ⟨next, hnext, fun h => ?_, hcalm''⟩
    have hstatus := hstays h
    exact (hstays' (hstatus ▸ h)).trans hstatus

theorem decidedOnce_of_calm (hrow : db.approvals.get? approvalId = some row)
    (hcalm : Calm service row db ds) : service.DecidedOnce approvalId db ds := by
  have hholds : Holds approvalId row db row := ⟨hrow, rfl, rfl, rfl, rfl⟩
  constructor
  · rintro before later rest rfl found hfound hdecided
    rw [append_assoc] at hcalm
    obtain ⟨current, hcurrent, -, hcalm'⟩ := decideAll_calm hholds hcalm
    obtain rfl : current = found := some.inj (hcurrent.1.symm.trans hfound)
    obtain ⟨next, hnext, hstays, -⟩ := decideAll_calm hcurrent hcalm'
    rw [decideAll_append]
    exact ⟨next, hnext.1, hstays hdecided⟩
  · rintro before d rest rfl
    obtain ⟨current, hcurrent, -, hcalm'⟩ := decideAll_calm hholds hcalm
    rw [decideAll_append]
    exact decided_again hcurrent hcalm'

/-! ## A decision that comes too late -/

/-- The ids of the other decisions are not the id of the expiry. -/
def DistinctNames (service : ApprovalService) (row : ApprovalRow) : Prop :=
  ∀ status, status ≠ .EXPIRED → service.decisionId row status ≠ service.decisionId row .EXPIRED

theorem recordDecision_duplicate (hexecution : db.toolExecutions.get? row.callId ≠ none)
    (hevent : ∃ event ∈ db.auditEvents, event.id = service.decisionId row row.status) :
    (service.recordDecision row approver now).run db =
      .error ⟨.integrityError, "audit_events_pkey"⟩ := by
  obtain ⟨execution, hexecution⟩ := ne_none_iff_exists'.mp hexecution
  unfold decisionId at hevent
  simp [recordDecision, recordStateDuration, appendNamedAudit, run_checked, hexecution, hevent]

theorem Recorded.recordable (h : service.Recorded row' (db.setApproval row') db')
    (hne : service.decisionId row' row'.status ≠ service.decisionId row status)
    (hr : service.Recordable row status db) : service.Recordable row status db' := by
  obtain ⟨event, heid, haudit⟩ := h.audit
  obtain ⟨sent, hsid, houtbox⟩ := h.outbox
  refine ⟨?_, ?_, ?_⟩
  · have := hr.execution
    rwa [h.toolExecutions]
  · rw [haudit]
    intro other hother
    rcases mem_append.mp hother with hold | hnew
    · exact hr.audit other hold
    · rw [mem_singleton.mp hnew, heid]
      exact hne
  · rw [houtbox]
    intro other hother
    rcases mem_append.mp hother with hold | hnew
    · exact hr.outbox other hold
    · rw [mem_singleton.mp hnew, hsid]
      exact hne

/-- A decision in time leaves the expiry recordable. -/
theorem decided_recordable (hholds : Holds approvalId row db current)
    (hnames : DistinctNames service row) (htimely : ¬ row.Late d)
    (hr : service.Recordable row .EXPIRED db) :
    service.Recordable row .EXPIRED (service.decided approvalId d db).2 := by
  have hverdict := verdict service hholds.1 d
  generalize service.decided approvalId d db = result at hverdict ⊢
  cases hverdict with
  | unchanged => exact hr
  | decides hnamed hhash hearly hpending hsettled =>
    have hname : service.decisionId (decidedRow current d) d.target =
        service.decisionId row d.target := by
      simp [decisionId, decidedRow, hholds.2.1]
    have hother : d.target ≠ .EXPIRED := by
      cases h : d.approved <;> simp [Decision.target, h]
    have hne : service.decisionId (decidedRow current d) d.target ≠
        service.decisionId row .EXPIRED := by
      rw [hname]
      exact hnames _ hother
    exact hsettled.recorded.recordable hne hr
  | expires hlate hsettled => exact absurd (hholds.late.mp hlate) htimely

theorem decideAll_recordable (hholds : Holds approvalId row db current)
    (hnames : DistinctNames service row) (htimely : ∀ d ∈ ds, ¬ row.Late d)
    (hr : service.Recordable row .EXPIRED db) :
    service.Recordable row .EXPIRED (service.decideAll approvalId db ds) := by
  induction ds generalizing db current with
  | nil => exact hr
  | cons d ds ih =>
    have hcalm : Calm service row db [d] := by
      rintro ⟨-, d', hd', hlate⟩
      exact htimely d' (mem_singleton.mp hd' ▸ mem_cons_self) hlate
    obtain ⟨next, hnext, -⟩ := decided_calm hholds hcalm
    exact ih hnext (fun d' hd' => htimely d' (mem_cons_of_mem _ hd'))
      (decided_recordable hholds hnames (htimely d mem_cons_self) hr)

/-- The late decision raises `ApprovalExpired`; repeated, it raises an integrity error. -/
theorem decided_late (hholds : Holds approvalId row db current) (hlate : row.Late d)
    (hr : service.Recordable row .EXPIRED db) :
    ∃ db', service.decided approvalId d db =
        (.error ⟨.approvalExpired, "approval " ++ approvalId.str ++ " expired"⟩, db') ∧
      service.decided approvalId d db' =
        (.error ⟨.integrityError, "audit_events_pkey"⟩, db') := by
  have hverdict := verdict service hholds.1 d
  generalize service.decided approvalId d db = result at hverdict ⊢
  cases hverdict with
  | unchanged outcome h =>
    exact absurd ⟨hholds.late.mpr hlate, hholds.recordable.mpr hr⟩ h
  | decides hnamed hhash hearly =>
    exact absurd (hholds.late.mpr hlate).expired (not_le.mpr hearly)
  | @expires db' hlate' hsettled =>
    refine ⟨_, rfl, decided_of_error ?_⟩
    have hagain : (lateRow current d).Late d := ⟨hlate'.approver, hlate'.callHash, hlate'.expired⟩
    rw [run_decide_late service (hsettled.get? hholds.1 rfl) hagain, run_bind]
    obtain ⟨event, hevent, haudit⟩ := hsettled.recorded.audit
    have hexecution : db'.toolExecutions.get? current.callId ≠ none := by
      rw [hsettled.recorded.toolExecutions]
      exact hsettled.recordable.execution
    have hmem : event ∈ db'.auditEvents := by
      rw [haudit]
      exact mem_append_right _ (mem_singleton_self _)
    rw [recordDecision_duplicate]
    · exact hexecution
    · exact ⟨event, hmem, hevent⟩

/-- The approval is decided once just if no decision comes too late, or the expiry cannot be
recorded anyway. -/
theorem decided_once_iff (hrow : db.approvals.get? approvalId = some row)
    (hnames : DistinctNames service row) (ds : List Decision) :
    service.DecidedOnce approvalId db ds ↔
      ¬ (service.Recordable row .EXPIRED db ∧ ∃ d ∈ ds, row.Late d) := by
  refine ⟨?_, decidedOnce_of_calm hrow⟩
  rintro honce ⟨hr, hsome⟩
  have hholds : Holds approvalId row db row := ⟨hrow, rfl, rfl, rfl, rfl⟩
  -- the first decision that comes too late
  obtain ⟨before, d, rest, rfl, hlate, htimely⟩ := exists_first hsome
  have hcalm : Calm service row db (before ++ []) := by
    rw [append_nil]
    rintro ⟨-, d', hd', hlate'⟩
    exact htimely d' hd' hlate'
  obtain ⟨current, hcurrent, -, -⟩ := decideAll_calm hholds hcalm
  have hr' := decideAll_recordable hholds hnames htimely hr
  obtain ⟨db', hfirst, hsecond⟩ := decided_late hcurrent hlate hr'
  have hrepeat := honce.repeats before d rest rfl
  have hafter : service.decideAll approvalId db (before ++ [d]) = db' := by
    rw [decideAll_append]
    exact congrArg Prod.snd hfirst
  rw [hafter, hfirst, hsecond] at hrepeat
  cases hrepeat

/-- Ids that are sums of characters. -/
def approvalSample : ApprovalService where
  callHash _ _ _ _ _ := "h"
  uuid5 _ name := OfNat.ofNat (name.toList.map Char.toNat).sum
  isoformat _ := ""

def pendingSample : ApprovalRow where
  id := 1
  callId := 2
  projectId := 3
  repositoryId := 4
  baselineCommit := "c"
  callHash := "h"
  expiresAt := 10
  createdAt := 0

def pendingDatabase : Database where
  approvals := empty.insert pendingSample
  toolExecutions := empty.insert
    { call := ⟨2, 5, 6, 7, "coder", "git_commit", "1.0", [], "k"⟩, status := .WAITING_FOR_APPROVAL }

def approves : Decision := ⟨"operator", true, "h", 1⟩

def approvesLate : Decision := ⟨"operator", true, "h", 10⟩

theorem distinctNames_sample : DistinctNames approvalSample pendingSample := by
  intro status hstatus
  cases status <;> first | exact absurd rfl hstatus | decide +kernel

theorem decided_once_sample :
    approvalSample.DecidedOnce 1 pendingDatabase [approves, approves] := by
  refine (decided_once_iff rfl distinctNames_sample _).mpr ?_
  rintro ⟨-, d, hd, hlate⟩
  have hnow : d = approves := by simpa using hd
  exact absurd hlate.expired (by rw [hnow]; decide)

/-- The approved approval becomes `EXPIRED`, and the call that did it ends otherwise when it
is repeated. -/
theorem decided_twice :
    ((approvalSample.decideAll 1 pendingDatabase [approves]).approvals.get? 1).map (·.status) =
      some .APPROVED ∧
    ((approvalSample.decideAll 1 pendingDatabase [approves, approvesLate]).approvals.get? 1).map
      (·.status) = some .EXPIRED ∧
    (approvalSample.decided 1 approvesLate
      (approvalSample.decideAll 1 pendingDatabase [approves])).1 =
      .error ⟨.approvalExpired, "approval " ++ (1 : UUID).str ++ " expired"⟩ ∧
    (approvalSample.decided 1 approvesLate
      (approvalSample.decideAll 1 pendingDatabase [approves, approvesLate])).1 =
      .error ⟨.integrityError, "audit_events_pkey"⟩ := by
  refine ⟨by decide +kernel, by decide +kernel, by rfl, by rfl⟩

end ApprovalService

end AutoSwe
