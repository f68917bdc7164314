import AutoSwe.Persistence.Repositories

/-!
# The tables that a session writes

`Touches tables p` says that `p` leaves every table but the given ones as it is.
It holds of a session by its structure, and of the database after a commit
(`Touches.committed`).
-/

namespace AutoSwe

open Relational Transaction Prog Database

inductive TableName
  | repositories
  | runs
  | tasks
  | attempts
  | modelCalls
  | leases
  | reservations
  | graphs
  | auditEvents
  | outbox
  | stateDurations
  | planRevisions
  | stageAttempts
  | repairMutations
  | artifacts
  | toolExecutions
  | approvals
  | memoryCandidates
deriving DecidableEq

abbrev TableName.Content : TableName → Type
  | .repositories => Table UUID RepositoryRow RepositoryRow.id
  | .runs => Table UUID RunRow RunRow.id
  | .tasks => Table UUID TaskRow TaskRow.id
  | .attempts => Table UUID TaskAttemptRow TaskAttemptRow.id
  | .modelCalls => List ModelCallRow
  | .leases => Table UUID LeaseRow LeaseRow.taskId
  | .reservations => List ReservationRow
  | .graphs => Table UUID GraphExecutionRow GraphExecutionRow.taskId
  | .auditEvents => List AuditEventRow
  | .outbox => List OutboxRow
  | .stateDurations => List StateDurationRow
  | .planRevisions => Table (UUID × Nat) PlanRevisionRow PlanRevisionRow.key
  | .stageAttempts => Table (UUID × Stage) RunStageAttemptRow RunStageAttemptRow.key
  | .repairMutations => Table UUID RepairMutationRow RepairMutationRow.mutationId
  | .artifacts => Table UUID ArtifactRow ArtifactRow.id
  | .toolExecutions => Table UUID ToolExecutionRow ToolExecutionRow.id
  | .approvals => Table UUID ApprovalRow ApprovalRow.id
  | .memoryCandidates => Table UUID MemoryCandidateRow MemoryCandidateRow.id

namespace Database

variable (db : Database)

def table : (t : TableName) → t.Content
  | .repositories => db.repositories
  | .runs => db.runs
  | .tasks => db.tasks
  | .attempts => db.attempts
  | .modelCalls => db.modelCalls
  | .leases => db.leases
  | .reservations => db.reservations
  | .graphs => db.graphs
  | .auditEvents => db.auditEvents
  | .outbox => db.outbox
  | .stateDurations => db.stateDurations
  | .planRevisions => db.planRevisions
  | .stageAttempts => db.stageAttempts
  | .repairMutations => db.repairMutations
  | .artifacts => db.artifacts
  | .toolExecutions => db.toolExecutions
  | .approvals => db.approvals
  | .memoryCandidates => db.memoryCandidates

def withTable : (t : TableName) → t.Content → Database
  | .repositories, repositories => { db with repositories }
  | .runs, runs => { db with runs }
  | .tasks, tasks => { db with tasks }
  | .attempts, attempts => { db with attempts }
  | .modelCalls, modelCalls => { db with modelCalls }
  | .leases, leases => { db with leases }
  | .reservations, reservations => { db with reservations }
  | .graphs, graphs => { db with graphs }
  | .auditEvents, auditEvents => { db with auditEvents }
  | .outbox, outbox => { db with outbox }
  | .stateDurations, stateDurations => { db with stateDurations }
  | .planRevisions, planRevisions => { db with planRevisions }
  | .stageAttempts, stageAttempts => { db with stageAttempts }
  | .repairMutations, repairMutations => { db with repairMutations }
  | .artifacts, artifacts => { db with artifacts }
  | .toolExecutions, toolExecutions => { db with toolExecutions }
  | .approvals, approvals => { db with approvals }
  | .memoryCandidates, memoryCandidates => { db with memoryCandidates }

theorem ext_table {db db' : Database} (h : ∀ t, db.table t = db'.table t) : db = db' := by
  cases db
  cases db'
  simp only [mk.injEq]
  exact ⟨h .repositories, h .runs, h .tasks, h .attempts, h .modelCalls, h .leases, h .reservations,
    h .graphs, h .auditEvents, h .outbox, h .stateDurations, h .planRevisions, h .stageAttempts,
    h .repairMutations, h .artifacts, h .toolExecutions, h .approvals, h .memoryCandidates⟩

theorem table_withTable_self (t : TableName) (x : t.Content) : (db.withTable t x).table t = x := by
  cases t <;> rfl

theorem table_withTable_ne (h : t' ≠ t) : (db.withTable t x).table t' = db.table t' := by
  cases t <;> cases t' <;> first | rfl | exact absurd rfl h

end Database

/-! ## Databases that differ in some tables -/

/-- Every table but the given ones stays. -/
def Agree (tables : List TableName) (db db' : Database) : Prop :=
  ∀ t, t ∉ tables → db'.table t = db.table t

namespace Agree

variable {tables : List TableName}

theorem refl (db : Database) : Agree tables db db := fun _ _ => rfl

theorem trans (h : Agree tables a b) (h' : Agree tables b c) : Agree tables a c :=
  fun t ht => (h' t ht).trans (h t ht)

theorem withTable (db : Database) (h : t ∈ tables) (x : t.Content) :
    Agree tables db (db.withTable t x) := by
  intro t' ht'
  refine db.table_withTable_ne ?_
  rintro rfl
  exact ht' h

theorem eq_withTable {db db' : Database} (h : Agree [t] db db') :
    db' = db.withTable t (db'.table t) := by
  refine ext_table fun t' => ?_
  by_cases ht : t' = t
  · subst ht
    rw [table_withTable_self]
  · rw [table_withTable_ne _ ht]
    exact h t' (by simpa using ht)

theorem weaken (h : Agree tables db db') (hsub : ∀ t ∈ tables, t ∈ others) : Agree others db db' :=
  fun t ht => h t fun hmem => ht (hsub t hmem)

end Agree

/-! ## Sessions -/

abbrev Touches (tables : List TableName) (p : Session α) : Prop :=
  p.Writes fun write => ∀ db, Agree tables db (write db)

namespace Touches

open Prog (Writes)

variable {tables : List TableName}

theorem refines (h : Touches tables p) : p.Refines (fun _ => True) (Agree tables) :=
  Writes.refines Agree.refl Agree.trans h

theorem committed (h : Touches tables p) : Agree tables db (p.commit db).2 :=
  h.refines.commit Agree.refl trivial

theorem query (read : Database → α) : Touches tables (query read) :=
  Writes.query Agree.refl read

theorem queryForUpdate (want : Database → Option Lock) (read : Database → α) :
    Touches tables (queryForUpdate want read : Session α) :=
  Writes.queryForUpdate want read

theorem require (check : Except Raised Unit) : Touches tables (Session.require check) := by
  cases check <;> exact trivial

theorem execute (t : TableName) (h : t ∈ tables)
    (hwrite : ∀ db, ∃ x, write db = db.withTable t x) : Touches tables (execute write) := by
  refine Writes.execute fun db => ?_
  obtain ⟨x, hx⟩ := hwrite db
  rw [hx]
  exact .withTable db h x

/-- A statement that may violate a constraint of the table that it writes. -/
theorem checked (t : TableName) (h : t ∈ tables)
    (hwrite : ∀ view w, write view = .ok w → ∀ db, ∃ x, w db = db.withTable t x) :
    Touches tables (checked write) := by
  refine Writes.checked Agree.refl fun view w hw db => ?_
  obtain ⟨x, hx⟩ := hwrite view w hw db
  rw [hx]
  exact .withTable db h x

theorem appendAudit (h : .auditEvents ∈ tables) (row : AuditEventRow) :
    Touches tables (AutoSwe.appendAudit row) :=
  execute .auditEvents h fun _ => ⟨_, rfl⟩

theorem enqueueEvent (h : .outbox ∈ tables) (row : OutboxRow) :
    Touches tables (AutoSwe.enqueueEvent row) :=
  execute .outbox h fun _ => ⟨_, rfl⟩

theorem appendNamedAudit (h : .auditEvents ∈ tables) (row : AuditEventRow) :
    Touches tables (AutoSwe.appendNamedAudit row) := by
  refine checked .auditEvents h fun view w hw db => ?_
  split at hw <;> cases hw
  exact ⟨_, rfl⟩

theorem enqueueNamedEvent (h : .outbox ∈ tables) (row : OutboxRow) :
    Touches tables (AutoSwe.enqueueNamedEvent row) := by
  refine checked .outbox h fun view w hw db => ?_
  split at hw <;> cases hw
  exact ⟨_, rfl⟩

theorem publish (haudit : .auditEvents ∈ tables) (houtbox : .outbox ∈ tables) :
    Touches tables
      (AutoSwe.publish eventId eventType aggregateType aggregateId correlationId topic payload) :=
  .bind (appendAudit haudit _) fun _ => enqueueEvent houtbox _

theorem recordStateDuration (h : .stateDurations ∈ tables) : Touches tables
    (AutoSwe.recordStateDuration aggregateType aggregateId state enteredAt exitedAt) :=
  execute .stateDurations h fun _ => ⟨_, rfl⟩

end Touches

end AutoSwe
