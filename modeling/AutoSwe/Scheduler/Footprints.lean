import AutoSwe.Scheduler.ReconciliationTrail

/-!
# Footprints

What the writes of a transaction do to graph rows, reservations and leases, and
which states they move tasks to. Every transaction may release reservations
that it saw and delete leases; what else it writes is its `footprint`.
-/

namespace AutoSwe

open Relational Transaction Call

inductive Footprint
  | graphs
  | reservations
  | leases
  | attempts
  /-- A task row that is in `state` afterwards. -/
  | tasks (state : TaskStatus)

/-- The writes of the scheduler one by one: what each of them can change. Task
rows are created only if `creates`, runs, repositories and model calls written
only if `runs`. -/
inductive RowWrite (may : Footprint → Prop) (creates runs : Prop) :
    (Database → Database) → Prop
  | log {write} (h : ∀ db, ∃ auditEvents outbox stateDurations,
      write db = { db with auditEvents, outbox, stateDurations }) :
      RowWrite may creates runs write
  | attempt {write} (hmay : may .attempts) (h : ∀ db, ∃ attempts, write db = { db with attempts }) :
      RowWrite may creates runs write
  | release (taskId : UUID) (releasedAt : Time) (view : Database) :
      RowWrite may creates runs (Database.releaseSeen taskId releasedAt view)
  | drop (taskId : UUID) :
      RowWrite may creates runs fun db => { db with leases := db.leases.erase taskId }
  | graph {write} (hmay : may .graphs) (h : ∀ db, ∃ graphs, write db = { db with graphs }) :
      RowWrite may creates runs write
  | reserve {write} (hmay : may .reservations)
      (h : ∀ db, ∃ reservations, write db = { db with reservations }) :
      RowWrite may creates runs write
  | lease {write} (hmay : may .leases) (h : ∀ db, ∃ leases, write db = { db with leases }) :
      RowWrite may creates runs write
  | set (row : TaskRow) (hmay : may (.tasks row.state)) :
      RowWrite may creates runs fun db => { db with tasks := db.tasks.set row }
  | create (row : TaskRow) (hmay : may (.tasks row.state)) (hcreates : creates) :
      RowWrite may creates runs fun db => { db with tasks := db.tasks.insert row }
  | ambient {write} (hruns : runs) (h : ∀ db, ∃ repositories table modelCalls,
      write db = { db with repositories, runs := table, modelCalls }) :
      RowWrite may creates runs write

/-- The tables that a `RowWrite` can change. -/
def Writable (may : Footprint → Prop) (runs : Prop) : TableName → Prop
  | .auditEvents | .outbox | .stateDurations | .reservations | .leases => True
  | .attempts => may .attempts
  | .graphs => may .graphs
  | .tasks => ∃ state, may (.tasks state)
  | .repositories | .runs | .modelCalls => runs
  | _ => False

theorem RowWrite.keeps (h : RowWrite may creates runs write) (ht : ¬ Writable may runs t)
    (db : Database) : (write db).table t = db.table t := by
  have hother : ∀ t', Writable may runs t' → ∀ x, (db.withTable t' x).table t = db.table t := by
    intro t' ht' x
    refine db.table_withTable_ne ?_
    rintro rfl
    exact ht ht'
  cases h with
  | log h =>
    obtain ⟨auditEvents, outbox, stateDurations, he⟩ := h db
    rw [he]
    cases t <;> first | rfl | exact absurd trivial ht
  | attempt hmay h =>
    obtain ⟨attempts, he⟩ := h db
    rw [he]
    exact hother .attempts hmay attempts
  | release => exact hother .reservations trivial _
  | drop => exact hother .leases trivial _
  | graph hmay h =>
    obtain ⟨graphs, he⟩ := h db
    rw [he]
    exact hother .graphs hmay graphs
  | reserve _ h =>
    obtain ⟨reservations, he⟩ := h db
    rw [he]
    exact hother .reservations trivial reservations
  | lease _ h =>
    obtain ⟨leases, he⟩ := h db
    rw [he]
    exact hother .leases trivial leases
  | set row hmay | create row hmay => exact hother .tasks ⟨row.state, hmay⟩ _
  | ambient hruns h =>
    obtain ⟨repositories, table, modelCalls, he⟩ := h db
    rw [he]
    cases t <;> first | rfl | exact absurd hruns ht

theorem RowWrite.tasks (h : RowWrite may creates runs write) :
    (write db).tasks.get? t = db.tasks.get? t ∨
      ∃ row, (write db).tasks.get? t = some row ∧ may (.tasks row.state) := by
  cases h with
  | set row hmay =>
    simp only [Table.get?_set]
    split
    · cases db.tasks.get? t with
      | none => exact .inl rfl
      | some _ => exact .inr ⟨row, rfl, hmay⟩
    · exact .inl rfl
  | create row hmay =>
    exact (Table.get?_insert_cases ..).imp_right fun hrow => ⟨row, hrow, hmay⟩
  | log h =>
    obtain ⟨auditEvents, outbox, stateDurations, he⟩ := h db
    exact .inl (by rw [he])
  | attempt _ h | graph _ h | reserve _ h | lease _ h =>
    obtain ⟨rows, he⟩ := h db
    exact .inl (by rw [he])
  | release | drop => exact .inl rfl
  | ambient _ h =>
    obtain ⟨repositories, table, modelCalls, he⟩ := h db
    exact .inl (by rw [he])

abbrev RowWrites (may : Footprint → Prop) (creates runs : Prop) (p : Session α) : Prop :=
  p.Writes (RowWrite may creates runs)

namespace RowWrites

open Prog (Writes)

variable {may : Footprint → Prop} {creates runs : Prop}

theorem unseen : RowWrite may creates runs id :=
  .log fun db => ⟨db.auditEvents, db.outbox, db.stateDurations, rfl⟩

theorem query (read : Database → α) : RowWrites may creates runs (Prog.query read) :=
  Writes.query unseen read

theorem logged (h : ∀ db, ∃ auditEvents outbox stateDurations,
      write db = { db with auditEvents, outbox, stateDurations }) :
    RowWrites may creates runs (Prog.execute write) :=
  Writes.execute (.log h)

theorem setTask (hmay : may (.tasks row.state)) : RowWrites may creates runs
    (Prog.execute fun db => { db with tasks := db.tasks.set row }) :=
  Writes.execute (.set row hmay)

theorem checked (h : ∀ view w, write view = .ok w → RowWrite may creates runs w) :
    RowWrites may creates runs (Prog.checked write) :=
  Writes.checked unseen h

theorem require : RowWrites may creates runs (Session.require check) := by
  cases check <;> exact trivial

theorem recordStateDuration : RowWrites may creates runs
    (AutoSwe.recordStateDuration aggregateType aggregateId state enteredAt exitedAt) :=
  logged fun _ => ⟨_, _, _, rfl⟩

theorem publish : RowWrites may creates runs
    (AutoSwe.publish eventId eventType aggregateType aggregateId correlationId topic payload) :=
  .bind (logged fun _ => ⟨_, _, _, rfl⟩) fun _ => logged fun _ => ⟨_, _, _, rfl⟩

theorem transitionTask (hmay : may (.tasks target)) :
    RowWrites may creates runs
      (AutoSwe.transitionTask projectId taskId expectedVersion target draw) := by
  refine Writes.bind (Writes.queryForUpdate _ _) (.option trivial fun row => .ite trivial ?_)
  exact .bind require fun _ => .bind recordStateDuration fun _ =>
    .bind (setTask hmay) fun _ => .bind publish fun _ => trivial

theorem createTask (hcreates : creates) (hmay : may (.tasks .PENDING)) :
    RowWrites may creates runs (AutoSwe.createTask runId spec draw) := by
  refine Writes.bind (checked fun view w hw => ?_) fun _ => trivial
  split at hw <;> cases hw
  exact .create (spec.row runId draw) hmay hcreates

theorem updateGraph (hmay : may .graphs) :
    RowWrites may creates runs (AutoSwe.updateGraph row) := by
  refine checked fun view w hw => ?_
  split at hw <;> cases hw
  exact .graph hmay fun _ => ⟨_, rfl⟩

theorem recordGraphExecution (hmay : may .graphs) :
    RowWrites may creates runs (AutoSwe.recordGraphExecution row) := by
  refine checked fun view w hw => ?_
  split at hw
  · cases hw
  · split at hw <;> cases hw
    exact .graph hmay fun _ => ⟨_, rfl⟩

theorem transitionGraphExecution (hmay : may .graphs) : RowWrites may creates runs
    (AutoSwe.transitionGraphExecution taskId identity threadId target checkpointId draw) := by
  refine Writes.bind (Writes.queryForUpdate _ _) (.option (.ite trivial ?_) fun row =>
    .ite trivial (.ite (.ite trivial ?_) (.ite ?_ ?_)))
  · exact .bind (recordGraphExecution hmay) fun _ => .bind publish fun _ => trivial
  · exact .bind publish fun _ => .bind recordStateDuration fun _ =>
      .bind (updateGraph hmay) fun _ => .bind publish fun _ => trivial
  · exact .bind (updateGraph hmay) fun _ => trivial
  · exact .bind require fun _ => .bind recordStateDuration fun _ =>
      .bind (updateGraph hmay) fun _ => .bind publish fun _ => trivial

theorem moveIfAny (hmay : ∀ state, may (.tasks state)) :
    RowWrites may creates runs (AutoSwe.moveIfAny task target draw) := by
  cases target with
  | none => exact trivial
  | some target =>
    exact .bind (transitionTask (hmay target)) fun _ => .bind (setTask (hmay _)) fun _ => trivial

theorem overwriteIfAny (hmay : may .graphs) :
    RowWrites may creates runs (AutoSwe.overwriteIfAny graph state now) := by
  cases state with
  | none => exact trivial
  | some state =>
    cases graph with
    | none => exact trivial
    | some graph =>
      exact .bind (Writes.execute (.graph hmay fun _ => ⟨_, rfl⟩))
        fun _ => trivial

end RowWrites

instance : Idle (RowWrite may creates runs) := ⟨RowWrites.unseen⟩

/-- Every write of a session is a `RowWrite`, and the session leaves a trail. -/
abbrev Schedules (may : Footprint → Prop) (creates runs : Prop) (p : Session α) : Prop :=
  Trails (RowWrite may creates runs) p

namespace Schedules

open Trails (query queryForUpdate require selectSkipLocked)

variable {may : Footprint → Prop} {creates runs : Prop}

/-! ## The repositories -/

theorem recordStateDuration : Schedules may creates runs
    (AutoSwe.recordStateDuration aggregateType aggregateId state enteredAt exitedAt) :=
  .execute (.log fun _ => ⟨_, _, _, rfl⟩) fun _ => ⟨rfl, rfl, rfl, rfl⟩

theorem publish (h : isTracked eventType = false) : Schedules may creates runs
    (AutoSwe.publish eventId eventType aggregateType aggregateId correlationId topic payload) :=
  .bind ⟨RowWrites.logged fun _ => ⟨_, _, _, rfl⟩, .appendAudit h⟩ fun _ =>
    ⟨RowWrites.logged fun _ => ⟨_, _, _, rfl⟩, .enqueueEvent _⟩

theorem transitionTask (hmay : may (.tasks target)) : Schedules may creates runs
    (AutoSwe.transitionTask projectId taskId expectedVersion target draw) :=
  ⟨RowWrites.transitionTask hmay, .transitionTask⟩

theorem transitionGraphExecution (hmay : may .graphs) : Schedules may creates runs
    (AutoSwe.transitionGraphExecution taskId identity threadId target checkpointId draw) :=
  ⟨RowWrites.transitionGraphExecution hmay, .transitionGraphExecution⟩

theorem moveTo (hmay : may (.tasks target)) :
    Schedules may creates runs (AutoSwe.moveTo target draws task) :=
  .bind (transitionTask hmay) fun _ => .done

theorem createTask (hcreates : creates) (hmay : may (.tasks .PENDING)) :
    Schedules may creates runs (AutoSwe.createTask runId spec draw) :=
  ⟨RowWrites.createTask hcreates hmay, .createTask⟩

theorem createAttempt (hmay : may .attempts) :
    Schedules may creates runs (AutoSwe.createAttempt attemptId taskId agentSpecHash draw) := by
  refine .checked fun view w hw => ?_
  split at hw <;> cases hw
  exact ⟨.attempt hmay fun _ => ⟨_, rfl⟩, fun _ => ⟨rfl, rfl, rfl, rfl⟩⟩

theorem deleteLease : Schedules may creates runs (AutoSwe.deleteLease taskId) :=
  .bind (queryForUpdate _ _) fun _ => .execute (.drop taskId) fun _ => ⟨rfl, rfl, rfl, rfl⟩

theorem releaseReservations : Schedules may creates runs (AutoSwe.releaseReservations taskId now) :=
  .quiet (.executeSeen fun view => ⟨.release taskId now view, fun _ => ⟨rfl, rfl, rfl, rfl⟩⟩)

theorem dropClaim : Schedules may creates runs (AutoSwe.dropClaim taskId now) :=
  .bind releaseReservations fun _ => deleteLease

/-! ## The transactions -/

theorem persistPlan (hcreates : creates) (hcreate : may (.tasks .PENDING))
    (hready : may (.tasks .READY)) :
    Schedules may creates runs (AutoSwe.persistPlan uuid5 runId specs draws) := by
  refine .bind (query _) fun _ =>
    .each (fun spec => .bind (createTask hcreates hcreate) fun task => ?_) _
  split
  · exact .bind (transitionTask hready) fun _ => .done
  · exact .done

theorem createMutationTasks (hcreates : creates) (hmay : may (.tasks .PENDING)) :
    Schedules may creates runs (AutoSwe.createMutationTasks runId specs draws) :=
  .each (fun _ => .bind (createTask hcreates hmay) fun _ => .done) specs

theorem promoteRound (hmay : may (.tasks .READY)) :
    Schedules may creates runs (AutoSwe.promoteRound limit draws) :=
  .bind (selectSkipLocked _ _ _) fun _ => .bind (.each (fun _ => moveTo hmay) _) fun _ => .done

theorem cancelBlockedRound (hmay : may (.tasks .CANCELLED)) :
    Schedules may creates runs (AutoSwe.cancelBlockedRound limit draws) :=
  .bind (selectSkipLocked _ _ _) fun _ => .bind (query _) fun _ =>
    .bind (.each (fun _ => moveTo hmay) _) fun _ => .done

theorem admitCompleted :
    Schedules may creates runs (AutoSwe.admitCompleted call task run repository) :=
  .bind (query _) fun _ => .ite .done .raise

theorem admitLeased (hmay : may (.tasks .RUNNING)) (hattempts : may .attempts) :
    Schedules may creates runs (AutoSwe.admitLeased call now draw task run repository) := by
  refine .bind (queryForUpdate _ _) fun lease => .ite ?_ .raise
  refine .bind ?_ fun _ => .bind (.bind (query _) ?_) fun _ => .done
  · exact .ite (transitionTask hmay) (.ite .raise .done)
  · exact .option (createAttempt hattempts) fun attempt => .ite .raise .done

theorem exhaustionReason :
    Schedules may creates runs (AutoSwe.exhaustionReason service task run) :=
  .bind (query _) fun _ => .ite .done (.bind (query _) fun _ => .ite .done .done)

theorem admitClaim (hmay : may (.tasks .RUNNING)) (hattempts : may .attempts) :
    Schedules may creates runs (AutoSwe.admitClaim service call now draw) := by
  refine .bind (queryForUpdate _ _) (.option .raise fun task =>
    .bind (query _) fun run => .bind (query _) fun repository => ?_)
  split
  · exact .ite admitCompleted (.bind exhaustionReason
      (.option (admitLeased hmay hattempts) fun reason => .raise))
  · exact .raise

theorem refuseExhaustedTask (hmay : may (.tasks .FAILED)) :
    Schedules may creates runs (AutoSwe.refuseExhaustedTask projectId taskId now draw) := by
  refine .bind (queryForUpdate _ _) (.option .done fun task => .ite .done ?_)
  exact .bind releaseReservations fun _ => .bind deleteLease fun _ =>
    .bind (transitionTask hmay) fun _ => .done

theorem settleAttempt (hmay : may .attempts) :
    Schedules may creates runs (AutoSwe.settleAttempt call target now) := by
  refine .bind (query _) fun attempt => ?_
  split
  · exact .raise
  · exact .execute (.attempt hmay fun _ => ⟨_, rfl⟩) fun _ => ⟨rfl, rfl, rfl, rfl⟩

theorem finishClaim (hmay : may (.tasks target)) (hattempts : may .attempts) :
    Schedules may creates runs (AutoSwe.finishClaim service call target now draw) := by
  refine .ite .raise (.bind (queryForUpdate _ _) (.option .raise fun task =>
    .bind (queryForUpdate _ _) fun lease => .ite ?_ ?_))
  · unfold finishReplay
    split
    · exact .done
    · exact .ite dropClaim .raise
  · split
    · exact .raise
    · exact .ite .raise (.bind (query _) fun graph => .ite (.bind (transitionTask hmay) fun _ =>
        .bind (settleAttempt hattempts) fun _ => dropClaim) .raise)

theorem reclaimCandidate (hmay : may (.tasks .READY)) :
    Schedules may creates runs (AutoSwe.reclaimCandidate now draws taskId) := by
  refine .bind (queryForUpdate _ _) (.option .done fun task =>
    .bind (queryForUpdate _ _) (.option .done fun lease => .ite .done (.ite .done ?_)))
  exact .bind (.ite (moveTo hmay) .done) fun _ => .bind dropClaim fun _ => .done

theorem reclaimExpired (hmay : may (.tasks .READY)) :
    Schedules may creates runs (AutoSwe.reclaimExpired now limit draws) :=
  .bind (query _) fun _ => .bind (.collect (fun _ => reclaimCandidate hmay) _) fun _ => .done

theorem cancelTask (hmay : may (.tasks .CANCELLED)) :
    Schedules may creates runs (AutoSwe.cancelTask projectId taskId now draw) :=
  .bind (queryForUpdate _ _) (.option .raise fun _ =>
    .bind (.ite (moveTo hmay) .done) fun _ => dropClaim)

theorem cancelRun (hruns : runs) :
    Schedules may creates runs (AutoSwe.cancelRun runId now draw) := by
  refine .bind (queryForUpdate _ _) fun found => ?_
  split
  · exact .done
  · exact .bind require fun _ => .bind recordStateDuration fun _ =>
      .bind (.execute (.ambient hruns fun _ => ⟨_, _, _, rfl⟩) fun _ => ⟨rfl, rfl, rfl, rfl⟩)
        fun _ => .bind (publish (by decide)) fun _ => .done

theorem reconcile (hmay : may .graphs) (htasks : ∀ state, may (.tasks state)) :
    Schedules may creates runs (AutoSwe.reconcile projectId taskId now draw) := by
  refine ⟨.bind (.queryForUpdate _ _) (.option trivial fun task => ?_), .reconcile⟩
  refine .bind (RowWrites.query _) fun run => .bind (.queryForUpdate _ _) fun graph =>
    .bind (.queryForUpdate _ _) fun lease => .ite trivial ?_
  exact .bind (.bind (RowWrites.moveIfAny htasks) fun _ =>
    .bind (RowWrites.overwriteIfAny hmay) fun _ =>
    .bind dropClaim.writes fun _ => RowWrites.publish) fun _ => trivial

theorem resolveNeedsReconciliation (hmay : may .graphs) (htasks : ∀ state, may (.tasks state)) :
    Schedules may creates runs
      (AutoSwe.resolveNeedsReconciliation projectId taskId resolution now draw graphDraw) := by
  refine ⟨.bind (.queryForUpdate _ _) (.option trivial fun task =>
    .bind (.queryForUpdate _ _) fun graph => ?_), .resolveNeedsReconciliation⟩
  split
  · exact trivial
  · exact .bind (RowWrites.transitionGraphExecution hmay) fun _ =>
      .bind (RowWrites.moveIfAny htasks) fun _ => .bind dropClaim.writes fun _ =>
      .bind RowWrites.publish fun _ => trivial

theorem reserveWithGlobalCap (hmay : may .reservations) : Schedules may creates runs
    (AutoSwe.reserveWithGlobalCap taskId projectId resource units cap draw) := by
  refine .quiet (.bind (fun _ => trivial) fun _ view => ⟨?_, trivial⟩)
  dsimp only
  split
  · exact ⟨.reserve hmay fun _ => ⟨_, rfl⟩, fun _ => ⟨rfl, rfl, rfl, rfl⟩⟩
  · exact ⟨RowWrites.unseen, .refl⟩

theorem createLease (hmay : may .leases) :
    Schedules may creates runs (AutoSwe.createLease taskId owner token expiresAt draw) := by
  refine .checked fun view w hw => ?_
  split at hw
  · cases hw
  · split at hw <;> cases hw
    exact ⟨.lease hmay fun _ => ⟨_, rfl⟩, fun _ => ⟨rfl, rfl, rfl, rfl⟩⟩

theorem reserveSlots (hmay : may .reservations) :
    Schedules may creates runs (AutoSwe.reserveSlots task resource slots cap draw) :=
  .ite .done (reserveWithGlobalCap hmay)

theorem claimTask (hreserve : may .reservations) (hlease : may .leases)
    (htask : may (.tasks .LEASED)) :
    Schedules may creates runs (AutoSwe.claimTask service owner now draws task) := by
  refine .bind ?_ fun snapshot => .ite .done ?_
  · exact .bind (query _) fun _ => .bind (query _) fun _ => .bind (query _) fun _ =>
      .bind (query _) fun _ => .done
  refine .bind (reserveWithGlobalCap hreserve) fun reserved => .ite .done ?_
  refine .bind (reserveSlots hreserve) fun modelReserved =>
    .ite (.bind releaseReservations fun _ => .done) ?_
  refine .bind (reserveSlots hreserve) fun sandboxReserved =>
    .ite (.bind releaseReservations fun _ => .done) ?_
  exact .bind (transitionTask htask) fun _ => .bind (createLease hlease) fun _ => .done

theorem claimReady (hreserve : may .reservations) (hlease : may .leases)
    (htask : may (.tasks .LEASED)) :
    Schedules may creates runs (AutoSwe.claimReady service owner limit now draws) := by
  refine .ite .done (.bind (selectSkipLocked _ _ _) fun _ => .collect (fun projectId => ?_) _)
  exact .bind (.quiet fun _ => trivial) fun _ =>
    .collect (fun _ => claimTask hreserve hlease htask) _

theorem heartbeat (hmay : may .leases) :
    Schedules may creates runs (AutoSwe.heartbeat service taskId owner token now) := by
  refine .bind (query _) fun state => .ite .done (.bind (queryForUpdate _ _)
    (.option .done fun lease => ?_))
  exact .bind (.execute (.lease hmay fun _ => ⟨_, rfl⟩) fun _ => ⟨rfl, rfl, rfl, rfl⟩)
    fun _ => .done

end Schedules

def SameGraphs (db db' : Database) : Prop := db'.graphs = db.graphs

theorem SameGraphs.refl (db : Database) : SameGraphs db db := rfl

theorem SameGraphs.trans (h : SameGraphs a b) (h' : SameGraphs b c) : SameGraphs a c :=
  Eq.trans h' h

theorem Schedules.sameGraphs {p : Session α} (h : Schedules (· ≠ .graphs) True True p) :
    p.Refines (fun _ => True) SameGraphs :=
  Prog.Writes.refines .refl .trans
    (h.writes.mono fun _ hwrite => hwrite.keeps (t := .graphs) (by simp [Writable]))

/-- What a transaction writes, apart from releases and deletions. -/
def Call.footprint : Call → Footprint → Prop
  | .persistPlan .., written => written = .tasks .PENDING ∨ written = .tasks .READY
  | .applyMutation .., written => written = .tasks .PENDING
  | .promoteRound .., written => written = .tasks .READY
  | .cancelBlockedRound .., written => written = .tasks .CANCELLED
  | .claimReady .., written =>
    written = .reservations ∨ written = .leases ∨ written = .tasks .LEASED
  | .heartbeat .., written => written = .leases
  | .admitClaim .., written => written = .tasks .RUNNING ∨ written = .attempts
  | .refuseExhaustedTask .., written => written = .tasks .FAILED
  | .finishClaim _ target _ _, written => written = .tasks target ∨ written = .attempts
  | .reclaimExpired .., written => written = .tasks .READY
  | .cancelTask .., written => written = .tasks .CANCELLED
  | .reconcile .., written => written = .graphs ∨ ∃ state, written = .tasks state
  | .resolveNeedsReconciliation .., written => written = .graphs ∨ ∃ state, written = .tasks state
  | .graphWrite .., written => written = .graphs
  | .cancelRun .., _ | .ambient .., _ => False

def Call.creates : Call → Prop
  | .persistPlan .. | .applyMutation .. => True
  | _ => False

def Call.writesRuns : Call → Prop
  | .cancelRun .. | .ambient .. => True
  | _ => False

variable (service : SchedulerService) (call : Call)

theorem Call.schedules :
    Schedules call.footprint call.creates call.writesRuns (call.body service) := by
  cases call with
  | persistPlan => exact .persistPlan trivial (.inl rfl) (.inr rfl)
  | applyMutation => exact .createMutationTasks trivial (by exact rfl)
  | promoteRound => exact (Schedules.promoteRound (by exact rfl)).discard
  | cancelBlockedRound => exact (Schedules.cancelBlockedRound (by exact rfl)).discard
  | claimReady =>
    exact (Schedules.claimReady (.inl rfl) (.inr (.inl rfl)) (.inr (.inr rfl))).discard
  | heartbeat => exact (Schedules.heartbeat (by exact rfl)).discard
  | admitClaim => exact (Schedules.admitClaim (.inl rfl) (.inr rfl)).discard
  | refuseExhaustedTask => exact .refuseExhaustedTask (by exact rfl)
  | finishClaim => exact .finishClaim (.inl rfl) (.inr rfl)
  | reclaimExpired => exact (Schedules.reclaimExpired (by exact rfl)).discard
  | cancelTask => exact .cancelTask (by exact rfl)
  | cancelRun => exact (Schedules.cancelRun trivial).discard
  | reconcile => exact (Schedules.reconcile (.inl rfl) fun state => .inr ⟨state, rfl⟩).discard
  | resolveNeedsReconciliation =>
    exact (Schedules.resolveNeedsReconciliation (.inl rfl) fun state => .inr ⟨state, rfl⟩).discard
  | graphWrite =>
    refine .bind (Trails.query _) fun admitted => ?_
    split
    · exact (Schedules.transitionGraphExecution (by exact rfl)).discard
    · exact .done
  | ambient =>
    exact .execute (.ambient trivial fun _ => ⟨_, _, _, rfl⟩) fun _ => ⟨rfl, rfl, rfl, rfl⟩

theorem Call.rowWrites :
    RowWrites call.footprint call.creates call.writesRuns (call.body service) :=
  (call.schedules service).writes

/-- A task row that a transaction changes is in a state of its footprint. -/
theorem Call.enters (db : Database) (t : UUID) :
    ((call.body service).commit db).2.tasks.get? t = db.tasks.get? t ∨
      ∃ row, ((call.body service).commit db).2.tasks.get? t = some row ∧
        call.footprint (.tasks row.state) := by
  let R : Database → Database → Prop := fun db db' => db'.tasks.get? t = db.tasks.get? t ∨
    ∃ row, db'.tasks.get? t = some row ∧ call.footprint (.tasks row.state)
  have htrans : ∀ {a b c}, R a b → R b c → R a c := by
    intro a b c hab hbc
    rcases hbc with hbc | hbc
    · simpa only [R, hbc] using hab
    · exact .inr hbc
  exact (Prog.Writes.refines (R := R) (fun _ => .inl rfl) htrans ((call.rowWrites service).mono
    fun _ hwrite db => hwrite.tasks)).commit (fun _ => .inl rfl) trivial

theorem Call.keeps {call : Call} (h : ¬ Writable call.footprint call.writesRuns t)
    (db : Database) : ((call.body service).commit db).2.table t = db.table t := by
  let R : Database → Database → Prop := fun db db' => db'.table t = db.table t
  have hwrites : (call.body service).Writes fun write => ∀ db, R db (write db) :=
    (call.rowWrites service).mono fun _ hwrite => hwrite.keeps h
  exact (Prog.Writes.refines (R := R) (fun _ => rfl) (fun hab hbc => Eq.trans hbc hab)
    hwrites).commit (fun _ => rfl) trivial

theorem Call.sameGraphs {call : Call} (h : ¬ call.footprint .graphs)
    (db : Database) : SameGraphs db ((call.body service).commit db).2 :=
  keeps (t := .graphs) service h db

theorem Call.sameAttempts {call : Call} (h : ¬ call.footprint .attempts) (db : Database) :
    ((call.body service).commit db).2.attempts = db.attempts :=
  keeps (t := .attempts) service h db

/-- Only workers, the reconciler and its operator write graph rows. -/
def Operation.writesGraphs : Operation → Bool
  | .reconcile .. | .reconcileDue .. | .resolveNeedsReconciliation .. | .graphWrite .. => true
  | _ => false

theorem perform_graphs (operation : Operation)
    (h : operation.writesGraphs = false) (db : Database) :
    SameGraphs db (perform service db operation) := by
  refine perform_moves SameGraphs.refl SameGraphs.trans (fun call hcall db => ?_) db
  have hnone : ¬ call.footprint .graphs := by
    cases operation with
    | reconcile | reconcileDue | resolveNeedsReconciliation | graphWrite => cases h
    | startClaim => rcases hcall with rfl | rfl <;> simp [footprint]
    | cancelRequestedRuns => rcases hcall with ⟨_, _, rfl⟩ | ⟨_, rfl⟩ <;> simp [footprint]
    | promoteDependencyReady | cancelBlockedDependents =>
      obtain ⟨round, rfl⟩ := hcall
      simp [footprint]
    | _ =>
      cases hcall
      simp [footprint]
  exact call.sameGraphs service hnone db

end AutoSwe
