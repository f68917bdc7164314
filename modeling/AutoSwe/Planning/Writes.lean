import AutoSwe.Persistence.AuditTrail
import AutoSwe.Planning.Transactions

/-!
# The tables that planning writes

The sessions of planning write the `planningTables` only, and leave a trail.
-/

namespace AutoSwe

open Transaction

/-- The session leaves a trail and touches the given tables only. -/
abbrev Logs (tables : List TableName) (p : Session α) : Prop :=
  Trails (fun write => ∀ db, Agree tables db (write db)) p

instance : Idle fun write => ∀ db, Agree tables db (write db) := ⟨Agree.refl⟩

/-- What the trail is about, and the trail itself. -/
def trailTables : List TableName := [.tasks, .graphs, .auditEvents, .outbox]

theorem Audits.Still.withTable (h : t ∉ trailTables) (db : Database)
    (x : t.Content) : Still db (db.withTable t x) := by
  cases t <;> first | exact ⟨rfl, rfl, rfl, rfl⟩ | exact absurd (by decide) h

def Touches.planningTables : List TableName :=
  [.runs, .tasks, .planRevisions, .stageAttempts, .stateDurations, .auditEvents, .outbox]

namespace Logs

open Trails (query queryForUpdate require)
open Touches (planningTables)

variable {tables : List TableName}

theorem weaken (h : Logs tables p) (hsub : ∀ t ∈ tables, t ∈ others) : Logs others p :=
  h.mono fun _ hwrite db => (hwrite db).weaken hsub

theorem execute (t : TableName) (h : t ∈ tables) (hother : t ∉ trailTables)
    (hwrite : ∀ db, ∃ x, write db = db.withTable t x) : Logs tables (Prog.execute write) := by
  refine Trails.execute (fun db => ?_) fun db => ?_ <;>
  · obtain ⟨x, hx⟩ := hwrite db
    rw [hx]
    first | exact .withTable db h x | exact .withTable hother db x

theorem checked (t : TableName) (h : t ∈ tables) (hother : t ∉ trailTables)
    (hwrite : ∀ view w, write view = .ok w → ∀ db, ∃ x, w db = db.withTable t x) :
    Logs tables (Prog.checked write) := by
  refine Trails.checked fun view w hw => ⟨fun db => ?_, fun db => ?_⟩ <;>
  · obtain ⟨x, hx⟩ := hwrite view w hw db
    rw [hx]
    first | exact .withTable db h x | exact .withTable hother db x

theorem appendAudit (h : .auditEvents ∈ tables) (hother : isTracked row.eventType = false) :
    Logs tables (AutoSwe.appendAudit row) :=
  ⟨Touches.appendAudit h row, .appendAudit hother⟩

theorem enqueueEvent (h : .outbox ∈ tables) (row : OutboxRow) :
    Logs tables (AutoSwe.enqueueEvent row) :=
  ⟨Touches.enqueueEvent h row, .enqueueEvent row⟩

theorem publish (haudit : .auditEvents ∈ tables) (houtbox : .outbox ∈ tables)
    (hother : isTracked eventType = false) : Logs tables
      (AutoSwe.publish eventId eventType aggregateType aggregateId correlationId topic payload) :=
  .bind (appendAudit haudit hother) fun _ => enqueueEvent houtbox _

theorem recordStateDuration (h : .stateDurations ∈ tables) : Logs tables
    (AutoSwe.recordStateDuration aggregateType aggregateId state enteredAt exitedAt) :=
  execute .stateDurations h (by decide) fun _ => ⟨_, rfl⟩

theorem setStageAttempt (h : .stageAttempts ∈ tables) (row : RunStageAttemptRow) :
    Logs tables (Prog.execute (Database.setStageAttempt row)) :=
  execute .stageAttempts h (by decide) fun _ => ⟨_, rfl⟩

theorem startStageAttempt (h : .stageAttempts ∈ tables) (row : RunStageAttemptRow) :
    Logs tables (AutoSwe.startStageAttempt row) := by
  refine checked .stageAttempts h (by decide) fun view w hw db => ?_
  split at hw
  · cases hw
    exact ⟨_, rfl⟩
  · split at hw <;> cases hw
    exact ⟨_, rfl⟩

theorem createPlanRevision (h : .planRevisions ∈ tables) :
    Logs tables (AutoSwe.createPlanRevision runId revision plan createdAt) := by
  refine checked .planRevisions h (by decide) fun view w hw db => ?_
  split at hw <;> cases hw
  exact ⟨_, rfl⟩

theorem createTask (h : .tasks ∈ tables) :
    Logs tables (AutoSwe.createTask runId spec draw) := by
  refine ⟨.bind (Touches.checked .tasks h fun view w hw db => ?_) fun _ => trivial, .createTask⟩
  split at hw <;> cases hw
  exact ⟨_, rfl⟩

theorem setRun (h : .runs ∈ tables) (run : RunRow) :
    Logs tables (Prog.execute (Database.setRun run)) :=
  execute .runs h (by decide) fun _ => ⟨_, rfl⟩

theorem transitionTask : Logs planningTables
    (AutoSwe.transitionTask projectId taskId expectedVersion target draw) := by
  refine ⟨.bind (.queryForUpdate _ _) (.option trivial fun row => .ite trivial ?_), .transitionTask⟩
  exact .bind (Touches.require _) fun _ => .bind (recordStateDuration (by decide)).writes fun _ =>
    .bind (Touches.execute .tasks (by decide) fun _ => ⟨_, rfl⟩) fun _ =>
    .bind (Touches.publish (by decide) (by decide)) fun _ => trivial

theorem createPlanned : Logs planningTables (AutoSwe.createPlanned runId draws spec) :=
  .bind (createTask (by decide)) fun _ => .ite (.bind transitionTask fun _ => .done) .done

variable {service : RunPlanningService}

theorem claimRun : Logs planningTables (service.claimRun now) := by
  refine .bind (Trails.selectSkipLocked _ _ _) fun selected => ?_
  cases selected.head? with
  | none => exact .done
  | some run =>
    refine .bind (query _) (.option .raise fun repository =>
      .bind (.ite ?_ .done) fun run => .bind (startStageAttempt (by decide) _) fun _ => .done)
    exact .bind require fun _ => .bind (recordStateDuration (by decide)) fun _ =>
      .bind (setRun (by decide) _) fun _ => .done

theorem storePlan : Logs planningTables (service.storePlan plan run attempt now draws) := by
  refine .bind (query _) fun existing => .bind require fun _ =>
    .bind (createPlanRevision (by decide)) fun _ => .bind (.each (fun spec => ?_) _) fun _ => ?_
  · exact .bind (queryForUpdate _ _) fun _ => createPlanned
  · exact .bind (recordStateDuration (by decide)) fun _ => .bind require fun _ =>
      .bind (setRun (by decide) _) fun _ => .bind (setStageAttempt (by decide) _) fun _ =>
      .bind (appendAudit (by decide) (show isTracked "plan.created" = false by decide)) fun _ =>
      .bind (enqueueEvent (by decide) _) fun _ => .done

theorem persistPlan :
    Logs planningTables (service.persistPlan plan attemptId fenceStartedAt now draws) :=
  .bind (queryForUpdate _ _) (.option .raise fun _ => .ite .raise
    (.bind (query _) (.option .raise fun _ => .ite .raise (.ite .raise storePlan))))

theorem failRun :
    Logs planningTables (service.failRun runId attemptId fenceStartedAt error attempts now) := by
  refine .bind (queryForUpdate _ _) fun run => .bind (query _) fun attempt => ?_
  split
  · refine .ite ?_ .done
    exact .bind require fun _ => .bind (recordStateDuration (by decide)) fun _ =>
      .bind (setRun (by decide) _) fun _ => .bind (setStageAttempt (by decide) _) fun _ =>
      .bind (appendAudit (by decide) (show isTracked "run.planning_failed" = false by decide))
        fun _ => enqueueEvent (by decide) _
  · exact .done

theorem requestCancellation : Logs planningTables (Api.cancelRun runId now eventId) := by
  refine .bind (queryForUpdate _ _) (.option .raise fun run => .ite .raise
    (.bind (setRun (by decide) _) fun _ => .ite ?_ .done))
  refine .bind (.bind require fun _ => .bind (recordStateDuration (by decide)) fun _ =>
    .bind (setRun (by decide) _) fun _ => .bind (query _) fun attempt => .bind ?_ fun _ =>
    publish (by decide) (by decide) (by decide)) fun _ => .done
  unfold Api.cancelStageAttempt
  split
  · exact .ite (setStageAttempt (by decide) _) .done
  · exact .done

theorem planning (service : RunPlanningService) (call : PlanningCall) :
    Logs planningTables (call.body service) := by
  cases call with
  | claimRun => exact claimRun.discard
  | persistPlan => exact persistPlan.discard
  | failRun => exact failRun
  | cancelRun => exact requestCancellation.discard

end Logs

end AutoSwe
