import AutoSwe.Finalization.Writes
import AutoSwe.Scheduler.Invariants
import AutoSwe.Tools.Gateway
import AutoSwe.Worker.Runtime

/-!
# The logs of tasks and graph rows

The transactions of planning, of repair, of the memory promotion, of the tool
gateway and of the workflow runtime leave a trail as those of the scheduler do. So
a task is the fold of its `task.state_changed` events, and a graph row the fold
of its own, after any sequence of them.
-/

namespace AutoSwe

open Transaction List LabelledRun

instance : Idle fun _ => True := ⟨trivial⟩

namespace Audits

/-! ## The tool gateway -/

theorem isTracked_tool : isTracked ("tool." ++ name) = false := by
  have hchars : ("tool." ++ name).toList = "tool.".toList ++ name.toList := String.toList_append
  have hother (text : String) (h : "tool.".toList.isPrefixOf text.toList = false) :
      "tool." ++ name ≠ text := by
    rintro rfl
    simp [hchars] at h
  have hreconciliation : isReconciliation ("tool." ++ name) = false := by
    simp only [isReconciliation, hchars]
    rfl
  have htask := hother "task.state_changed" (by decide)
  have hstate := hother "workflow.state_changed" (by decide)
  have hrollover := hother "workflow.attempt_rollover" (by decide)
  simp [isTracked, isGraphEvent, hreconciliation, htask, hstate, hrollover]

theorem persistTerminal :
    Trails (fun _ => True) (Gateway.persistTerminal uuid5 call outcome risk attempts) := by
  refine .bind (.query _) fun row => ?_
  cases row with
  | none => exact .raise
  | some row =>
    dsimp only
    split
    · exact .done
    · refine .bind (.execute trivial fun _ => ⟨rfl, rfl, rfl, rfl⟩) fun _ =>
        .bind ⟨fun _ => ⟨trivial, trivial⟩, .appendAudit isTracked_tool⟩ fun _ =>
        .bind ⟨fun _ => ⟨trivial, trivial⟩, .enqueueEvent _⟩ fun _ => .done

theorem reconcileGraph : Audits (Gateway.reconcileGraph call draw) := by
  intro db u db' _ hrun
  have hrun := Prog.after hrun rfl
  split at hrun
  · cases hrun
    exact .refl
  · split at hrun
    · cases hrun
      exact .refl
    · exact transitionGraphExecution.discard trivial hrun

end Audits

/-! ## Sequences of operations -/

/-- The transactions that write tasks or graph rows. -/
inductive LoggedCall
  | schedule (service : SchedulerService) (call : Call)
  | plan (service : RunPlanningService) (call : PlanningCall)
  | repair (controller : DurableRepairController) (objects : Objects) (runId : UUID)
      (outcome : VerificationOutcome) (mutation : TaskPlanMutation) (draws : UUID → Draw)
  | setLocalState (memory : PromotionService) (candidate : MemoryCandidate)
      (status : CandidateStatus) (error revisionId : Option String) (draw : Draw)
  | completePromotion (memory : PromotionService) (candidate : MemoryCandidate)
      (revisionId : String) (now : Time) (draw : Draw)
  | persistTerminal (uuid5 : UUID → String → UUID) (call : ToolCallRequest)
      (outcome : Gateway.Outcome) (risk : RiskLevel) (attempts : Nat)
  | reconcileGraph (call : ToolCallRequest) (draw : Draw)
  | persistState (identity : CheckpointIdentity) (state : GraphExecutionState)
      (checkpointId : Option String) (draw : Draw)

def LoggedCall.body : LoggedCall → Session Unit
  | .schedule service call => call.body service
  | .plan service call => call.body service
  | .repair controller objects runId outcome mutation draws =>
    (controller.apply objects runId outcome mutation draws).discard
  | .setLocalState memory candidate status error revisionId draw =>
    memory.setLocalState candidate status error revisionId draw
  | .completePromotion memory candidate revisionId now draw =>
    memory.complete candidate revisionId now draw
  | .persistTerminal uuid5 call outcome risk attempts =>
    (Gateway.persistTerminal uuid5 call outcome risk attempts).discard
  | .reconcileGraph call draw => Gateway.reconcileGraph call draw
  | .persistState identity state checkpointId draw =>
    AutoSwe.persistState identity state checkpointId draw

theorem LoggedCall.audits (call : LoggedCall) : Audits call.body := by
  cases call with
  | schedule service call => exact (call.schedules service).audits
  | plan service call => exact (Logs.planning service call).audits
  | repair => exact Logs.apply.audits.discard
  | setLocalState => exact Logs.setLocalState.audits
  | completePromotion => exact Logs.complete.audits
  | persistTerminal outcome => exact (Audits.persistTerminal).audits.discard
  | reconcileGraph => exact Audits.reconcileGraph
  | persistState => exact Audits.transitionGraphExecution.discard

inductive LoggedEvent
  | transact (call : LoggedCall)
  /-- The rest of the platform, which has written what it wanted. -/
  | elsewhere (db : Database)

namespace LoggedEvent

/-- The rest of the platform writes neither tasks nor graph rows, and no event of theirs. -/
def Permitted (db : Database) : LoggedEvent → Prop
  | .transact _ => True
  | .elsewhere db' => db'.tasks = db.tasks ∧ db'.graphs = db.graphs ∧
    Grown (fun event => isTracked event.eventType = false) (fun _ => True) db db'

/-- What the transaction would leave. One that raises leaves nothing. -/
def result (db : Database) : LoggedEvent → Database
  | .transact call => (call.body.commit db).2
  | .elsewhere db' => db'

end LoggedEvent

/-- The primary keys of `audit_events` and of `outbox`. -/
def Database.Keyed (db : Database) : Prop :=
  (db.auditEvents.map AuditEventRow.id).Nodup ∧ (db.outbox.map OutboxRow.eventId).Nodup

instance (db : Database) : Decidable db.Keyed := inferInstanceAs (Decidable (_ ∧ _))

/-- A transaction that would store a key twice is rolled back. -/
def LoggedEvent.next (db : Database) (event : LoggedEvent) : Database :=
  if (event.result db).Keyed then event.result db else db

def Logged : Database → Prop :=
  Reach (fun db (event : LoggedEvent) => some (event.next db)) LoggedEvent.Permitted {}

theorem LoggedEvent.trail {event : LoggedEvent} (hok : event.Permitted db) :
    Trail db (event.result db) := by
  cases event with
  | transact call => exact call.audits.committed
  | elsewhere db' => exact .single (.quiet hok.1 hok.2.1 hok.2.2)

theorem LoggedEvent.next_trail {event : LoggedEvent} (hok : event.Permitted db)
    (h : some (event.next db) = some db') : Trail db db' := by
  cases h
  unfold LoggedEvent.next
  split
  · exact trail hok
  · exact .refl

theorem Trail.tasks (h : Trail db db') (t : UUID) : (taskSource t).Advances db db' := by
  induction h with
  | refl => exact .refl _
  | tail _ hstep ih => exact ih.trans (hstep.tasks t)

theorem Trail.graphs (h : Trail db db') (t : UUID) : (graphSource t).Advances db db' := by
  induction h with
  | refl => exact .refl _
  | tail _ hstep ih => exact ih.trans (hstep.graphs t)

theorem Trail.published (h : Trail db db') (hdb : Audited.Published db) :
    Audited.Published db' := by
  induction h with
  | refl => exact hdb
  | tail _ hstep ih => exact hstep.published ih

theorem Logged.keyed (h : Logged db) : db.Keyed := by
  refine Reach.invariant (I := Database.Keyed) (by decide) ?_ h
  intro db db' event hdb _ hstep
  cases hstep
  unfold LoggedEvent.next
  split
  · assumption
  · exact hdb

theorem Logged.published (h : Logged db) : Audited.Published db :=
  Reach.invariant (I := Audited.Published) (by rintro event ⟨⟩)
    (fun hdb hok hstep => (LoggedEvent.next_trail hok hstep).published hdb) h

/-! ## The log of a task, written out -/

/-- What it says that a log can be folded: the changes follow each other. -/
structure HistoryFrom (initial : TaskStatus × Nat) (changes : List StateChange) : Prop where
  versions : changes.map StateChange.version = range' (initial.2 + 1) changes.length
  sources : changes.map StateChange.source =
    (initial.1 :: changes.map StateChange.target).dropLast
  legal : ∀ change ∈ changes, change.target ∈ taskTransitions change.source

def lastChange (initial : TaskStatus × Nat) (changes : List StateChange) : TaskStatus × Nat :=
  changes.foldl (fun _ change => (change.target, change.version)) initial

theorem changes_of_fold {initial final : TaskStatus × Nat} {events : List AuditEventRow}
    (h : events.foldlM (taskSource t).apply initial = some final) :
    ∃ changes, events.mapM StateChange.ofEvent = some changes ∧ HistoryFrom initial changes ∧
      lastChange initial changes = final := by
  induction events generalizing initial with
  | nil =>
    cases h
    exact ⟨[], rfl, ⟨rfl, rfl, by simp⟩, rfl⟩
  | cons event events ih =>
    rw [foldlM_cons] at h
    obtain ⟨next, happly, h⟩ := Option.bind_eq_some_iff.mp h
    obtain ⟨change, hchange, happly⟩ := Option.bind_eq_some_iff.mp happly
    split at happly
    · rename_i hfollows
      obtain ⟨hsource, hlegal, hversion⟩ := hfollows
      cases happly
      obtain ⟨changes, hread, hchanges, hlast⟩ := ih h
      refine ⟨change :: changes, ?_, ⟨?_, ?_, ?_⟩, hlast⟩
      · simp [mapM_cons, hchange, hread]
      · simp [hchanges.versions, hversion, range'_succ]
      · simp [hchanges.sources, hsource]
      · intro other hother
        rcases mem_cons.mp hother with rfl | hother
        · rw [hsource]
          exact hlegal
        · exact hchanges.legal other hother
    · cases happly

/-! ## Tasks -/

def sampleLogged : List LoggedCall :=
  [.schedule sampleService (.persistPlan (fun runId _ => runId) 40 [sampleSpec 1 []]
      fun _ => { eventId := 61 }),
    .schedule sampleService (.claimReady "worker" 1 100 fun _ => { eventId := 62 }),
    .persistState ⟨40, 1, 50, 20, 30, sampleRun.baselineCommit⟩ .RUNNING none { eventId := 63 }]

def sampleHistory : Database :=
  sampleLogged.foldl (fun db call => (LoggedEvent.transact call).next db) {}

theorem logged_foldl (h : Logged db) {calls : List LoggedCall} :
    Logged (calls.foldl (fun db call => (LoggedEvent.transact call).next db) db) := by
  induction calls generalizing db with
  | nil => exact h
  | cons call rest ih =>
    have hok : (LoggedEvent.transact call).Permitted db := trivial
    exact ih (.next h hok rfl)

theorem sampleHistory_logged : Logged sampleHistory := logged_foldl .start

/-- The `task.state_changed` events of a task are its history. -/
theorem task_events_are_history (h : Logged db) (hrow : db.tasks.get? t = some row) :
    ∃ changes, ((taskSource t).log db).mapM StateChange.ofEvent = some changes ∧
      HistoryFrom (.PENDING, 1) changes ∧
      lastChange (.PENDING, 1) changes = (row.state, row.version) ∧
      ∀ event ∈ (taskSource t).log db,
        (db.auditEvents.map AuditEventRow.id).count event.id = 1 ∧
        (db.outbox.map OutboxRow.eventId).count event.id = 1 ∧
        ⟨event.id, "task-state", event.payload⟩ ∈ db.outbox := by
  have hview : (taskSource t).view db = (row.state, row.version) := by
    simp [taskSource, hrow]
  have hfold := (taskSource t).replay
    (fun hok hstep => (LoggedEvent.next_trail hok hstep).tasks t) rfl h
  rw [hview] at hfold
  obtain ⟨changes, hread, hfollows, hlast⟩ := changes_of_fold hfold
  refine ⟨changes, hread, hfollows, hlast, fun event hevent => ?_⟩
  obtain ⟨hevent, htype⟩ := mem_filter.mp hevent
  simp only [decide_eq_true_eq] at htype
  have hmessage := h.published event hevent htype.1
  exact ⟨count_eq_one_of_mem h.keyed.1 (mem_map_of_mem hevent),
    count_eq_one_of_mem h.keyed.2 (mem_map_of_mem hmessage), hmessage⟩

theorem task_events_are_history_sample :
    ∃ changes, ((taskSource 1).log sampleHistory).mapM StateChange.ofEvent = some changes ∧
      lastChange (.PENDING, 1) changes = (.LEASED, 3) := by
  have hrow := sampleTask_get (show (sampleHistory.tasks.get? 1).isSome by decide)
  obtain ⟨changes, hread, -, hlast, -⟩ := task_events_are_history sampleHistory_logged hrow
  exact ⟨changes, hread, hlast.trans (by decide)⟩

/-! ## Graph rows -/

/-- The events of a graph row, in the order of their commits, fold to its state
and its thread. -/
theorem graph_events_are_history (h : Logged db) (t : UUID) :
    ((graphSource t).log db).foldlM (graphSource t).apply none =
      some ((db.graphs.get? t).map fun row => (row.state, row.threadId)) :=
  (graphSource t).replay (fun hok hstep => (LoggedEvent.next_trail hok hstep).graphs t) rfl h

theorem graph_events_are_history_sample :
    (sampleHistory.graphs.get? 1).map GraphExecutionRow.state = some .RUNNING ∧
      ((graphSource 1).log sampleHistory).foldlM (graphSource 1).apply none =
        some ((sampleHistory.graphs.get? 1).map fun row => (row.state, row.threadId)) :=
  ⟨by decide, graph_events_are_history sampleHistory_logged 1⟩

end AutoSwe
