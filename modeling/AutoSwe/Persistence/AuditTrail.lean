import AutoSwe.Lib.EventSource
import AutoSwe.Persistence.Events

/-!
# The audit trail as an event source

A task has its `task.state_changed` events, a graph row the events of its state,
of its rollovers and of reconciliation. `Audited` says what one step of a session can do
to the tasks, the graph rows and the trail; both logs are the source of their rows
because every such step advances them.
-/

namespace AutoSwe

open Relational Transaction EventSource Prog Table List Option

/-! ## Reading an event -/

/-- `TaskStatus(text)`. -/
def TaskStatus.ofValue (text : String) : Option TaskStatus :=
  [TaskStatus.PENDING, .READY, .LEASED, .RUNNING, .BLOCKED, .COMPLETED, .FAILED, .CANCELLED].find?
    fun state => state.value = text

theorem TaskStatus.ofValue_value (state : TaskStatus) : ofValue state.value = some state := by
  cases state <;> decide

/-- `GraphExecutionState(text)`. -/
def GraphExecutionState.ofValue (text : String) : Option GraphExecutionState :=
  [GraphExecutionState.NOT_STARTED, .RUNNING, .WAITING_FOR_TOOL, .WAITING_FOR_APPROVAL,
    .WAITING_FOR_MEMORY, .PAUSED, .COMPLETED, .FAILED, .CANCELLED, .NEEDS_RECONCILIATION].find?
    fun state => state.value = text

theorem GraphExecutionState.ofValue_value (state : GraphExecutionState) :
    ofValue state.value = some state := by
  cases state <;> decide

def AuditEventRow.text (event : AuditEventRow) (key : String) : Option String :=
  match event.payload.get? key with
  | some (.str value) => some value
  | _ => none

/-- What a `task.state_changed` event says. -/
structure StateChange where
  source : TaskStatus
  target : TaskStatus
  version : Nat
deriving DecidableEq

def StateChange.ofEvent (event : AuditEventRow) : Option StateChange := do
  let source ← (event.text "from").bind TaskStatus.ofValue
  let target ← (event.text "to").bind TaskStatus.ofValue
  match event.payload.get? "version" with
  | some (.num version) => some ⟨source, target, version.toNat⟩
  | _ => none

def taskStateEvent (row : TaskRow) (target : TaskStatus) (draw : Draw) : AuditEventRow where
  id := draw.eventId
  eventType := "task.state_changed"
  aggregateType := "task"
  aggregateId := row.id
  payload := taskStatePayload row target
  correlationId := row.runId
  causationId := draw.eventId

def isReconciliation (eventType : String) : Bool :=
  "reconciliation.".toList.isPrefixOf eventType.toList

def isGraphEvent (eventType : String) : Bool :=
  eventType = "workflow.state_changed" || eventType = "workflow.attempt_rollover" ||
    isReconciliation eventType

/-- The events that say something about a task or a graph row. -/
def isTracked (eventType : String) : Bool :=
  eventType = "task.state_changed" || isGraphEvent eventType

/-! ## The two sources -/

/-- The state and the version of a task. Before its creation there is nothing to
be said, and it is created `PENDING` at version 1. An event has to start from the state
that was reached, by a legal transition to the next version. -/
def taskSource (t : UUID) : Source Database (TaskStatus × Nat) AuditEventRow where
  view db := ((db.tasks.get? t).map fun row => (row.state, row.version)).getD (.PENDING, 1)
  log db := db.auditEvents.filter fun event =>
    event.eventType = "task.state_changed" ∧ event.aggregateId = t
  apply current event := do
    let change ← StateChange.ofEvent event
    if change.source = current.1 ∧ change.target ∈ taskTransitions current.1 ∧
        change.version = current.2 + 1 then
      some (change.target, change.version)
    else none

/-- The state and the thread of a graph row. Reconciliation reports the state it leaves,
or that there is no row. -/
def graphSource (t : UUID) :
    Source Database (Option (GraphExecutionState × String)) AuditEventRow where
  view db := (db.graphs.get? t).map fun row => (row.state, row.threadId)
  log db := db.auditEvents.filter fun event =>
    isGraphEvent event.eventType ∧ event.text "task_id" = some t.str
  apply current event :=
    if event.eventType = "workflow.state_changed" then do
      let state ← (event.text "to").bind GraphExecutionState.ofValue
      let threadId ← event.text "thread_id"
      some (some (state, threadId))
    else if event.eventType = "workflow.attempt_rollover" then do
      let (state, _) ← current
      let threadId ← event.text "to_thread_id"
      some (some (state, threadId))
    else
      match current, event.text "graph_state" with
      | some (_, threadId), some text =>
        (GraphExecutionState.ofValue text).map fun state => some (state, threadId)
      | none, none => some none
      | _, _ => none

/-- What one step of a session can do to tasks, graph rows and the audit trail. -/
inductive Audited (db db' : Database) : Prop
  | quiet (htasks : db'.tasks = db.tasks) (hgraphs : db'.graphs = db.graphs)
      (hgrown : Grown (fun event => isTracked event.eventType = false) (fun _ => True) db db')
  | stamp {row : TaskRow} (enteredAt : Time) (hrow : db.tasks.get? row.id = some row)
      (hdb : db' = { db with tasks := db.tasks.set { row with stateEnteredAt := enteredAt } })
  | create {row : TaskRow} (hnew : db.tasks.get? row.id = none) (hstate : row.state = .PENDING)
      (hversion : row.version = 1) (hdb : db' = { db with tasks := db.tasks.insert row })
  | move {row : TaskRow} {target : TaskStatus} {draw : Draw}
      (hrow : db.tasks.get? row.id = some row) (hlegal : target ∈ taskTransitions row.state)
      (hdb : db' = db.moveTask row target draw)
  | graph (t : UUID) {events : List AuditEventRow} (htasks : db'.tasks = db.tasks)
      (hgraphs : ∀ k ≠ t, db'.graphs.get? k = db.graphs.get? k)
      (haudit : db'.auditEvents = db.auditEvents ++ events)
      (houtbox : ∃ messages, db'.outbox = db.outbox ++ messages)
      (hevents : ∀ event ∈ events, isGraphEvent event.eventType = true ∧
        event.text "task_id" = some t.str)
      (hfold : events.foldlM (graphSource t).apply ((graphSource t).view db) =
        some ((graphSource t).view db'))

namespace Audited

variable {db db' : Database}

theorem not_tracked_task (h : isGraphEvent eventType = true) :
    eventType ≠ "task.state_changed" := by
  rintro rfl
  exact absurd h (by decide)

theorem taskSource_log (t : UUID) (haudit : db'.auditEvents = db.auditEvents ++ events) :
    (taskSource t).log db' = (taskSource t).log db ++ events.filter fun event =>
      event.eventType = "task.state_changed" ∧ event.aggregateId = t := by
  simp only [taskSource, haudit, filter_append]

theorem graphSource_log (haudit : db'.auditEvents = db.auditEvents ++ events) :
    (graphSource t).log db' = (graphSource t).log db ++ events.filter fun event =>
      isGraphEvent event.eventType ∧ event.text "task_id" = some t.str := by
  simp only [graphSource, haudit, filter_append]

theorem audit_moveTask (db : Database) (row : TaskRow) (target : TaskStatus) (draw : Draw) :
    (db.moveTask row target draw).auditEvents =
      db.auditEvents ++ [taskStateEvent row target draw] := rfl

theorem ofEvent_taskStateEvent :
    StateChange.ofEvent (taskStateEvent row target draw) =
      some ⟨row.state, target, row.version + 1⟩ := by
  have hsource := TaskStatus.ofValue_value row.state
  have htarget := TaskStatus.ofValue_value target
  simp [StateChange.ofEvent, AuditEventRow.text, taskStateEvent, taskStatePayload, Json.get?,
    hsource, htarget]

theorem tasks (h : Audited db db') (t : UUID) : (taskSource t).Advances db db' := by
  cases h with
  | quiet htasks _ hgrown =>
    obtain ⟨events, haudit, hquiet⟩ := hgrown.audit
    refine .of_same ?_ (by simp [taskSource, htasks])
    rw [taskSource_log t haudit, filter_eq_nil_iff.mpr, append_nil]
    intro event hevent
    have hnot := hquiet event hevent
    simp only [isTracked, Bool.or_eq_false_iff, decide_eq_false_iff_not] at hnot
    simp [hnot.1]
  | @stamp row enteredAt hrow hdb =>
    subst hdb
    refine .of_same rfl ?_
    simp only [taskSource, get?_set]
    split
    · rename_i ht
      rw [ht, hrow]
      rfl
    · rfl
  | @create row hnew hstate hversion hdb =>
    subst hdb
    refine .of_same rfl ?_
    simp only [taskSource, get?_insert hnew]
    split
    · rename_i ht
      rw [ht, hnew]
      simp [hstate, hversion]
    · rfl
  | @move row target draw hrow hlegal hdb =>
    subst hdb
    have hlog := taskSource_log t (audit_moveTask db row target draw)
    by_cases ht : row.id = t
    · subst ht
      refine .append (taskStateEvent row target draw) ?_ ?_
      · rw [hlog]
        simp [taskStateEvent]
      · have hset : (db.tasks.set (row.enter target draw.now)).get? row.id =
            some (row.enter target draw.now) := get?_set_self hrow
        simp only [taskSource, ofEvent_taskStateEvent, moveTask_tasks, hrow, hset]
        simp [hlegal, TaskRow.enter]
    · refine .of_same ?_ ?_
      · rw [hlog]
        simp [taskStateEvent, ht]
      · have hset : (db.tasks.set (row.enter target draw.now)).get? t = db.tasks.get? t :=
          get?_set_ne _ (Ne.symm ht)
        simp only [taskSource, moveTask_tasks, hset]
  | graph k htasks _ haudit _ hevents =>
    refine .of_same ?_ (by simp [taskSource, htasks])
    rw [taskSource_log t haudit, filter_eq_nil_iff.mpr, append_nil]
    intro event hevent
    simp [not_tracked_task (hevents event hevent).1]

theorem graphs (h : Audited db db') (t : UUID) : (graphSource t).Advances db db' := by
  cases h with
  | quiet _ hgraphs hgrown =>
    obtain ⟨events, haudit, hquiet⟩ := hgrown.audit
    refine .of_same ?_ (by simp [graphSource, hgraphs])
    rw [graphSource_log haudit, filter_eq_nil_iff.mpr, append_nil]
    intro event hevent
    have hnot := hquiet event hevent
    simp only [isTracked, Bool.or_eq_false_iff] at hnot
    simp [hnot.2]
  | stamp _ _ hdb =>
    subst hdb
    exact .of_same rfl rfl
  | create _ _ _ hdb =>
    subst hdb
    exact .of_same rfl rfl
  | @move row target draw hrow hlegal hdb =>
    subst hdb
    refine .of_same ?_ rfl
    have htype : isGraphEvent "task.state_changed" = false := by decide
    rw [graphSource_log (audit_moveTask db row target draw)]
    simp [taskStateEvent, htype]
  | @graph k events _ hgraphs haudit _ hevents hfold =>
    by_cases ht : t = k
    · subst ht
      refine ⟨events, ?_, hfold⟩
      rw [graphSource_log haudit, filter_eq_self.mpr]
      intro event hevent
      simp [hevents event hevent]
    · refine .of_same ?_ (by simp [graphSource, hgraphs t ht])
      rw [graphSource_log haudit, filter_eq_nil_iff.mpr, append_nil]
      intro event hevent
      have hother : k.str ≠ t.str := fun heq => ht (UUID.str_injective heq).symm
      simp [(hevents event hevent).2, hother]

/-- Every move of a task is a message too. -/
def Published (db : Database) : Prop :=
  ∀ event ∈ db.auditEvents, event.eventType = "task.state_changed" →
    ⟨event.id, "task-state", event.payload⟩ ∈ db.outbox

theorem published (h : Audited db db') (hdb : Published db) : Published db' := by
  -- a step that adds no move
  have hkeep : ∀ events messages, db'.auditEvents = db.auditEvents ++ events →
      db'.outbox = db.outbox ++ messages →
      (∀ event ∈ events, event.eventType ≠ "task.state_changed") → Published db' := by
    intro events messages haudit houtbox hother event hevent htype
    rw [haudit] at hevent
    rw [houtbox]
    rcases mem_append.mp hevent with hevent | hevent
    · exact mem_append_left _ (hdb event hevent htype)
    · exact absurd htype (hother event hevent)
  cases h with
  | quiet _ _ hgrown =>
    obtain ⟨⟨events, haudit, hquiet⟩, messages, houtbox, -⟩ := hgrown
    refine hkeep events messages haudit houtbox fun event hevent => ?_
    have hnot := hquiet event hevent
    simp only [isTracked, Bool.or_eq_false_iff, decide_eq_false_iff_not] at hnot
    exact hnot.1
  | stamp _ _ hdb' =>
    subst hdb'
    exact hdb
  | create _ _ _ hdb' =>
    subst hdb'
    exact hdb
  | @move row target draw _ _ hdb' =>
    subst hdb'
    intro event hevent htype
    rcases mem_append.mp hevent with hevent | hevent
    · exact mem_append_left _ (hdb event hevent htype)
    · rw [mem_singleton.mp hevent]
      exact mem_append_right _ mem_cons_self
  | graph _ _ _ haudit houtbox hevents =>
    obtain ⟨messages, houtbox⟩ := houtbox
    exact hkeep _ messages haudit houtbox fun event hevent =>
      not_tracked_task (hevents event hevent).1

end Audited

/-- A graph row was written, and the events say what it is now. -/
theorem Audited.put
    (htasks : db'.tasks = db.tasks) (hgraphs : db'.graphs = db.graphs.put row)
    (haudit : db'.auditEvents = db.auditEvents ++ events)
    (houtbox : ∃ messages, db'.outbox = db.outbox ++ messages)
    (hevents : ∀ event ∈ events, isGraphEvent event.eventType = true ∧
      event.text "task_id" = some row.taskId.str)
    (hfold : events.foldlM (graphSource row.taskId).apply ((graphSource row.taskId).view db) =
      some (some (row.state, row.threadId))) : Audited db db' := by
  refine .graph row.taskId htasks (fun k hk => ?_) haudit houtbox hevents ?_
  · rw [hgraphs, get?_put, if_neg hk]
  · rw [hfold]
    simp [graphSource, hgraphs, get?_put]

theorem apply_graphStateEvent :
    (graphSource t).apply current (graphStateEvent row previous runId draw) =
      some (some (row.state, row.threadId)) := by
  have hstate := GraphExecutionState.ofValue_value row.state
  simp [graphSource, graphStateEvent, AuditEventRow.text, Json.get?, hstate]

theorem apply_rolloverEvent :
    (graphSource t).apply (some (state, thread)) (rolloverEvent row threadId runId draw) =
      some (some (state, threadId)) := by
  simp [graphSource, rolloverEvent, AuditEventRow.text, Json.get?]

theorem graphStateEvent_tracked (row : GraphExecutionRow) (previous : GraphExecutionState)
    (runId : UUID) (draw : Draw) :
    isGraphEvent (graphStateEvent row previous runId draw).eventType = true ∧
      (graphStateEvent row previous runId draw).text "task_id" = some row.taskId.str := by
  constructor
  · rfl
  · simp [graphStateEvent, AuditEventRow.text, Json.get?]

theorem rolloverEvent_tracked (threadId : String) (runId : UUID) (draw : Draw) :
    isGraphEvent (rolloverEvent row threadId runId draw).eventType = true ∧
      (rolloverEvent row threadId runId draw).text "task_id" = some row.taskId.str := by
  constructor
  · rfl
  · simp [rolloverEvent, AuditEventRow.text, Json.get?]

theorem graphEvents_tracked (hold : ∀ o ∈ old, o.taskId = row.taskId) :
    ∀ event ∈ graphEvents threadId target runId draw old row,
      isGraphEvent event.eventType = true ∧ event.text "task_id" = some row.taskId.str := by
  cases old with
  | none => simpa [graphEvents] using graphStateEvent_tracked row _ _ _
  | some old =>
    have hrollover := hold old rfl ▸ rolloverEvent_tracked threadId runId draw
    have hstate := graphStateEvent_tracked row old.state runId draw
    simp only [graphEvents]
    split
    · simp [hrollover, hstate]
    · split
      · simp
      · simpa using hstate

/-- The events of a write lead from the row that was there to the one that was written. -/
theorem GraphWrite.folds (h : GraphWrite threadId target old row) :
    (graphEvents threadId target runId draw old row).foldlM (graphSource t).apply
      (old.map fun old => (old.state, old.threadId)) = some (some (row.state, row.threadId)) := by
  cases h with
  | create =>
    rw [graphEvents, foldlM_cons, apply_graphStateEvent]
    rfl
  | rollover hother =>
    rw [graphEvents, if_pos hother, foldlM_cons, map_some, apply_rolloverEvent,
      bind_eq_bind, bind_some, foldlM_cons, apply_graphStateEvent]
    rfl
  | touch hsame hold hrow =>
    obtain ⟨checkpointId, rfl⟩ := hrow
    rw [graphEvents, if_neg (not_not.mpr hsame), if_pos hold]
    rfl
  | advance hsame _ hthread hstate =>
    rw [graphEvents, if_neg (not_not.mpr hsame)]
    split
    · rename_i hold
      simp [hold, hsame, hthread, hstate]
    · rw [foldlM_cons, apply_graphStateEvent]
      rfl

theorem Transitioned.audited
    (h : Transitioned taskId identity threadId target draw row db db') : Audited db db' := by
  obtain ⟨-, hwrite, rfl, -, haudit, houtbox, audit, outbox, durations, rfl⟩ := h
  exact .put rfl rfl haudit ⟨_, houtbox⟩ (graphEvents_tracked fun _ h => key_of_get? h)
    hwrite.folds

/-! ## Sessions -/

abbrev Trail : Database → Database → Prop := Relation.ReflTransGen Audited

/-- Every completed run of the session is a number of steps. -/
abbrev Audits (p : Session α) : Prop := p.Refines (fun _ => True) Trail

namespace Audits

theorem committed (h : Audits p) : Trail db (p.commit db).2 :=
  h.commit (fun _ => .refl) trivial

theorem transitionTask :
    Audits (AutoSwe.transitionTask projectId taskId expectedVersion target draw) := by
  intro db moved db' _ hrun
  obtain ⟨row, hrow, -, -, hlegal, -, rfl⟩ := transitionTask_ok hrun
  obtain rfl : row.id = taskId := key_of_get? hrow
  exact .single (.move hrow hlegal rfl)

theorem createTask : Audits (AutoSwe.createTask runId spec draw) := by
  intro db row db' _ hrun
  obtain ⟨rfl, hnew, rfl⟩ := createTask_ok hrun
  exact .single (.create hnew rfl rfl rfl)

theorem transitionGraphExecution : Audits
    (AutoSwe.transitionGraphExecution taskId identity threadId target checkpointId draw) :=
  fun _ _ _ _ hrun => .single (transitionGraphExecution_did hrun).audited

structure Still (db db' : Database) : Prop where
  tasks : db'.tasks = db.tasks
  graphs : db'.graphs = db.graphs
  auditEvents : db'.auditEvents = db.auditEvents
  outbox : db'.outbox = db.outbox

theorem Still.refl (db : Database) : Still db db := ⟨rfl, rfl, rfl, rfl⟩

theorem still (h : p.Writes fun write => ∀ db, Still db (write db)) : Audits p := by
  intro db a db' _ hrun
  obtain ⟨htasks, hgraphs, haudit, houtbox⟩ : Still db db' :=
    Writes.refines Still.refl (fun h h' => ⟨h'.tasks.trans h.tasks, h'.graphs.trans h.graphs,
      h'.auditEvents.trans h.auditEvents, h'.outbox.trans h.outbox⟩) h trivial hrun
  exact .single (.quiet htasks hgraphs (.of_same haudit houtbox))

theorem appendAudit (h : isTracked row.eventType = false) : Audits (AutoSwe.appendAudit row) := by
  intro db u db' _ hrun
  cases hrun
  exact .single (.quiet rfl rfl (.appendAudit db h))

theorem enqueueEvent (row : OutboxRow) : Audits (AutoSwe.enqueueEvent row) := by
  intro db u db' _ hrun
  cases hrun
  exact .single (.quiet rfl rfl (.enqueueEvent db trivial))

theorem appendNamedAudit (h : isTracked row.eventType = false) :
    Audits (AutoSwe.appendNamedAudit row) := by
  intro db u db' _ hrun
  obtain ⟨-, rfl⟩ := appendNamedAudit_ok.mp hrun
  exact .single (.quiet rfl rfl (.appendAudit db h))

theorem enqueueNamedEvent (row : OutboxRow) : Audits (AutoSwe.enqueueNamedEvent row) := by
  intro db u db' _ hrun
  obtain ⟨-, rfl⟩ := enqueueNamedEvent_ok.mp hrun
  exact .single (.quiet rfl rfl (.enqueueEvent db trivial))

end Audits

/-- The session leaves a trail, and each of its writes is like `W`. One walk through
the session shows both. -/
structure Trails (W : (Database → Database) → Prop) (p : Session α) : Prop where
  writes : p.Writes W
  audits : Audits p

/-- A kind of writes that a read counts among. -/
class Idle (W : (Database → Database) → Prop) : Prop where
  id : W id

namespace Trails

open Audits (Still)

variable {W : (Database → Database) → Prop}

theorem quiet (h : p.Writes fun write => W write ∧ ∀ db, Still db (write db)) : Trails W p :=
  ⟨h.mono fun _ hwrite => hwrite.1, .still (h.mono fun _ hwrite => hwrite.2)⟩

theorem execute (h : W write) (hstill : ∀ db, Still db (write db)) :
    Trails W (execute write) :=
  quiet (.execute ⟨h, hstill⟩)

theorem done : Trails W (pure a) := quiet trivial

theorem raise : Trails W (raise e : Session α) := quiet trivial

theorem require : Trails W (Session.require check) :=
  quiet (by cases check <;> exact trivial)

theorem queryForUpdate (want : Database → Option Lock) (read : Database → α) :
    Trails W (queryForUpdate want read) :=
  quiet (.queryForUpdate want read)

theorem selectSkipLocked (rows : Database → List β) (lockOf : β → Lock) (limit : Nat) :
    Trails W (selectSkipLocked rows lockOf limit) :=
  quiet (.selectSkipLocked rows lockOf limit)

theorem bind (hp : Trails W p) (hf : ∀ a, Trails W (f a)) : Trails W (p >>= f) := by
  refine ⟨hp.writes.bind fun a => (hf a).writes, ?_⟩
  intro db b db' _ hrun
  obtain ⟨a, db₁, hfirst, hrest⟩ := bind_ok.mp hrun
  exact (hp.audits trivial hfirst).trans ((hf a).audits trivial hrest)

theorem ite [Decidable c] (hp : Trails W p) (hq : Trails W q) :
    Trails W (if c then p else q) := by
  split
  · exact hp
  · exact hq

theorem option {f : Option β → Session α} (hnone : Trails W (f none))
    (hsome : ∀ b, Trails W (f (some b))) : ∀ found, Trails W (f found)
  | none => hnone
  | some b => hsome b

theorem discard (h : Trails W p) : Trails W p.discard := h.bind fun _ => done

theorem each (h : ∀ b, Trails W (body b)) :
    ∀ items, Trails W (each body items)
  | [] => done
  | b :: rest => (h b).bind fun _ => each h rest

theorem collect (h : ∀ b, Trails W (body b)) :
    ∀ items, Trails W (collect body items)
  | [] => done
  | b :: rest => (h b).bind fun _ => (collect h rest).bind fun _ => done

theorem mono (h : Trails W p) (hW : ∀ write, W write → W' write) : Trails W' p :=
  ⟨h.writes.mono hW, h.audits⟩

variable [Idle W]

theorem query (read : Database → α) : Trails W (query read) :=
  quiet (.query ⟨Idle.id, Still.refl⟩ read)

theorem checked (h : ∀ view w, write view = .ok w → W w ∧ ∀ db, Still db (w db)) :
    Trails W (checked write) :=
  quiet (.checked ⟨Idle.id, Still.refl⟩ h)

end Trails

end AutoSwe
