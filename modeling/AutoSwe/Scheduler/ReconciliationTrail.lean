import AutoSwe.Persistence.AuditTrail
import AutoSwe.Scheduler.Concurrency

/-!
# The trail of reconciliation

The reconciler and its operator move tasks by `transitionTask` alone. Where they write a
graph row themselves, the event that they publish has the state that they wrote.
-/

namespace AutoSwe

open Relational Transaction Prog Table Option

namespace Audits

/-- The second stamp changes neither the state nor the version. -/
theorem moveIfAny_ok (h : (moveIfAny task target draw).run db = .ok (moved, db')) :
    Trail db db' ∧ db'.graphs = db.graphs ∧ moved.id = task.id := by
  cases target with
  | none =>
    cases h
    exact ⟨.refl, rfl, rfl⟩
  | some target =>
    obtain ⟨entered, db₁, hmove, h⟩ := bind_ok.mp h
    obtain ⟨row, hrow, -, -, hlegal, rfl, rfl⟩ := transitionTask_ok hmove
    cases h
    obtain hid : row.id = task.id := key_of_get? hrow
    rw [← hid] at hrow
    have hentered : (db.moveTask row target draw).tasks.get? (row.enter target draw.now).id =
        some (row.enter target draw.now) := get?_set_self hrow
    exact ⟨.tail (.single (.move hrow hlegal rfl)) (.stamp draw.enteredAt hentered rfl), rfl, hid⟩

/-- The graph row of `t` is `written` now, under the thread that it had. -/
structure Overwritten (t : UUID) (written : Option GraphExecutionRow) (db db' : Database) :
    Prop where
  row : db'.graphs.get? t = written
  thread : written.map GraphExecutionRow.threadId =
    (db.graphs.get? t).map GraphExecutionRow.threadId
  others : ∀ k ≠ t, db'.graphs.get? k = db.graphs.get? k
  tasks : db'.tasks = db.tasks
  auditEvents : db'.auditEvents = db.auditEvents
  outbox : db'.outbox = db.outbox

theorem overwriteIfAny_ok (hgraph : db.graphs.get? t = graph)
    (h : (overwriteIfAny graph state now).run db = .ok (written, db')) :
    Overwritten t written db db' := by
  cases state with
  | none =>
    cases h
    exact ⟨hgraph, by rw [hgraph], fun _ _ => rfl, rfl, rfl, rfl⟩
  | some state =>
    cases graph with
    | none =>
      cases h
      exact ⟨hgraph, by rw [hgraph], fun _ _ => rfl, rfl, rfl, rfl⟩
    | some graph =>
      have hkey : graph.taskId = t := key_of_get? hgraph
      cases h
      refine ⟨?_, by rw [hgraph]; rfl, fun k hk => ?_, rfl, rfl, rfl⟩
      · rw [← hkey] at hgraph ⊢
        have hset : (db.graphs.set { graph with state, stateEnteredAt := now }).get? graph.taskId =
            some { graph with state, stateEnteredAt := now } := get?_set_self hgraph
        exact hset
      · exact get?_set_ne _ (hkey ▸ hk)

theorem isReconciliation_append (rest : String) :
    isReconciliation ("reconciliation." ++ rest) = true := by
  simp [isReconciliation, String.toList_append]

theorem isReconciliation_resolved (resolution : Resolution) :
    isReconciliation ("reconciliation.resolved." ++ resolution.value) = true := by
  cases resolution <;> decide

theorem ne_of_isReconciliation (h : isReconciliation eventType = true)
    (hother : isReconciliation other = false) : eventType ≠ other := by
  rintro rfl
  rw [h] at hother
  cases hother

/-- An event of reconciliation says which state the graph row has. -/
theorem reported (htype : isReconciliation event.eventType = true)
    (htask : event.text "task_id" = some t.str)
    (hstate : event.text "graph_state" = written.map fun graph => graph.state.value)
    (hwritten : Overwritten t written db db')
    (htasks : db''.tasks = db'.tasks) (hgraphs : db''.graphs = db'.graphs)
    (haudit : db''.auditEvents = db'.auditEvents ++ [event])
    (houtbox : ∃ messages, db''.outbox = db'.outbox ++ messages) : Audited db db'' := by
  refine .graph t (htasks.trans hwritten.tasks) (fun k hk => ?_)
    (by rw [haudit, hwritten.auditEvents]) (hwritten.outbox ▸ houtbox) ?_ ?_
  · rw [hgraphs, hwritten.others k hk]
  · simp [isGraphEvent, htype, htask]
  · have hstateType := ne_of_isReconciliation htype
      (show isReconciliation "workflow.state_changed" = false by decide)
    have hrollover := ne_of_isReconciliation htype
      (show isReconciliation "workflow.attempt_rollover" = false by decide)
    have hview : (graphSource t).view db'' =
        written.map fun graph => (graph.state, graph.threadId) := by
      simp only [graphSource, hgraphs, hwritten.row]
    rw [hview, List.foldlM_cons]
    have hthread := hwritten.thread
    simp only [graphSource, hstateType, hrollover, if_false, hstate]
    cases written with
    | none =>
      rw [map_none, eq_comm, map_eq_none_iff] at hthread
      rw [hthread]
      rfl
    | some graph =>
      obtain ⟨old, hold, hsame⟩ := map_eq_some_iff.mp hthread.symm
      rw [hold]
      simp [GraphExecutionState.ofValue_value, hsame]

theorem applyAction_audits (hgraph : db.graphs.get? task.id = graph)
    (h : (applyAction action task graph now draw).run db = .ok (u, db')) : Trail db db' := by
  obtain ⟨moved, db₁, hmove, h⟩ := bind_ok.mp h
  obtain ⟨htrail, hgraphs, hid⟩ := moveIfAny_ok hmove
  obtain ⟨written, db₂, hwrite, h⟩ := bind_ok.mp h
  rw [← hgraphs] at hgraph
  have hwritten := overwriteIfAny_ok hgraph hwrite
  cases h
  refine htrail.tail (reported (isReconciliation_append _) ?_ ?_ hwritten rfl rfl rfl ⟨_, rfl⟩)
  · simp [AuditEventRow.text, reconciliationPayload, Json.get?, hid]
  · cases written <;> simp [AuditEventRow.text, reconciliationPayload, Json.get?, Json.ofOption]

theorem reconcile : Audits (AutoSwe.reconcile projectId taskId now draw) := by
  intro db action db' _ h
  obtain ⟨task, hrow, -, rfl | ⟨-, happly⟩⟩ := reconcile_ok h
  · exact .refl
  · exact applyAction_audits (by rw [key_of_get? hrow]) happly

theorem resolveNeedsReconciliation : Audits
    (AutoSwe.resolveNeedsReconciliation projectId taskId resolution now draw graphDraw) := by
  intro db action db' _ h
  obtain ⟨task, graph, settled, db₁, moved, db₂, -, -, -, hsettle, hmove, hreport⟩ :=
    resolveNeedsReconciliation_ok h
  obtain ⟨-, hkey, -, _, _, _, hdb₁⟩ := transitionGraphExecution_ok hsettle
  obtain ⟨htrail, hgraphs, hid⟩ := moveIfAny_ok hmove
  cases hreport
  have hsettled : db₂.graphs.get? task.id = some settled := by
    rw [hgraphs, hdb₁, ← hkey]
    simp [get?_put]
  have hwritten : Overwritten task.id (some settled) db₂ db₂ :=
    ⟨hsettled, by rw [hsettled], fun _ _ => rfl, rfl, rfl, rfl⟩
  refine (Relation.ReflTransGen.single (transitionGraphExecution_did hsettle).audited).trans
    (htrail.tail (reported ?_ ?_ ?_ hwritten rfl rfl rfl ⟨_, rfl⟩))
  · exact isReconciliation_resolved resolution
  · simp [AuditEventRow.text, resolutionPayload, Json.get?, hid]
  · simp [AuditEventRow.text, resolutionPayload, Json.get?]

end Audits

end AutoSwe
