import AutoSwe.Scheduler.Lifecycle

/-!
# What a write does to the view of a task

One lemma for each write of the repository: it changes the view of its task
in one field and the view of no other task. The shared transaction steps
follow from them.
-/

namespace AutoSwe

open Relational Transaction LocalEffect Table List Database

abbrev ViewUpdates := Updates view

/-! ## Writes -/

theorem view_congr {db db' : Database} (htasks : db'.tasks = db.tasks)
    (hleases : db'.leases = db.leases) (hreservations : db'.reservations = db.reservations)
    (hgraphs : db'.graphs = db.graphs) (hattempts : db'.attempts = db.attempts) :
    db'.view t = db.view t := by
  simp [view, heldBy, active, htasks, hleases, hreservations, hgraphs,
    hattempts]

theorem setTask_updates (hold : db.tasks.get? row.id = some old) :
    ViewUpdates row.id (fun v => { v with row := some row }) db
      { db with tasks := db.tasks.set row } := by
  refine ⟨?_, fun u hu => ?_⟩
  · simp [view, heldBy, active, get?_set_self hold]
  · simp [view, heldBy, active, get?_set_ne db.tasks hu]

theorem moveTask_updates (hrow : db.tasks.get? t = some row) (target : TaskStatus) (draw : Draw) :
    ViewUpdates t (fun v => { v with row := some (row.enter target draw.now) }) db
      (db.moveTask row target draw) := by
  obtain rfl : row.id = t := key_of_get? hrow
  have hset : ViewUpdates row.id (fun v => { v with row := some (row.enter target draw.now) }) db
      { db with tasks := db.tasks.set (row.enter target draw.now) } :=
    setTask_updates hrow
  exact ⟨hset.1, hset.2⟩

theorem insertTask_updates (hnew : db.tasks.get? row.id = none) :
    ViewUpdates row.id (fun v => { v with row := some row }) db
      { db with tasks := db.tasks.insert row } := by
  refine ⟨?_, fun u hu => ?_⟩
  · simp [view, heldBy, active, get?_insert hnew]
  · simp [view, heldBy, active, get?_insert hnew, hu]

theorem release_updates : ViewUpdates t (fun v => { v with held := [] }) db (db.release t now) := by
  refine ⟨?_, fun u hu => ?_⟩
  · simp only [view, heldBy_release, if_true]
    rfl
  · simp only [view, heldBy_release, if_neg hu]
    rfl

theorem releaseReservations_updates (h : (releaseReservations t now).run db = .ok (u, db')) :
    ViewUpdates t (fun v => { v with held := [] }) db db' := by
  rw [run_releaseReservations] at h
  cases h
  exact release_updates

theorem reserve_updates (hactive : row.active) :
    ViewUpdates row.taskId (fun v => { v with held := v.held ++ [row] }) db (db.reserve row) := by
  refine ⟨?_, fun u hu => ?_⟩
  · simp only [view, heldBy_reserve db row hactive, if_true]
    rfl
  · simp only [view, heldBy_reserve db row hactive, if_neg (Ne.symm hu)]
    rfl

theorem eraseLease_updates :
    ViewUpdates t (fun v => { v with lease := none }) db
      { db with leases := db.leases.erase t } := by
  refine ⟨?_, fun u hu => ?_⟩
  · simp [view, heldBy, active]
  · simp [view, heldBy, active, get?_erase, hu]

theorem insertLease_updates (hnew : db.leases.get? lease.taskId = none) :
    ViewUpdates lease.taskId (fun v => { v with lease := some lease }) db
      { db with leases := db.leases.insert lease } := by
  refine ⟨?_, fun u hu => ?_⟩
  · simp [view, heldBy, active, get?_insert hnew]
  · simp [view, heldBy, active, get?_insert hnew, hu]

theorem setLease_updates (lease : LeaseRow) (hold : db.leases.get? lease.taskId = some old) :
    ViewUpdates lease.taskId (fun v => { v with lease := some lease }) db
      { db with leases := db.leases.set lease } := by
  refine ⟨?_, fun u hu => ?_⟩
  · simp [view, heldBy, active, get?_set_self hold]
  · simp [view, heldBy, active, get?_set_ne db.leases hu]

theorem putGraph_updates (db : Database) (row : GraphExecutionRow) :
    ViewUpdates row.taskId (fun v => { v with graph := some row }) db
      { db with graphs := db.graphs.put row } := by
  refine ⟨?_, fun u hu => ?_⟩
  · simp [view, heldBy, active, get?_put]
  · simp [view, heldBy, active, get?_put, hu]

theorem setGraph_updates (hold : db.graphs.get? row.taskId = some old) :
    ViewUpdates row.taskId (fun v => { v with graph := some row }) db
      { db with graphs := db.graphs.set row } := by
  rw [← put_of_some hold]
  exact putGraph_updates db row

theorem logged_updates {db db' : Database} (htasks : db'.tasks = db.tasks)
    (hleases : db'.leases = db.leases) (hreservations : db'.reservations = db.reservations)
    (hgraphs : db'.graphs = db.graphs) (hattempts : db'.attempts = db.attempts) :
    ViewUpdates t id db db' :=
  ⟨view_congr htasks hleases hreservations hgraphs hattempts,
    fun _ _ => view_congr htasks hleases hreservations hgraphs hattempts⟩

theorem insertAttempt_updates (attempt : TaskAttemptRow)
    (hnew : db.attempts.get? attempt.id = none) :
    ViewUpdates attempt.taskId (fun v => { v with attempted := true }) db
      { db with attempts := db.attempts.insert attempt } := by
  have hrows : (db.attempts.insert attempt).rows = db.attempts.rows ++ [attempt] := by
    have hfree : ∀ x ∈ db.attempts.rows, x.id ≠ attempt.id := Table.get?_eq_none.mp hnew
    have hn : attempt.id ∉ db.attempts.rows.map TaskAttemptRow.id := by
      simpa using hfree
    simp only [Table.insert, hn, dite_false]
  refine ⟨?_, fun u hu => ?_⟩
  · simp [view, heldBy, active, hrows]
  · simp [view, heldBy, active, hrows, Ne.symm hu]

theorem setAttempt_updates (attempt : TaskAttemptRow) (t : UUID)
    (hold : db.attempts.get? attempt.id = some old) (htask : attempt.taskId = old.taskId) :
    ViewUpdates t id db { db with attempts := db.attempts.set attempt } := by
  have htasks : (db.attempts.set attempt).rows.map TaskAttemptRow.taskId =
      db.attempts.rows.map TaskAttemptRow.taskId := by
    simp only [Table.set, map_map]
    refine map_congr_left fun x hx => ?_
    simp only [Function.comp]
    split
    · rename_i hid
      have hx' := Table.get?_of_mem hx
      rw [hid, hold] at hx'
      cases hx'
      exact htask
    · rfl
  have hany : ∀ u, ((db.attempts.set attempt).rows.any fun x => x.taskId = u) =
      db.attempts.rows.any fun x => x.taskId = u := by
    intro u
    have h := congrArg (any · fun id => decide (id = u)) htasks
    simpa only [any_map, Function.comp_def] using h
  refine ⟨?_, fun u _ => ?_⟩ <;>
    simp [view, heldBy, active, hany]

/-! ## Shared transaction steps -/

theorem transitionTask_updates
    (h : (transitionTask projectId t version target draw).run db = .ok (moved, db')) :
    ∃ row, db.tasks.get? t = some row ∧ row.version = version ∧
      target ∈ taskTransitions row.state ∧ moved = row.enter target draw.now ∧
      ViewUpdates t (fun v => { v with row := some moved }) db db' := by
  obtain ⟨row, hrow, _, hversion, hlegal, rfl, rfl⟩ := transitionTask_ok h
  exact ⟨row, hrow, hversion, hlegal, rfl, moveTask_updates hrow _ _⟩

theorem moveTo_updates (h : (moveTo target draws task).run db = .ok (u, db')) :
    ∃ row, db.tasks.get? task.id = some row ∧ target ∈ taskTransitions row.state ∧
      ViewUpdates task.id
        (fun v => { v with row := some (row.enter target (draws task.id).now) }) db db' := by
  obtain ⟨moved, db₁, htrans, h⟩ := Prog.bind_ok.mp h
  cases h
  obtain ⟨row, hrow, _, hlegal, rfl, hup⟩ := transitionTask_updates htrans
  exact ⟨row, hrow, hlegal, hup⟩

theorem dropped_updates (db : Database) (t : UUID) (now : Time) :
    ViewUpdates t (fun v => { v with lease := none, held := [] }) db (db.dropped t now) :=
  (release_updates).trans eraseLease_updates

theorem dropClaim_updates (h : (dropClaim t now).run db = .ok (u, db')) :
    ViewUpdates t (fun v => { v with lease := none, held := [] }) db db' := by
  rw [run_dropClaim] at h
  cases h
  exact dropped_updates db t now

theorem setTaskState_updates (h : (setTaskState task target draw).run db = .ok (moved, db')) :
    ∃ row, db.tasks.get? task.id = some row ∧ row.version = task.version ∧
      target ∈ taskTransitions row.state ∧ moved = row.enter target draw.enteredAt ∧
      ViewUpdates task.id (fun v => { v with row := some moved }) db db' := by
  obtain ⟨entered, db₁, htrans, h⟩ := Prog.bind_ok.mp h
  obtain ⟨row, hrow, hversion, hlegal, rfl, hup⟩ := transitionTask_updates htrans
  have hid : row.id = task.id := key_of_get? hrow
  cases h
  have hold : db₁.tasks.get? (row.enter target draw.enteredAt).id =
      some (row.enter target draw.now) := by
    have h := congrArg TaskView.row hup.1
    rwa [← hid] at h
  have hset := setTask_updates hold
  rw [TaskRow.enter_id, hid] at hset
  exact ⟨row, hrow, hversion, hlegal, rfl, hup.trans hset⟩

theorem moveIfAny_updates (h : (moveIfAny task target draw).run db = .ok (moved, db')) :
    (target = none ∧ moved = task ∧ db = db') ∨
      ∃ row state, target = some state ∧ db.tasks.get? task.id = some row ∧
        row.version = task.version ∧ state ∈ taskTransitions row.state ∧
        moved = row.enter state draw.enteredAt ∧
        ViewUpdates task.id (fun v => { v with row := some moved }) db db' := by
  cases target with
  | none =>
    cases h
    exact .inl ⟨rfl, rfl, rfl⟩
  | some state =>
    obtain ⟨row, hrow, hversion, hlegal, hmoved, hup⟩ := setTaskState_updates h
    exact .inr ⟨row, state, rfl, hrow, hversion, hlegal, hmoved, hup⟩

theorem overwriteGraph_updates
    (h : (overwriteGraph (some graph) state now).run db = .ok (written, db'))
    (hgraph : db.graphs.get? t = some graph) :
    ∃ graph', ViewUpdates t (fun v => { v with graph := some graph' }) db db' := by
  have hid : graph.taskId = t := key_of_get? hgraph
  subst hid
  cases h
  exact ⟨_, setGraph_updates hgraph⟩

theorem transitionGraphExecution_updates
    (h : (transitionGraphExecution t identity threadId target checkpointId draw).run db =
      .ok (row, db')) :
    ViewUpdates t (fun v => { v with graph := some row }) db db' := by
  obtain ⟨_, hid, _, _, _, _, rfl⟩ := transitionGraphExecution_ok h
  subst hid
  have hput := putGraph_updates db row
  exact ⟨hput.1, hput.2⟩

end AutoSwe
