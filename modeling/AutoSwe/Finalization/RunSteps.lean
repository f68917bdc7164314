import AutoSwe.Finalization.RunMoves
import AutoSwe.Finalization.Writes

/-!
# Finalization as run moves

Most of what a dispatcher awaits leaves runs, tasks and plans alone (`Keeps`).
What is left are the transition of a run, the repair, the promotion and the
cancellation: `ActivityStep` says once what an activity can do, and
`ActivityStep.runMove` under which circumstances that is a move of the run.
-/

namespace AutoSwe

open Relational Transaction Table List Option Session

structure Keeps (db db' : Database) : Prop where
  runs : db'.runs = db.runs
  tasks : db'.tasks = db.tasks
  revisions : db'.planRevisions = db.planRevisions

theorem Keeps.refl (db : Database) : Keeps db db := ⟨rfl, rfl, rfl⟩

theorem Keeps.trans (h : Keeps a b) (h' : Keeps b c) : Keeps a c :=
  ⟨h'.runs.trans h.runs, h'.tasks.trans h.tasks, h'.revisions.trans h.revisions⟩

theorem Keeps.runMove (h : Keeps db db') (r : UUID) : RunMove (db.rowsOf r) (db'.rowsOf r) := by
  have htasks : (db'.rowsOf r).tasks = (db.rowsOf r).tasks := by simp [Database.rowsOf, h.tasks]
  refine .work ?_ ?_ ?_
  · simp [Database.rowsOf, h.runs]
  · simp [Database.rowsOf, h.revisions]
  · rw [htasks]
    exact .refl _

theorem Agree.keeps (h : Agree tables db db') (hruns : .runs ∉ tables) (htasks : .tasks ∉ tables)
    (hrevisions : .planRevisions ∉ tables) : Keeps db db' :=
  ⟨h .runs hruns, h .tasks htasks, h .planRevisions hrevisions⟩

/-! ## Transitions of a run -/

/-- The run enters another state, and nothing else happens to runs, tasks and plans. -/
structure Enters (runId : UUID) (target : RunStatus) (db db' : Database) : Prop where
  allowed : ∃ run now, db.runs.get? runId = some run ∧ target ∈ runTransitions run.state ∧
    db'.runs = db.runs.set (run.enter target now)
  tasks : db'.tasks = db.tasks
  revisions : db'.planRevisions = db.planRevisions

theorem Enters.run_ne (h : Enters runId target db db') (hr : r ≠ runId) :
    db'.runs.get? r = db.runs.get? r := by
  obtain ⟨run, now, hrun, -, hruns⟩ := h.allowed
  have hid : run.id = runId := key_of_get? hrun
  rw [hruns]
  exact get?_set_ne _ fun h => hr (h.trans hid)

theorem Enters.run (h : Enters runId target db db') :
    ∃ run now, db.runs.get? runId = some run ∧ target ∈ runTransitions run.state ∧
      db'.runs.get? runId = some (run.enter target now) := by
  obtain ⟨run, now, hrun, htarget, hruns⟩ := h.allowed
  refine ⟨run, now, hrun, htarget, ?_⟩
  have hid : run.id = runId := key_of_get? hrun
  rw [hruns, get?_set, if_pos (by exact hid.symm), hrun]
  rfl

theorem open_of_transition (h : target ∈ runTransitions state) : state ∉ runTerminalStates := by
  cases state <;> simp_all [runTransitions, runTerminalStates]

theorem unplanned_of_transition (h : target ∈ runTransitions state)
    (htarget : target ∈ unplannedStates) : state ∈ unplannedStates := by
  cases state <;> cases target <;> simp_all [runTransitions, unplannedStates]

theorem Enters.runMove (h : Enters runId target db db')
    (hquiet : target ∈ runTerminalStates → (db.rowsOf runId).Quiet) (r : UUID) :
    RunMove (db.rowsOf r) (db'.rowsOf r) := by
  by_cases hr : r = runId
  · subst hr
    obtain ⟨run, now, hrun, htarget, hrun'⟩ := h.run
    have hrows : db'.rowsOf r = { db.rowsOf r with
        run := some (run.enter target now), stages := (db'.rowsOf r).stages } := by
      refine RunRows.ext ?_ rfl ?_ ?_
      · simp [Database.rowsOf, hrun']
      · simp [Database.rowsOf, h.revisions]
      · simp [Database.rowsOf, h.tasks]
    rw [hrows]
    exact .enter hrun (open_of_transition htarget) id (unplanned_of_transition htarget)
      fun hterminal => .inr (hquiet hterminal)
  · refine .work (h.run_ne hr) ?_ ?_
    · simp [Database.rowsOf, h.revisions]
    · have htasks : (db'.rowsOf r).tasks = (db.rowsOf r).tasks := by
        simp [Database.rowsOf, h.tasks]
      rw [htasks]
      exact .refl _

theorem transitionRun_enters (hrun : db.runs.get? runId = some run)
    (htarget : target ∈ runTransitions run.state) (now : Time) :
    ((transitionRun runId target now).commit db).1 = .ok () ∧
      Enters runId target db ((transitionRun runId target now).commit db).2 := by
  have hne : run.state ≠ target := by
    rintro rfl
    cases hstate : run.state <;> simp [hstate, runTransitions] at htarget
  have hrequire : requireRunTransition run.state target = .ok () :=
    requireRunTransition_ok.mpr htarget
  obtain ⟨stateDurations, hok⟩ : ∃ stateDurations, (transitionRun runId target now).run db =
      .ok ((), { db with runs := db.runs.set (run.enter target now), stateDurations }) := by
    simp [transitionRun, selectRunForUpdate, hrun, hne, hrequire, require,
      recordRunDuration, recordStateDuration, Database.setRun]
  rw [Prog.commit_of_ok hok]
  exact ⟨rfl, ⟨run, now, hrun, htarget, rfl⟩, rfl, rfl⟩

theorem transitionRun_commit (runId : UUID) (target : RunStatus) (now : Time) (db : Database) :
    Keeps db ((transitionRun runId target now).commit db).2 ∨
      Enters runId target db ((transitionRun runId target now).commit db).2 := by
  refine (transitionRun runId target now).commit_cases db (.inl (.refl db)) fun u db' hrun => ?_
  have hrun := Prog.after hrun rfl
  cases hget : db.runs.get? runId with
  | none =>
    simp only [hget] at hrun
    cases hrun
  | some run =>
    simp only [hget] at hrun
    split at hrun
    · cases hrun
      exact .inl (.refl db)
    · obtain ⟨_, _, hrequire, hrun⟩ := Prog.bind_ok.mp hrun
      obtain ⟨htarget, rfl⟩ := require_ok.mp hrequire
      cases hrun
      exact .inr ⟨⟨run, now, hget, requireRunTransition_ok.mp htarget, rfl⟩, rfl, rfl⟩

theorem cancelRun_commit (runId : UUID) (now : Time) (draw : Draw) (db : Database) :
    Keeps db ((cancelRun runId now draw).commit db).2 ∨
      Enters runId .CANCELLED db ((cancelRun runId now draw).commit db).2 := by
  refine (cancelRun runId now draw).commit_cases db (.inl (.refl db)) fun u db' hrun => ?_
  have hrun := Prog.after hrun rfl
  cases hopen : (db.runs.get? runId).filter fun run => run.state ∉ runTerminalStates with
  | none =>
    simp only [hopen] at hrun
    cases hrun
    exact .inl (.refl db)
  | some run =>
    simp only [hopen] at hrun
    obtain ⟨_, _, hrequire, hrun⟩ := Prog.bind_ok.mp hrun
    obtain ⟨htarget, rfl⟩ := require_ok.mp hrequire
    cases hrun
    exact .inr ⟨⟨run, now, (filter_eq_some_iff.mp hopen).1,
      requireRunTransition_ok.mp htarget, rfl⟩, rfl, rfl⟩

/-! ## Repairs -/

/-- Plans and tasks are added to one run. -/
structure Extends (runId : UUID) (db db' : Database) : Prop where
  runs : db'.runs = db.runs
  revisions : ∀ r n, r ≠ runId → db'.planRevisions.get? (r, n) = db.planRevisions.get? (r, n)
  kept : ∀ id task, db.tasks.get? id = some task → db'.tasks.get? id = some task
  added : ∀ id task, db'.tasks.get? id = some task →
    db.tasks.get? id = some task ∨ task.runId = runId

theorem Extends.refl (runId : UUID) (db : Database) : Extends runId db db :=
  ⟨rfl, fun _ _ _ => rfl, fun _ _ h => h, fun _ _ h => .inl h⟩

theorem Extends.trans (h : Extends runId a b) (h' : Extends runId b c) : Extends runId a c where
  runs := h'.runs.trans h.runs
  revisions r n hr := (h'.revisions r n hr).trans (h.revisions r n hr)
  kept id task htask := h'.kept id task (h.kept id task htask)
  added id task htask := (h'.added id task htask).elim (h.added id task) .inr

theorem Keeps.extends (h : Keeps db db') : Extends runId db db' where
  runs := h.runs
  revisions _ _ _ := by rw [h.revisions]
  kept _ _ htask := by rw [h.tasks, htask]
  added _ _ htask := .inl (by rwa [h.tasks] at htask)

theorem Extends.other (h : Extends runId db db') (hr : r ≠ runId) :
    RunMove (db.rowsOf r) (db'.rowsOf r) := by
  have htasks : (db'.rowsOf r).tasks = (db.rowsOf r).tasks := by
    funext id
    refine ext fun task => ?_
    simp only [Database.rowsOf, filter_eq_some_iff, decide_eq_true_eq]
    refine and_congr_left fun htask => ⟨fun hsome => ?_, h.kept id task⟩
    exact (h.added id task hsome).resolve_right fun hrun => hr (htask.symm.trans hrun)
  refine .work ?_ ?_ ?_
  · simp [Database.rowsOf, h.runs]
  · exact funext fun n => h.revisions r n hr
  · rw [htasks]
    exact .refl _

abbrev Extending (runId : UUID) (p : Session α) : Prop :=
  p.Writes fun write => ∀ db, Extends runId db (write db)

theorem Touches.extending (h : Touches tables p) (hruns : .runs ∉ tables)
    (htasks : .tasks ∉ tables) (hrevisions : .planRevisions ∉ tables) (runId : UUID) :
    Extending runId p :=
  h.mono fun _ hwrite db => ((hwrite db).keeps hruns htasks hrevisions).extends

namespace Extending

open Prog (Writes)

theorem createPlanRevision :
    Extending runId (AutoSwe.createPlanRevision runId revision plan createdAt) := by
  refine Writes.checked (Extends.refl runId) fun view w hw db => ?_
  split at hw <;> cases hw
  refine ⟨rfl, fun r n hr => get?_insert_ne _ fun hkey => ?_, fun _ _ h => h,
    fun _ _ h => .inl h⟩
  exact hr (Prod.mk.inj hkey).1

theorem createTask : Extending runId (AutoSwe.createTask runId spec draw) := by
  refine .bind (Writes.checked (Extends.refl runId) fun view w hw db => ?_) fun _ => trivial
  split at hw <;> cases hw
  refine ⟨rfl, fun _ _ _ => rfl, fun id task h => get?_insert_of_some h _, fun id task h => ?_⟩
  rcases get?_insert_cases db.tasks (spec.row runId draw) id with hsame | hnew
  · exact .inl (hsame.symm.trans h)
  · rw [hnew] at h
    cases h
    exact .inr rfl

theorem storeMutation :
    Extending runId (DurableRepairController.storeMutation runId mutation draws plan) := by
  refine .bind createPlanRevision fun _ => .each (fun spec => ?_) _
  exact .bind createTask fun _ => trivial

theorem record {controller : DurableRepairController} :
    Extending runId (controller.record runId outcome mutation draws decision) := by
  have hlog : ∀ audit event, Extending runId (do
      appendAudit audit
      enqueueEvent event
      pure decision) := by
    intro audit event
    have htouches : Touches [.auditEvents, .outbox] (do
        appendAudit audit
        enqueueEvent event
        pure decision) :=
      .bind (Touches.appendAudit (by decide) audit) fun _ =>
        .bind (Touches.enqueueEvent (by decide) event) fun _ => trivial
    exact htouches.extending (by decide) (by decide) (by decide) runId
  have hinsert : ∀ row, Extending runId (insertRepairMutation row) := fun row =>
    Touches.extending (Logs.insertRepairMutation (mem_singleton_self _) row).writes (by decide)
      (by decide)
      (by decide) runId
  refine .bind (hinsert _) fun _ => ?_
  cases decision.accepted with
  | some plan => exact .bind storeMutation fun _ => hlog _ _
  | none => exact hlog _ _

end Extending

theorem plan_of_currentPlan {db : Database} (h : db.currentPlan runId = some row) :
    (db.rowsOf runId).revisions row.revision ≠ none := by
  have hmem := mem_of_mem_head? h
  rw [mem_insertionSort, mem_filter, decide_eq_true_eq] at hmem
  have hget := get?_of_mem hmem.1
  simp only [PlanRevisionRow.key, hmem.2] at hget
  simp [Database.rowsOf, hget]

/-- A repair that changes anything found a plan and added to it. -/
theorem apply_commit (controller : DurableRepairController) (objects : Objects) (runId : UUID)
    (outcome : VerificationOutcome) (mutation : TaskPlanMutation) (draws : UUID → Draw)
    (db : Database) :
    Keeps db ((controller.apply objects runId outcome mutation draws).commit db).2 ∨
      (∃ run, db.runs.get? runId = some run) ∧ (∃ n, (db.rowsOf runId).revisions n ≠ none) ∧
        Extends runId db ((controller.apply objects runId outcome mutation draws).commit db).2 := by
  refine (controller.apply objects runId outcome mutation draws).commit_cases db (.inl (.refl db))
    fun decision db' hrun => ?_
  unfold DurableRepairController.apply at hrun
  split at hrun
  · cases hrun
  · have hrun := Prog.after hrun rfl
    cases hget : db.runs.get? runId with
    | none =>
      simp only [hget] at hrun
      cases hrun
    | some run =>
      simp only [hget] at hrun
      have hrun := Prog.after hrun rfl
      split at hrun
      · have hsame : Agree [] db db' := Touches.refines Logs.replayedDecision.writes trivial hrun
        exact .inl (hsame.keeps (by decide) (by decide) (by decide))
      · have hrun := Prog.after hrun rfl
        split at hrun
        · cases hrun
        · rename_i hcurrent
          refine .inr ⟨⟨run, rfl⟩, ⟨_, plan_of_currentPlan hcurrent⟩, ?_⟩
          refine Prog.Writes.refines (Extends.refl runId) Extends.trans ?_ trivial hrun
          refine .bind (Touches.extending Logs.decideNew.writes ?_ ?_ ?_ runId)
            fun _ => Extending.record <;>
            decide

/-! ## Activities -/

theorem quiet_of_openTasks {db : Database} (h : db.openTasksOf r = []) : (db.rowsOf r).Quiet := by
  intro id task htask
  obtain ⟨hget, hrun⟩ := task_of_rowsOf htask
  have hnot := filter_eq_nil_iff.mp h task (mem_of_get? hget)
  simpa [hrun] using hnot

/-- A repair finds its run neither finished nor to be cancelled, and a dispatcher
finishes no run that has open tasks. -/
def Activity.Timely (db : Database) : Activity → Prop
  | .applyRepair runId .. => ∀ run, db.runs.get? runId = some run →
      run.state ∉ runTerminalStates ∧ run.cancellationRequestedAt = none
  | .transitionRun runId target => target ∈ runTerminalStates → db.openTasksOf runId = []
  | _ => True

/-- What an activity can do to runs, tasks and plans. -/
inductive ActivityStep (scheduler : SchedulerService) (a : Activity) (db : Database) :
    Database → Prop
  | keep {db' : Database} (h : Keeps db db') : ActivityStep scheduler a db db'
  | enter {db' : Database} {runId : UUID} {target : RunStatus}
      (ha : a = .transitionRun runId target ∨ a = .cancelRun runId ∧ target = .CANCELLED)
      (h : Enters runId target db db') : ActivityStep scheduler a db db'
  | repair {db' : Database} {runId : UUID} {run : RunRow} {n : Nat}
      {outcome : VerificationOutcome} {mutation : TaskPlanMutation}
      (ha : a = .applyRepair runId outcome mutation) (hrun : db.runs.get? runId = some run)
      (hplan : (db.rowsOf runId).revisions n ≠ none) (h : Extends runId db db') :
      ActivityStep scheduler a db db'
  | work (call : Call) (h : call.OfTasks) :
      ActivityStep scheduler a db ((call.body scheduler).commit db).2

section
variable (scheduler : SchedulerService) (service : RunFinalizationService)

/-- The activities that can change runs, tasks or plans. -/
def Activity.moves (a : Activity) : Bool :=
  .runs ∈ a.tables || .tasks ∈ a.tables || .planRevisions ∈ a.tables

theorem Activity.tables_of_moves {a : Activity} (h : a.moves = false) :
    .runs ∉ a.tables ∧ .tasks ∉ a.tables ∧ .planRevisions ∉ a.tables := by
  simpa [Activity.moves, and_assoc] using h

variable (s : Platform) (answer : Answer)

theorem Activity.act_keeps (a : Activity) (h : a.moves = false) :
    Keeps s.db (a.act service s answer).2.db := by
  obtain ⟨hruns, htasks, hrevisions⟩ := Activity.tables_of_moves h
  exact (a.act_agree service s answer).keeps hruns htasks hrevisions

theorem Activity.carryOut_keeps (a : Activity)
    (h : a.moves = false) : Keeps s.db (a.carryOut service s answer).2.db := by
  obtain ⟨hruns, htasks, hrevisions⟩ := Activity.tables_of_moves h
  exact (a.carryOut_agree service s answer).keeps hruns htasks hrevisions

theorem Activity.carryOut_step :
    ActivityStep scheduler a s.db (a.carryOut service s answer).2.db := by
  cases a with
  | applyRepair runId outcome mutation =>
    rcases apply_commit service.repair answer.objects runId outcome mutation answer.draws s.db with
      hkeeps | ⟨⟨run, hrun⟩, ⟨n, hplan⟩, hextends⟩
    · exact .keep hkeeps
    · exact .repair rfl hrun hplan hextends
  | transitionRun runId target =>
    rcases transitionRun_commit runId target answer.now s.db with hkeeps | henters
    · exact .keep hkeeps
    · exact .enter (.inl rfl) henters
  | cancelRun runId =>
    rcases cancelRun_commit runId answer.now answer.draw s.db with hkeeps | henters
    · exact .keep hkeeps
    · exact .enter (.inr ⟨rfl, rfl⟩) henters
  | promoteRound limit =>
    have hdiscard : ((Call.promoteRound limit answer.draws).body scheduler |>.commit s.db).2 =
        (s.transact (AutoSwe.promoteRound limit answer.draws)).2.db := Prog.commit_discard _ _
    simp only [Activity.carryOut, ← hdiscard]
    exact .work _ ⟨id, id⟩
  | cancelTask projectId taskId =>
    exact .work (.cancelTask projectId taskId answer.now answer.draw) ⟨id, id⟩
  | _ => exact .keep (Activity.carryOut_keeps service s answer _ rfl)

theorem Activity.act_step (a : Activity) :
    (answer.failure ≠ none ∧ (a.act service s answer).2.db = s.db) ∨
      answer.failure = none ∧ ActivityStep scheduler a s.db (a.act service s answer).2.db := by
  unfold Activity.act
  cases hfailure : answer.failure with
  | some error => exact .inl ⟨by simp, a.start_db s⟩
  | none =>
    have hstep := a.carryOut_step scheduler service (a.start s) answer
    rw [Activity.start_db] at hstep
    exact .inr ⟨rfl, hstep⟩

end

/-- An activity in its time is a move of every run. -/
theorem ActivityStep.runMove {a : Activity} (hstep : ActivityStep scheduler a db db')
    (h : a.Timely db) (hcancel : ∀ runId, a = .cancelRun runId → (db.rowsOf runId).Quiet)
    (r : UUID) : RunMove (db.rowsOf r) (db'.rowsOf r) := by
  cases hstep with
  | keep hkeeps => exact hkeeps.runMove r
  | enter ha henters =>
    refine henters.runMove (fun hterminal => ?_) r
    rcases ha with rfl | ⟨rfl, -⟩
    · exact quiet_of_openTasks (h hterminal)
    · exact hcancel _ rfl
  | @repair _ runId run _ _ _ ha hrun hplan hextends =>
    subst ha
    by_cases hr : r = runId
    · subst hr
      obtain ⟨hopen, hrequest⟩ := h run hrun
      refine .repair hrun hopen hrequest hplan (congrArg (·.get? r) hextends.runs) ?_
      intro id task htask
      obtain ⟨hget, htaskRun⟩ := task_of_rowsOf htask
      have hkept := hextends.kept id task hget
      exact filter_eq_some_iff.mpr ⟨hkept, decide_eq_true htaskRun⟩
    · exact hextends.other hr
  | work call hcall => exact call.runMove scheduler hcall db r

end AutoSwe
