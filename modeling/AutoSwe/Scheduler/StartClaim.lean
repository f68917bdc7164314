import AutoSwe.Scheduler.Invariants

/-!
# How a dispatch is admitted

`startClaim` as a case analysis over the rows it reads. The ceilings are
checked before the lease, and their refusal commits in a transaction of its
own; both theorems below turn on that order.
-/

namespace AutoSwe

open Relational Transaction Table Database Option Service

/-! ## The admission transaction -/

/-- One of the two ceilings of the policy is reached. -/
def SchedulerService.exhausted (service : SchedulerService) (db : Database) (taskId runId : UUID) :
    Prop :=
  service.policy.maxTaskAttempts ≤ db.attemptCount taskId ∨
    service.policy.maxRunCostUsd ≤ db.spent runId

theorem exhaustionReason_some (h : service.exhausted db task.id run.id) :
    ∃ reason, (exhaustionReason service task run).run db = .ok (some reason, db) := by
  rw [exhaustionReason_run]
  by_cases hattempts : service.policy.maxTaskAttempts ≤ db.attemptCount task.id
  · exact ⟨_, by rw [if_pos hattempts]⟩
  · have hcost := h.resolve_left hattempts
    exact ⟨_, by rw [if_neg hattempts, if_pos hcost]⟩

theorem exhaustionReason_none (h : ¬ service.exhausted db task.id run.id) :
    (exhaustionReason service task run).run db = .ok (none, db) := by
  obtain ⟨hattempts, hcost⟩ := not_or.mp h
  rw [exhaustionReason_run, if_neg hattempts, if_neg hcost]

/-- The rows that every admission reads before it decides anything. -/
structure Admissible (db : Database) (call : Dispatch) (task : TaskRow) (run : RunRow)
    (repository : RepositoryRow) : Prop where
  taskRow : db.taskIn call.projectId call.taskId = some task
  runRow : db.runs.get? task.runId = some run
  repositoryRow : db.repositories.get? task.repositoryId = some repository

theorem Admissible.id (h : Admissible db call task run repository) : task.id = call.taskId :=
  key_of_get? (taskIn_eq_some.mp h.taskRow).1

theorem Admissible.get (h : Admissible db call task run repository) :
    db.tasks.get? call.taskId = some task :=
  (taskIn_eq_some.mp h.taskRow).1

theorem admitClaim_unreadable
    (h : ∀ task run repository, ¬ Admissible db call task run repository) :
    ∃ e, (admitClaim service call now draw).run db = .error e ∧
      e.kind ≠ .taskBudgetExhausted := by
  simp only [admitClaim, Prog.run_bind, run_selectTaskForUpdate]
  cases htask : db.taskIn call.projectId call.taskId with
  | none => exact ⟨_, rfl, by simp⟩
  | some task =>
    simp only [Prog.run_bind, Prog.run_query]
    cases hrun : db.runs.get? task.runId with
    | none => exact ⟨_, rfl, by simp⟩
    | some run =>
      cases hrepository : db.repositories.get? task.repositoryId with
      | none => exact ⟨_, rfl, by simp⟩
      | some repository => exact absurd ⟨htask, hrun, hrepository⟩ (h task run repository)

theorem run_admitClaim (h : Admissible db call task run repository) :
    (admitClaim service call now draw).run db =
      if task.state = .COMPLETED then (admitCompleted call task run repository).run db
      else match (exhaustionReason service task run).run db with
        | .ok (some reason, _) => .error ⟨.taskBudgetExhausted, reason⟩
        | .ok (none, db') => (admitLeased call now draw task run repository).run db'
        | .error e => .error e := by
  simp only [admitClaim, Prog.run_bind, run_selectTaskForUpdate, h.taskRow, Prog.run_query,
    h.runRow, h.repositoryRow]
  split
  · rfl
  · simp only [Prog.run_bind]
    rw [exhaustionReason_run]
    generalize (if db.attemptCount task.id ≥ service.policy.maxTaskAttempts then _ else _) = reason
    cases reason <;> rfl

theorem admitClaim_exhausted (now : Time) (draw : Draw)
    (h : Admissible db call task run repository) (hopen : task.state ≠ .COMPLETED)
    (hexhausted : service.exhausted db task.id run.id) :
    ∃ reason, (admitClaim service call now draw).run db =
      .error ⟨.taskBudgetExhausted, reason⟩ := by
  obtain ⟨reason, hreason⟩ := exhaustionReason_some hexhausted
  exact ⟨reason, by rw [run_admitClaim h, if_neg hopen, hreason]⟩

theorem admitClaim_within (now : Time) (draw : Draw)
    (h : Admissible db call task run repository) (hopen : task.state ≠ .COMPLETED)
    (hwithin : ¬ service.exhausted db task.id run.id) :
    (admitClaim service call now draw).run db =
      (admitLeased call now draw task run repository).run db := by
  rw [run_admitClaim h, if_neg hopen, exhaustionReason_none hwithin]

/-- The lease row that lets a dispatch in. -/
def LeaseRow.admits (lease : LeaseRow) (call : Dispatch) (now : Time) : Bool :=
  lease.ownedBy call.owner call.token && now < lease.expiresAt

theorem admitLeased_stale
    (h : ∀ lease, db.leases.get? call.taskId = some lease → lease.admits call now = false) :
    (admitLeased call now draw task run repository).run db =
      .error ⟨.permissionError, "worker dispatch lease is missing, expired, or mismatched"⟩ := by
  have hany : ((db.leases.get? call.taskId).any fun lease =>
      lease.ownedBy call.owner call.token && now < lease.expiresAt) = false := by
    cases hlease : db.leases.get? call.taskId with
    | none => rfl
    | some lease => exact h lease hlease
  simp only [admitLeased, Prog.run_bind, run_selectLeaseForUpdate, hany]
  rfl

/-! ## The refusal transaction -/

/-- The states in which a refusal writes nothing: it returns at once from a
terminal task, and rolls back where `FAILED` is not a legal successor. -/
def refusalInert (state : TaskStatus) : Bool :=
  state ∈ terminalTaskStates || .FAILED ∉ taskTransitions state

theorem refuse_terminal (hrow : db.taskIn projectId t = some task)
    (h : task.state ∈ terminalTaskStates) :
    (refuseExhaustedTask projectId t now draw).run db = .ok ((), db) := by
  simp only [refuseExhaustedTask, Prog.run_bind, run_selectTaskForUpdate, hrow, h, if_true,
    Prog.run_pure]

theorem run_refuse_open (now : Time) (draw : Draw) (hrow : db.taskIn projectId t = some task)
    (h : task.state ∉ terminalTaskStates) :
    (refuseExhaustedTask projectId t now draw).run db =
      match (transitionTask projectId t task.version .FAILED draw).run (db.dropped t now) with
      | .ok (_, db') => .ok ((), db')
      | .error e => .error e := by
  simp only [refuseExhaustedTask, Prog.run_bind, run_selectTaskForUpdate, hrow, h, if_false,
    run_releaseReservations, run_deleteLease, Prog.run_pure, dropped]
  split <;> simp_all

theorem refuse_inert (hrow : db.taskIn projectId t = some task) (h : refusalInert task.state) :
    ((refuseExhaustedTask projectId t now draw).commit db).2 = db := by
  simp only [refusalInert, Bool.or_eq_true, decide_eq_true_eq] at h
  by_cases hterminal : task.state ∈ terminalTaskStates
  · rw [Prog.commit_of_ok (refuse_terminal hrow hterminal)]
  · have hillegal := h.resolve_left hterminal
    have hkept : (db.dropped t now).taskIn projectId t = some task := hrow
    obtain ⟨e, hfail⟩ := transitionTask_of_illegal draw hkept hillegal
    have hrun := run_refuse_open now draw hrow hterminal
    rw [hfail] at hrun
    rw [Prog.commit_of_error hrun]

theorem refuse_fails (now : Time) (draw : Draw) (hrow : db.taskIn projectId t = some task)
    (h : refusalInert task.state = false) :
    ((refuseExhaustedTask projectId t now draw).commit db).2.tasks.get? t =
      some (task.enter .FAILED draw.now) := by
  simp only [refusalInert, Bool.or_eq_false_iff, decide_eq_false_iff_not, not_not] at h
  have hget := (taskIn_eq_some.mp hrow).1
  obtain rfl : task.id = t := key_of_get? hget
  have hkept : (db.dropped task.id now).taskIn projectId task.id = some task := hrow
  have hrun := run_refuse_open now draw hrow h.1
  rw [transitionTask_of_legal hkept h.2] at hrun
  rw [Prog.commit_of_ok hrun]
  exact get?_set_self hget

/-! ## The two transactions together -/

section
variable {service : SchedulerService} {call : Dispatch} {now : Time} {draw refusal : Draw}

theorem startClaim_of_ok (h : (admitClaim service call now draw).run db = .ok (lease, db')) :
    startClaim service call now draw refusal db = (.ok lease, db') := by
  simp only [startClaim, rescue, transact, Prog.commit_of_ok h]

theorem startClaim_of_error (h : (admitClaim service call now draw).run db = .error e)
    (hkind : e.kind ≠ .taskBudgetExhausted) :
    startClaim service call now draw refusal db = (.error e, db) := by
  simp only [startClaim, rescue, transact, Prog.commit_of_error h, hkind, if_false]
  rfl

theorem startClaim_of_exhausted (refusal : Draw)
    (h : (admitClaim service call now draw).run db = .error e)
    (hkind : e.kind = .taskBudgetExhausted) :
    ∃ e', startClaim service call now draw refusal db =
      (.error e', ((refuseExhaustedTask call.projectId call.taskId now refusal).commit db).2) := by
  simp only [startClaim, rescue, transact, Prog.commit_of_error h, hkind, if_true]
  simp only [Bind.bind, raise]
  rcases (refuseExhaustedTask call.projectId call.taskId now refusal).commit db with ⟨e' | u, db'⟩
  · exact ⟨e', rfl⟩
  · exact ⟨e, rfl⟩

end

/-! ## Fencing -/

/-- The call raises and leaves every row of every table as it was. -/
def Rejected (result : Except Raised α × Database) (db : Database) : Prop :=
  ∃ e, result = (.error e, db)

/-- When the ceilings cannot get in the way of the lease: a row that the
admission needs is missing, no ceiling is reached, or the refusal is inert. -/
def CeilingsAside (service : SchedulerService) (db : Database) (call : Dispatch) : Prop :=
  ∀ task run repository, Admissible db call task run repository →
    (db.attemptCount call.taskId < service.policy.maxTaskAttempts ∧
      db.spent run.id < service.policy.maxRunCostUsd) ∨
    task.state ∈ [TaskStatus.PENDING, .FAILED, .CANCELLED]

theorem refusalInert_iff (h : state ≠ .COMPLETED) :
    refusalInert state = true ↔ state ∈ [TaskStatus.PENDING, .FAILED, .CANCELLED] := by
  cases state <;> simp_all [refusalInert, terminalTaskStates, taskTransitions]

theorem not_exhausted_iff (service : SchedulerService) (db : Database) (t runId : UUID) :
    ¬ service.exhausted db t runId ↔
      db.attemptCount t < service.policy.maxTaskAttempts ∧
        db.spent runId < service.policy.maxRunCostUsd := by
  simp [SchedulerService.exhausted]

/-- A dispatch without the exact, unexpired lease of an open task is rejected
without a trace exactly when the ceilings, which are looked at first, do not
refuse the task. -/
theorem startClaim_fenced_iff (service : SchedulerService) (db : Database) (call : Dispatch)
    (now : Time) (draw refusal : Draw)
    (hopen : ∀ task, db.taskIn call.projectId call.taskId = some task → task.state ≠ .COMPLETED)
    (hstale : ∀ lease, db.leases.get? call.taskId = some lease →
      ¬ (lease.owner = call.owner ∧ lease.token = call.token ∧ now < lease.expiresAt)) :
    Rejected (startClaim service call now draw refusal db) db ↔ CeilingsAside service db call := by
  have hstale : ∀ lease, db.leases.get? call.taskId = some lease →
      lease.admits call now = false := by
    intro lease hlease
    have h := hstale lease hlease
    simp only [LeaseRow.admits, LeaseRow.ownedBy, Bool.and_eq_false_iff, decide_eq_false_iff_not]
    tauto
  by_cases hrows : ∃ task run repository, Admissible db call task run repository
  · obtain ⟨task, run, repository, hrows⟩ := hrows
    have hstate := hopen task hrows.taskRow
    -- the rows are the ones the admission reads, so the condition is about them
    have haside : CeilingsAside service db call ↔
        ¬ service.exhausted db task.id run.id ∨ refusalInert task.state = true := by
      rw [refusalInert_iff hstate, not_exhausted_iff, hrows.id]
      refine ⟨fun h => h task run repository hrows, fun h task' run' repository' hrows' => ?_⟩
      obtain rfl : task = task' := some.inj (hrows.taskRow.symm.trans hrows'.taskRow)
      obtain rfl : run = run' := some.inj (hrows.runRow.symm.trans hrows'.runRow)
      exact h
    rw [haside]
    by_cases hexhausted : service.exhausted db task.id run.id
    · obtain ⟨reason, hrun⟩ := admitClaim_exhausted now draw hrows hstate
        hexhausted
      obtain ⟨e, hstart⟩ := startClaim_of_exhausted refusal hrun rfl
      rw [hstart]
      cases hinert : refusalInert task.state with
      | true => exact ⟨fun _ => .inr rfl, fun _ => ⟨e, by rw [refuse_inert hrows.taskRow hinert]⟩⟩
      | false =>
        refine ⟨fun ⟨e', he⟩ => ?_, by simp [hexhausted]⟩
        -- the task was moved to FAILED, so the database is not the one before
        have hget := refuse_fails now refusal hrows.taskRow hinert
        rw [congrArg Prod.snd he, hrows.get] at hget
        have hfailed : task.state = .FAILED := congrArg TaskRow.state (some.inj hget)
        simp [hfailed, refusalInert, terminalTaskStates] at hinert
    · have hrun := admitClaim_within now draw hrows hstate hexhausted
      rw [admitLeased_stale hstale] at hrun
      exact ⟨fun _ => .inl hexhausted, fun _ => ⟨_, startClaim_of_error hrun (by simp)⟩⟩
  · obtain ⟨e, hrun, hkind⟩ := admitClaim_unreadable
      fun task run repository h => hrows ⟨task, run, repository, h⟩
    refine ⟨fun _ task run repository h => absurd ⟨task, run, repository, h⟩ hrows, fun _ => ?_⟩
    exact ⟨e, startClaim_of_error hrun hkind⟩

def oneAttempt : SchedulerService :=
  { sampleService with
    policy :=
      { sampleService.policy with
        maxTaskAttempts := 1, one_le_maxTaskAttempts := by decide, maxTaskAttempts_le := by decide } }

/-- The sample task leased, its run and repository recorded. -/
def sampleDispatched : Database :=
  perform sampleService sampleLeased
    (.ambient (insert ∅ sampleRepository) (insert ∅ sampleRun) [])

/-- The sample task after the one attempt it is allowed has started. -/
def sampleStarted : Database := (startClaim oneAttempt sampleDispatch 110 {} {} sampleDispatched).2

def foreignDispatch : Dispatch := { sampleDispatch with token := 8 }

theorem startClaim_fenced_iff_sample :
    Rejected (startClaim sampleService foreignDispatch 120 {} {} sampleStarted) sampleStarted := by
  refine (startClaim_fenced_iff sampleService sampleStarted foreignDispatch 120 {} {}
    ?_ ?_).mpr ?_
  · decide
  · decide
  · intro task run repository _
    have hcalls : sampleStarted.modelCalls = [] := by decide
    exact .inl ⟨by decide, by simp [spent, hcalls, sampleService]⟩

/-- While a worker holds the unexpired lease, a delivery under another token
fails the task, deletes that lease and releases what the task holds. -/
theorem startClaim_foreign_fails_task :
    (sampleStarted.tasks.get? 1).map TaskRow.state = some .RUNNING ∧
      (sampleStarted.leases.get? 1).map (fun lease => (lease.token, lease.expiresAt)) =
        some (9, 130) ∧
      foreignDispatch.token = 8 ∧ sampleStarted.heldBy 1 ≠ [] ∧
      let after := (startClaim oneAttempt foreignDispatch 120 {} {} sampleStarted).2
      (after.tasks.get? 1).map TaskRow.state = some .FAILED ∧
        after.leases.get? 1 = none ∧ after.heldBy 1 = [] := by
  decide

/-! ## Redelivery -/

/-- What an admission leaves behind: the task runs under the lease and the
attempt of the dispatch, and `lease` is what its rows say. -/
structure Admitted (call : Dispatch) (lease : TaskExecutionLease) (db : Database) (task : TaskRow)
    (run : RunRow) (repository : RepositoryRow) : Prop
    extends Admissible db call task run repository where
  running : task.state = .RUNNING
  owned : (db.leases.get? call.taskId).any fun lease => lease.ownedBy call.owner call.token
  attempted : ∃ attempt, db.attempts.get? call.attemptId = some attempt ∧
    attempt.taskId = call.taskId ∧ attempt.agentSpecHash = call.agentSpecHash
  execution : lease = executionLease task run repository call.attemptId false

theorem enterRunning_ok (hrow : db.taskIn call.projectId call.taskId = some task)
    (h : (enterRunning call task draw).run db = .ok (moved, db')) :
    db'.taskIn call.projectId call.taskId = some moved ∧ moved.state = .RUNNING ∧
      moved.runId = task.runId ∧ moved.repositoryId = task.repositoryId ∧
      db'.leases = db.leases ∧ db'.runs = db.runs ∧ db'.repositories = db.repositories := by
  obtain ⟨hget, hproject⟩ := taskIn_eq_some.mp hrow
  rcases enterRunning_cases hget h with ⟨-, rfl, rfl⟩ | ⟨hrunning, rfl, rfl⟩
  · have hset := congrArg TaskView.row (moveTask_updates hget .RUNNING draw).1
    exact ⟨taskIn_eq_some.mpr ⟨hset, hproject⟩, rfl, rfl, rfl, rfl, rfl, rfl⟩
  · exact ⟨hrow, hrunning, rfl, rfl, rfl, rfl, rfl⟩

theorem ensureAttempt_ok (h : (ensureAttempt call draw).run db = .ok (u, db')) :
    (∃ attempt, db'.attempts.get? call.attemptId = some attempt ∧
      attempt.taskId = call.taskId ∧ attempt.agentSpecHash = call.agentSpecHash) ∧
    db'.tasks = db.tasks ∧ db'.leases = db.leases ∧ db'.runs = db.runs ∧
      db'.repositories = db.repositories := by
  rcases ensureAttempt_cases h with ⟨rfl, hattempt⟩ | ⟨hnew, rfl⟩
  · exact ⟨hattempt, rfl, rfl, rfl, rfl⟩
  · let attempt : TaskAttemptRow :=
      { id := call.attemptId, taskId := call.taskId, agentSpecHash := call.agentSpecHash
        startedAt := draw.createdAt }
    have hget : (db.attempts.insert attempt).get? call.attemptId = some attempt := by
      rw [get?_insert hnew, if_pos rfl]
    exact ⟨⟨attempt, hget, rfl, rfl⟩, rfl, rfl, rfl, rfl⟩

theorem admitLeased_ok (hrows : Admissible db call task run repository)
    (h : (admitLeased call now draw task run repository).run db = .ok (lease, db')) :
    ∃ moved, Admitted call lease db' moved run repository := by
  obtain ⟨hadmits, moved, db₁, henter, hensure, hlease⟩ := admitLeased_cases h
  obtain ⟨htask, hrunning, hrun, hrepository, hleases, hruns, hrepositories⟩ :=
    enterRunning_ok hrows.taskRow henter
  obtain ⟨hattempt, htasks', hleases', hruns', hrepositories'⟩ := ensureAttempt_ok hensure
  refine ⟨moved, ⟨?_, ?_, ?_⟩, hrunning, ?_, hattempt, hlease⟩
  · simpa [taskIn, htasks'] using htask
  · rw [hruns', hruns, hrun, hrows.runRow]
  · rw [hrepositories', hrepositories, hrepository, hrows.repositoryRow]
  · rw [hleases', hleases]
    cases hlease : db.leases.get? call.taskId with
    | none => simp [hlease] at hadmits
    | some row =>
      simp only [hlease, any_some, Bool.and_eq_true] at hadmits ⊢
      exact hadmits.1

/-- A dispatch that was let in either found its task completed or left it
admitted. -/
theorem startClaim_ok (h : startClaim service call now draw refusal db = (.ok lease, db')) :
    (∃ task, db'.taskIn call.projectId call.taskId = some task ∧ task.state = .COMPLETED ∧
      lease.alreadyTerminal = true) ∨
      ∃ task run repository, Admitted call lease db' task run repository := by
  cases hadmit : (admitClaim service call now draw).run db with
  | error e =>
    by_cases hkind : e.kind = .taskBudgetExhausted
    · obtain ⟨e', hstart⟩ := startClaim_of_exhausted refusal hadmit hkind
      cases hstart.symm.trans h
    · cases (startClaim_of_error hadmit hkind).symm.trans h
  | ok result =>
    cases (startClaim_of_ok hadmit).symm.trans h
    obtain ⟨task, run, repository, htask, hrun, hrepository,
      ⟨hcompleted, hterminal, rfl⟩ | hleased⟩ := admitClaim_cases hadmit
    · exact .inl ⟨task, htask, hcompleted, hterminal⟩
    · obtain ⟨moved, hmoved⟩ := admitLeased_ok ⟨htask, hrun, hrepository⟩ hleased
      exact .inr ⟨moved, run, repository, hmoved⟩

/-- Nothing changed the task, its lease or its attempts, nor the columns of its
run and its repository that are written once, when the row is created. -/
structure Undisturbed (call : Dispatch) (db db' : Database) : Prop where
  task : db'.tasks.get? call.taskId = db.tasks.get? call.taskId
  lease : db'.leases.get? call.taskId = db.leases.get? call.taskId
  attempts : db'.attempts.rows.filter (fun attempt => attempt.taskId = call.taskId) =
    db.attempts.rows.filter fun attempt => attempt.taskId = call.taskId
  run : ∀ task, db.tasks.get? call.taskId = some task →
    (db'.runs.get? task.runId).map (fun run => (run.goal, run.baselineCommit)) =
      (db.runs.get? task.runId).map fun run => (run.goal, run.baselineCommit)
  repository : ∀ task, db.tasks.get? call.taskId = some task →
    (db'.repositories.get? task.repositoryId).map RepositoryRow.sourcePath =
      (db.repositories.get? task.repositoryId).map RepositoryRow.sourcePath

theorem Undisturbed.taskIn (h : Undisturbed call db db') :
    db'.taskIn call.projectId call.taskId = db.taskIn call.projectId call.taskId := by
  simp only [Database.taskIn, h.task]

theorem Admitted.undisturbed (h : Admitted call lease db task run repository)
    (hkept : Undisturbed call db db') :
    ∃ run' repository', Admitted call lease db' task run' repository' := by
  have hrun := hkept.run task h.get
  have hrepository := hkept.repository task h.get
  rw [h.runRow, map_some, map_eq_some_iff] at hrun
  rw [h.repositoryRow, map_some, map_eq_some_iff] at hrepository
  obtain ⟨run', hrun', hcolumns⟩ := hrun
  obtain ⟨repository', hrepository', hpath⟩ := hrepository
  obtain ⟨attempt, hattempt, htask, hhash⟩ := h.attempted
  obtain ⟨hmem, hkey⟩ := get?_eq_some.mp hattempt
  have hmem' : attempt ∈ db'.attempts.rows :=
    (List.mem_filter.mp (hkept.attempts ▸ List.mem_filter.mpr ⟨hmem, decide_eq_true htask⟩)).1
  obtain ⟨hgoal, hcommit⟩ := Prod.mk.inj hcolumns
  refine ⟨run', repository', ⟨hkept.taskIn.trans h.taskRow, hrun', hrepository'⟩, h.running, ?_,
    ⟨attempt, get?_eq_some.mpr ⟨hmem', hkey⟩, htask, hhash⟩, ?_⟩
  · rw [hkept.lease]
    exact h.owned
  · rw [h.execution]
    simp only [executionLease, hgoal, hcommit, hpath]

/-- Below the ceilings, an admitted dispatch is let in again and writes nothing. -/
theorem Admitted.readmit (h : Admitted call lease db task run repository)
    (hlive : ∃ row, db.leases.get? call.taskId = some row ∧ now < row.expiresAt)
    (hwithin : ¬ service.exhausted db task.id run.id) :
    (admitClaim service call now draw).run db = .ok (lease, db) := by
  obtain ⟨row, hrow, hnow⟩ := hlive
  obtain ⟨attempt, hattempt, htask, hhash⟩ := h.attempted
  have howned : row.ownedBy call.owner call.token = true := by simpa [hrow] using h.owned
  have hopen : task.state ≠ .COMPLETED := by simp [h.running]
  rw [admitClaim_within now draw h.toAdmissible hopen hwithin, h.execution]
  simp [admitLeased, hrow, howned, hnow, enterRunning, h.running, ensureAttempt, hattempt, htask,
    hhash]

/-- A redelivery under the unexpired lease, below the cost ceiling, repeats the
answer and writes nothing exactly when the attempt that the first delivery
recorded has not used up the task's last attempt. -/
theorem startClaim_redelivery_iff (service : SchedulerService) (db₀ db₁ db₂ : Database)
    (call : Dispatch) (now₀ now : Time) (draw₀ refusal₀ draw refusal : Draw)
    (lease : TaskExecutionLease)
    (hfirst : startClaim service call now₀ draw₀ refusal₀ db₀ = (.ok lease, db₁))
    (hkept : Undisturbed call db₁ db₂)
    (hlive : ∃ row, db₂.leases.get? call.taskId = some row ∧ now < row.expiresAt)
    (hcost : ∀ task, db₂.tasks.get? call.taskId = some task →
      db₂.spent task.runId < service.policy.maxRunCostUsd) :
    startClaim service call now draw refusal db₂ = (.ok lease, db₂) ∧
        (db₂.tasks.get? call.taskId).map TaskRow.state = some .RUNNING ↔
      (db₂.tasks.get? call.taskId).map TaskRow.state ≠ some .COMPLETED ∧
        db₂.attemptCount call.taskId < service.policy.maxTaskAttempts := by
  rcases startClaim_ok hfirst with
    ⟨task, htask, hcompleted, -⟩ | ⟨task, run₁, repository₁, hadmitted₁⟩
  · have hget := (taskIn_eq_some.mp (hkept.taskIn.trans htask)).1
    simp [hget, hcompleted]
  · obtain ⟨run, repository, hadmitted⟩ := hadmitted₁.undisturbed hkept
    have hspent := hcost task hadmitted.get
    rw [← key_of_get? hadmitted.runRow] at hspent
    have hwithin : ¬ service.exhausted db₂ task.id run.id ↔
        db₂.attemptCount call.taskId < service.policy.maxTaskAttempts := by
      rw [not_exhausted_iff, hadmitted.id]
      exact and_iff_left hspent
    have hstate : (db₂.tasks.get? call.taskId).map TaskRow.state = some .RUNNING := by
      simp [hadmitted.get, hadmitted.running]
    rw [hstate, ← hwithin]
    constructor
    · rintro ⟨hagain, -⟩
      refine ⟨by simp, fun hexhausted => ?_⟩
      obtain ⟨reason, hrun⟩ := admitClaim_exhausted now draw hadmitted.toAdmissible
        (by simp [hadmitted.running]) hexhausted
      obtain ⟨e, hstart⟩ := startClaim_of_exhausted refusal hrun rfl
      cases hstart.symm.trans hagain
    · rintro ⟨-, hwithin⟩
      exact ⟨startClaim_of_ok (hadmitted.readmit hlive hwithin), rfl⟩

def sampleExecution : TaskExecutionLease :=
  executionLease (sampleTask sampleStarted 1 (by decide)) sampleRun sampleRepository 50 false

theorem sampleStarted_first (h : service = oneAttempt ∨ service = sampleService) :
    startClaim service sampleDispatch 110 {} {} sampleDispatched =
      (.ok sampleExecution, sampleStarted) := by
  rcases h with rfl | rfl <;> rfl

theorem startClaim_redelivery_iff_sample :
    startClaim sampleService sampleDispatch 120 {} {} sampleStarted =
      (.ok sampleExecution, sampleStarted) := by
  have hcalls : sampleStarted.modelCalls = [] := by decide
  refine ((startClaim_redelivery_iff sampleService sampleDispatched sampleStarted sampleStarted
    sampleDispatch 110 120 {} {} {} {} sampleExecution (sampleStarted_first (.inr rfl))
    ⟨rfl, rfl, rfl, fun _ _ => rfl, fun _ _ => rfl⟩ ?_ ?_).mpr ?_).1
  · exact ⟨_, rfl, by decide⟩
  · intro task _
    simp [spent, hcalls, sampleService]
  · decide

/-- With one attempt allowed, the redelivery of the dispatch that started it
raises and fails the task. -/
theorem startClaim_redelivery_fails_task :
    startClaim oneAttempt sampleDispatch 110 {} {} sampleDispatched =
        (.ok sampleExecution, sampleStarted) ∧
      (sampleStarted.leases.get? 1).map LeaseRow.expiresAt = some 130 ∧
      sampleStarted.modelCalls = [] ∧
      let again := startClaim oneAttempt sampleDispatch 120 {} {} sampleStarted
      again.1.toOption = none ∧ (again.2.tasks.get? 1).map TaskRow.state = some .FAILED ∧
        again.2.leases.get? 1 = none := by
  exact ⟨sampleStarted_first (.inl rfl), by decide⟩

end AutoSwe
