import AutoSwe.Planning.Plans
import AutoSwe.Scheduler.Refinement

/-!
# Claims and reconciliation follow the lifecycle

The counterpart of the dispatcher's refinement for everything that starts,
settles, releases or creates a task, and for the graph rows beside them.
-/

namespace AutoSwe

open Relational Transaction LocalEffect Relation Table Option

/-- What a transaction that begins by locking its task goes on with. -/
theorem lockedTask (h : (selectTaskForUpdate projectId t >>= f).run db = .ok (a, db')) :
    (db.taskIn projectId t = none ∧ (f none).run db = .ok (a, db')) ∨
      ∃ task, db.tasks.get? t = some task ∧ (f (some task)).run db = .ok (a, db') := by
  rw [Prog.run_bind, run_selectTaskForUpdate] at h
  cases htask : db.taskIn projectId t with
  | none => exact .inl ⟨rfl, by simpa [htask] using h⟩
  | some task =>
    exact .inr ⟨task, (Database.taskIn_eq_some.mp htask).1, by simpa [htask] using h⟩

theorem held_of_terminal (h : state ∈ terminalTaskStates) : state.held = false := by
  cases state <;> simp_all [terminalTaskStates, TaskStatus.held]

/-! ## start_claim -/

theorem enterRunning_cases (hrow : db.tasks.get? call.taskId = some task)
    (h : (enterRunning call task draw).run db = .ok (moved, db')) :
    (task.state = .LEASED ∧ moved = task.enter .RUNNING draw.now ∧
      db' = db.moveTask task .RUNNING draw) ∨
    (task.state = .RUNNING ∧ moved = task ∧ db' = db) := by
  unfold enterRunning at h
  split at h
  · rename_i hleased
    obtain ⟨row, hget, -, -, -, rfl, rfl⟩ := transitionTask_ok h
    cases hrow.symm.trans hget
    exact .inl ⟨hleased, rfl, rfl⟩
  · split at h
    · cases h
    · rename_i hrunning
      cases h
      exact .inr ⟨not_not.mp hrunning, rfl, rfl⟩

theorem ensureAttempt_cases (h : (ensureAttempt call draw).run db = .ok (u, db')) :
    (db' = db ∧ ∃ attempt, db.attempts.get? call.attemptId = some attempt ∧
      attempt.taskId = call.taskId ∧ attempt.agentSpecHash = call.agentSpecHash) ∨
    db.attempts.get? call.attemptId = none ∧ db' = { db with
      attempts := db.attempts.insert
        { id := call.attemptId, taskId := call.taskId, agentSpecHash := call.agentSpecHash
          startedAt := draw.createdAt } } := by
  have h := Prog.after h rfl
  split at h
  · rename_i hnone
    obtain ⟨w, hw, rfl⟩ := Prog.checked_ok.mp h
    simp only [hnone] at hw
    cases hw
    exact .inr ⟨hnone, rfl⟩
  · rename_i attempt hattempt
    split at h
    · cases h
    · rename_i hsame
      obtain ⟨htask, hhash⟩ := not_or.mp hsame
      cases h
      exact .inl ⟨rfl, attempt, hattempt, not_not.mp htask, not_not.mp hhash⟩

theorem admitLeased_cases
    (h : (admitLeased call now draw task run repository).run db = .ok (lease, db')) :
    ((db.leases.get? call.taskId).any fun lease =>
      lease.ownedBy call.owner call.token && now < lease.expiresAt) = true ∧
    ∃ moved db₁, (enterRunning call task draw).run db = .ok (moved, db₁) ∧
      (ensureAttempt call draw).run db₁ = .ok ((), db') ∧
      lease = executionLease moved run repository call.attemptId false := by
  have h := Prog.after h rfl
  split at h
  · rename_i hadmits
    obtain ⟨moved, db₁, henter, h⟩ := Prog.bind_ok.mp h
    obtain ⟨_, db₂, hensure, h⟩ := Prog.bind_ok.mp h
    cases h
    exact ⟨hadmits, moved, db₁, henter, hensure, rfl⟩
  · cases h

theorem admitLeased_touch (h : (admitLeased call now draw task run repository).run db =
      .ok (lease, db')) (hrow : db.tasks.get? call.taskId = some task) :
    TaskTouch call.taskId db db' := by
  obtain ⟨-, moved, db₁, henter, hensure, -⟩ := admitLeased_cases h
  rcases enterRunning_cases hrow henter with ⟨hleased, -, rfl⟩ | ⟨hrunning, -, rfl⟩
  · have hstart : Move db.Completed (db.view call.taskId)
        { db.view call.taskId with row := some (task.enter .RUNNING draw.now) } :=
      .start hrow hleased
    have hup := moveTask_updates hrow .RUNNING draw
    rcases ensureAttempt_cases hensure with ⟨rfl, -⟩ | ⟨hnew, rfl⟩
    · exact Updates.single hup hstart
    · exact (hup.trans (insertAttempt_updates ⟨_, call.taskId, _, _, _, _⟩ hnew)).touch
        ((ReflTransGen.single hstart).tail (.attempt rfl rfl))
  · rcases ensureAttempt_cases hensure with ⟨rfl, -⟩ | ⟨hnew, rfl⟩
    · exact .refl _ _
    · exact Updates.single (insertAttempt_updates ⟨_, call.taskId, _, _, _, _⟩ hnew)
        (.attempt hrow hrunning)

variable (service : SchedulerService)

theorem exhaustionReason_run :
    (exhaustionReason service task run).run db =
      .ok (if db.attemptCount task.id ≥ service.policy.maxTaskAttempts then
          some (attemptsExhausted (db.attemptCount task.id) service.policy.maxTaskAttempts)
        else if db.spent run.id ≥ service.policy.maxRunCostUsd then
          some (costExhausted (db.spent run.id) service.policy.maxRunCostUsd)
        else none, db) := by
  simp only [exhaustionReason, Prog.run_bind, Prog.run_query]
  split
  · rfl
  · simp only [Prog.run_bind, Prog.run_query]
    split <;> rfl

variable {service} in
/-- A dispatch is answered for a completed task, or goes on to the lease. -/
theorem admitClaim_cases (h : (admitClaim service call now draw).run db = .ok (lease, db')) :
    ∃ task run repository, db.taskIn call.projectId call.taskId = some task ∧
      db.runs.get? task.runId = some run ∧
      db.repositories.get? task.repositoryId = some repository ∧
      (task.state = .COMPLETED ∧ lease.alreadyTerminal = true ∧ db' = db ∨
        (admitLeased call now draw task run repository).run db = .ok (lease, db')) := by
  have h := Prog.after h rfl
  split at h
  · cases h
  · rename_i task htask
    have h := Prog.after h rfl
    have h := Prog.after h rfl
    split at h
    · rename_i run repository hrun hrepository
      refine ⟨task, run, repository, htask, hrun, hrepository, ?_⟩
      split at h
      · rename_i hcompleted
        have h := Prog.after h rfl
        split at h
        · cases h
          exact .inl ⟨hcompleted, rfl, rfl⟩
        · cases h
      · have h := Prog.after h (exhaustionReason_run ..)
        split at h
        · cases h
        · exact .inr h
    · cases h

theorem admitClaim_touch :
    (admitClaim service call now draw).Refines (fun _ => True) (TaskTouch call.taskId) := by
  intro db lease db' _ h
  obtain ⟨task, run, repository, htask, -, -, ⟨-, -, rfl⟩ | hleased⟩ := admitClaim_cases h
  · exact .refl _ _
  · exact admitLeased_touch hleased (Database.taskIn_eq_some.mp htask).1

theorem refuseExhaustedTask_touch :
    (refuseExhaustedTask projectId t now draw).Refines (fun _ => True) (TaskTouch t) := by
  intro db u db' _ h
  rcases lockedTask h with ⟨_, h⟩ | ⟨task, hrow, h⟩
  · cases h
    exact .refl _ _
  dsimp only at h
  split at h
  · cases h
    exact .refl _ _
  obtain ⟨_, db₂, hrelease, h⟩ := Prog.bind_ok.mp h
  have h := Prog.after h rfl
  obtain ⟨moved, db₄, htrans, h⟩ := Prog.bind_ok.mp h
  cases h
  have hdrop := (releaseReservations_updates hrelease).trans eraseLease_updates
  obtain ⟨row, hrow', _, hlegal, rfl, hmove⟩ := transitionTask_updates htrans
  rw [row_of_updates hdrop fun _ => rfl, hrow] at hrow'
  cases hrow'
  refine Updates.single (hdrop.trans hmove) (.settle hrow hlegal rfl fun hpending => ?_)
  simp [hpending, taskTransitions] at hlegal

/-! ## finish_claim, reclaim_expired, cancel_task -/

/-- A finish is the replay of one, or moves the task, ends the attempt and drops the
claim. -/
theorem finishClaim_cases
    (h : (finishClaim service call target now draw).run db = .ok (u, db')) :
    ∃ task, db.tasks.get? call.taskId = some task ∧ target ∈ terminalTaskStates ∧
      ((task.state = target ∧ (db' = db ∨ db' = db.dropped call.taskId now)) ∨
        ∃ attempt, target ∈ taskTransitions task.state ∧ (db.graphs.get? call.taskId).isSome ∧
          db.attempts.get? call.attemptId = some attempt ∧ attempt.taskId = call.taskId ∧
          db' = ({ db.moveTask task target draw with
            attempts := db.attempts.set { attempt with status := target, endedAt := some now }
              } : Database).dropped call.taskId now) := by
  unfold finishClaim at h
  split at h
  · cases h
  rename_i htarget
  rcases lockedTask h with ⟨_, h⟩ | ⟨task, hrow, h⟩
  · cases h
  refine ⟨task, hrow, not_not.mp htarget, ?_⟩
  have h := Prog.after h rfl
  split at h
  · rename_i hsame
    unfold finishReplay at h
    split at h
    · cases h
      exact .inl ⟨hsame, .inl rfl⟩
    · split at h
      · rw [run_dropClaim] at h
        cases h
        exact .inl ⟨hsame, .inr rfl⟩
      · cases h
  · split at h
    · cases h
    split at h
    · cases h
    have h := Prog.after h rfl
    split at h
    · rename_i hgraph
      obtain ⟨moved, db₁, htrans, h⟩ := Prog.bind_ok.mp h
      obtain ⟨row, hrow', -, -, hlegal, -, rfl⟩ := transitionTask_ok htrans
      cases hrow.symm.trans hrow'
      obtain ⟨_, db₂, hsettle, h⟩ := Prog.bind_ok.mp h
      have hsettle := Prog.after hsettle rfl
      split at hsettle
      · cases hsettle
      · rename_i attempt hfound
        obtain ⟨hattempt, htask⟩ := filter_eq_some_iff.mp hfound
        cases hsettle
        rw [run_dropClaim] at h
        cases h
        exact .inr ⟨attempt, hlegal, isSome_of_any hgraph, hattempt,
          of_decide_eq_true htask, rfl⟩
    · cases h

theorem finishClaim_touch :
    (finishClaim service call target now draw).Refines (fun _ => True) (TaskTouch call.taskId) := by
  intro db u db' _ h
  obtain ⟨task, hrow, htarget, ⟨hsame, rfl | rfl⟩ |
    ⟨attempt, hlegal, hgraph, hattempt, htask, rfl⟩⟩ := finishClaim_cases service h
  · exact .refl _ _
  · -- a replay: the task is already terminal, so dropping its claim is a release
    exact Updates.single (dropped_updates ..) (.release hrow (hsame ▸ held_of_terminal htarget))
  · rw [← key_of_get? hattempt] at hattempt
    have hend : ViewUpdates call.taskId id (db.moveTask task target draw) _ :=
      setAttempt_updates { attempt with status := target, endedAt := some now } _ hattempt rfl
    exact Updates.single (((moveTask_updates hrow _ _).trans hend).trans (dropped_updates ..))
      (.settle hrow hlegal (held_of_terminal htarget) fun _ => .inr hgraph)

theorem reclaimCandidate_touch (now : Time) (draws : UUID → Draw) (t : UUID) :
    (reclaimCandidate now draws t).Refines (fun _ => True) (TaskTouch t) := by
  intro db reclaimed db' _ h
  have h := Prog.after h rfl
  cases hrow : db.tasks.get? t with
  | none =>
    simp only [hrow] at h
    cases h
    exact .refl _ _
  | some task =>
    have hid : task.id = t := key_of_get? hrow
    simp only [hrow] at h
    have h := Prog.after h rfl
    split at h
    · cases h
      exact .refl _ _
    split at h
    · cases h
      exact .refl _ _
    split at h
    · cases h
      exact .refl _ _
    rename_i hrunning
    obtain ⟨_, db₃, hmove, h⟩ := Prog.bind_ok.mp h
    obtain ⟨_, db₄, hdrop, h⟩ := Prog.bind_ok.mp h
    cases h
    unfold requeueIfLeased at hmove
    split at hmove
    · rename_i hleased
      obtain ⟨row, hrow', hlegal, hup⟩ := moveTo_updates hmove
      rw [hid] at hrow' hup
      rw [hrow] at hrow'
      cases hrow'
      refine Updates.single (hup.trans (dropClaim_updates hdrop))
        (.settle hrow hlegal rfl fun hpending => ?_)
      simp [hleased] at hpending
    · rename_i hleased
      cases hmove
      refine Updates.single (dropClaim_updates hdrop) (.release hrow ?_)
      cases hstate : task.state <;> simp_all [TaskStatus.held]

theorem reclaimExpired_effect :
    (reclaimExpired now limit draws).Refines (fun _ => True) (TaskEffect Anywhere) := by
  intro db count db' _ h
  have h := Prog.after h rfl
  obtain ⟨reclaimed, db₂, hloop, h⟩ := Prog.bind_ok.mp h
  cases h
  refine Prog.Refines.collect (R := TaskEffect Anywhere) (I := fun _ _ => True) Effect.refl
    Effect.trans ?_ _ trivial hloop
  intro t rest db reclaimed db' _ hrun
  exact ⟨(reclaimCandidate_touch now draws t trivial hrun).effect trivial, trivial⟩

theorem cancelTask_ok (h : (cancelTask projectId t now draw).run db = .ok (u, db')) :
    ∃ task, db.tasks.get? t = some task ∧
      (task.state = .CANCELLED ∧ db' = db.dropped t now ∨
        .CANCELLED ∈ taskTransitions task.state ∧
          db' = (db.moveTask task .CANCELLED draw).dropped t now) := by
  rcases lockedTask h with ⟨_, h⟩ | ⟨task, hrow, h⟩
  · cases h
  obtain rfl : task.id = t := key_of_get? hrow
  refine ⟨task, hrow, ?_⟩
  obtain ⟨_, db₁, hmove, hdrop⟩ := Prog.bind_ok.mp h
  rw [run_dropClaim] at hdrop
  cases hdrop
  unfold cancelIfOpen at hmove
  split at hmove
  · obtain ⟨moved, db₂, htransition, hdone⟩ := Prog.bind_ok.mp hmove
    cases hdone
    obtain ⟨row, hrow', -, -, hlegal, -, rfl⟩ := transitionTask_ok htransition
    cases hrow.symm.trans hrow'
    exact .inr ⟨hlegal, rfl⟩
  · rename_i hcancelled
    cases hmove
    exact .inl ⟨not_not.mp hcancelled, rfl⟩

theorem cancelTask_touch :
    (cancelTask projectId t now draw).Refines (fun _ => True) (TaskTouch t) := by
  intro db u db' _ h
  obtain ⟨task, hrow, ⟨hcancelled, rfl⟩ | ⟨hlegal, rfl⟩⟩ := cancelTask_ok h
  · exact Updates.single (dropped_updates ..) (.release hrow (by rw [hcancelled]; rfl))
  · exact Updates.single ((moveTask_updates hrow _ _).trans (dropped_updates ..))
      (.settle hrow hlegal rfl fun _ => .inl rfl)

/-! ## Reconciliation -/

theorem decideTerminal_cases (task : TaskRow) (graph : Option GraphExecutionRow) :
    decideTerminal task graph = .NOOP ∨ decideTerminal task graph = .QUARANTINE ∨
      decideTerminal task graph = .DOMAIN_TERMINAL_WINS := by
  unfold decideTerminal
  split
  · simp
  · split_ifs <;> simp

/-- Only a running task is requeued or finalized. -/
theorem decideAction_running
    (h : decideAction task run graph lease now ∈ [ReconciliationAction.RESUME_CHECKPOINT,
      .REQUEUE_MISSING_CHECKPOINT, .FINALIZE_DOMAIN]) : task.state = .RUNNING := by
  unfold decideAction at h
  split_ifs at h with _ _ _ _ hrunning
  · simp at h
  · simp at h
  · simp at h
  · rcases decideTerminal_cases task graph with ht | ht | ht <;> simp [ht] at h
  · exact hrunning
  · simp at h

/-- The domain wins, or nothing is moved, only where it is settled. -/
theorem decideAction_terminal
    (h : decideAction task run graph lease now = .DOMAIN_TERMINAL_WINS) :
    task.state ∈ terminalTaskStates := by
  unfold decideAction at h
  split_ifs at h with _ _ _ hterminal
  · exact hterminal
  · unfold decideRunning at h
    split at h
    · cases h
    · split_ifs at h

theorem target_free {action : ReconciliationAction} (htarget : action.target task = some target) :
    target.held = false := by
  cases action <;> simp only [ReconciliationAction.target, some.injEq, reduceCtorEq] at htarget
  case QUARANTINE =>
    split at htarget
    · cases htarget
    · cases htarget
      unfold quarantineTarget
      split <;> rfl
  all_goals
    subst htarget
    rfl

theorem target_of_pending (hdecide : decideAction task run graph lease now = action)
    (htarget : action.target task = some target) (hpending : task.state = .PENDING) :
    target = .CANCELLED := by
  have hnot : action ∉ [ReconciliationAction.RESUME_CHECKPOINT, .REQUEUE_MISSING_CHECKPOINT,
      .FINALIZE_DOMAIN] := by
    intro hmem
    rw [← hdecide] at hmem
    simp [decideAction_running hmem] at hpending
  cases action <;> simp only [ReconciliationAction.target, some.injEq, reduceCtorEq] at htarget
  case QUARANTINE =>
    rw [if_neg (by simp [hpending, terminalTaskStates])] at htarget
    cases htarget
    simp [hpending, quarantineTarget, taskTransitions]
  case GRAPH_TERMINAL_WINS => exact htarget.symm
  all_goals exact absurd (by simp) hnot

theorem free_of_no_target (hdecide : decideAction task run graph lease now = action)
    (hne : action ≠ .NOOP) (htarget : action.target task = none) : task.state.held = false := by
  cases action <;> simp only [ReconciliationAction.target, reduceCtorEq] at htarget
  case NOOP => exact absurd rfl hne
  case DOMAIN_TERMINAL_WINS => exact held_of_terminal (decideAction_terminal hdecide)
  case QUARANTINE =>
    split at htarget
    · rename_i hterminal
      exact held_of_terminal hterminal
    · cases htarget

theorem overwriteIfAny_updates (h : (overwriteIfAny graph state now).run db = .ok (written, db'))
    (hgraph : db.graphs.get? t = graph) :
    db = db' ∨ (graph.isSome ∧
      ∃ graph', ViewUpdates t (fun v => { v with graph := some graph' }) db db') := by
  cases state with
  | none =>
    cases h
    exact .inl rfl
  | some state =>
    cases graph with
    | none =>
      cases h
      exact .inl rfl
    | some graph => exact .inr ⟨rfl, overwriteGraph_updates h hgraph⟩

/-- Reconciliation ends with a release of the claim and with its event. -/
theorem report_updates
    (h : (do
      dropClaim t now
      publish eventId eventType aggregateType aggregateId correlationId topic payload :
        Session Unit).run db = .ok (u, db')) :
    ViewUpdates t (fun v => { v with lease := none, held := [] }) db db' := by
  obtain ⟨_, db₁, hdrop, h⟩ := Prog.bind_ok.mp h
  cases h
  exact (dropClaim_updates hdrop).trans (logged_updates rfl rfl rfl rfl rfl)

/-- The three writes of an action as moves: settle or release, then the graph. -/
theorem applyAction_touch (h : (applyAction action task graph now draw).run db = .ok (u, db'))
    (hrow : db.tasks.get? task.id = some task) (hgraph : db.graphs.get? task.id = graph)
    (hdecide : decideAction task run graph lease now = action) (hne : action ≠ .NOOP) :
    TaskTouch task.id db db' := by
  obtain ⟨moved, db₁, hmoved, h⟩ := Prog.bind_ok.mp h
  obtain ⟨written, db₂, hwritten, h⟩ := Prog.bind_ok.mp h
  have hdrop := report_updates h
  rcases moveIfAny_updates hmoved with ⟨htarget, rfl, rfl⟩ |
    ⟨row, target, htarget, hrow', _, hlegal, rfl, hmove⟩
  · -- nothing to move: the task is settled, and its claim is released
    have hrelease : Move db.Completed (db.view moved.id)
        { db.view moved.id with lease := none, held := [] } :=
      .release hrow (free_of_no_target hdecide hne htarget)
    rcases overwriteIfAny_updates hwritten hgraph with rfl | ⟨hsome, graph', hwrite⟩
    · exact Updates.single hdrop hrelease
    · refine (hwrite.trans hdrop).touch ((ReflTransGen.single hrelease).tail (.graph (.inr ?_)))
      rw [← hgraph] at hsome
      exact hsome
  · rw [hrow] at hrow'
    cases hrow'
    have hsettle : Move db.Completed (db.view task.id)
        { db.view task.id with
          row := some (task.enter target draw.enteredAt), lease := none, held := [] } :=
      .settle hrow hlegal (target_free htarget)
        fun hpending => .inl (target_of_pending hdecide htarget hpending)
    have hgraph₁ : db₁.graphs.get? task.id = graph :=
      (congrArg TaskView.graph hmove.1).trans hgraph
    rcases overwriteIfAny_updates hwritten hgraph₁ with rfl | ⟨hsome, graph', hwrite⟩
    · exact Updates.single (hmove.trans hdrop) hsettle
    · refine ((hmove.trans hwrite).trans hdrop).touch
        ((ReflTransGen.single hsettle).tail (.graph (.inr ?_)))
      rw [← hgraph] at hsome
      exact hsome

theorem reconcile_ok (h : (reconcile projectId t now draw).run db = .ok (action, db')) :
    ∃ task, db.tasks.get? t = some task ∧ decideAction task (db.runs.get? task.runId)
        (db.graphs.get? t) (db.leases.get? t) now = action ∧
      (db' = db ∨ action ≠ .NOOP ∧
        (applyAction action task (db.graphs.get? t) now draw).run db = .ok ((), db')) := by
  rcases lockedTask h with ⟨_, h⟩ | ⟨task, hrow, h⟩
  · cases h
  have h := Prog.after h rfl
  have h := Prog.after h rfl
  have h := Prog.after h rfl
  dsimp only at h
  split at h
  · cases h
    exact ⟨task, hrow, rfl, .inl rfl⟩
  · rename_i hne
    obtain ⟨_, db₁, happly, h⟩ := Prog.bind_ok.mp h
    cases h
    exact ⟨task, hrow, rfl, .inr ⟨hne, happly⟩⟩

theorem reconcile_touch :
    (reconcile projectId t now draw).Refines (fun _ => True) (TaskTouch t) := by
  intro db action db' _ h
  obtain ⟨task, hrow, hdecide, rfl | ⟨hne, happly⟩⟩ := reconcile_ok h
  · exact .refl _ _
  · obtain rfl : task.id = t := key_of_get? hrow
    exact applyAction_touch happly hrow rfl hdecide hne

theorem resolution_target_free (h : Resolution.target resolution task = some target) :
    target.held = false := by
  cases resolution <;> simp only [Resolution.target] at h
  · split at h
    · cases h
    · cases h
      rfl
  · cases h
    rfl

/-- What a committed resolution had found and did. -/
theorem resolveNeedsReconciliation_ok
    (h : (resolveNeedsReconciliation projectId t resolution now draw graphDraw).run db =
      .ok (action, db')) :
    ∃ task graph settled db₁ moved db₂, db.tasks.get? t = some task ∧
      db.graphs.get? t = some graph ∧ graph.state = .NEEDS_RECONCILIATION ∧
      (transitionGraphExecution task.id graph.identity graph.threadId resolution.graphState
        graph.checkpointId graphDraw).run db = .ok (settled, db₁) ∧
      (moveIfAny task (resolution.target task) draw).run db₁ = .ok (moved, db₂) ∧
      (do
        dropClaim task.id now
        publish draw.rolloverId ("reconciliation.resolved." ++ resolution.value) "task" task.id
          task.runId "reconciliation" (resolutionPayload resolution moved settled) :
          Session Unit).run db₂ = .ok ((), db') := by
  rcases lockedTask h with ⟨_, h⟩ | ⟨task, hrow, h⟩
  · cases h
  have h := Prog.after h rfl
  split at h
  · cases h
  · rename_i graph hparked
    obtain ⟨hgraph, hstate⟩ := filter_eq_some_iff.mp hparked
    obtain ⟨settled, db₁, hsettled, h⟩ := Prog.bind_ok.mp h
    obtain ⟨moved, db₂, hmoved, h⟩ := Prog.bind_ok.mp h
    cases h
    exact ⟨task, graph, settled, db₁, moved, db₂, hrow, hgraph, of_decide_eq_true hstate, hsettled,
      hmoved, rfl⟩

theorem resolveNeedsReconciliation_touch :
    (resolveNeedsReconciliation projectId t resolution now draw graphDraw).Refines
      (fun _ => True) (TaskTouch t) := by
  intro db action db' _ h
  obtain ⟨task, graph, settled, db₁, moved, db₂, hrow, hgraph, -, hsettled, hmoved, hreport⟩ :=
    resolveNeedsReconciliation_ok h
  obtain rfl : task.id = t := key_of_get? hrow
  have hsome : (db.view task.id).graph.isSome := isSome_of_eq_some hgraph
  have hwrite := transitionGraphExecution_updates hsettled
  have hdrop := report_updates hreport
  have hrow₁ : db₁.tasks.get? task.id = some task :=
    (row_of_updates hwrite fun _ => rfl).trans hrow
  have hgraphMove : Move db.Completed (db.view task.id)
      { db.view task.id with graph := some settled } := .graph (.inr hsome)
  rcases moveIfAny_updates hmoved with ⟨htarget, rfl, rfl⟩ |
    ⟨row, target, htarget, hrow', _, hlegal, rfl, hmove⟩
  · -- only a failed task is left where it is
    have hfree : moved.state.held = false := by
      cases resolution <;> simp only [Resolution.target, reduceCtorEq] at htarget
      split at htarget
      · rename_i hfailed
        rw [hfailed]
        rfl
      · cases htarget
    exact (hwrite.trans hdrop).touch
      ((ReflTransGen.single hgraphMove).tail (.release hrow hfree))
  · cases hrow₁.symm.trans hrow'
    exact ((hwrite.trans hmove).trans hdrop).touch ((ReflTransGen.single hgraphMove).tail
      (.settle hrow hlegal (resolution_target_free htarget) fun _ => .inr rfl))

end AutoSwe
