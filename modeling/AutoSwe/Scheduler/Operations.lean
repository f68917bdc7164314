import AutoSwe.Lib.Run
import AutoSwe.Scheduler.Settlement

/-!
# Runs of the scheduler

`Operation` is everything that can happen to the domain tables, each call
either committing or rolling back. A run is any finite sequence of them from
an empty database; every one of them moves tasks along the lifecycle, so what
the lifecycle preserves holds in every state of every run.
-/

namespace AutoSwe

open Relational Transaction LocalEffect LabelledRun Prog

inductive Operation
  | persistPlan (uuid5 : UUID → String → UUID) (runId : UUID) (specs : List TaskSpec)
      (draws : UUID → Draw)
  | applyMutation (runId : UUID) (specs : List TaskSpec) (draws : UUID → Draw)
  | promoteDependencyReady (limit maxRounds : Nat) (draws : Nat → UUID → Draw)
  | cancelBlockedDependents (limit : Nat) (draws : Nat → UUID → Draw)
  | claimReady (owner : String) (limit : Nat) (now : Time) (draws : UUID → Draw)
  | heartbeat (taskId : UUID) (owner : String) (token : UUID) (now : Time)
  | startClaim (call : Dispatch) (now : Time) (draw refusal : Draw)
  | finishClaim (call : Dispatch) (target : TaskStatus) (now : Time) (draw : Draw)
  | reclaimExpired (now : Time) (limit : Nat) (draws : UUID → Draw)
  | cancelTask (projectId taskId : UUID) (now : Time) (draw : Draw)
  | cancelRequestedRuns (limit : Nat) (now : Time) (draws : UUID → Draw)
  | reconcile (projectId taskId : UUID) (now : Time) (draw : Draw)
  | reconcileDue (limit : Nat) (now : Time) (draws : UUID → Draw)
  | resolveNeedsReconciliation (projectId taskId : UUID) (resolution : Resolution) (now : Time)
      (draw graphDraw : Draw)
  /-- A worker persists the state of its graph execution. -/
  | graphWrite (taskId attemptId : UUID) (identity : GraphIdentity) (threadId : String)
      (target : GraphExecutionState) (checkpointId : Option String) (draw : Draw)
  /-- The rest of the platform writes runs, repositories and model calls. -/
  | ambient (repositories : Table UUID RepositoryRow RepositoryRow.id)
      (runs : Table UUID RunRow RunRow.id) (modelCalls : List ModelCallRow)

/-- Workers write graph rows only for a dispatch that was admitted, which is
what recorded its attempt. -/
def Database.admitted (db : Database) (taskId attemptId : UUID) : Bool :=
  (db.attempts.get? attemptId).any fun attempt => attempt.taskId = taskId

def perform (service : SchedulerService) (db : Database) : Operation → Database
  | .persistPlan uuid5 runId specs draws => ((persistPlan uuid5 runId specs draws).commit db).2
  | .applyMutation runId specs draws => ((createMutationTasks runId specs draws).commit db).2
  | .promoteDependencyReady limit maxRounds draws =>
    (promoteDependencyReady limit draws maxRounds db).2
  | .cancelBlockedDependents limit draws => (cancelBlockedDependents limit draws db).2
  | .claimReady owner limit now draws => ((claimReady service owner limit now draws).commit db).2
  | .heartbeat taskId owner token now => ((heartbeat service taskId owner token now).commit db).2
  | .startClaim call now draw refusal => (startClaim service call now draw refusal db).2
  | .finishClaim call target now draw => ((finishClaim service call target now draw).commit db).2
  | .reclaimExpired now limit draws => ((reclaimExpired now limit draws).commit db).2
  | .cancelTask projectId taskId now draw => ((cancelTask projectId taskId now draw).commit db).2
  | .cancelRequestedRuns limit now draws => (cancelRequestedRuns limit now draws db).2
  | .reconcile projectId taskId now draw => ((reconcile projectId taskId now draw).commit db).2
  | .reconcileDue limit now draws => (reconcileDue limit now draws db).2
  | .resolveNeedsReconciliation projectId taskId resolution now draw graphDraw =>
    ((resolveNeedsReconciliation projectId taskId resolution now draw graphDraw).commit db).2
  | .graphWrite taskId attemptId identity threadId target checkpointId draw =>
    if db.admitted taskId attemptId then
      ((transitionGraphExecution taskId identity threadId target checkpointId draw).commit db).2
    else db
  | .ambient repositories runs modelCalls => { db with repositories, runs, modelCalls }

def Reachable (service : SchedulerService) : Database → Prop :=
  Reach (fun db (operation : Operation) => some (perform service db operation)) (fun _ _ => True) {}

/-! ## The remaining refinements -/

theorem createTask_touch (h : (createTask runId spec draw).run db = .ok (row, db')) :
    TaskTouch row.id db db' ∧ db'.tasks.get? row.id = some row ∧ row.state = .PENDING ∧
      row.dependencies = spec.dependencies := by
  obtain ⟨rfl, hnew, rfl⟩ := createTask_ok h
  have hup := insertTask_updates hnew
  exact ⟨Updates.single hup (.create hnew rfl), congrArg TaskView.row hup.1, rfl, rfl⟩

theorem createPlanned_effect (runId : UUID) (draws : UUID → Draw) (spec : TaskSpec) :
    (createPlanned runId draws spec).Refines (fun _ => True) (TaskEffect Anywhere) := by
  intro db u db' _ h
  obtain ⟨row, db₁, hcreate, h⟩ := bind_ok.mp h
  obtain ⟨htouch, hrow, hpending, hdependencies⟩ := createTask_touch hcreate
  split at h
  · rename_i hroot
    obtain ⟨moved, db₂, htrans, h⟩ := bind_ok.mp h
    cases h
    obtain ⟨row', hrow', _, _, rfl, hup⟩ := transitionTask_updates htrans
    rw [hrow] at hrow'
    cases hrow'
    have hpromote := Updates.single hup (.promote hrow hpending (by simp [hdependencies, hroot]))
    exact (htouch.effect trivial).trans (hpromote.effect trivial)
  · cases h
    exact htouch.effect (P := Anywhere) trivial

theorem persistPlan_effect (uuid5 : UUID → String → UUID) (runId : UUID) (specs : List TaskSpec)
    (draws : UUID → Draw) :
    (persistPlan uuid5 runId specs draws).Refines (fun _ => True) (TaskEffect Anywhere) := by
  intro db u db' _ h
  have h := after h rfl
  refine Refines.each (R := TaskEffect Anywhere) (I := fun _ _ => True) Effect.refl
    Effect.trans ?_ _ trivial h
  exact fun spec _ db u db' _ hrun => ⟨createPlanned_effect runId draws spec trivial hrun, trivial⟩

theorem createMutationTasks_effect (runId : UUID) (specs : List TaskSpec) (draws : UUID → Draw) :
    (createMutationTasks runId specs draws).Refines (fun _ => True) (TaskEffect Anywhere) := by
  refine Refines.each (R := TaskEffect Anywhere) (I := fun _ _ => True) Effect.refl
    Effect.trans ?_ specs
  intro spec _ db u db' _ h
  obtain ⟨row, db₁, hcreate, h⟩ := bind_ok.mp h
  cases h
  exact ⟨(createTask_touch hcreate).1.effect trivial, trivial⟩

theorem transact_effect {p : Session α} (h : p.Refines (fun _ => True) (TaskTouch t)) :
    p.Refines (fun _ => True) (TaskEffect Anywhere) :=
  h.mono (fun _ h => h) fun _ _ htouch => htouch.effect trivial

theorem unseen_effect (htasks : db'.tasks = db.tasks)
    (hleases : db'.leases = db.leases) (hreservations : db'.reservations = db.reservations)
    (hgraphs : db'.graphs = db.graphs) (hattempts : db'.attempts = db.attempts) :
    TaskEffect Anywhere db db' := by
  have htouch : TaskTouch 0 db db' :=
    (logged_updates htasks hleases hreservations hgraphs hattempts).touch .refl
  exact htouch.effect trivial

theorem cancelRun_ok (h : (cancelRun runId now draw).run db = .ok (resolved, db')) :
    db' = db ∨ ∃ run, db.runs.get? runId = some run ∧ run.state ∉ runTerminalStates ∧
      db'.runs = db.runs.set { run with state := .CANCELLED, stateEnteredAt := now } ∧
      db'.tasks = db.tasks ∧ db'.leases = db.leases ∧ db'.reservations = db.reservations ∧
      db'.graphs = db.graphs ∧ db'.attempts = db.attempts := by
  have h := after h rfl
  split at h
  · cases h
    exact .inl rfl
  · rename_i run hfound
    obtain ⟨hrun, hopen⟩ := Option.filter_eq_some_iff.mp hfound
    obtain ⟨_, db₂, hreq, h⟩ := bind_ok.mp h
    obtain ⟨-, rfl⟩ := Session.require_ok.mp hreq
    refine .inr ⟨run, hrun, by simpa using hopen, ?_⟩
    cases h
    exact ⟨rfl, rfl, rfl, rfl, rfl, rfl⟩

theorem cancelRun_effect (runId : UUID) (now : Time) (draw : Draw) :
    (cancelRun runId now draw).Refines (fun _ => True) (TaskEffect Anywhere) := by
  intro db resolved db' _ h
  rcases cancelRun_ok h with rfl |
    ⟨run, -, -, -, htasks, hleases, hreservations, hgraphs, hattempts⟩
  · exact Effect.refl _
  · exact unseen_effect htasks hleases hreservations hgraphs hattempts

theorem admitted_attempted {db : Database} (h : db.admitted t attemptId = true) :
    (db.view t).attempted = true := by
  simp only [Database.admitted, Option.any_eq_true] at h
  obtain ⟨attempt, hget, htask⟩ := h
  simp only [Database.view, List.any_eq_true]
  exact ⟨attempt, Table.mem_of_get? hget, htask⟩

end AutoSwe
