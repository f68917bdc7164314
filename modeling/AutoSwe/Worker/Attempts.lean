import AutoSwe.Finalization.Stages
import AutoSwe.Worker.LostLease

/-!
# Attempts beside tasks

A worker that finishes its claim ends its attempt in the same transaction. The
reconciler ends no attempt: it completes a task whose attempt is still open, and
it requeues a task whose next admission opens a second attempt. In the runs
without these two steps the attempts agree with the tasks (`attempts_agree`).
-/

namespace AutoSwe

open Relational Transaction Coroutine LabelledRun Prog Table List Database

def Database.openAttempts (db : Database) (t : UUID) : List TaskAttemptRow :=
  db.attempts.rows.filter fun attempt => attempt.taskId = t ∧ attempt.endedAt = none

/-- The latest attempt of a completed task has completed and ended, so that the
promotion sees a verified outcome, and no task has two open attempts. -/
structure AttemptsAgree (db : Database) : Prop where
  completed : ∀ t, db.taskState t = some .COMPLETED → ∃ attempt, db.latestAttempt t = some attempt ∧
    attempt.status = .COMPLETED ∧ attempt.endedAt ≠ none ∧
    ∀ runId, (db.promotionReview runId t attempt.status).outcomeVerified = true
  oneOpen : ∀ t, (db.openAttempts t).length ≤ 1

/-! ## The steps that keep to it -/

/-- A dispatch that is let in under a new attempt finds all attempts of its task
ended. -/
def Dispatch.Fresh (call : Dispatch) (now : Time) (db : Database) : Prop :=
  db.attempts.get? call.attemptId = none →
    ((db.leases.get? call.taskId).any fun lease => lease.admits call now) = true →
      db.openAttempts call.taskId = []

/-- The reconciler does not come to complete the task. -/
def Unfinalized (now : Time) (db : Database) (key : UUID × UUID) : Prop :=
  ∀ task, db.taskIn key.1 key.2 = some task → db.decision task now ≠ .FINALIZE_DOMAIN

def Operation.Tidy (db : Database) : Operation → Prop
  | .startClaim call now _ _ => call.Fresh now db
  | .reconcile projectId t now _ => Unfinalized now db (projectId, t)
  | .reconcileDue limit now _ => ∀ key ∈ db.reconcileTargets now limit, Unfinalized now db key
  | _ => True

def TidyStep (s : Workers) : WorkerEvent → Prop
  | .environment operation => operation.Tidy s.store
  | .resume i input => ∀ claim call next, s.procs i = some (claim, .await (.startClaim call) next) →
      input.failure = none → call.Fresh input.now s.store
  | _ => True

/-! ## The invariant -/

/-- A task has one attempt at most; it has ended only if the task has settled, and
has completed if the task has. -/
structure SoleAttempts (db : Database) : Prop where
  sole : ∀ i j a b, db.attempts.get? i = some a → db.attempts.get? j = some b →
    a.taskId = b.taskId → i = j
  ended : ∀ i a, db.attempts.get? i = some a → a.endedAt ≠ none → Settled db a.taskId
  completed : ∀ t, db.taskState t = some .COMPLETED → ∃ i a, db.attempts.get? i = some a ∧
    a.taskId = t ∧ a.status = .COMPLETED ∧ a.endedAt ≠ none

/-- No task is newly completed. -/
def NoneCompleted (db db' : Database) : Prop :=
  ∀ t, db'.taskState t = some .COMPLETED → db.taskState t = some .COMPLETED

theorem SoleAttempts.start : SoleAttempts {} where
  sole := by
    rintro i j a b ⟨⟩
  ended := by
    rintro i a ⟨⟩
  completed := by
    rintro t ⟨⟩

theorem SoleAttempts.same (h : SoleAttempts db) (hattempts : db'.attempts = db.attempts)
    (heffect : TaskEffect P db db') (hnone : NoneCompleted db db') : SoleAttempts db' where
  sole := by
    rw [hattempts]
    exact h.sole
  ended := by
    rw [hattempts]
    exact fun i a ha hended => (h.ended i a ha hended).effect heffect
  completed := by
    rw [hattempts]
    exact fun t ht => h.completed t (hnone t ht)

theorem SoleAttempts.unique (h : SoleAttempts db) (ha : a ∈ db.attempts.rows)
    (hb : b ∈ db.attempts.rows) (htask : a.taskId = b.taskId) : a = b := by
  have hget := get?_of_mem ha
  rw [h.sole _ _ a b hget (get?_of_mem hb) htask, get?_of_mem hb] at hget
  exact (Option.some.inj hget).symm

theorem SoleAttempts.latest (h : SoleAttempts db) (ha : a ∈ db.attempts.rows) :
    db.latestAttempt a.taskId = some a := by
  let attempts := db.attempts.rows.filter fun row => row.taskId = a.taskId
  let sorted := attempts.insertionSort fun a b => b.startedAt ≤ a.startedAt
  have hmem : a ∈ sorted :=
    (mem_insertionSort _).mpr (mem_filter.mpr ⟨ha, decide_eq_true rfl⟩)
  cases hsorted : sorted with
  | nil =>
    rw [hsorted] at hmem
    cases hmem
  | cons first rest =>
    have hfirst : first ∈ sorted := hsorted ▸ mem_cons_self
    obtain ⟨hrow, htask⟩ := mem_filter.mp ((mem_insertionSort _).mp hfirst)
    have hhead : db.latestAttempt a.taskId = some first := congrArg head? hsorted
    rw [hhead, h.unique hrow ha (of_decide_eq_true htask)]

theorem SoleAttempts.agree (h : SoleAttempts db) : AttemptsAgree db where
  completed t ht := by
    obtain ⟨i, a, ha, rfl, hstatus, hended⟩ := h.completed t ht
    refine ⟨a, h.latest (mem_of_get? ha), hstatus, hended, fun runId => ?_⟩
    simp [promotionReview, hstatus]
  oneOpen t := by
    have hunique : ∀ a ∈ db.openAttempts t, ∀ b ∈ db.openAttempts t, a = b := by
      intro a ha b hb
      obtain ⟨ha, hopen⟩ := mem_filter.mp ha
      obtain ⟨hb, hopen'⟩ := mem_filter.mp hb
      exact h.unique ha hb ((of_decide_eq_true hopen).1.trans (of_decide_eq_true hopen').1.symm)
    have hnodup : (db.openAttempts t).Nodup := (Nodup.of_map _ db.attempts.nodup).filter _
    by_contra htwo
    have hsame := hunique (db.openAttempts t)[0] (getElem_mem _)
      (db.openAttempts t)[1] (getElem_mem _)
    cases (Nodup.getElem_inj_iff hnodup).mp hsame

/-! ## Transactions that write no attempts -/

section
variable {service : SchedulerService} {call : Dispatch}

theorem Call.noneCompleted {call : Call} (h : ¬ call.footprint (.tasks .COMPLETED)) :
    NoneCompleted db ((call.body service).commit db).2 := by
  intro t ht
  rcases call.enters service db t with hrow | ⟨row, hrow, hstate⟩
  · rwa [taskState, hrow] at ht
  · rw [taskState, hrow] at ht
    rw [Option.some.inj ht] at hstate
    exact absurd hstate h

theorem SoleAttempts.unwritten (service : SchedulerService) (h : SoleAttempts db) {call : Call}
    (hattempts : ¬ call.footprint .attempts)
    (hcompleted : ¬ call.footprint (.tasks .COMPLETED)) :
    SoleAttempts ((call.body service).commit db).2 :=
  h.same (call.sameAttempts service hattempts db) (call.effect service db)
    (call.noneCompleted hcompleted)

/-- The reconciler completes a task only by finalizing it. -/
theorem target_completed {action : ReconciliationAction} {task : TaskRow}
    (h : action.target task = some .COMPLETED) : action = .FINALIZE_DOMAIN := by
  cases action with
  | FINALIZE_DOMAIN => rfl
  | QUARANTINE =>
    simp only [ReconciliationAction.target, quarantineTarget] at h
    split_ifs at h <;> cases h
  | _ => cases h

theorem reconcile_noneCompleted (h : Unfinalized now db (projectId, k)) :
    NoneCompleted db ((reconcile projectId k now draw).commit db).2 := by
  intro t ht
  rcases commit_reconcile projectId k now draw db with hsame | ⟨task, hrow, -, hdone⟩
  · rwa [hsame] at ht
  by_cases hk : t = k
  · subst hk
    have hget := (taskIn_eq_some.mp hrow).1
    obtain rfl : task.id = t := key_of_get? hget
    rw [taskState, hdone.row, Option.map_some] at ht
    cases htarget : (db.decision task now).target task with
    | none =>
      rw [htarget] at ht
      rw [taskState, hget]
      exact ht
    | some target =>
      rw [htarget] at ht
      cases Option.some.inj ht
      exact absurd (target_completed htarget) (h task hrow)
  · have hview := (reconcile_effect projectId k now draw db).frame (P := (· = k)) hk
    have hget : (db.view t).row.map TaskRow.state = some .COMPLETED := hview ▸ ht
    exact hget

theorem SoleAttempts.reconcile (service : SchedulerService) (h : SoleAttempts db) (draw : Draw)
    (hopen : Unfinalized now db (projectId, k)) :
    SoleAttempts ((AutoSwe.reconcile projectId k now draw).commit db).2 := by
  have hwrites : ¬ (Call.reconcile projectId k now draw).footprint .attempts := by
    simp [Call.footprint]
  have hattempts := Call.sameAttempts service hwrites db
  simp only [Call.body, commit_discard] at hattempts
  exact h.same hattempts (reconcile_effect projectId k now draw db)
    (reconcile_noneCompleted hopen)

theorem Unfinalized.frame (h : Unfinalized now db key) (projectId : UUID) (draw : Draw)
    (hk : key.2 ≠ k) :
    Unfinalized now ((AutoSwe.reconcile projectId k now draw).commit db).2 key := by
  have hview := (reconcile_effect projectId k now draw db).frame (P := (· = k)) hk
  have hruns : ((AutoSwe.reconcile projectId k now draw).commit db).2.runs = db.runs := by
    rcases commit_reconcile projectId k now draw db with hsame | ⟨_, _, _, hdone⟩
    · rw [hsame]
    · exact hdone.runs
  intro task htask
  have hrow : ((AutoSwe.reconcile projectId k now draw).commit db).2.tasks.get? key.2 =
      db.tasks.get? key.2 := congrArg TaskView.row hview
  have hgraph : ((AutoSwe.reconcile projectId k now draw).commit db).2.graphs.get? key.2 =
      db.graphs.get? key.2 := congrArg TaskView.graph hview
  have hlease : ((AutoSwe.reconcile projectId k now draw).commit db).2.leases.get? key.2 =
      db.leases.get? key.2 := congrArg TaskView.lease hview
  rw [taskIn, hrow] at htask
  have hid : task.id = key.2 := key_of_get? (taskIn_eq_some.mp htask).1
  have hopen := h task htask
  rw [decision, hid] at hopen ⊢
  rwa [hruns, hgraph, hlease]

theorem SoleAttempts.scan (service : SchedulerService) (draws : UUID → Draw) :
    ∀ (targets : List (UUID × UUID)) {db : Database}, SoleAttempts db →
      (targets.map Prod.snd).Nodup → (∀ key ∈ targets, Unfinalized now db key) →
        SoleAttempts (targets.foldl (reconcileTarget now draws) db)
  | [], _, h, _, _ => h
  | key :: rest, db, h, hnodup, hopen => by
    obtain ⟨hnew, hnodup⟩ := nodup_cons.mp hnodup
    refine SoleAttempts.scan service draws rest
      (h.reconcile service _ (hopen key mem_cons_self)) hnodup fun other hother => ?_
    refine (hopen other (mem_cons_of_mem key hother)).frame key.1 _ fun hsame => hnew ?_
    exact hsame ▸ mem_map_of_mem hother

theorem reconcileTargets_nodup {db : Database} :
    ((db.reconcileTargets now limit).map Prod.snd).Nodup := by
  have hrow : ∀ {task}, task ∈ db.inFlight now limit ∨ task ∈ db.settledButDivergent limit →
      db.tasks.get? task.id = some task :=
    fun h => h.elim (fun h => (mem_inFlight h).1) fun h => (mem_settledButDivergent h).1
  refine Nodup.map_on ?_ (nodup_reverse.mpr (nodup_dedup _))
  intro key hkey other hother hsame
  obtain ⟨task, htask, rfl⟩ := mem_reconcileTargets.mp hkey
  obtain ⟨task', htask', rfl⟩ := mem_reconcileTargets.mp hother
  have hget := hrow htask
  rw [show task.id = task'.id from hsame, hrow htask'] at hget
  cases hget
  rfl

theorem SoleAttempts.resolve (service : SchedulerService) (h : SoleAttempts db)
    {projectId k : UUID} {resolution : Resolution} {now : Time} {draw graphDraw : Draw} :
    SoleAttempts ((resolveNeedsReconciliation projectId k resolution now draw graphDraw).commit
      db).2 := by
  have hattempts := Call.sameAttempts service (show ¬ (Call.resolveNeedsReconciliation projectId k
    resolution now draw graphDraw).footprint .attempts by simp [Call.footprint]) db
  have heffect := Call.effect service (.resolveNeedsReconciliation projectId k resolution now draw
    graphDraw) db
  simp only [Call.body, commit_discard] at hattempts heffect
  refine h.same hattempts heffect ?_
  refine Refines.commit (P := fun _ => True) (R := NoneCompleted) ?_ (fun _ _ => id) trivial
  intro db action db' _ hrun t ht
  obtain ⟨task, graph, settled, db₁, moved, db₂, hrow, -, -, hsettled, hmoved, hreport⟩ :=
    resolveNeedsReconciliation_ok hrun
  obtain ⟨-, -, -, _, _, _, rfl⟩ := transitionGraphExecution_ok hsettled
  cases hreport
  change db₂.taskState t = some .COMPLETED at ht
  rw [taskState] at ht
  rcases moveIfAny_updates hmoved with ⟨-, -, rfl⟩ | ⟨row, state, htarget, -, -, -, rfl, hup⟩
  · exact ht
  · by_cases hk : t = task.id
    · subst hk
      have hget : db₂.tasks.get? task.id = _ := congrArg TaskView.row hup.1
      rw [hget] at ht
      -- a resolution fails or requeues the task
      cases Option.some.inj ht
      cases resolution with
      | fail =>
        simp only [Resolution.target] at htarget
        split_ifs at htarget
        cases htarget
      | retry => cases htarget
    · have hget : db₂.tasks.get? t = db.tasks.get? t := congrArg TaskView.row (hup.2 t hk)
      rwa [hget] at ht

/-! ## Admission -/

theorem enterRunning_open (hrow : db.tasks.get? call.taskId = some task)
    (h : (enterRunning call task draw).run db = .ok (moved, db')) :
    db'.attempts = db.attempts ∧ ¬ Settled db call.taskId := by
  have hopen : ∀ {state}, task.state = state → state ∉ terminalTaskStates →
      ¬ Settled db call.taskId := by
    rintro state hstate hopen ⟨row, hrow', hterminal⟩
    cases hrow.symm.trans hrow'
    exact hopen (hstate ▸ hterminal)
  rcases enterRunning_cases hrow h with ⟨hleased, -, rfl⟩ | ⟨hrunning, -, rfl⟩
  · exact ⟨rfl, hopen hleased (by decide)⟩
  · exact ⟨rfl, hopen hrunning (by decide)⟩

theorem admitClaim_attempts
    (h : (admitClaim service call now draw).run db = .ok (lease, db')) :
    db'.attempts = db.attempts ∨
      db.attempts.get? call.attemptId = none ∧ ¬ Settled db call.taskId ∧
        ((db.leases.get? call.taskId).any fun lease => lease.admits call now) = true ∧
        db'.attempts = db.attempts.insert
          { id := call.attemptId, taskId := call.taskId, agentSpecHash := call.agentSpecHash
            startedAt := draw.createdAt } := by
  obtain ⟨task, run, repository, htask, -, -, ⟨-, -, rfl⟩ | hleased⟩ := admitClaim_cases h
  · exact .inl rfl
  obtain ⟨hadmits, moved, db₁, henter, hensure, -⟩ := admitLeased_cases hleased
  obtain ⟨hkept, hopen⟩ := enterRunning_open (taskIn_eq_some.mp htask).1 henter
  rcases ensureAttempt_cases hensure with ⟨rfl, -⟩ | ⟨hnew, rfl⟩
  · exact .inl hkept
  · rw [hkept] at hnew ⊢
    exact .inr ⟨hnew, hopen, hadmits, rfl⟩

theorem SoleAttempts.insert (h : SoleAttempts db) {attempt : TaskAttemptRow}
    (heffect : TaskEffect P db db') (hnone : NoneCompleted db db')
    (hnew : db.attempts.get? attempt.id = none) (hended : attempt.endedAt = none)
    (hinserted : db'.attempts = db.attempts.insert attempt)
    (halone : ∀ i a, db.attempts.get? i = some a → a.taskId ≠ attempt.taskId) :
    SoleAttempts db' := by
  have hget : ∀ i a, db'.attempts.get? i = some a →
      (i = attempt.id ∧ a = attempt) ∨ db.attempts.get? i = some a := by
    intro i a ha
    rw [hinserted, get?_insert hnew] at ha
    split at ha
    · rename_i hi
      exact .inl ⟨hi, (Option.some.inj ha).symm⟩
    · exact .inr ha
  refine ⟨?_, ?_, ?_⟩
  · intro i j a b ha hb htask
    rcases hget i a ha with ⟨rfl, rfl⟩ | ha
    · rcases hget j b hb with ⟨rfl, -⟩ | hb
      · rfl
      · exact absurd htask.symm (halone j b hb)
    · rcases hget j b hb with ⟨-, rfl⟩ | hb
      · exact absurd htask (halone i a ha)
      · exact h.sole i j a b ha hb htask
  · intro i a ha hdone
    rcases hget i a ha with ⟨-, rfl⟩ | ha
    · exact absurd hended hdone
    · exact (h.ended i a ha hdone).effect heffect
  · intro t ht
    obtain ⟨i, a, ha, htask, hstatus, hdone⟩ := h.completed t (hnone t ht)
    refine ⟨i, a, ?_, htask, hstatus, hdone⟩
    rw [hinserted, get?_insert hnew, if_neg]
    · exact ha
    · rintro rfl
      cases hnew.symm.trans ha

theorem SoleAttempts.admit (service : SchedulerService) (h : SoleAttempts db) (draw : Draw)
    (hfresh : call.Fresh now db) :
    SoleAttempts (((Call.admitClaim call now draw).body service).commit db).2 := by
  have heffect := (Call.admitClaim call now draw).effect service db
  have hnone : NoneCompleted db (((Call.admitClaim call now draw).body service).commit db).2 :=
    Call.noneCompleted (by simp [Call.footprint])
  simp only [Call.body, commit_discard] at heffect hnone ⊢
  cases hrun : (admitClaim service call now draw).run db with
  | error e =>
    rw [commit_of_error hrun]
    exact h
  | ok result =>
    obtain ⟨lease, db'⟩ := result
    rw [commit_of_ok hrun] at heffect hnone ⊢
    rcases admitClaim_attempts hrun with hsame | ⟨hnew, hopen, hadmits, hinserted⟩
    · exact h.same hsame heffect hnone
    · refine h.insert heffect hnone hnew rfl hinserted fun i a ha htask => ?_
      -- an attempt of the task has not ended, as the task is open, but all have
      have hended : a.endedAt = none := by
        by_contra hended
        have hsettled := h.ended i a ha hended
        rw [htask] at hsettled
        exact hopen hsettled
      have hmem : a ∈ db.openAttempts call.taskId :=
        mem_filter.mpr ⟨mem_of_get? ha, decide_eq_true ⟨htask, hended⟩⟩
      rw [hfresh hnew hadmits] at hmem
      cases hmem

/-! ## Finishing -/

theorem finishClaim_attempts
    (h : (finishClaim service call target now draw).run db = .ok (u, db')) :
    db'.attempts = db.attempts ∧ db'.tasks = db.tasks ∨
      ∃ attempt row, db.attempts.get? call.attemptId = some attempt ∧
        attempt.taskId = call.taskId ∧ target ∈ terminalTaskStates ∧
        db'.tasks.get? call.taskId = some row ∧ row.state = target ∧
        (∀ t, t ≠ call.taskId → db'.tasks.get? t = db.tasks.get? t) ∧
        db'.attempts = db.attempts.set { attempt with status := target, endedAt := some now } := by
  obtain ⟨task, hrow, hterminal, ⟨-, rfl | rfl⟩ | ⟨attempt, -, -, hattempt, htask, rfl⟩⟩ :=
    finishClaim_cases service h
  · exact .inl ⟨rfl, rfl⟩
  · exact .inl ⟨rfl, rfl⟩
  · have hmove := moveTask_updates hrow target draw
    exact .inr ⟨attempt, task.enter target draw.now, hattempt, htask, hterminal,
      congrArg TaskView.row hmove.1, rfl, fun t ht => congrArg TaskView.row (hmove.2 t ht), rfl⟩

theorem SoleAttempts.settle (h : SoleAttempts db)
    (heffect : TaskEffect P db db') (hattempt : db.attempts.get? attemptId = some attempt)
    (hterminal : target ∈ terminalTaskStates)
    (hrow : db'.tasks.get? attempt.taskId = some row) (hstate : row.state = target)
    (hothers : ∀ t, t ≠ attempt.taskId → db'.tasks.get? t = db.tasks.get? t)
    (hset : db'.attempts = db.attempts.set { attempt with status := target, endedAt := some now }) :
    SoleAttempts db' := by
  obtain rfl : attempt.id = attemptId := key_of_get? hattempt
  let ended : TaskAttemptRow := { attempt with status := target, endedAt := some now }
  have hself : db'.attempts.get? attempt.id = some ended := by
    rw [hset]
    exact get?_set_self hattempt
  have hother : ∀ i, i ≠ attempt.id → db'.attempts.get? i = db.attempts.get? i := by
    intro i hi
    rw [hset]
    exact get?_set_ne _ hi
  -- the attempts stay with their tasks
  have hget : ∀ i a, db'.attempts.get? i = some a →
      ∃ b, db.attempts.get? i = some b ∧ b.taskId = a.taskId := by
    intro i a ha
    by_cases hi : i = attempt.id
    · subst hi
      cases hself.symm.trans ha
      exact ⟨attempt, hattempt, rfl⟩
    · exact ⟨a, (hother i hi).symm.trans ha, rfl⟩
  refine ⟨?_, ?_, ?_⟩
  · intro i j a b ha hb htask
    obtain ⟨a', ha', htask'⟩ := hget i a ha
    obtain ⟨b', hb', htask''⟩ := hget j b hb
    exact h.sole i j a' b' ha' hb' (htask'.trans (htask.trans htask''.symm))
  · intro i a ha hended
    by_cases hi : i = attempt.id
    · subst hi
      cases hself.symm.trans ha
      exact ⟨row, hrow, hstate ▸ hterminal⟩
    · exact (h.ended i a ((hother i hi).symm.trans ha) hended).effect heffect
  · intro t ht
    by_cases htask : t = attempt.taskId
    · subst htask
      rw [taskState, hrow] at ht
      exact ⟨attempt.id, ended, hself, rfl, hstate.symm.trans (Option.some.inj ht), by simp [ended]⟩
    · rw [taskState, hothers t htask] at ht
      obtain ⟨i, a, ha, rfl, hstatus, hended⟩ := h.completed t ht
      refine ⟨i, a, (hother i ?_).trans ha, rfl, hstatus, hended⟩
      rintro rfl
      cases hattempt.symm.trans ha
      exact htask rfl

theorem SoleAttempts.finish (h : SoleAttempts db) :
    SoleAttempts ((finishClaim service call target now draw).commit db).2 := by
  have heffect := (Call.finishClaim call target now draw).effect service db
  simp only [Call.body] at heffect
  cases hrun : (finishClaim service call target now draw).run db with
  | error e =>
    rw [commit_of_error hrun]
    exact h
  | ok result =>
    obtain ⟨u, db'⟩ := result
    rw [commit_of_ok hrun] at heffect ⊢
    rcases finishClaim_attempts hrun with ⟨hattempts, htasks⟩ |
      ⟨attempt, row, hattempt, htask, hterminal, hrow, hstate, hothers, hset⟩
    · refine h.same hattempts heffect fun t ht => ?_
      rwa [taskState, htasks] at ht
    · rw [← htask] at hrow hothers
      exact h.settle heffect hattempt hterminal hrow hstate hothers hset

/-! ## Runs -/

theorem SoleAttempts.startClaim (service : SchedulerService) (h : SoleAttempts db)
    (draw refusal : Draw) (hfresh : call.Fresh now db) :
    SoleAttempts (AutoSwe.startClaim service call now draw refusal db).2 := by
  have hadmitted := h.admit service draw hfresh
  simp only [Call.body, commit_discard] at hadmitted
  cases hrun : (admitClaim service call now draw).run db with
  | ok result =>
    obtain ⟨lease, db'⟩ := result
    rw [commit_of_ok hrun] at hadmitted
    rw [startClaim_of_ok hrun]
    exact hadmitted
  | error e =>
    by_cases hkind : e.kind = .taskBudgetExhausted
    · obtain ⟨e', hrefused⟩ := startClaim_of_exhausted refusal hrun hkind
      rw [hrefused]
      have hwrites : ¬ (Call.refuseExhaustedTask call.projectId call.taskId now refusal).footprint
          .attempts := by simp [Call.footprint]
      have htargets : ¬ (Call.refuseExhaustedTask call.projectId call.taskId now refusal).footprint
          (.tasks .COMPLETED) := by simp [Call.footprint]
      exact h.unwritten service hwrites htargets
    · rw [startClaim_of_error hrun hkind]
      exact h

theorem SoleAttempts.perform (service : SchedulerService) (h : SoleAttempts db)
    (htidy : operation.Tidy db) :
    SoleAttempts (AutoSwe.perform service db operation) := by
  have hmoves : ∀ {operation : Operation}, (∀ call, operation.commits call →
      ¬ call.footprint .attempts ∧ ¬ call.footprint (.tasks .COMPLETED)) →
        SoleAttempts (AutoSwe.perform service db operation) := by
    intro operation hcalls
    refine perform_moves (R := fun db db' => SoleAttempts db → SoleAttempts db') (fun _ => id)
      (fun hab hbc => hbc ∘ hab) (fun call hcall db h => ?_) db h
    exact h.unwritten service (hcalls call hcall).1 (hcalls call hcall).2
  cases operation with
  | startClaim call now draw refusal => exact h.startClaim service draw refusal htidy
  | finishClaim call target now draw => exact h.finish
  | reconcile projectId k now draw => exact h.reconcile service draw htidy
  | reconcileDue limit now draws =>
    have hscan : AutoSwe.perform service db (.reconcileDue limit now draws) =
        (db.reconcileTargets now limit).foldl (reconcileTarget now draws) db :=
      collect_reconcileLogged now draws (db.reconcileTargets now limit) db
    rw [hscan]
    exact h.scan service draws _ (reconcileTargets_nodup) htidy
  | resolveNeedsReconciliation projectId k resolution now draw graphDraw =>
    exact h.resolve service
  | promoteDependencyReady | cancelBlockedDependents =>
    refine hmoves ?_
    rintro call ⟨round, rfl⟩
    simp [Call.footprint]
  | cancelRequestedRuns =>
    refine hmoves ?_
    rintro call (⟨_, _, rfl⟩ | ⟨_, rfl⟩) <;> simp [Call.footprint]
  | _ =>
    refine hmoves ?_
    rintro call ⟨⟩
    simp [Call.footprint]

theorem SoleAttempts.graphWrite (h : SoleAttempts db)
    (hwrite : (transitionGraphExecution k identity thread target checkpointId draw).run db =
      .ok (row, db')) : SoleAttempts db' := by
  obtain ⟨-, -, -, audit, outbox, durations, rfl⟩ := transitionGraphExecution_ok hwrite
  exact ⟨h.sole, h.ended, h.completed⟩

end

/-- The attempts agree with the tasks in every run in which no dispatch is let in
under a new attempt beside an open one, and the reconciler finalizes no task. -/
theorem attempts_agree (service : SchedulerService) (uuid5 : UUID → String → UUID)
    (agentSpecHash : String) {s : Workers}
    (hreach : Reach (Fleet.step (workers service uuid5 agentSpecHash)) TidyStep { store := {} } s) :
    AttemptsAgree s.store := by
  have hsole : SoleAttempts s.store := by
    induction hreach with
    | start => exact .start
    | @next s₁ s₂ e hbefore hpermitted hstep ih =>
      have hwrite := workers_step hbefore hstep
      generalize s₂.store = store at hwrite
      cases hwrite with
      | none => exact ih
      | environment operation he =>
        subst he
        exact ih.perform service hpermitted
      | startClaim i input claim call next he hproc hfailure =>
        subst he
        exact ih.startClaim service _ _ (hpermitted claim call next hproc hfailure)
      | finishClaim call target now draw htarget => exact ih.finish
      | persistState i input claim identity state checkpointId =>
        exact commit_persistState identity state checkpointId input.draw ih fun hwritten =>
          ih.graphWrite hwritten
      | park k draw =>
        exact commit_parkUncertain k draw ih fun hwritten => ih.graphWrite hwritten
  exact hsole.agree

/-- A plan is persisted, its first task leased and given to a worker, which starts
it. -/
def sampleAdmitted : List WorkerEvent :=
  [.environment (.persistPlan (fun runId _ => runId) 40 [sampleSpec 1 [], sampleSpec 2 [1]]
      fun _ => {}),
    .environment (.claimReady "dispatcher" 5 100 fun _ => { token := 9 }),
    .environment (.ambient (insert ∅ sampleRepository) (insert ∅ sampleRun) []),
    .spawn 1 (sampleClaim 9), .resume 1 { now := 110 }]

def sampleExecutedGraph : List WorkerEvent :=
  sampleAdmitted ++ [.resume 1 {}, .resume 1 {}, .resume 1 {}, .resume 1 {}, .resume 1 {},
    .resume 1 {}, .resume 1 {}]

def sampleLostLate : List WorkerEvent :=
  sampleExecutedGraph ++ [.environment (.reconcile 20 1 120 {})]

/-- The worker is lost before it prepares; the task is requeued and admitted again. -/
def sampleLostEarly : List WorkerEvent :=
  sampleAdmitted ++ [.environment (.reconcile 20 1 140 {}), sampleReclaim,
    .spawn 2 (sampleClaim 8), .resume 2 { now := 151 }]

def tidyStep (s : Workers) : WorkerEvent → Bool
  | .environment (.startClaim ..) | .environment (.reconcile ..)
  | .environment (.reconcileDue ..) => false
  | .resume i _ =>
    match s.procs i with
    | some (_, .await (.startClaim call) _) => (s.store.openAttempts call.taskId).isEmpty
    | _ => true
  | _ => true

theorem tidyStep_of_check (s : Workers) (e : WorkerEvent) (h : tidyStep s e = true) :
    TidyStep s e := by
  cases e with
  | environment operation => cases operation <;> trivial
  | resume =>
    intro claim call next hproc _ _ _
    simp only [tidyStep, hproc] at h
    exact isEmpty_iff.mp h
  | spawn | aside => trivial

theorem attempts_agree_sample : ∃ s : Workers, s.store.taskState 1 = some .COMPLETED ∧
    AttemptsAgree s.store := by
  refine ⟨_, ?_, attempts_agree sampleService sampleUuid5 "spec"
    (.checked tidyStep_of_check (sampleExecutedGraph ++ [.resume 1 { now := 120 }]) ?_)⟩
  on_goal 2 => decide +kernel
  decide +kernel

/-- A finalized task whose attempt is still running, and a requeued one with two open
attempts. -/
theorem reconciled_attempts_stay_open :
    (∃ s : Workers, Reach sampleStep (fun _ _ => True) { store := {} } s ∧
      s.store.taskState 1 = some .COMPLETED ∧ ∃ attempt, s.store.latestAttempt 1 = some attempt ∧
        attempt.status = .RUNNING ∧ attempt.endedAt = none ∧
        (s.store.promotionReview 40 1 attempt.status).outcomeVerified = false) ∧
    ∃ s : Workers, Reach sampleStep (fun _ _ => True) { store := {} } s ∧
      (s.store.openAttempts 1).length = 2 :=
  ⟨⟨_, .run sampleLostLate (fun _ _ _ => trivial) (by decide +kernel), by decide +kernel, _,
      eq_some_get (by decide +kernel), by decide +kernel, by decide +kernel, by decide +kernel⟩,
    _, .run sampleLostEarly (fun _ _ _ => trivial) (by decide +kernel), by decide +kernel⟩

end AutoSwe
