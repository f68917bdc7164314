import AutoSwe.Planning.Ownership

/-!
# The planning transactions under concurrency

`RunStep` says what each planning transaction can do to the rows of a run, and
`planning_accounted` that this is what it has done when it commits, whatever the
other transactions commit between its statements.
-/

namespace AutoSwe

open Relational Transaction Prog Table List Session Function Lock

inductive PlanningCall
  | claimRun (now : Time)
  | persistPlan (plan : TaskPlan) (stageAttemptId : UUID) (fenceStartedAt now : Time)
      (draws : UUID → Draw)
  | failRun (runId stageAttemptId : UUID) (fenceStartedAt : Time) (error : PlanningError)
      (attempts : Nat) (now : Time)
  | cancelRun (runId : UUID) (now : Time) (eventId : UUID)

def PlanningCall.body (service : RunPlanningService) : PlanningCall → Session Unit
  | .claimRun now => (service.claimRun now).discard
  | .persistPlan plan stageAttemptId fenceStartedAt now draws =>
    (service.persistPlan plan stageAttemptId fenceStartedAt now draws).discard
  | .failRun runId stageAttemptId fenceStartedAt error attempts now =>
    service.failRun runId stageAttemptId fenceStartedAt error attempts now
  | .cancelRun runId now eventId => (Api.cancelRun runId now eventId).discard

/-- The run of a claim: only the first one enters the state. -/
def RunRow.claimed (run : RunRow) (now : Time) : RunRow :=
  if run.state = .PLANNING then run else run.enter .PLANNING now

/-- What a committed transaction did to the rows of a run, and what it had seen
of them. `locked` says that it holds the lock of the run. -/
inductive RunStep (service : RunPlanningService) : PlanningCall → Prop → RunRows → RunRows → Prop
  | idle (h : locked → ∀ now, call ≠ .claimRun now) : RunStep service call locked x x
  | claim (now : Time) {run : RunRow} {attempt : RunStageAttemptRow} (hlocked : locked)
      (hrun : x.run = some run) (hclaimable : run.claimable (now - service.staleAfter) = true)
      (hfence : attempt.startedAt = now) :
      RunStep service (.claimRun now) locked x { x with
        run := some (run.claimed now)
        stages := update x.stages .architect (some attempt) }
  | persist {run : RunRow} {attempt : RunStageAttemptRow} {stageAttemptId : UUID}
      (hrun : x.run = some run) (hstate : run.state = .PLANNING)
      (hopen : run.cancellationRequestedAt = none)
      (hattempt : x.stages attempt.stage = some attempt) (hfence : attempt.startedAt = fence) :
      RunStep service (.persistPlan plan stageAttemptId fence now draws) locked x
        ⟨some (run.enter .EXECUTING now), stages, revisions, tasks⟩
  | fail {run : RunRow} {attempt : RunStageAttemptRow} {stageAttemptId : UUID}
      (hrun : x.run = some run) (hstate : run.state = .PLANNING)
      (hopen : run.cancellationRequestedAt = none)
      (hattempt : x.stages attempt.stage = some attempt) (hfence : attempt.startedAt = fence) :
      RunStep service (.failRun r stageAttemptId fence error attempts now) locked x
        { x with run := some (run.enter .FAILED now), stages }
  | cancel {run run' : RunRow} (hrun : x.run = some run) (hopen : run.state ∉ runTerminalStates)
      (hrequested : run'.cancellationRequestedAt ≠ none)
      (hstate : run'.state = .CANCELLED ∧ (run.state = .PENDING ∨ run.state = .PLANNING) ∨
        run'.state = run.state) :
      RunStep service (.cancelRun r now eventId) locked x { x with run := some run', stages }

/-- What a planning transaction owes to the others, and what it did. -/
def Accounted (service : RunPlanningService) (call : PlanningCall) (σ : Local Database Lock)
    (db : Database) : Prop :=
  Owes planningRely (fun _ => True) σ db ∧
    ∀ r, RunStep service call (Lock.run r ∈ σ.held) (db.rowsOf r) ((σ.own db).rowsOf r)

section Accounted
variable {service : RunPlanningService} {call : PlanningCall} {r : UUID} {x₀ x : RunRows}
  {σ : Local Database Lock} {db : Database}

theorem Owns.accounted (h : Owns r x₀ x σ db)
    (hstep : RunStep service call (Lock.run r ∈ σ.held) x₀ x) : Accounted service call σ db := by
  have hrefl := planningRely.refl σ.held db
  refine ⟨⟨trivial, fun held hdisjoint => ⟨fun r' hr' => ?_, fun id hid => ?_⟩⟩, fun r' => ?_⟩
  · refine h.others db hrefl r' ?_
    rintro rfl
    exact Set.disjoint_left.mp hdisjoint hr' h.locked
  · exact h.tasks db hrefl id fun hheld => Set.disjoint_left.mp hdisjoint hid hheld
  · by_cases hr : r' = r
    · subst hr
      rw [h.view, h.found]
      exact hstep
    · rw [h.others db hrefl r' hr]
      exact .idle fun hlocked => absurd (h.only r' hlocked) hr

theorem Untouched.accounted (h : Untouched σ) (db : Database) : Accounted service call σ db := by
  have hown : σ.own db = db := congrFun h.own db
  refine ⟨⟨trivial, fun held _ => ?_⟩, fun r => ?_⟩
  · rw [hown]
    exact planningRely.refl held db
  · rw [hown]
    exact .idle fun hlocked => absurd hlocked (h.unlocked r)

end Accounted

/-! ## Taking the lock of a run -/

section
variable {db : Database}

theorem owns_locked (db : Database) (hown : σ.own = id)
    (hheld : σ.held = {Lock.run r}) : Owns r (db.rowsOf r) (db.rowsOf r) σ db := by
  have hlocked : Lock.run r ∈ σ.held := hheld ▸ rfl
  refine ⟨hlocked, fun r' hr' => ?_, rfl, fun d hd => ?_, fun d _ r' _ => ?_, fun d _ t _ => ?_⟩
  · rw [hheld] at hr'
    exact Lock.run.inj hr'
  · rw [hown]
    exact hd.1 r hlocked
  · rw [hown]
    rfl
  · rw [hown]
    rfl

theorem selectRunForUpdate_wp (hmissing : ∀ σ db, Untouched σ → Q none σ db)
    (hfound : ∀ run x₀ σ db, Owns runId x₀ x₀ σ db → x₀.run = some run → Q (some run) σ db) :
    (selectRunForUpdate runId).planningWp Q {} db := by
  intro db₁ _
  refine ⟨fun _ _ => trivial, fun db₂ hr₂ => ?_⟩
  dsimp only [id_eq] at hr₂ ⊢
  cases hrun : db₁.runs.get? runId with
  | none => exact hmissing _ _ ⟨by simp [Local.took, Local.saw], rfl⟩
  | some run =>
    have howns := owns_locked (r := runId) (σ := (Local.saw {} db₁).took [.run runId]) db₁ rfl
      (by simp [Local.took, Local.saw])
    simp only [hrun] at hr₂
    exact hfound run _ _ _ (howns.rely hr₂) hrun

/-- The row that `SKIP LOCKED` with a limit of one finds, if any, is locked. -/
theorem selectRunSkipLocked_wp (hruns : ∀ db, ∀ run ∈ runs db, run ∈ db.runs.rows)
    (hnone : ∀ found σ db, found.head? = none → Untouched σ → Q found σ db)
    (hsome : ∀ found run x₀ σ db view, found.head? = some run → run ∈ runs view →
      Owns run.id x₀ x₀ σ db → x₀.run = some run → Q found σ db) :
    planningWp (selectSkipLocked runs (fun run => Lock.run run.id) 1) Q {} db := by
  intro db₁ _ taken htaken db₂ hr₂
  dsimp only [id_eq] at htaken hr₂ ⊢
  generalize hfound : (runs db₁).filter (fun run => Lock.run run.id ∈ taken) = found
  cases hhead : found.head? with
  | none =>
    refine hnone _ _ _ hhead ⟨fun r hr => ?_, rfl⟩
    -- a lock that was taken is the one of a row that was found
    have hmem : Lock.run r ∈ taken := by simpa [Local.took, Local.saw] using hr
    obtain ⟨run, hrun, hlock⟩ := mem_map.mp (htaken.1.subset hmem)
    have : run ∈ found := by
      rw [← hfound]
      exact mem_filter.mpr ⟨hrun, by simpa [hlock] using hmem⟩
    simp [head?_eq_none_iff.mp hhead] at this
  | some run =>
    obtain ⟨hrun, hmem⟩ := mem_filter.mp (hfound ▸ mem_of_mem_head? hhead)
    have htaken : taken = [Lock.run run.id] := by
      have hpos : Lock.run run.id ∈ taken := by simpa using hmem
      obtain ⟨l, rfl⟩ := length_eq_one_iff.mp (htaken.2.antisymm (length_pos_of_mem hpos))
      rw [mem_singleton.mp hpos]
    subst htaken
    have howns := owns_locked (r := run.id) (σ := (Local.saw {} db₁).took [.run run.id]) db₁ rfl
      (by simp [Local.took, Local.saw])
    exact hsome _ run _ _ _ db₁ hhead hrun (howns.rely hr₂)
      (get?_of_mem (hruns db₁ run hrun))

end

/-! ## Claiming -/

section
variable {service : RunPlanningService} {r : UUID} {x₀ x : RunRows} {σ : Local Database Lock}
  {db : Database} {run : RunRow}

theorem recordStateDuration_wp (h : Owns r x₀ x σ db) :
    (recordStateDuration aggregateType aggregateId state enteredAt exitedAt).planningWp
      (fun _ => Owns r x₀ x) σ db :=
  h.execute (.log (fun _ => rfl) (fun _ => rfl) (fun _ => rfl) fun _ => rfl)

theorem appendAudit_wp (h : Owns r x₀ x σ db) :
    (appendAudit row).planningWp (fun _ => Owns r x₀ x) σ db :=
  h.execute (.log (fun _ => rfl) (fun _ => rfl) (fun _ => rfl) fun _ => rfl)

theorem enqueueEvent_wp (h : Owns r x₀ x σ db) :
    (enqueueEvent row).planningWp (fun _ => Owns r x₀ x) σ db :=
  h.execute (.log (fun _ => rfl) (fun _ => rfl) (fun _ => rfl) fun _ => rfl)

theorem publish_wp (h : Owns r x₀ x σ db) :
    (publish eventId eventType aggregateType aggregateId correlationId topic payload).planningWp
      (fun _ => Owns r x₀ x) σ db :=
  .bind ((appendAudit_wp h).mono fun _ _ _ h₁ => enqueueEvent_wp h₁)

theorem enterPlanning_wp (h : Owns run.id x₀ x σ db) (hrun : x.run = some run) :
    (enterPlanning run now).planningWp (fun run' σ' db' => run' = run.claimed now ∧
      Owns run.id x₀ { x with run := some (run.claimed now) } σ' db') σ db := by
  by_cases hplanning : run.state = .PLANNING
  · simp only [enterPlanning, RunRow.claimed, hplanning, ne_eq, not_true_eq_false, if_false,
      if_true, ← hrun]
    exact wp.pure _ fun db₁ hr₁ => ⟨rfl, h.rely hr₁⟩
  · simp only [enterPlanning, RunRow.claimed, hplanning, ne_eq, not_false_eq_true, if_true,
      if_false]
    refine .bind ((h.require _).mono fun _ σ₁ db₁ ⟨h₁, _⟩ => ?_)
    refine .bind ((recordStateDuration_wp h₁).mono fun _ σ₂ db₂ h₂ => ?_)
    refine .bind ((h₂.execute (.setRun (run.enter .PLANNING now) hrun)).mono fun _ σ₃ db₃ h₃ => ?_)
    exact wp.pure _ fun db₄ hr₄ => ⟨rfl, h₃.rely hr₄⟩

theorem startStageAttempt_wp (h : Owns row.runId x₀ x σ db) :
    (startStageAttempt row).planningWp (fun _ σ' db' => ∃ attempt : RunStageAttemptRow,
      attempt.startedAt = row.startedAt ∧ Owns row.runId x₀
        { x with stages := update x.stages row.stage (some attempt) } σ' db') σ db := by
  refine wp.mono (h.checked (K := fun x' => ∃ attempt : RunStageAttemptRow,
    attempt.startedAt = row.startedAt ∧
      x' = { x with stages := update x.stages row.stage (some attempt) }) ?_) ?_
  · rintro view w rfl hw
    split at hw
    · rename_i existing hget
      cases hw
      have hkey := key_of_get? hget
      have hrun : existing.runId = row.runId := congrArg Prod.fst hkey
      have hstage : existing.stage = row.stage := congrArg Prod.snd hkey
      have hexisting : (view.rowsOf row.runId).stages existing.stage = some existing :=
        hstage ▸ hget
      refine ⟨_, ⟨existing.restart row, rfl, rfl⟩, ?_⟩
      rw [← hstage]
      exact .setStageAttempt (existing.restart row) hrun hexisting
    · rename_i hget
      split at hw <;> cases hw
      exact ⟨_, ⟨row, rfl, rfl⟩, RunWrite.insertStageAttempt hget⟩
  · rintro _ σ₁ db₁ ⟨x', ⟨attempt, hstarted, rfl⟩, h₁⟩
    exact ⟨attempt, hstarted, h₁⟩

theorem startPlanning_wp (h : Owns run.id x₀ x₀ σ db) (hrun : x₀.run = some run)
    (hclaimable : run.claimable (now - service.staleAfter) = true) :
    (service.startPlanning now run).planningWp (fun result σ' db' =>
      Accounted service (.claimRun now) σ' db' ∧
        ∀ claim, result = some claim → Lock.run claim.run.id ∈ σ'.held) σ db := by
  refine .bind ((h.query _).mono ?_)
  rintro repository σ₁ db₁ ⟨h₁, -⟩
  cases repository with
  | none => trivial
  | some repository =>
    refine .bind ((enterPlanning_wp h₁ hrun).mono ?_)
    rintro _ σ₂ db₂ ⟨rfl, h₂⟩
    have hid : (run.claimed now).id = run.id := by
      simp only [RunRow.claimed]
      split <;> rfl
    have hrow : Owns (service.architectAttempt (run.claimed now) now).runId x₀ _ σ₂ db₂ :=
      hid ▸ h₂
    refine .bind ((startStageAttempt_wp hrow).mono ?_)
    rintro _ σ₃ db₃ ⟨attempt, hstarted, h₃⟩
    refine wp.pure _ fun db₄ hr₄ => ⟨(h₃.rely hr₄).accounted ?_, ?_⟩
    · exact .claim now h₃.locked hrun hclaimable hstarted
    · rintro _ ⟨⟩
      exact h₃.locked

theorem claimRun_wp :
    (service.claimRun now).planningWp (fun result σ' db' =>
      Accounted service (.claimRun now) σ' db' ∧
        ∀ claim, result = some claim → Lock.run claim.run.id ∈ σ'.held) {} db := by
  have hmem : ∀ db : Database, ∀ run ∈ db.claimableRuns (now - service.staleAfter),
      run ∈ db.runs.rows ∧ run.claimable (now - service.staleAfter) = true := by
    intro db run hrun
    exact mem_filter.mp ((mem_insertionSort _).mp hrun)
  refine .bind (selectRunSkipLocked_wp (fun db run hrun => (hmem db run hrun).1) ?_ ?_)
  · intro found σ db hnone huntouched
    simp only [hnone]
    exact wp.pure _ fun db₁ _ => ⟨huntouched.accounted db₁, by simp⟩
  · intro found run x₀ σ db view hhead hrun howns hx₀
    simp only [hhead]
    exact startPlanning_wp howns hx₀ (hmem view run hrun).2

/-! ## Persisting -/

theorem stage_of_stageAttemptById {view : Database} {attempt : RunStageAttemptRow} {id : UUID}
    (h : view.stageAttemptById id = some attempt) :
    (view.rowsOf attempt.runId).stages attempt.stage = some attempt :=
  get?_of_mem (mem_of_find?_eq_some h)

theorem createPlanRevision_wp (h : Owns r x₀ x σ db) :
    (createPlanRevision r revision plan createdAt).planningWp
      (fun _ σ' db' => ∃ revisions, Owns r x₀ { x with revisions } σ' db') σ db := by
  refine wp.mono (h.checked (K := fun x' => ∃ revisions, x' = { x with revisions }) ?_) ?_
  · rintro view w rfl hw
    split at hw <;> cases hw
    rename_i hnone
    exact ⟨_, ⟨_, rfl⟩, .insertPlanRevision ⟨r, revision, plan, createdAt⟩ hnone⟩
  · rintro _ σ₁ db₁ ⟨x', ⟨revisions, rfl⟩, h₁⟩
    exact ⟨revisions, h₁⟩

/-- The task is locked, so that nobody else inserts one under its id. -/
theorem createTask_wp (h : Owns r x₀ x σ db) (hlocked : task spec.id ∈ σ.held) :
    (createTask r spec draw).planningWp (fun row σ' db' => row = spec.row r draw ∧
      task spec.id ∈ σ'.held ∧ Owns r x₀
        { x with tasks := update x.tasks spec.id (some row) } σ' db') σ db := by
  refine .bind ?_
  intro db₁ hr₁
  have h₁ := h.rely hr₁
  dsimp only
  cases hview : (σ.own db₁).tasks.get? (spec.row r draw).id with
  | some task => trivial
  | none =>
    have hfree : ∀ d, planningRely.rel σ.held db₁ d →
        (σ.own d).tasks.get? (spec.row r draw).id = none :=
      fun d hd => h₁.task_stable hlocked hd hview
    refine fun db₂ hr₂ => wp.pure _ fun db₃ hr₃ =>
      ⟨rfl, hlocked, Owns.rely ?_ (planningRely.trans hr₂ hr₃)⟩
    refine h₁.wrote (fun d hd => ?_) (fun d hd r' hr' => ?_) fun d hd t ht => ?_ <;>
      simp only [hview]
    · rw [← h₁.rows d hd]
      exact (rowsOf_insertTask (hfree d hd)).1
    · exact (rowsOf_insertTask (hfree d hd)).2 r' hr'
    · refine (get?_insert (hfree d hd) t).trans (if_neg ?_)
      rintro rfl
      exact ht hlocked

theorem setTask_wp (row : TaskRow) (h : Owns row.runId x₀ x σ db)
    (hlocked : task row.id ∈ σ.held) (hold : x.tasks row.id = some old) :
    planningWp (execute fun db => { db with tasks := db.tasks.set row })
      (fun _ => Owns row.runId x₀
        { x with tasks := update x.tasks row.id (some row) }) σ db := by
  intro db₁ hr₁ db₂ hr₂
  have h₁ := h.rely hr₁
  have hold : ∀ d, planningRely.rel σ.held db₁ d →
      (σ.own d).tasks.get? row.id = some old ∧ old.runId = row.runId := by
    intro d hd
    rw [← h₁.rows d hd] at hold
    exact task_of_rowsOf hold
  refine Owns.rely (h₁.wrote (fun d hd => ?_) (fun d hd r' hr' => ?_) fun d hd t ht => ?_) hr₂
  · rw [← h₁.rows d hd]
    exact (rowsOf_setTask (hold d hd).1 (hold d hd).2).1
  · exact (rowsOf_setTask (hold d hd).1 (hold d hd).2).2 r' hr'
  · refine get?_set_ne _ ?_
    rintro rfl
    exact ht hlocked

theorem selectTaskForUpdate_wp (h : Owns r x₀ x σ db) :
    (selectTaskForUpdate projectId taskId).planningWp (fun found σ' db' => Owns r x₀ x σ' db' ∧
      ∃ view : Database, view.rowsOf r = x ∧ found = view.taskIn projectId taskId) σ db := by
  intro db₁ hr₁
  have h₁ := (h.rely hr₁).saw (σ.own db₁)
  refine ⟨fun _ _ => trivial, fun db₂ hr₂ => ⟨Owns.rely ?_ hr₂, _, (h.rely hr₁).view, rfl⟩⟩
  cases hfound : (σ.own db₁).taskIn projectId taskId with
  | none => simpa [hfound] using h₁
  | some task => simpa [hfound] using h₁.took taskId

theorem transitionTask_wp (task : TaskRow) (h : Owns task.runId x₀ x σ db)
    (hlocked : Lock.task task.id ∈ σ.held) (htask : x.tasks task.id = some task)
    (projectId : UUID) (version : Nat) (target : TaskStatus) (draw : Draw) :
    (transitionTask projectId task.id version target draw).planningWp
      (fun _ σ' db' => ∃ tasks, Owns task.runId x₀ { x with tasks } σ' db') σ db := by
  have hheld : ({Lock.task task.id} : Set Lock) ⊆ σ.held := Set.singleton_subset_iff.mpr hlocked
  refine .bind (((selectTaskForUpdate_wp h).held hheld).mono ?_)
  rintro found σ₁ db₁ ⟨hheld₁, h₁, view, rfl, rfl⟩
  cases hfound : view.taskIn projectId task.id with
  | none => trivial
  | some row =>
    -- the task that is found is the one of the run
    obtain rfl : task = row := by
      have hview := (Database.taskIn_eq_some.mp hfound).1
      exact Option.some.inj ((task_of_rowsOf htask).1.symm.trans hview)
    dsimp only
    split
    · trivial
    · refine .bind (((h₁.require _).held hheld₁).mono fun _ σ₂ db₂ ⟨hheld₂, h₂, _⟩ => ?_)
      refine .bind (((recordStateDuration_wp h₂).held hheld₂).mono
        fun _ σ₃ db₃ ⟨hheld₃, h₃⟩ => ?_)
      refine .bind ((setTask_wp (task.enter target draw.now) h₃
        (Set.singleton_subset_iff.mp hheld₃) htask).mono fun _ σ₄ db₄ h₄ => ?_)
      refine .bind ((publish_wp h₄).mono fun _ σ₅ db₅ h₅ => ?_)
      exact wp.pure _ fun db₆ hr₆ => ⟨_, h₅.rely hr₆⟩

theorem insertPlanned_wp (h : Owns r x₀ x σ db) :
    (insertPlanned r draws spec).planningWp
      (fun _ σ' db' => ∃ tasks, Owns r x₀ { x with tasks } σ' db') σ db := by
  refine wp.advisory_bind trivial fun db₁ hr₁ => ?_
  have h₁ := ((h.rely hr₁).saw (σ.own db₁)).took spec.id
  refine .bind ((createTask_wp h₁ (.inr (by simp))).mono ?_)
  rintro _ σ₂ db₂ ⟨rfl, hlocked, h₂⟩
  split
  · refine .bind ((transitionTask_wp (spec.row r (draws spec.id)) h₂ hlocked
      (by simp [TaskSpec.row]) _ _ _ _).mono ?_)
    rintro _ σ₃ db₃ ⟨tasks, h₃⟩
    exact wp.pure _ fun db₄ hr₄ => ⟨tasks, h₃.rely hr₄⟩
  · exact wp.pure _ fun db₃ hr₃ => ⟨_, h₂.rely hr₃⟩

theorem insertTasks_wp (h : Owns r x₀ x σ db) :
    planningWp (each (insertPlanned r draws) specs)
      (fun _ σ' db' => ∃ tasks, Owns r x₀ { x with tasks } σ' db') σ db := by
  refine wp.each (J := fun _ σ' db' => ∃ tasks, Owns r x₀ { x with tasks } σ' db') ?_ ?_
    specs ⟨x.tasks, h⟩
  · rintro σ₁ db₁ db₂ ⟨tasks, h₁⟩ hr₁
    exact ⟨tasks, h₁.rely hr₁⟩
  · rintro spec specs σ₁ db₁ ⟨tasks, h₁⟩
    exact (insertPlanned_wp h₁).mono fun _ _ _ h₂ => h₂

theorem storePlan_wp (h : Owns run.id x₀ x₀ σ db) (hrun : x₀.run = some run)
    (hattempt : attempt.runId = run.id) (hstage : x₀.stages attempt.stage = some attempt) :
    (service.storePlan plan run attempt now draws).planningWp (fun _ σ' db' =>
      ∃ stages revisions tasks, Owns run.id x₀
        ⟨some (run.enter .EXECUTING now), stages, revisions, tasks⟩ σ' db') σ db := by
  refine .bind ((h.query _).mono ?_)
  rintro existing σ₁ db₁ ⟨h₁, -⟩
  refine .bind ((h₁.require _).mono fun _ σ₂ db₂ ⟨h₂, _⟩ => ?_)
  refine .bind ((createPlanRevision_wp h₂).mono fun _ σ₃ db₃ ⟨revisions, h₃⟩ => ?_)
  refine .bind ((insertTasks_wp h₃).mono fun _ σ₄ db₄ ⟨tasks, h₄⟩ => ?_)
  refine .bind ((recordStateDuration_wp h₄).mono fun _ σ₅ db₅ h₅ => ?_)
  refine .bind ((h₅.require _).mono fun _ σ₆ db₆ ⟨h₆, _⟩ => ?_)
  refine .bind ((h₆.execute (.setRun (run.enter .EXECUTING now) hrun)).mono
    fun _ σ₇ db₇ h₇ => ?_)
  refine .bind ((h₇.execute (.setStageAttempt (attempt.finish .COMPLETED now) hattempt
    hstage)).mono fun _ σ₈ db₈ h₈ => ?_)
  refine .bind ((appendAudit_wp h₈).mono fun _ σ₉ db₉ h₉ => ?_)
  refine .bind ((enqueueEvent_wp h₉).mono fun _ σ₁₀ db₁₀ h₁₀ => ?_)
  exact wp.pure _ fun db₁₁ hr₁₁ => ⟨_, _, _, h₁₀.rely hr₁₁⟩

theorem persistPlan_wp {service : RunPlanningService} {plan : TaskPlan} {stageAttemptId : UUID}
    {fence now : Time} {draws : UUID → Draw} {db : Database} :
    (service.persistPlan plan stageAttemptId fence now draws).planningWp
      (fun _ => Accounted service (.persistPlan plan stageAttemptId fence now draws)) {} db := by
  refine .bind (selectRunForUpdate_wp (fun _ _ _ => trivial) fun run x₀ σ db h hrun => ?_)
  have hid := h.run_id hrun
  dsimp only
  split
  · trivial
  · rename_i hplanning
    rw [not_or, not_not, not_not] at hplanning
    refine .bind ((h.query _).mono ?_)
    rintro found σ₁ db₁ ⟨h₁, view, hview, rfl⟩
    cases hfound : view.stageAttemptById stageAttemptId with
    | none => trivial
    | some attempt =>
      dsimp only
      split
      · trivial
      · rename_i hrunning
        rw [not_or, not_not, not_not] at hrunning
        split
        · trivial
        · rename_i hfence
          have hstage : x₀.stages attempt.stage = some attempt := by
            rw [← hview, ← hid, ← hrunning.1]
            exact stage_of_stageAttemptById hfound
          rw [← hid] at h₁
          refine (storePlan_wp h₁ hrun hrunning.1 hstage).mono ?_
          rintro _ σ₂ db₂ ⟨stages, revisions, tasks, h₂⟩
          exact h₂.accounted (.persist hrun hplanning.1 hplanning.2 hstage (not_not.mp hfence))

/-! ## Failing and cancelling -/

theorem Untouched.query (h : Untouched σ) (read : Database → α) :
    planningWp (query read) (fun _ σ' _ => Untouched σ') σ db :=
  fun _ _ _ _ => ⟨h.unlocked, h.own⟩

theorem markFailed_wp (h : Owns run.id x₀ x₀ σ db) (hrun : x₀.run = some run)
    (hattempt : attempt.runId = run.id) (hstage : x₀.stages attempt.stage = some attempt) :
    (service.markFailed run attempt fence error attempts now).planningWp (fun _ σ' db' =>
      ∃ stages, Owns run.id x₀ { x₀ with run := some (run.enter .FAILED now), stages } σ' db')
      σ db := by
  refine .bind ((h.require _).mono fun _ σ₁ db₁ ⟨h₁, _⟩ => ?_)
  refine .bind ((recordStateDuration_wp h₁).mono fun _ σ₂ db₂ h₂ => ?_)
  refine .bind ((h₂.execute (.setRun (run.enter .FAILED now) hrun)).mono fun _ σ₃ db₃ h₃ => ?_)
  refine .bind ((h₃.execute (.setStageAttempt (attempt.finish .FAILED now) hattempt
    hstage)).mono fun _ σ₄ db₄ h₄ => ?_)
  refine .bind ((appendAudit_wp h₄).mono fun _ σ₅ db₅ h₅ => ?_)
  exact (enqueueEvent_wp h₅).mono fun _ σ₆ db₆ h₆ => ⟨_, h₆⟩

theorem failRun_wp {service : RunPlanningService} {runId stageAttemptId : UUID} {fence : Time}
    {error : PlanningError} {attempts : Nat} {now : Time} {db : Database} :
    (service.failRun runId stageAttemptId fence error attempts now).planningWp
      (fun _ => Accounted service (.failRun runId stageAttemptId fence error attempts now))
      {} db := by
  refine .bind (selectRunForUpdate_wp (fun σ db h => ?_) fun run x₀ σ db h hrun => ?_)
  · refine .bind ((h.query _).mono fun attempt σ₁ db₁ h₁ => ?_)
    exact wp.pure _ fun db₂ _ => h₁.accounted db₂
  · have hid := h.run_id hrun
    subst hid
    refine .bind ((h.query _).mono ?_)
    rintro found σ₁ db₁ ⟨h₁, view, hview, rfl⟩
    have hidle : planningWp (pure ()) (fun _ => Accounted service
        (.failRun run.id stageAttemptId fence error attempts now)) σ₁ db₁ :=
      wp.pure _ fun db₂ hr₂ => (h₁.rely hr₂).accounted (.idle fun _ _ => by simp)
    cases hfound : view.stageAttemptById stageAttemptId with
    | none => exact hidle
    | some attempt =>
      dsimp only
      split
      · rename_i howner
        obtain ⟨hstate, hopen, howned⟩ := howner
        simp only [RunStageAttemptRow.owned, Bool.and_eq_true, decide_eq_true_eq] at howned
        obtain ⟨⟨hattempt, -⟩, hfence⟩ := howned
        have hstage : x₀.stages attempt.stage = some attempt := by
          rw [← hview, ← hattempt]
          exact stage_of_stageAttemptById hfound
        refine (markFailed_wp h₁ hrun hattempt hstage).mono ?_
        rintro _ σ₂ db₂ ⟨stages, h₂⟩
        exact h₂.accounted (.fail hrun hstate hopen hstage hfence)
      · exact hidle

theorem cancelStageAttempt_wp {attempt : Option RunStageAttemptRow} (h : Owns r x₀ x σ db)
    (hattempt : ∀ row ∈ attempt, row.runId = r ∧ x.stages row.stage = some row) :
    (Api.cancelStageAttempt now attempt).planningWp
      (fun _ σ' db' => ∃ stages, Owns r x₀ { x with stages } σ' db') σ db := by
  have hkeep : planningWp (pure ())
      (fun _ σ' db' => ∃ stages, Owns r x₀ { x with stages } σ' db') σ db :=
    wp.pure _ fun db₁ hr₁ => ⟨x.stages, h.rely hr₁⟩
  cases attempt with
  | none => exact hkeep
  | some row =>
    simp only [Api.cancelStageAttempt]
    split
    · obtain ⟨hrow, hstage⟩ := hattempt row rfl
      exact (h.execute (.setStageAttempt (row.finish .CANCELLED now) hrow hstage)).mono
        fun _ σ₁ db₁ h₁ => ⟨_, h₁⟩
    · exact hkeep

theorem latestStageAttempt_mem {view : Database} {row : RunStageAttemptRow}
    (h : view.latestStageAttempt r = some row) :
    row.runId = r ∧ (view.rowsOf r).stages row.stage = some row := by
  have hmem := (mem_insertionSort _).mp (mem_of_mem_head? h)
  obtain ⟨hrow, hr⟩ := mem_filter.mp hmem
  obtain rfl : row.runId = r := by simpa using hr
  exact ⟨rfl, get?_of_mem hrow⟩

theorem cancelUnplanned_wp (run : RunRow) (h : Owns run.id x₀ x σ db) (hrun : x.run = some run)
    (now : Time) (eventId : UUID) :
    (Api.cancelUnplanned run now eventId).planningWp (fun _ σ' db' =>
      ∃ stages, Owns run.id x₀ { x with run := some (run.enter .CANCELLED now), stages } σ' db')
      σ db := by
  refine .bind ((h.require _).mono fun _ σ₁ db₁ ⟨h₁, _⟩ => ?_)
  refine .bind ((recordStateDuration_wp h₁).mono fun _ σ₂ db₂ h₂ => ?_)
  refine .bind ((h₂.execute (.setRun (run.enter .CANCELLED now) hrun)).mono
    fun _ σ₃ db₃ h₃ => ?_)
  refine .bind ((h₃.query _).mono ?_)
  rintro attempt σ₄ db₄ ⟨h₄, view, hview, rfl⟩
  refine .bind ((cancelStageAttempt_wp h₄ (fun row hrow => ?_)).mono ?_)
  · have hlatest := latestStageAttempt_mem hrow
    rwa [hview] at hlatest
  · rintro _ σ₅ db₅ ⟨stages, h₅⟩
    exact (publish_wp h₅).mono fun _ σ₆ db₆ h₆ => ⟨stages, h₆⟩

theorem cancelRun_wp :
    (Api.cancelRun runId now eventId).planningWp
      (fun _ => Accounted service (.cancelRun runId now eventId)) {} db := by
  refine .bind (selectRunForUpdate_wp (fun _ _ _ => trivial) fun run x₀ σ db h hrun => ?_)
  have hid := h.run_id hrun
  subst hid
  dsimp only
  split
  · trivial
  · rename_i hopen
    refine .bind ((h.execute (.setRun (Api.requested run now) hrun)).mono fun _ σ₁ db₁ h₁ => ?_)
    split
    · rename_i hunplanned
      refine .bind ((cancelUnplanned_wp (Api.requested run now) h₁ rfl now eventId).mono ?_)
      rintro _ σ₂ db₂ ⟨stages, h₂⟩
      exact wp.pure _ fun db₃ hr₃ => (h₂.rely hr₃).accounted
        (.cancel hrun hopen (by simp [RunRow.enter, Api.requested]) (.inl ⟨rfl, hunplanned⟩))
    · exact wp.pure _ fun db₂ hr₂ =>
        (h₁.rely hr₂).accounted (.cancel hrun hopen (by simp [Api.requested]) (.inr rfl))

theorem planning_accounted (service : RunPlanningService) (call : PlanningCall) (db : Database) :
    (call.body service).planningWp (fun _ => Accounted service call) {} db := by
  cases call with
  | claimRun now =>
    exact .discard ((claimRun_wp).mono fun _ _ _ h => h.1)
  | persistPlan plan stageAttemptId fence now draws =>
    exact .discard persistPlan_wp
  | failRun runId stageAttemptId fence error attempts now =>
    exact failRun_wp
  | cancelRun runId now eventId => exact .discard cancelRun_wp

end

end AutoSwe
