import AutoSwe.Lib.Journal
import AutoSwe.Planning.Service

/-!
# What planning transactions do to a run

A transaction of the planning stage works on the rows of the run that it has
locked, and on nothing else of other runs. `Owns` is that as an assertion about
one transaction among the others: whatever they commit, the rows of the locked
run are the ones it knows and the rows of other runs stay as they are.
`RunStep` is what a committed transaction did to the rows of a run.
-/

namespace AutoSwe

open Relational Transaction Table Option Session Function Prod

/-! ## The rows of a run -/

@[ext] structure RunRows where
  run : Option RunRow
  stages : Stage → Option RunStageAttemptRow
  revisions : Nat → Option PlanRevisionRow
  tasks : UUID → Option TaskRow

def Database.rowsOf (db : Database) (runId : UUID) : RunRows where
  run := db.runs.get? runId
  stages stage := db.stageAttempts.get? (runId, stage)
  revisions revision := db.planRevisions.get? (runId, revision)
  tasks id := (db.tasks.get? id).filter fun task => task.runId = runId

section RowsOf
variable {db db' : Database} {r : UUID}

theorem rowsOf_congr (hruns : db'.runs = db.runs) (hstages : db'.stageAttempts = db.stageAttempts)
    (hrevisions : db'.planRevisions = db.planRevisions) (htasks : db'.tasks = db.tasks) :
    db'.rowsOf r = db.rowsOf r := by
  simp [Database.rowsOf, hruns, hstages, hrevisions, htasks]

theorem rowsOf_setRun (h : (db.rowsOf run.id).run = some old) :
    (db.setRun run).rowsOf run.id = { db.rowsOf run.id with run := some run } := by
  refine RunRows.ext ?_ rfl rfl rfl
  exact get?_set_self h

theorem rowsOf_setRun_ne (h : r ≠ run.id) : (db.setRun run).rowsOf r = db.rowsOf r := by
  refine RunRows.ext ?_ rfl rfl rfl
  exact get?_set_ne _ (by exact h)

theorem rowsOf_setStageAttempt (h : (db.rowsOf row.runId).stages row.stage = some old) :
    (db.setStageAttempt row).rowsOf row.runId = { db.rowsOf row.runId with
      stages := update (db.rowsOf row.runId).stages row.stage (some row) } := by
  refine RunRows.ext rfl (funext fun stage => ?_) rfl rfl
  by_cases hstage : stage = row.stage
  · subst hstage
    have hself : (db.stageAttempts.set row).get? row.key = some row := get?_set_self h
    simpa [Database.rowsOf, Database.setStageAttempt, RunStageAttemptRow.key] using hself
  · have hne : (row.runId, stage) ≠ row.key := fun he => hstage (congrArg snd he)
    simpa [Database.rowsOf, Database.setStageAttempt, hstage] using get?_set_ne _ hne

theorem rowsOf_setStageAttempt_ne (h : r ≠ row.runId) :
    (db.setStageAttempt row).rowsOf r = db.rowsOf r := by
  refine RunRows.ext rfl (funext fun stage => ?_) rfl rfl
  exact get?_set_ne _ fun he => h (congrArg fst he)

theorem rowsOf_insertStageAttempt (h : (db.rowsOf row.runId).stages row.stage = none) :
    ({ db with stageAttempts := db.stageAttempts.insert row } : Database).rowsOf row.runId =
      { db.rowsOf row.runId with
        stages := update (db.rowsOf row.runId).stages row.stage (some row) } := by
  refine RunRows.ext rfl (funext fun stage => ?_) rfl rfl
  have hget : (db.stageAttempts.insert row).get? (row.runId, stage) = _ :=
    get?_insert h (row.runId, stage)
  by_cases hstage : stage = row.stage
  · subst hstage
    simpa [Database.rowsOf, RunStageAttemptRow.key] using hget
  · have hne : (row.runId, stage) ≠ row.key := fun he => hstage (congrArg snd he)
    simpa [Database.rowsOf, hstage, hne] using hget

theorem rowsOf_insertStageAttempt_ne (hr : r ≠ row.runId) :
    ({ db with stageAttempts := db.stageAttempts.insert row } : Database).rowsOf r =
      db.rowsOf r := by
  refine RunRows.ext rfl (funext fun stage => ?_) rfl rfl
  rcases get?_insert_cases db.stageAttempts row (r, stage) with hget | hget
  · exact hget
  · exact absurd (congrArg fst (key_of_get? hget)).symm hr

theorem rowsOf_insertPlanRevision (h : (db.rowsOf row.runId).revisions row.revision = none) :
    ({ db with planRevisions := db.planRevisions.insert row } : Database).rowsOf row.runId =
      { db.rowsOf row.runId with
        revisions :=
          update (db.rowsOf row.runId).revisions row.revision (some row) } := by
  refine RunRows.ext rfl rfl (funext fun revision => ?_) rfl
  have hget : (db.planRevisions.insert row).get? (row.runId, revision) = _ :=
    get?_insert h (row.runId, revision)
  by_cases hrevision : revision = row.revision
  · subst hrevision
    simpa [Database.rowsOf, PlanRevisionRow.key] using hget
  · have hne : (row.runId, revision) ≠ row.key := fun he => hrevision (congrArg snd he)
    simpa [Database.rowsOf, hrevision, hne] using hget

theorem rowsOf_insertPlanRevision_ne (hr : r ≠ row.runId) :
    ({ db with planRevisions := db.planRevisions.insert row } : Database).rowsOf r =
      db.rowsOf r := by
  refine RunRows.ext rfl rfl (funext fun revision => ?_) rfl
  rcases get?_insert_cases db.planRevisions row (r, revision) with hget | hget
  · exact hget
  · exact absurd (congrArg fst (key_of_get? hget)).symm hr

/-- A task that no run or the given one has, becomes one of the given run. -/
theorem rowsOf_task
    (hget : ∀ id, tasks.get? id = if id = row.id then some row else db.tasks.get? id)
    (hrun : ∀ old, db.tasks.get? row.id = some old → old.runId = row.runId) :
    ({ db with tasks } : Database).rowsOf row.runId = { db.rowsOf row.runId with
      tasks := update (db.rowsOf row.runId).tasks row.id (some row) } ∧
    ∀ r, r ≠ row.runId → ({ db with tasks } : Database).rowsOf r = db.rowsOf r := by
  refine ⟨RunRows.ext rfl rfl rfl (funext fun id => ?_), fun r hr =>
    RunRows.ext rfl rfl rfl (funext fun id => ?_)⟩
  · by_cases hid : id = row.id <;> simp [Database.rowsOf, hget, hid]
  · by_cases hid : id = row.id
    · subst hid
      have hold : (db.tasks.get? row.id).filter (fun task => task.runId = r) = none := by
        refine filter_eq_none_iff.mpr fun old hold => ?_
        simpa [hrun old hold] using Ne.symm hr
      simp [Database.rowsOf, hget, Ne.symm hr, hold]
    · simp [Database.rowsOf, hget, hid]

theorem rowsOf_insertTask (h : db.tasks.get? row.id = none) :
    ({ db with tasks := db.tasks.insert row } : Database).rowsOf row.runId =
      { db.rowsOf row.runId with
        tasks := update (db.rowsOf row.runId).tasks row.id (some row) } ∧
    ∀ r, r ≠ row.runId →
      ({ db with tasks := db.tasks.insert row } : Database).rowsOf r = db.rowsOf r :=
  rowsOf_task (get?_insert h) fun old hold => by simp [h] at hold

theorem rowsOf_setTask (h : db.tasks.get? row.id = some old) (hrun : old.runId = row.runId) :
    ({ db with tasks := db.tasks.set row } : Database).rowsOf row.runId =
      { db.rowsOf row.runId with
        tasks := update (db.rowsOf row.runId).tasks row.id (some row) } ∧
    ∀ r, r ≠ row.runId →
      ({ db with tasks := db.tasks.set row } : Database).rowsOf r = db.rowsOf r := by
  refine rowsOf_task (fun t => ?_) fun old' hold' => ?_
  · rw [get?_set]
    split
    · rename_i ht
      simp [ht, h]
    · rfl
  · obtain rfl : old = old' := some.inj (h.symm.trans hold')
    exact hrun

theorem task_of_rowsOf {id : UUID} (h : (db.rowsOf r).tasks id = some task) :
    db.tasks.get? id = some task ∧ task.runId = r := by
  simpa [Database.rowsOf, filter_eq_some_iff] using h

end RowsOf

/-! ## Working under the lock of a run -/

/-- The others leave the rows of a locked run and a locked task alone. -/
def planningRely : Rely Database Lock where
  rel held db db' := (∀ r, Lock.run r ∈ held → db'.rowsOf r = db.rowsOf r) ∧
    ∀ id, Lock.task id ∈ held → db'.tasks.get? id = db.tasks.get? id
  refl _ _ := ⟨fun _ _ => rfl, fun _ _ => rfl⟩
  trans h h' := ⟨fun r hr => (h'.1 r hr).trans (h.1 r hr), fun id hid =>
    (h'.2 id hid).trans (h.2 id hid)⟩

theorem planningRely_mono (hsub : held ⊆ held')
    (h : planningRely.rel held' db db') : planningRely.rel held db db' :=
  ⟨fun r hr => h.1 r (hsub hr), fun id hid => h.2 id (hsub hid)⟩

/-- The transaction has locked the run, found its rows to be `x₀` and made them
`x`. -/
structure Owns (r : UUID) (x₀ x : RunRows) (σ : Local Database Lock) (db : Database) : Prop where
  locked : Lock.run r ∈ σ.held
  only : ∀ r', Lock.run r' ∈ σ.held → r' = r
  found : db.rowsOf r = x₀
  rows : ∀ d, planningRely.rel σ.held db d → (σ.own d).rowsOf r = x
  others : ∀ d, planningRely.rel σ.held db d → ∀ r', r' ≠ r →
    (σ.own d).rowsOf r' = d.rowsOf r'
  tasks : ∀ d, planningRely.rel σ.held db d → ∀ id, Lock.task id ∉ σ.held →
    (σ.own d).tasks.get? id = d.tasks.get? id

structure Untouched (σ : Local Database Lock) : Prop where
  unlocked : ∀ r, Lock.run r ∉ σ.held
  own : σ.own = id

/-- The weakest precondition of a planning transaction. -/
abbrev Session.planningWp (p : Session α) (Q : α → Local Database Lock → Database → Prop)
    (σ : Local Database Lock) (db : Database) : Prop :=
  p.wp planningRely (fun _ _ => True) Q σ db

namespace Owns

variable {r : UUID} {x₀ x x' : RunRows} {σ : Local Database Lock} {db db' : Database}

theorem rely (h : Owns r x₀ x σ db) (hr : planningRely.rel σ.held db db') :
    Owns r x₀ x σ db' where
  locked := h.locked
  only := h.only
  found := (hr.1 r h.locked).trans h.found
  rows d hd := h.rows d (planningRely.trans hr hd)
  others d hd := h.others d (planningRely.trans hr hd)
  tasks d hd := h.tasks d (planningRely.trans hr hd)

theorem view (h : Owns r x₀ x σ db) : (σ.own db).rowsOf r = x :=
  h.rows db (planningRely.refl _ _)

theorem run_id (h : Owns r x₀ x σ db) (hrun : x₀.run = some run) : run.id = r := by
  rw [← h.found] at hrun
  exact key_of_get? hrun

theorem saw (h : Owns r x₀ x σ db) (view : Database) : Owns r x₀ x (σ.saw view) db :=
  ⟨h.locked, h.only, h.found, h.rows, h.others, h.tasks⟩

theorem took (h : Owns r x₀ x σ db) (id : UUID) : Owns r x₀ x (σ.took [.task id]) db where
  locked := .inl h.locked
  only r' hr' := by
    rcases Local.mem_took.mp hr' with hr' | hr'
    · exact h.only r' hr'
    · simp at hr'
  found := h.found
  rows d hd := h.rows d (planningRely_mono Set.subset_union_left hd)
  others d hd := h.others d (planningRely_mono Set.subset_union_left hd)
  tasks d hd id' hid' := h.tasks d (planningRely_mono Set.subset_union_left hd) id'
    fun hheld => hid' (.inl hheld)

theorem wrote (h : Owns r x₀ x σ db) {view : Database}
    (hrows : ∀ d, planningRely.rel σ.held db d → (write view (σ.own d)).rowsOf r = x')
    (hothers : ∀ d, planningRely.rel σ.held db d → ∀ r', r' ≠ r →
      (write view (σ.own d)).rowsOf r' = (σ.own d).rowsOf r')
    (htasks : ∀ d, planningRely.rel σ.held db d → ∀ id, Lock.task id ∉ σ.held →
      (write view (σ.own d)).tasks.get? id = (σ.own d).tasks.get? id) :
    Owns r x₀ x' (σ.wrote write view) db where
  locked := h.locked
  only := h.only
  found := h.found
  rows := hrows
  others d hd r' hr' := (hothers d hd r' hr').trans (h.others d hd r' hr')
  tasks d hd id hid := (htasks d hd id hid).trans (h.tasks d hd id hid)

theorem task_stable {id : UUID} (h : Owns r x₀ x σ db) (hid : Lock.task id ∈ σ.held)
    (hd : planningRely.rel σ.held db d) (hnone : (σ.own db).tasks.get? id = none) :
    (σ.own d).tasks.get? id = none := by
  -- a task is one of its run: of `r`, whose rows are known, or of a run that is left alone
  refine eq_none_iff_forall_ne_some.mpr fun task htask => ?_
  have hrow : ((σ.own d).rowsOf task.runId).tasks id = some task := by
    simp [Database.rowsOf, htask]
  by_cases hr : task.runId = r
  · rw [hr, h.rows d hd, ← h.view] at hrow
    rw [(task_of_rowsOf hrow).1] at hnone
    cases hnone
  · rw [h.others d hd _ hr] at hrow
    have hsame : db.tasks.get? id = some task := by
      rw [← hd.2 id hid]
      exact (task_of_rowsOf hrow).1
    have hview : ((σ.own db).rowsOf task.runId).tasks id = some task := by
      rw [h.others db (planningRely.refl _ _) _ hr]
      simp [Database.rowsOf, hsame]
    rw [(task_of_rowsOf hview).1] at hnone
    cases hnone

end Owns

/-! ## Statements under the lock of a run -/

/-- A write that makes the rows `x` of the run `x'`. -/
def RunWrite (r : UUID) (x x' : RunRows) (write : Database → Database) : Prop :=
  ∀ d, d.rowsOf r = x → (write d).rowsOf r = x' ∧
    (∀ r', r' ≠ r → (write d).rowsOf r' = d.rowsOf r') ∧ (write d).tasks = d.tasks

section RunWrite
variable {r : UUID} {x : RunRows}

theorem RunWrite.log (hruns : ∀ d, (write d).runs = d.runs)
    (hstages : ∀ d, (write d).stageAttempts = d.stageAttempts)
    (hrevisions : ∀ d, (write d).planRevisions = d.planRevisions)
    (htasks : ∀ d, (write d).tasks = d.tasks) : RunWrite r x x write :=
  fun d hd => ⟨(rowsOf_congr (hruns d) (hstages d) (hrevisions d) (htasks d)).trans hd,
    fun _ _ => rowsOf_congr (hruns d) (hstages d) (hrevisions d) (htasks d), htasks d⟩

theorem RunWrite.setRun (run : RunRow) (hrun : x.run = some old) :
    RunWrite run.id x { x with run := some run } (Database.setRun run) := by
  rintro d rfl
  exact ⟨rowsOf_setRun hrun, fun r' hr' => rowsOf_setRun_ne hr', rfl⟩

theorem RunWrite.setStageAttempt (row : RunStageAttemptRow)
    (hr : row.runId = r) (hrow : x.stages row.stage = some old) :
    RunWrite r x { x with stages := update x.stages row.stage (some row) }
      (Database.setStageAttempt row) := by
  subst hr
  rintro d rfl
  exact ⟨rowsOf_setStageAttempt hrow, fun r' hr' => rowsOf_setStageAttempt_ne hr', rfl⟩

theorem RunWrite.insertStageAttempt (hrow : x.stages row.stage = none) : RunWrite row.runId x
      { x with stages := update x.stages row.stage (some row) }
      (fun db => { db with stageAttempts := db.stageAttempts.insert row }) := by
  rintro d rfl
  exact ⟨rowsOf_insertStageAttempt hrow, fun r' hr' => rowsOf_insertStageAttempt_ne hr', rfl⟩

theorem RunWrite.insertPlanRevision (row : PlanRevisionRow)
    (hrow : x.revisions row.revision = none) :
    RunWrite row.runId x
      { x with revisions := update x.revisions row.revision (some row) }
      (fun db => { db with planRevisions := db.planRevisions.insert row }) := by
  rintro d rfl
  exact ⟨rowsOf_insertPlanRevision hrow, fun r' hr' => rowsOf_insertPlanRevision_ne hr', rfl⟩

end RunWrite

namespace Owns

variable {r : UUID} {x₀ x x' : RunRows} {σ : Local Database Lock} {db : Database}

theorem query (h : Owns r x₀ x σ db) (read : Database → α) :
    planningWp (Prog.query read) (fun a σ' db' => Owns r x₀ x σ' db' ∧
      ∃ view : Database, view.rowsOf r = x ∧ a = read view) σ db := by
  intro db₁ hr₁ db₂ hr₂
  exact ⟨((h.rely hr₁).saw _).rely hr₂, _, (h.rely hr₁).view, rfl⟩

theorem require (h : Owns r x₀ x σ db) (checked : Except Raised Unit) :
    planningWp (require checked)
      (fun _ σ' db' => Owns r x₀ x σ' db' ∧ checked = .ok ()) σ db := by
  cases checked with
  | error e => trivial
  | ok u => exact fun db₁ hr₁ => ⟨h.rely hr₁, rfl⟩

theorem checked (h : Owns r x₀ x σ db) {K : RunRows → Prop}
    {write : Database → Except Raised (Database → Database)}
    (hwrite : ∀ view w, view.rowsOf r = x → write view = .ok w → ∃ x', K x' ∧ RunWrite r x x' w) :
    planningWp (Prog.checked write)
      (fun _ σ' db' => ∃ x', K x' ∧ Owns r x₀ x' σ' db') σ db := by
  intro db₁ hr₁
  have h₁ := h.rely hr₁
  dsimp only
  cases hview : write (σ.own db₁) with
  | error e => trivial
  | ok w =>
    obtain ⟨x', hK, hw⟩ := hwrite _ w h₁.view hview
    refine fun db₂ hr₂ => ⟨x', hK, Owns.rely ?_ hr₂⟩
    refine h₁.wrote (fun d hd => ?_) (fun d hd r' hr' => ?_) fun d hd id _ => ?_
    · simpa [hview] using (hw _ (h₁.rows d hd)).1
    · simpa [hview] using (hw _ (h₁.rows d hd)).2.1 r' hr'
    · simp [hview, (hw _ (h₁.rows d hd)).2.2]

theorem execute (h : Owns r x₀ x σ db) (hwrite : RunWrite r x x' write) :
    planningWp (Prog.execute write) (fun _ => Owns r x₀ x') σ db := by
  intro db₁ hr₁ db₂ hr₂
  have h₁ := h.rely hr₁
  refine Owns.rely (h₁.wrote (fun d hd => ?_) (fun d hd r' hr' => ?_) fun d hd id _ => ?_) hr₂
  · exact (hwrite _ (h₁.rows d hd)).1
  · exact (hwrite _ (h₁.rows d hd)).2.1 r' hr'
  · simp [(hwrite _ (h₁.rows d hd)).2.2]

end Owns

end AutoSwe
