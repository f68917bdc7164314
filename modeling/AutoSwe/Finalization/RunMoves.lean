import AutoSwe.Planning.Transactions
import AutoSwe.Scheduler.Footprints

/-!
# The life of a run

What the parts of the platform may do to the rows of one run, in the terms of the
run alone: it is requested, planned and repaired, its tasks are worked on, and
its row enters other states. A run enters a terminal state only when nothing of
it is open. `RunMove` is that machine; a finished run of it is frozen
(`RunMove.finished`), and a run that is being cancelled gets no new tasks
(`RunMove.swept`).
-/

namespace AutoSwe

open Relational Transaction Prog Database

def unplannedStates : List RunStatus := [.PENDING, .PLANNING]

theorem unplanned_open (h : state ∈ unplannedStates) : state ∉ runTerminalStates := by
  cases state <;> simp_all [unplannedStates, runTerminalStates]

namespace RunRows

variable (x : RunRows)

def Finished : Prop := ∃ run, x.run = some run ∧ run.state ∈ runTerminalStates

def Unplanned : Prop := ∀ run, x.run = some run → run.state ∈ unplannedStates

def Requested : Prop := ∃ run, x.run = some run ∧ run.cancellationRequestedAt ≠ none

def Quiet : Prop := ∀ id task, x.tasks id = some task → task.state ∈ terminalTaskStates

/-- The cancellation of the run was requested, and what is open is among `ids`. -/
structure Swept (ids : List UUID) : Prop where
  requested : x.Requested
  settled : ∀ id task, x.tasks id = some task → task.state ∈ terminalTaskStates ∨ id ∈ ids

structure Lawful : Prop where
  quiet : x.Finished → x.Quiet
  bare : x.Unplanned → x.tasks = (fun _ => none) ∧ x.revisions = fun _ => none

end RunRows

/-- No task is added and no settled one is changed. -/
structure Follows (tasks tasks' : UUID → Option TaskRow) : Prop where
  absent : ∀ id, tasks id = none → tasks' id = none
  settled : ∀ id task, tasks id = some task → task.state ∈ terminalTaskStates →
    tasks' id = some task

theorem Follows.refl (tasks : UUID → Option TaskRow) : Follows tasks tasks :=
  ⟨fun _ h => h, fun _ _ h _ => h⟩

inductive RunMove : RunRows → RunRows → Prop
  | work {x x' : RunRows} (hrun : x'.run = x.run) (hrevisions : x'.revisions = x.revisions)
      (htasks : Follows x.tasks x'.tasks) : RunMove x x'
  | request {x : RunRows} {run : RunRow} {stages : Stage → Option RunStageAttemptRow}
      (hrun : x.run = none) (hstate : run.state = .PENDING) :
      RunMove x { x with run := some run, stages }
  | enter {x : RunRows} {run run' : RunRow} {stages : Stage → Option RunStageAttemptRow}
      (hrun : x.run = some run) (hopen : run.state ∉ runTerminalStates)
      (hrequested : run.cancellationRequestedAt ≠ none → run'.cancellationRequestedAt ≠ none)
      (hplanned : run'.state ∈ unplannedStates → run.state ∈ unplannedStates)
      (hquiet : run'.state ∈ runTerminalStates → run.state ∈ unplannedStates ∨ x.Quiet) :
      RunMove x { x with run := some run', stages }
  | plan {x x' : RunRows} {run run' : RunRow} (hrun : x.run = some run)
      (hstate : run.state = .PLANNING) (hrequest : run.cancellationRequestedAt = none)
      (hrun' : x'.run = some run') (hstate' : run'.state = .EXECUTING) : RunMove x x'
  | repair {x x' : RunRows} {run : RunRow} {n : Nat} (hrun : x.run = some run)
      (hopen : run.state ∉ runTerminalStates) (hrequest : run.cancellationRequestedAt = none)
      (hplanned : x.revisions n ≠ none) (hrun' : x'.run = x.run)
      (htasks : ∀ id task, x.tasks id = some task → x'.tasks id = some task) : RunMove x x'

namespace RunMove

variable {x x' : RunRows}

theorem refl (x : RunRows) : RunMove x x := .work rfl rfl (.refl _)

theorem quiet_of_follows (h : Follows x.tasks x'.tasks) (hx : x.Quiet) : x'.tasks = x.tasks := by
  funext id
  cases htask : x.tasks id with
  | none => exact h.absent id htask
  | some task => exact h.settled id task htask (hx id task htask)

theorem lawful (h : RunMove x x') (hx : x.Lawful) : x'.Lawful := by
  cases h with
  | work hrun hrevisions htasks =>
    refine ⟨?_, fun hunplanned => ?_⟩
    · rintro ⟨run, hsome, hfinished⟩
      have hquiet := hx.quiet ⟨run, hrun ▸ hsome, hfinished⟩
      intro id task htask
      rw [quiet_of_follows htasks hquiet] at htask
      exact hquiet id task htask
    · obtain ⟨hnone, hrevision⟩ := hx.bare fun run hsome => hunplanned run (hrun ▸ hsome)
      exact ⟨funext fun id => htasks.absent id (congrFun hnone id), hrevisions.trans hrevision⟩
  | request hrun hstate =>
    refine ⟨?_, fun _ => hx.bare (by simp [RunRows.Unplanned, hrun])⟩
    rintro ⟨_, ⟨⟩, hfinished⟩
    simp [hstate, runTerminalStates] at hfinished
  | @enter run run' _ hrun hopen _ hplanned hquiet =>
    have hbare : run.state ∈ unplannedStates → _ := fun hunplanned =>
      hx.bare fun other hother => by
        rw [hrun] at hother
        cases hother
        exact hunplanned
    refine ⟨?_, fun hunplanned => hbare (hplanned (hunplanned run' rfl))⟩
    rintro ⟨_, ⟨⟩, hfinished⟩
    rcases hquiet hfinished with hunplanned | hquiet
    · intro id task htask
      simp [(hbare hunplanned).1] at htask
    · exact hquiet
  | plan _ _ _ hrun' hstate' =>
    refine ⟨?_, fun hunplanned => ?_⟩
    · rintro ⟨run, hsome, hfinished⟩
      rw [hrun'] at hsome
      cases hsome
      simp [hstate', runTerminalStates] at hfinished
    · have hmem := hunplanned _ hrun'
      simp [hstate', unplannedStates] at hmem
  | repair hrun hopen _ hplanned hrun' =>
    refine ⟨?_, fun hunplanned => ?_⟩
    · rintro ⟨run, hsome, hfinished⟩
      rw [hrun', hrun] at hsome
      cases hsome
      exact absurd hfinished hopen
    · have hbare := hx.bare fun run hsome => hunplanned run (hrun'.trans hsome)
      exact absurd (congrFun hbare.2 _) hplanned

theorem finished (h : RunMove x x') (hx : x.Lawful) (hfinished : x.Finished) :
    x'.Finished ∧ x'.tasks = x.tasks := by
  have hquiet := hx.quiet hfinished
  obtain ⟨run, hsome, hstate⟩ := hfinished
  have hterminal : ∀ other, x.run = some other → other.state ∈ runTerminalStates := by
    intro other hother
    rw [hsome] at hother
    cases hother
    exact hstate
  cases h with
  | work hrun _ htasks => exact ⟨⟨run, hrun.trans hsome, hstate⟩, quiet_of_follows htasks hquiet⟩
  | request hrun =>
    rw [hsome] at hrun
    cases hrun
  | enter hrun hopen => exact absurd (hterminal _ hrun) hopen
  | plan hrun hplanning =>
    exact absurd (hterminal _ hrun) (unplanned_open (by simp [hplanning, unplannedStates]))
  | repair hrun hopen => exact absurd (hterminal _ hrun) hopen

theorem requested (h : RunMove x x') (hx : x.Requested) : x'.Requested := by
  obtain ⟨run, hsome, hrequest⟩ := hx
  have hrequests : ∀ other, x.run = some other → other.cancellationRequestedAt ≠ none := by
    intro other hother
    rw [hsome] at hother
    cases hother
    exact hrequest
  cases h with
  | work hrun => exact ⟨run, hrun.trans hsome, hrequest⟩
  | request hrun =>
    rw [hsome] at hrun
    cases hrun
  | enter hrun _ hrequested => exact ⟨_, rfl, hrequested (hrequests _ hrun)⟩
  | plan hrun _ hnone => exact absurd hnone (hrequests _ hrun)
  | repair hrun _ hnone => exact absurd hnone (hrequests _ hrun)

theorem swept (h : RunMove x x') (hx : x.Swept ids) : x'.Swept ids := by
  refine ⟨h.requested hx.requested, ?_⟩
  obtain ⟨run, hsome, hrequest⟩ := hx.requested
  cases h with
  | work _ _ htasks =>
    intro id task htask
    cases hbefore : x.tasks id with
    | none =>
      rw [htasks.absent id hbefore] at htask
      cases htask
    | some before =>
      refine (hx.settled id before hbefore).imp_left fun hterminal => ?_
      rw [htasks.settled id before hbefore hterminal] at htask
      cases htask
      exact hterminal
  | request | enter => exact hx.settled
  | plan hrun _ hnone | repair hrun _ hnone =>
    rw [hsome] at hrun
    cases hrun
    exact absurd hnone hrequest

end RunMove

/-! ## The scheduler works on tasks -/

structure SamePlans (db db' : Database) : Prop where
  runs : db'.runs = db.runs
  revisions : db'.planRevisions = db.planRevisions
  absent : ∀ id, db.tasks.get? id = none → db'.tasks.get? id = none

theorem SamePlans.refl (db : Database) : SamePlans db db := ⟨rfl, rfl, fun _ h => h⟩

theorem SamePlans.trans (h : SamePlans a b) (h' : SamePlans b c) : SamePlans a c :=
  ⟨h'.runs.trans h.runs, h'.revisions.trans h.revisions, fun id hid =>
    h'.absent id (h.absent id hid)⟩

theorem RowWrite.samePlans (h : RowWrite may False False write) (db : Database) :
    SamePlans db (write db) := by
  refine ⟨h.keeps (t := .runs) id db, h.keeps (t := .planRevisions) id db, fun id hid => ?_⟩
  cases h with
  | set row => simp [Table.get?_set, hid]
  | create _ _ hcreates => exact hcreates.elim
  | ambient hruns => exact hruns.elim
  | release | drop => exact hid
  | log h =>
    obtain ⟨auditEvents, outbox, stateDurations, he⟩ := h db
    rwa [he]
  | attempt _ h | graph _ h | reserve _ h | lease _ h =>
    obtain ⟨rows, he⟩ := h db
    rwa [he]

theorem Move.runId (h : Move completed v v') (hrow : v.row = some row) :
    ∃ row', v'.row = some row' ∧ row'.runId = row.runId := by
  have hsame : ∀ row', v.row = some row' → row'.runId = row.runId := by
    intro row' hrow'
    rw [hrow] at hrow'
    cases hrow'
    rfl
  cases h with
  | create hnew => simp [hnew] at hrow
  | promote hrow' | drop hrow' | claim hrow' | start hrow' | settle hrow' =>
    have hrun := hsame _ hrow'
    exact ⟨_, rfl, hrun⟩
  | unreserve | renew | attempt | release | graph => exact ⟨row, hrow, rfl⟩

theorem SamePlans.follows (h : SamePlans db db') (heffect : TaskEffect Anywhere db db') (r : UUID) :
    Follows (db.rowsOf r).tasks (db'.rowsOf r).tasks := by
  refine ⟨fun id hnone => ?_, fun id task htask hterminal => ?_⟩
  · cases hrow : db.tasks.get? id with
    | none => simp [rowsOf, h.absent id hrow]
    | some row =>
      have hrun : row.runId ≠ r := by simpa [rowsOf, hrow] using hnone
      obtain ⟨row', hrow', hsame⟩ := heffect.view_invariant (j := id)
        (I := fun v => ∃ row', v.row = some row' ∧ row'.runId = row.runId)
        (fun hmove hfound => by
          obtain ⟨row', hrow', hsame⟩ := hfound
          obtain ⟨row'', hrow'', hsame'⟩ := hmove.runId hrow'
          exact ⟨row'', hrow'', hsame'.trans hsame⟩)
        ⟨row, hrow, rfl⟩
      have hget : db'.tasks.get? id = some row' := hrow'
      simp [rowsOf, hget, hsame, hrun]
  · obtain ⟨hget, hrun⟩ := task_of_rowsOf htask
    have hstays : db'.tasks.get? id = some task := heffect.view_invariant (j := id)
      (I := fun v => v.row = some task)
      (fun hmove hrow => hmove.terminal_stays hrow hterminal) hget
    simp [rowsOf, hstays, hrun]

/-- The transactions of the scheduler and the workers that leave runs and plans alone. -/
def Call.OfTasks (call : Call) : Prop := ¬ call.creates ∧ ¬ call.writesRuns

theorem Call.samePlans (service : SchedulerService) (call : Call) (h : call.OfTasks)
    (db : Database) : SamePlans db ((call.body service).commit db).2 := by
  have hwrites := call.rowWrites service
  rw [eq_false h.1, eq_false h.2] at hwrites
  exact (Writes.refines SamePlans.refl SamePlans.trans
    (hwrites.mono fun _ hwrite => hwrite.samePlans)).commit SamePlans.refl trivial

theorem Call.runMove (service : SchedulerService) (call : Call) (h : call.OfTasks)
    (db : Database) (r : UUID) :
    RunMove (db.rowsOf r) (((call.body service).commit db).2.rowsOf r) := by
  have hsame := call.samePlans service h db
  refine .work ?_ ?_ (hsame.follows (call.effect service db) r)
  · simp [rowsOf, hsame.runs]
  · simp [rowsOf, hsame.revisions]

/-! ## Planning -/

theorem PlanningCall.runStep (service : RunPlanningService) (call : PlanningCall) (db : Database)
    (r : UUID) :
    ∃ locked, RunStep service call locked (db.rowsOf r)
      (((call.body service).commit db).2.rowsOf r) := by
  cases hrun : (call.body service).run db with
  | error e =>
    simp only [commit, hrun]
    exact ⟨False, .idle False.elim⟩
  | ok result =>
    obtain ⟨u, db'⟩ := result
    obtain ⟨σ, hdb, haccounted⟩ := (planning_accounted service call db).run hrun
    simp only [commit, hrun, hdb]
    exact ⟨_, haccounted.2 r⟩

theorem RunStep.runMove (h : RunStep service call locked x x') : RunMove x x' := by
  cases h with
  | idle => exact .refl x
  | @claim _ _ now run attempt _ hrun hclaimable =>
    simp only [RunRow.claimable, Bool.and_eq_true, Bool.or_eq_true, decide_eq_true_eq] at hclaimable
    have hstate : run.state ∈ unplannedStates := by
      rcases hclaimable.1 with h | ⟨h, -⟩ <;> simp [h, unplannedStates]
    refine .enter hrun (unplanned_open hstate) ?_ (fun _ => hstate) fun _ => .inl hstate
    simp [Option.isNone_iff_eq_none.mp hclaimable.2]
  | persist hrun hstate hopen => exact .plan hrun hstate hopen rfl rfl
  | fail hrun hstate =>
    have hunplanned : RunStatus.PLANNING ∈ unplannedStates := by simp [unplannedStates]
    rw [← hstate] at hunplanned
    exact .enter hrun (unplanned_open hunplanned) id (by simp [RunRow.enter, unplannedStates])
      fun _ => .inl hunplanned
  | cancel hrun hopen hrequested hstate =>
    refine .enter hrun hopen (fun _ => hrequested) ?_ ?_
    · rcases hstate with ⟨hstate, -⟩ | hstate
      · simp [hstate, unplannedStates]
      · simp [hstate]
    · rcases hstate with ⟨-, hunplanned⟩ | hstate
      · exact fun _ => .inl (by simpa [unplannedStates] using hunplanned)
      · exact fun hterminal => absurd (hstate ▸ hterminal) hopen

theorem PlanningCall.runMove (service : RunPlanningService) (call : PlanningCall) (db : Database)
    (r : UUID) : RunMove (db.rowsOf r) (((call.body service).commit db).2.rowsOf r) := by
  obtain ⟨locked, hstep⟩ := call.runStep service db r
  exact hstep.runMove

end AutoSwe
