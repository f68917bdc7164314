import AutoSwe.Finalization.Dispatchers

/-!
# Finished runs are frozen

No task of a finished run changes and none is added, as long as repairs reach
runs that are neither finished nor to be cancelled and no dispatcher finishes a
run over open tasks (`finished_run_frozen`). The repair itself does not look: the
debugger answers, an operator cancels, the run is resolved, and the repair adds
a task that is then promoted (`repair_of_cancelled_run`).
-/

namespace AutoSwe

open Transaction Coroutine LabelledRun Relation Activity Fleet Platform

/-- The activity that is carried out finds the circumstances that it needs. -/
def InTime (s : Dispatchers) : Event Job Answer Outside → Prop
  | .resume i answer => ∀ job a next, s.procs i = some (job, .await a next) →
      permitsTimely s.store answer a
  | _ => True

theorem lawful_empty : (({} : Database).rowsOf r).Lawful := by
  refine ⟨?_, fun _ => ⟨rfl, rfl⟩⟩
  rintro ⟨run, hrun, -⟩
  cases hrun

/-- Whatever the platform does, a finished run stays as it is. -/
theorem RunMoves.frozen (h : ReflTransGen RunMoves s s')
    (hlawful : (s.db.rowsOf r).Lawful) (hfinished : (s.db.rowsOf r).Finished) :
    (s'.db.rowsOf r).tasks = (s.db.rowsOf r).tasks := by
  have hkept := RunMoves.stable
    (J := fun x => x.Lawful ∧ x.Finished ∧ x.tasks = (s.db.rowsOf r).tasks)
    (fun hmove ⟨hlawful, hfinished, htasks⟩ => by
      obtain ⟨hfinished', htasks'⟩ := hmove.finished hlawful hfinished
      exact ⟨hmove.lawful hlawful, hfinished', htasks'.trans htasks⟩)
    h ⟨hlawful, hfinished, rfl⟩
  exact hkept.2.2

/-- Once a run is finished, its tasks are those that it has, they are terminal,
and they stay so. -/
theorem finished_run_frozen (parts : Installation) {s s' : Dispatchers}
    (hreach : Reach (step (dispatching parts)) (fun s e => Selects s e ∧ InTime s e)
      { store := {} } s)
    (hlater : Reach (step (dispatching parts)) (fun s e => Selects s e ∧ InTime s e) s s')
    (hrun : s.store.db.runs.get? r = some run) (hfinished : run.state ∈ runTerminalStates)
    (htask : s'.store.db.tasks.get? t = some task) (hr : task.runId = r) :
    s.store.db.tasks.get? t = some task ∧ task.state ∈ terminalTaskStates := by
  have hsys : Guaranteed (dispatching parts) permitsTimely RunMoves
      (fun s e => Selects s e ∧ InTime s e) :=
    dispatching_guaranteed parts fun s i answer job a next h hproc => h.2 job a next hproc
  have hstart : AllObey (dispatching parts) permitsTimely RunMoves
      { store := {} } := by
    intro i job p hproc
    cases hproc
  obtain ⟨hbefore, hobey⟩ := guarantee hsys hstart hreach
  obtain ⟨hafter, -⟩ := guarantee hsys hobey hlater
  have hlawful : (s.store.db.rowsOf r).Lawful :=
    RunMoves.stable RunMove.lawful hbefore lawful_empty
  have hdone : (s.store.db.rowsOf r).Finished := ⟨run, hrun, hfinished⟩
  have hmem : (s'.store.db.rowsOf r).tasks t = some task :=
    Option.filter_eq_some_iff.mpr ⟨htask, decide_eq_true hr⟩
  rw [RunMoves.frozen hafter hlawful hdone] at hmem
  exact ⟨(task_of_rowsOf hmem).1, hlawful.quiet hdone t task hmem⟩

def Activity.timely (db : Database) : Activity → Bool
  | .applyRepair runId .. => (db.runs.get? runId).all fun run =>
      run.state ∉ runTerminalStates && run.cancellationRequestedAt.isNone
  | .transitionRun runId target => target ∉ runTerminalStates || (db.openTasksOf runId).isEmpty
  | _ => true

theorem Activity.timely_of_check {db : Database} {a : Activity} (h : a.timely db = true) :
    a.Timely db := by
  unfold timely at h
  split at h
  · intro run hrun
    simpa [hrun] using h
  · intro hterminal
    simpa [hterminal] using h
  · unfold Timely
    split <;> simp_all

def inTime (s : Dispatchers) : Event Job Answer Outside → Bool
  | .resume i answer =>
    match s.procs i with
    | some (_, .await a _) => answer.failure.isSome || a.timely s.store.db
    | _ => true
  | _ => true

theorem inTime_of_check (s : Dispatchers) (e : Event Job Answer Outside)
    (h : (decide (Selects s e) && inTime s e) = true) : Selects s e ∧ InTime s e := by
  obtain ⟨hselects, hcheck⟩ := Bool.and_eq_true_iff.mp h
  refine ⟨of_decide_eq_true hselects, ?_⟩
  cases e with
  | resume =>
    intro job a next hproc hfailure
    refine timely_of_check ?_
    simpa [inTime, hproc, hfailure] using hcheck
  | _ => trivial

/-- An operator cancels the run, and a dispatcher resolves it. -/
def sampleCancel : List (Event Job Answer Outside) :=
  [.environment (.plan (.cancelRun 40 210 90)), .spawn 1 (.cancelRequestedRuns 50), .resume 1 {},
    .resume 1 {}, .resume 1 { now := 220 }]

/-- The debugger has proposed a repair of the executed run. -/
def sampleProposed : List (Event Job Answer Outside) :=
  [.spawn 0 (.advance 40 .EXECUTING), .resume 0 { now := 200 }, .resume 0 {},
    .resume 0 { objects := sampleFiles false }, .resume 0 {}, .resume 0 {},
    .resume 0 { mutation := ⟨80, 1, "repair", [sampleValidation 2 2 [1]]⟩ }]

theorem finished_run_frozen_sample : ∃ s s' : Dispatchers, ∃ task,
    (s.store.db.runs.get? 40).map RunRow.state = some .CANCELLED ∧
      s'.store.db.tasks.get? 1 = some task ∧ s.store.db.tasks.get? 1 = some task ∧
      task.state ∈ terminalTaskStates := by
  obtain ⟨hsame, hterminal⟩ := finished_run_frozen (r := 40) (t := 1) sampleInstallation
    (.checked inTime_of_check (sampleExecuted false ++ sampleCancel) (by decide +kernel))
    (.checked inTime_of_check
      [.environment (.schedule (.promoteRound 500 fun _ => {}) ⟨id, id⟩)] (by decide +kernel))
    (eq_some_get (by decide +kernel)) (by decide +kernel) (eq_some_get (by decide +kernel))
    (by decide +kernel)
  exact ⟨_, _, _, by decide +kernel, eq_some_get _, hsame, hterminal⟩

/-- The repair of a run that was cancelled while the debugger worked. -/
theorem repair_of_cancelled_run : ∃ s s' : Dispatchers,
    Reach sampleDispatching Selects { store := {} } s ∧ Reach sampleDispatching Selects s s' ∧
      (s.store.db.runs.get? 40).map RunRow.state = some .CANCELLED ∧
      s.store.db.tasks.get? 2 = none ∧
      (s'.store.db.tasks.get? 2).map (fun task => (task.runId, task.state)) = some (40, .READY) :=
  ⟨_, _, .checked (fun _ _ => of_decide_eq_true)
      (sampleExecuted false ++ sampleProposed ++ sampleCancel) (by decide +kernel),
    .checked (fun _ _ => of_decide_eq_true)
      [.resume 0 { objects := sampleFiles false }, .resume 0 {}, .resume 0 {}] (by decide +kernel),
    by decide +kernel, by decide +kernel, by decide +kernel⟩

end AutoSwe
