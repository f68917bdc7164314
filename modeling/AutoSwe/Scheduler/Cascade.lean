import AutoSwe.Scheduler.Invariants

/-!
# The cascade of cancellations

`cancelBlockedDependents` cancels the pending tasks with a dependency that failed or was
cancelled, but a round looks at the first `limit` pending rows and ends the call if none of
them is blocked. `cancelBlockedDependents_complete_iff` says when nothing is hidden by that, and
that calls from which nothing is hidden end with no pending dependent of a failed task.
-/

namespace AutoSwe

open Relational Transaction Prog Table List Database
open Relation (TransGen)

/-! ## Blocked tasks -/

/-- The task has failed or was cancelled. -/
def Database.Dead (db : Database) (t : UUID) : Prop :=
  ∃ row, db.tasks.get? t = some row ∧ (row.state = .FAILED ∨ row.state = .CANCELLED)

/-- A pending task with a dependency that is dead. -/
def Database.Blocked (db : Database) (task : TaskRow) : Prop :=
  task ∈ db.pendingTasks ∧ ∃ d ∈ task.dependencies, db.Dead d

/-- A blocked task is among the rows that a round looks at, if there is one. -/
def Database.Unhidden (db : Database) (limit : Nat) : Prop :=
  (∃ task, db.Blocked task) → ∃ task ∈ db.pendingTasks.take limit, db.Blocked task

theorem mem_pendingTasks {db : Database} :
    task ∈ db.pendingTasks ↔ db.tasks.get? task.id = some task ∧ task.state = .PENDING := by
  simp only [pendingTasks, mem_insertionSort, mem_filter, decide_eq_true_eq]
  exact and_congr_left' ⟨get?_of_mem, mem_of_get?⟩

theorem mem_terminalAmong {db : Database} {wanted : List UUID} :
    t ∈ db.terminalAmong wanted ↔ t ∈ wanted ∧ db.Dead t := by
  simp only [terminalAmong, mem_map, mem_filter, Bool.and_eq_true,
    decide_eq_true_eq, Bool.or_eq_true]
  constructor
  · rintro ⟨row, ⟨hrow, hwanted, hstate⟩, rfl⟩
    exact ⟨hwanted, row, get?_of_mem hrow, hstate⟩
  · rintro ⟨hwanted, row, hrow, hstate⟩
    obtain rfl : row.id = t := key_of_get? hrow
    exact ⟨row, ⟨mem_of_get? hrow, hwanted, hstate⟩, rfl⟩

/-! ## One round -/

/-- Pending tasks were cancelled, and nothing else happened to the tasks. -/
def OnlyCancels (db db' : Database) : Prop :=
  ∀ t, db'.tasks.get? t = db.tasks.get? t ∨ ∃ row now, db.tasks.get? t = some row ∧
    row.state = .PENDING ∧ db'.tasks.get? t = some (row.enter .CANCELLED now)

theorem OnlyCancels.refl : OnlyCancels db db := fun _ => .inl rfl

theorem OnlyCancels.trans (h : OnlyCancels db db₁) (h' : OnlyCancels db₁ db₂) :
    OnlyCancels db db₂ := by
  intro t
  rcases h' t with hsame | ⟨row, now, hrow, hstate, hcancelled⟩
  · rw [hsame]
    exact h t
  · rcases h t with hsame | ⟨row', now', -, -, hcancelled'⟩
    · exact .inr ⟨row, now, hsame ▸ hrow, hstate, hcancelled⟩
    · rw [hcancelled'] at hrow
      cases hrow
      cases hstate

theorem run_cancelAll : ∀ {tasks : List TaskRow} {db : Database},
    StillIn .PENDING tasks db → ∃ db', (each (moveTo .CANCELLED draws) tasks).run db =
      .ok ((), db') ∧ OnlyCancels db db' ∧ ∀ task ∈ tasks, db'.Dead task.id
  | [], db, _ => ⟨db, rfl, .refl, fun _ h => (not_mem_nil h).elim⟩
  | task :: rest, db, h => by
    obtain ⟨hrow, hstate⟩ := h.2 task mem_cons_self
    have hmoved : (moveTo .CANCELLED draws task).run db =
        .ok ((), db.moveTask task .CANCELLED (draws task.id)) := by
      have hlegal : TaskStatus.CANCELLED ∈ taskTransitions task.state := by
        rw [hstate]
        decide
      rw [moveTo, run_bind, transitionTask_of_legal
        (taskIn_eq_some.mpr ⟨hrow, rfl⟩) hlegal]
      rfl
    have hself : (db.moveTask task .CANCELLED (draws task.id)).tasks.get? task.id =
        some (task.enter .CANCELLED (draws task.id).now) := get?_set_self hrow
    have hother : ∀ t, t ≠ task.id →
        (db.moveTask task .CANCELLED (draws task.id)).tasks.get? t = db.tasks.get? t :=
      fun t hne => get?_set_ne db.tasks hne
    have hfirst : OnlyCancels db (db.moveTask task .CANCELLED (draws task.id)) := by
      intro t
      by_cases ht : t = task.id
      · subst ht
        exact .inr ⟨task, _, hrow, hstate, hself⟩
      · exact .inl (hother t ht)
    have hstill : StillIn .PENDING rest (db.moveTask task .CANCELLED (draws task.id)) := by
      obtain ⟨hnew, hrest⟩ := nodup_cons.mp h.1
      refine ⟨hrest, fun other hmem => ?_⟩
      obtain ⟨hrow', hstate'⟩ := h.2 other (mem_cons_of_mem _ hmem)
      exact ⟨(hother _ fun heq => hnew (heq ▸ mem_map_of_mem hmem)).trans hrow', hstate'⟩
    obtain ⟨db', hrun, hcancels, hdead⟩ := run_cancelAll hstill
    refine ⟨db', ?_, hfirst.trans hcancels, forall_mem_cons.mpr ⟨?_, hdead⟩⟩
    · rw [each, run_bind, hmoved]
      exact hrun
    · rcases hcancels task.id with hsame | ⟨row, now, -, -, hcancelled⟩
      · exact ⟨_, hsame.trans hself, .inr rfl⟩
      · exact ⟨_, hcancelled, .inr rfl⟩

/-- A round cancels the blocked rows that it looks at. -/
theorem run_cancelBlockedRound (limit : Nat) (draws : UUID → Draw) (db : Database) :
    ∃ count db', (cancelBlockedRound limit draws).run db = .ok (count, db') ∧ OnlyCancels db db' ∧
      (count = 0 ↔ ∀ task ∈ db.pendingTasks.take limit, ¬ db.Blocked task) ∧
      (count = 0 → db' = db) ∧
      ∀ task ∈ db.pendingTasks.take limit, db.Blocked task → db'.Dead task.id := by
  have hsub : (db.pendingTasks.take limit).Sublist db.pendingTasks := take_sublist _ _
  have hselect : (selectSkipLocked pendingTasks (fun task => Lock.task task.id)
      limit : Session _).run db = .ok (db.pendingTasks.take limit, db) := by
    refine run_selectSkipLocked ?_
    rw [← Function.comp_def, ← map_map]
    exact (stillIn_pending (Sublist.refl _)).1.map fun _ _ h => Lock.task.inj h
  let blocked := (db.pendingTasks.take limit).filter fun task => task.dependencies.any fun d =>
    d ∈ db.terminalAmong ((db.pendingTasks.take limit).flatMap TaskRow.dependencies)
  have hblocked : ∀ task, task ∈ blocked ↔
      task ∈ db.pendingTasks.take limit ∧ db.Blocked task := by
    intro task
    simp only [blocked, mem_filter, any_eq_true, decide_eq_true_eq, mem_terminalAmong]
    refine and_congr_right fun hmem => ⟨?_, ?_⟩
    · rintro ⟨d, hd, -, hdead⟩
      exact ⟨hsub.subset hmem, d, hd, hdead⟩
    · rintro ⟨-, d, hd, hdead⟩
      exact ⟨d, hd, mem_flatMap.mpr ⟨task, hmem, hd⟩, hdead⟩
  obtain ⟨db', hrun, hcancels, hdead⟩ := run_cancelAll
    (stillIn_pending (filter_sublist.trans hsub) : StillIn .PENDING blocked db)
  refine ⟨blocked.length, db', ?_, hcancels, ?_, fun hnone => ?_,
    fun task hmem h => hdead task ((hblocked task).mpr ⟨hmem, h⟩)⟩
  · simp only [cancelBlockedRound, run_bind, hselect, run_query]
    rw [hrun]
    rfl
  · rw [length_eq_zero_iff, eq_nil_iff_forall_not_mem]
    exact ⟨fun h task hmem hb => h task ((hblocked task).mpr ⟨hmem, hb⟩),
      fun h task hmem => h task ((hblocked task).mp hmem).1 ((hblocked task).mp hmem).2⟩
  · rw [length_eq_zero_iff.mp hnone] at hrun
    cases hrun
    rfl

/-! ## A call, and call after call -/

theorem OnlyCancels.dead (h : OnlyCancels db db') (hdead : db.Dead t) : db'.Dead t := by
  obtain ⟨row, hrow, hstate⟩ := hdead
  rcases h t with hsame | ⟨_, now, -, -, hcancelled⟩
  · exact ⟨row, hsame ▸ hrow, hstate⟩
  · exact ⟨_, hcancelled, .inr rfl⟩

theorem run_cancelBlockedRounds (limit : Nat) (draws : Nat → UUID → Draw) :
    ∀ (rounds : Nat) (db : Database), ∃ count db',
      cancelBlockedRounds limit draws rounds db = (.ok count, db') ∧ OnlyCancels db db' ∧
      (0 < rounds → (count = 0 ↔ ∀ task ∈ db.pendingTasks.take limit, ¬ db.Blocked task) ∧
        (count = 0 → db' = db) ∧
        ∀ task ∈ db.pendingTasks.take limit, db.Blocked task → db'.Dead task.id)
  | 0, db => ⟨0, db, rfl, .refl, fun h => absurd h (Nat.lt_irrefl 0)⟩
  | round + 1, db => by
    obtain ⟨count, db₁, hrun, hcancels, hfound⟩ := run_cancelBlockedRound limit (draws round) db
    by_cases hzero : count = 0
    · subst hzero
      refine ⟨0, db₁, ?_, hcancels, fun _ => hfound⟩
      simp only [cancelBlockedRounds, Service.transact, Bind.bind, commit_of_ok hrun]
      rfl
    · obtain ⟨rest, db₂, hrest, hlater, -⟩ := run_cancelBlockedRounds limit draws round db₁
      refine ⟨count + rest, db₂, ?_, hcancels.trans hlater, fun _ => ⟨?_, ?_, ?_⟩⟩
      · simp only [cancelBlockedRounds, Service.transact, Bind.bind, commit_of_ok hrun]
        refine (congrFun (if_neg hzero) db₁).trans ?_
        simp only [hrest]
        rfl
      · rw [← hfound.1]
        omega
      · omega
      · exact fun task hmem hblocked => hlater.dead (hfound.2.2 task hmem hblocked)

def cascade (limit : Nat) (draws : Nat → Nat → UUID → Draw) (db : Database) : Nat → Database
  | 0 => db
  | n + 1 => (cancelBlockedDependents limit (draws n) (cascade limit draws db n)).2

/-- The dependency of a dependent. -/
def Database.DependsOn (db : Database) (t d : UUID) : Prop :=
  ∃ row, db.tasks.get? t = some row ∧ d ∈ row.dependencies

/-- A task that got beyond `PENDING` depends on completed tasks alone. -/
def Database.Started (db : Database) : Prop :=
  ∀ t row, db.tasks.get? t = some row → row.state ∉ [TaskStatus.PENDING, .FAILED, .CANCELLED] →
    ∀ d ∈ row.dependencies, ∀ dependency, db.tasks.get? d = some dependency →
      dependency.state = .COMPLETED

theorem Started.cancels (h : db.Started) (hcancels : OnlyCancels db db') : db'.Started := by
  intro t row hrow hstate d hd dependency hdependency
  rcases hcancels t with hsame | ⟨old, now, -, -, hcancelled⟩
  · rw [hsame] at hrow
    rcases hcancels d with hsame' | ⟨old, now, hold, hpending, -⟩
    · exact h t row hrow hstate d hd dependency (hsame' ▸ hdependency)
    · have := h t row hrow hstate d hd old hold
      rw [hpending] at this
      cases this
  · rw [hcancelled] at hrow
    cases hrow
    simp at hstate

/-- If no task is blocked, what a live task depends on is alive. -/
theorem not_dead_of_reach {db : Database} (hstarted : db.Started)
    (hnone : ∀ task, ¬ db.Blocked task) (hreach : TransGen db.DependsOn t d) :
    ¬ db.Dead t → ¬ db.Dead d := by
  have hstep : ∀ {t c}, db.DependsOn t c → ¬ db.Dead t → ¬ db.Dead c := by
    rintro t c ⟨row, hrow, hc⟩ halive ⟨dependency, hdependency, hdead⟩
    obtain rfl : row.id = t := key_of_get? hrow
    by_cases hpending : row.state = .PENDING
    · exact hnone row ⟨mem_pendingTasks.mpr ⟨hrow, hpending⟩, c, hc, dependency, hdependency, hdead⟩
    · have hstate : row.state ∉ [TaskStatus.PENDING, .FAILED, .CANCELLED] := by
        simp only [mem_cons, not_mem_nil, or_false, not_or]
        exact ⟨hpending, fun h => halive ⟨row, hrow, .inl h⟩, fun h => halive ⟨row, hrow, .inr h⟩⟩
      have hcompleted := hstarted row.id row hrow hstate c hc dependency hdependency
      rw [hcompleted] at hdead
      rcases hdead with hdead | hdead <;> cases hdead
  induction hreach with
  | single hdep => exact hstep hdep
  | tail _ hdep ih => exact fun halive => hstep hdep (ih halive)

def Database.pendingIds (db : Database) : Finset UUID := (db.pendingTasks.map TaskRow.id).toFinset

theorem mem_pendingIds {db : Database} :
    t ∈ db.pendingIds ↔ ∃ row, db.tasks.get? t = some row ∧ row.state = .PENDING := by
  simp only [pendingIds, mem_toFinset, mem_map, mem_pendingTasks]
  constructor
  · rintro ⟨row, hrow, rfl⟩
    exact ⟨row, hrow⟩
  · rintro ⟨row, hrow, hstate⟩
    obtain rfl : row.id = t := key_of_get? hrow
    exact ⟨row, ⟨hrow, hstate⟩, rfl⟩

theorem OnlyCancels.pendingIds_lt (h : OnlyCancels db db') (hpending : task ∈ db.pendingTasks)
    (hdead : db'.Dead task.id) : db'.pendingIds.card < db.pendingIds.card := by
  refine Finset.card_lt_card ⟨fun t ht => ?_, fun hsub => ?_⟩
  · obtain ⟨row, hrow, hstate⟩ := mem_pendingIds.mp ht
    rcases h t with hsame | ⟨old, now, -, -, hcancelled⟩
    · exact mem_pendingIds.mpr ⟨row, hsame ▸ hrow, hstate⟩
    · rw [hcancelled] at hrow
      cases hrow
      cases hstate
  · obtain ⟨row, hrow, hstate⟩ := mem_pendingIds.mp
      (hsub (mem_pendingIds.mpr ⟨task, mem_pendingTasks.mp hpending⟩))
    obtain ⟨row', hrow', hdead⟩ := hdead
    rw [hrow] at hrow'
    cases hrow'
    rw [hstate] at hdead
    rcases hdead with hdead | hdead <;> cases hdead

/-- A call that returns 0 leaves no pending task with a failed or cancelled dependency, exactly
if a blocked task, should there be one, is among the first `limit` pending rows. Calls that all
find it so end with no pending task that depends, transitively, on a dead one. -/
theorem cancelBlockedDependents_complete_iff (limit : Nat) (draws : Nat → UUID → Draw)
    (db : Database) :
    (((cancelBlockedDependents limit draws db).1 = .ok 0 →
        ∀ task, ¬ (cancelBlockedDependents limit draws db).2.Blocked task) ↔ db.Unhidden limit) ∧
    ∀ calls : Nat → Nat → UUID → Draw, db.Started →
      (∀ n, (cascade limit calls db n).Unhidden limit) →
      ∃ n, ∀ task ∈ (cascade limit calls db n).pendingTasks, ∀ d,
        TransGen (cascade limit calls db n).DependsOn task.id d →
          ¬ (cascade limit calls db n).Dead d := by
  constructor
  · obtain ⟨count, db', hrun, -, hfound⟩ := run_cancelBlockedRounds limit draws 16 db
    obtain ⟨hzero, hsame, -⟩ := hfound (by decide)
    rw [cancelBlockedDependents, hrun]
    constructor
    · rintro h ⟨task, hblocked⟩
      by_contra hwindow
      have hnone : count = 0 := hzero.mpr fun task hmem hb => hwindow ⟨task, hmem, hb⟩
      refine h (congrArg _ hnone) task ?_
      rwa [hsame hnone]
    · intro hunhidden hreturned task hblocked
      have hnone : count = 0 := Except.ok.inj hreturned
      rw [hsame hnone] at hblocked
      obtain ⟨task, hmem, hblocked⟩ := hunhidden ⟨task, hblocked⟩
      exact hzero.mp hnone task hmem hblocked
  · intro calls hstarted hunhidden
    have hcancels : ∀ n, OnlyCancels (cascade limit calls db n) (cascade limit calls db (n + 1)) ∧
        ∀ task ∈ (cascade limit calls db n).pendingTasks.take limit,
          (cascade limit calls db n).Blocked task →
            (cascade limit calls db (n + 1)).Dead task.id := by
      intro n
      obtain ⟨count, db', hrun, hcancels, hfound⟩ :=
        run_cancelBlockedRounds limit (calls n) 16 (cascade limit calls db n)
      rw [cascade, cancelBlockedDependents, hrun]
      exact ⟨hcancels, (hfound (by decide)).2.2⟩
    have hall : ∀ n, (cascade limit calls db n).Started := by
      intro n
      induction n with
      | zero => exact hstarted
      | succ n ih => exact Started.cancels ih (hcancels n).1
    -- as long as a task is blocked, each call leaves fewer pending tasks
    obtain ⟨n, hnone⟩ : ∃ n, ∀ task, ¬ (cascade limit calls db n).Blocked task := by
      by_contra hblocked
      push Not at hblocked
      refine not_strictAnti_of_wellFoundedLT (fun n => (cascade limit calls db n).pendingIds.card)
        (strictAnti_nat_of_succ_lt fun n => ?_)
      obtain ⟨task, hmem, hb⟩ := hunhidden n (hblocked n)
      exact (hcancels n).1.pendingIds_lt hb.1 ((hcancels n).2 task hmem hb)
    refine ⟨n, fun task hpending d hreach => not_dead_of_reach (hall n) hnone hreach ?_⟩
    obtain ⟨hrow, hstate⟩ := mem_pendingTasks.mp hpending
    rintro ⟨row, hrow', hdead⟩
    rw [hrow] at hrow'
    cases hrow'
    rw [hstate] at hdead
    rcases hdead with hdead | hdead <;> cases hdead

def sampleRowOf (id : UUID) (dependencies : List UUID) (state : TaskStatus) : TaskRow :=
  { (sampleSpec id dependencies).row 40 {} with state := state }

def sampleFailed : Database where
  tasks := ((empty.insert (sampleRowOf 1 [] .FAILED)).insert
    (sampleRowOf 2 [1] .PENDING)).insert (sampleRowOf 3 [2] .PENDING)

/-- Before the task that waits for the failed one another task was created. -/
def sampleHidden : Database where
  tasks := ((empty.insert (sampleRowOf 1 [] .PENDING)).insert
    (sampleRowOf 2 [] .FAILED)).insert (sampleRowOf 3 [2] .PENDING)

/-- With room for both of them the two waiting tasks are cancelled, one after the other. -/
theorem cancelBlockedDependents_complete_sample : sampleFailed.Unhidden 2 ∧
    ∃ n, ∀ task ∈ (cascade 2 (fun _ _ _ => {}) sampleFailed n).pendingTasks, ∀ d,
      TransGen (cascade 2 (fun _ _ _ => {}) sampleFailed n).DependsOn task.id d →
        ¬ (cascade 2 (fun _ _ _ => {}) sampleFailed n).Dead d := by
  have hnone : (cascade 2 (fun _ _ _ => {}) sampleFailed 1).pendingTasks = [] := by
    rw [← List.isEmpty_iff]
    decide +kernel
  have hlast : ∀ n, cascade 2 (fun _ _ _ => {}) sampleFailed (n + 1) =
      cascade 2 (fun _ _ _ => {}) sampleFailed 1 := by
    intro n
    induction n with
    | zero => rfl
    | succ n ih =>
      obtain ⟨count, db', hrun, -, hfound⟩ := run_cancelBlockedRounds 2 (fun _ _ => {}) 16
        (cascade 2 (fun _ _ _ => {}) sampleFailed 1)
      obtain ⟨hzero, hsame, -⟩ := hfound (by decide)
      rw [cascade, ih, cancelBlockedDependents, hrun]
      exact hsame (hzero.mpr (by simp [hnone]))
  have hunhidden : ∀ n, (cascade 2 (fun _ _ _ => {}) sampleFailed n).Unhidden 2
    | 0 => fun _ => ⟨sampleRowOf 2 [1] .PENDING, by decide +kernel, by decide +kernel, 1,
        by decide +kernel, sampleRowOf 1 [] .FAILED, by decide +kernel⟩
    | n + 1 => fun ⟨task, hpending, _⟩ => by simp [hlast, hnone] at hpending
  refine ⟨hunhidden 0, (cancelBlockedDependents_complete_iff 2 (fun _ _ => {}) sampleFailed).2
    (fun _ _ _ => {}) (fun t row hrow hstate => ?_) hunhidden⟩
  have hstates : ∀ row ∈ sampleFailed.tasks.rows,
      row.state ∈ [TaskStatus.PENDING, .FAILED, .CANCELLED] := by decide
  exact absurd (hstates row (mem_of_get? hrow)) hstate

theorem cancelBlockedDependents_misses :
    (cancelBlockedDependents 1 (fun _ _ => {}) sampleHidden).1 = .ok 0 ∧
      (cancelBlockedDependents 1 (fun _ _ => {}) sampleHidden).2.Blocked
        (sampleRowOf 3 [2] .PENDING) := by
  refine ⟨by decide +kernel, by decide +kernel, 2, by decide +kernel, sampleRowOf 2 [] .FAILED, ?_⟩
  decide +kernel

end AutoSwe
