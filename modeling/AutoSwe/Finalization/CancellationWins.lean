import AutoSwe.Finalization.FrozenRuns

/-!
# An accepted cancellation wins

If no dispatcher advances a run that is to be cancelled, then from the request on no release commit
and no promotion of the run is started and the run can end only as `CANCELLED`
(`cancellation_wins`). But finalization does not look at the request: the sweep has cancelled the
tasks, and a dispatcher fails the run for it (`cancellation_loses`).
-/

namespace AutoSwe

open Relational Transaction Coroutine LabelledRun Activity Fleet

/-! ## What a step may do to a run that is to be cancelled -/

/-- No release commit and no promotion of the run is started, and a requested
cancellation stands. -/
structure Withholds (r : UUID) (s s' : Platform) : Prop where
  releases : s'.releases.count r = s.releases.count r
  promotions : s'.promotions.count r = s.promotions.count r
  run : ∀ run, s.db.runs.get? r = some run → run.cancellationRequestedAt ≠ none →
    ∃ run', s'.db.runs.get? r = some run' ∧ run'.cancellationRequestedAt ≠ none ∧
      (run'.state = run.state ∨ run'.state = .CANCELLED)

theorem Withholds.refl : Withholds r s s :=
  ⟨rfl, rfl, fun run hrun hrequest => ⟨run, hrun, hrequest, .inl rfl⟩⟩

theorem Withholds.trans (h : Withholds r a b) (h' : Withholds r b c) : Withholds r a c := by
  refine ⟨h'.releases.trans h.releases, h'.promotions.trans h.promotions, ?_⟩
  intro run hrun hrequest
  obtain ⟨run₁, hrun₁, hrequest₁, hstate₁⟩ := h.run run hrun hrequest
  obtain ⟨run₂, hrun₂, hrequest₂, hstate₂⟩ := h'.run run₁ hrun₁ hrequest₁
  refine ⟨run₂, hrun₂, hrequest₂, ?_⟩
  rcases hstate₂ with hstate₂ | hstate₂
  · rwa [hstate₂]
  · exact .inr hstate₂

theorem Withholds.of_runs (hreleases : s'.releases.count r = s.releases.count r)
    (hpromotions : s'.promotions.count r = s.promotions.count r)
    (hrun : s'.db.runs.get? r = s.db.runs.get? r) : Withholds r s s' :=
  ⟨hreleases, hpromotions, fun run hget hrequest => ⟨run, hrun.trans hget, hrequest, .inl rfl⟩⟩

/-! ## Activities -/

/-- The activity is one of those by which a dispatcher finalizes the run. -/
def Activity.Finalizes (r : UUID) : Activity → Prop
  | .transitionRun runId _ | .commitTaskWorktree runId .. => runId = r
  | .setLocalState candidate .. => candidate.sourceRunId = r
  | _ => False

theorem Activity.Concerns.finalizes_ne {a : Activity} (h : a.Concerns r') (hr : r ≠ r') :
    ¬ a.Finalizes r := by
  intro hfinalizes
  unfold Finalizes at hfinalizes
  split at hfinalizes
  · exact hr (hfinalizes.symm.trans h)
  · exact hr (hfinalizes.symm.trans h)
  · exact hr (hfinalizes.symm.trans h)
  · exact hfinalizes

theorem Activity.start_releases {a : Activity} (h : ¬ a.Finalizes r) :
    (a.start s).releases.count r = s.releases.count r ∧
      (a.start s).promotions.count r = s.promotions.count r := by
  unfold start
  split
  · have hr : r ≠ _ := fun hr => h hr.symm
    simp [List.count_append, Ne.symm hr]
  · have hr : r ≠ _ := fun hr => h hr.symm
    simp [List.count_append, Ne.symm hr]
  · exact ⟨rfl, rfl⟩

theorem Activity.carryOut_logs (service : RunFinalizationService) (a : Activity) (s : Platform)
    (answer : Answer) : (a.carryOut service s answer).2.releases = s.releases ∧
      (a.carryOut service s answer).2.promotions = s.promotions := by
  cases a with
  | approvalIdentity =>
    simp only [carryOut]
    split <;> exact ⟨rfl, rfl⟩
  | _ => exact ⟨rfl, rfl⟩

theorem ActivityStep.run (hstep : ActivityStep scheduler a db db')
    (h : ¬ a.Finalizes r) : db'.runs.get? r = db.runs.get? r ∨
      ∃ run now, db.runs.get? r = some run ∧ db'.runs.get? r = some (run.enter .CANCELLED now) := by
  cases hstep with
  | keep hkeeps => exact .inl (by rw [hkeeps.runs])
  | @enter _ runId target ha henters =>
    by_cases hr : r = runId
    · subst hr
      rcases ha with rfl | ⟨-, rfl⟩
      · exact absurd rfl h
      · obtain ⟨run, now, hrun, -, hrun'⟩ := henters.run
        exact .inr ⟨run, now, hrun, hrun'⟩
    · exact .inl (henters.run_ne hr)
  | repair _ _ _ hextends => exact .inl (by rw [hextends.runs])
  | work call hcall => exact .inl (by rw [(call.samePlans scheduler hcall db).runs])

section
variable (parts : Installation)

theorem act_withholds {a : Activity} (h : ¬ a.Finalizes r) :
    Withholds r s ((dispatching parts).act s answer a).2 := by
  have hlogs : ((dispatching parts).act s answer a).2.releases.count r = s.releases.count r ∧
      ((dispatching parts).act s answer a).2.promotions.count r = s.promotions.count r := by
    obtain ⟨hreleases, hpromotions⟩ := start_releases h
    simp only [dispatching, act]
    split
    · exact ⟨hreleases, hpromotions⟩
    · obtain ⟨hsame, hsame'⟩ := a.carryOut_logs parts.finalizer (a.start s) answer
      rw [hsame, hsame']
      exact ⟨hreleases, hpromotions⟩
  rcases a.act_step parts.scheduler parts.finalizer s answer with ⟨-, hsame⟩ | ⟨-, hstep⟩
  · exact .of_runs hlogs.1 hlogs.2 (by simp only [dispatching, hsame])
  · rcases hstep.run h with hsame | ⟨run, now, hrun, hentered⟩
    · exact .of_runs hlogs.1 hlogs.2 hsame
    · refine ⟨hlogs.1, hlogs.2, fun other hother hrequest => ?_⟩
      rw [hrun] at hother
      cases hother
      exact ⟨run.enter .CANCELLED now, hentered, hrequest, .inr rfl⟩

/-! ## The environment -/

theorem RunStep.stands (h : RunStep service call locked x x') (hrun : x.run = some run)
    (hrequest : run.cancellationRequestedAt ≠ none) :
    ∃ run', x'.run = some run' ∧ run'.cancellationRequestedAt ≠ none ∧
      (run'.state = run.state ∨ run'.state = .CANCELLED) := by
  have hsame : ∀ other, x.run = some other → run = other := by
    intro other hother
    rw [hrun] at hother
    cases hother
    rfl
  cases h with
  | idle => exact ⟨run, hrun, hrequest, .inl rfl⟩
  | claim _ _ hother hclaimable =>
    obtain rfl := hsame _ hother
    simp [RunRow.claimable, Option.isNone_iff_eq_none, hrequest] at hclaimable
  | persist hother _ hopen =>
    obtain rfl := hsame _ hother
    exact absurd hopen hrequest
  | fail hother _ hopen =>
    obtain rfl := hsame _ hother
    exact absurd hopen hrequest
  | cancel hother _ hrequested hstate =>
    obtain rfl := hsame _ hother
    exact ⟨_, rfl, hrequested, hstate.symm.imp_right And.left⟩

theorem environment_withholds : Withholds r s ((dispatching parts).environment s e) := by
  cases e with
  | schedule call ofTasks =>
    refine .of_runs rfl rfl ?_
    exact congrArg (·.get? r) (call.samePlans parts.scheduler ofTasks s.db).runs
  | plan call =>
    refine ⟨rfl, rfl, fun run hrun hrequest => ?_⟩
    obtain ⟨locked, hstep⟩ := call.runStep parts.planner s.db r
    exact hstep.stands hrun hrequest
  | createRun request draw =>
    refine ⟨rfl, rfl, fun run hrun hrequest => ⟨run, ?_, hrequest, .inl rfl⟩⟩
    rcases createRun_commit request draw s.db with hkeeps | ⟨-, hinserted⟩
    · exact (congrArg (·.get? r) hkeeps.runs).trans hrun
    · exact (congrArg (·.get? r) hinserted.runs).trans (Table.get?_insert_of_some hrun _)
  | decide approvalId approver approved callHash now =>
    refine .of_runs rfl rfl ?_
    have hagree : Agree (.stateDurations :: Touches.approvalTables) s.db _ :=
      parts.body_agree (.decide approvalId approver approved callHash now) s.db
    exact congrArg (·.get? r) (hagree .runs (by decide))
  | record => exact .of_runs rfl rfl rfl

end

/-! ## Runs of the dispatchers -/

def Job.Awaits : Job → Activity → Prop
  | .advance runId _, a => a.Concerns runId
  | .cancelRequestedRuns _, a => ∀ r, ¬ a.Finalizes r

theorem cancelTasks_sound : ∀ tasks, (Sweep.cancelTasks tasks).Sound
    (fun a => ∀ r, ¬ a.Finalizes r) Activity.Answers (fun _ => True)
  | [] => trivial
  | task :: rest => .bind (.perform (Activity.cancelTask task.projectId task.id) fun _ => id)
      fun _ _ => cancelTasks_sound rest

theorem cancelRuns_sound : ∀ runs, (Sweep.cancelRuns runs).Sound
    (fun a => ∀ r, ¬ a.Finalizes r) Activity.Answers (fun _ => True)
  | [] => trivial
  | runId :: rest => by
    refine .bind (Q := fun _ => True) ?_ fun _ _ =>
      .bind (cancelRuns_sound rest) fun _ _ => trivial
    refine .bind (.perform (Activity.openTasks runId) fun _ => id) fun tasks _ =>
      .bind (cancelTasks_sound tasks) fun _ _ => ?_
    exact (Process.Sound.perform (Activity.cancelRun runId) fun _ => id).mono fun _ _ => trivial

theorem job_sound (parts : Installation) (job : Job) :
    ((dispatching parts).body job).Sound job.Awaits Answers (fun _ => True) := by
  cases job with
  | advance runId state =>
    exact Process.Sound.bind (Concerned.advanceRun runId state) fun _ _ => trivial
  | cancelRequestedRuns limit =>
    refine .bind (Q := fun _ => True) ?_ fun _ _ => trivial
    exact .bind (.perform (cancellableRuns limit) fun _ => id) fun runs _ => cancelRuns_sound runs

def NotRequested (r : UUID) (s : Platform) : Prop :=
  ∀ run, s.db.runs.get? r = some run → run.cancellationRequestedAt = none

/-- `advance_next` is neither started nor continued for a run that is to be cancelled. -/
def HeedsRequest (s : Dispatchers) : Event Job Answer Outside → Prop
  | .spawn _ (.advance runId _) => NotRequested runId s.store
  | .resume i _ => ∀ runId state p, s.procs i = some (.advance runId state, p) →
      NotRequested runId s.store
  | _ => True

theorem step_withholds {s s' : Dispatchers}
    (hsound : ∀ i job p, s.procs i = some (job, p) → p.Sound job.Awaits Answers fun _ => True)
    (hrequested : ¬ NotRequested r s.store) (hheeds : HeedsRequest s e)
    (hstep : step (dispatching parts) s e = some s') : Withholds r s.store s'.store := by
  cases step_cases hstep with
  | environment e => exact environment_withholds parts
  | spawn => exact .refl
  | @resume i answer job a next hproc =>
    refine act_withholds parts ?_
    have hawaits := (hsound i job _ hproc).1
    cases job with
    | advance runId state =>
      have hunrequested := hheeds runId state _ hproc
      refine hawaits.finalizes_ne ?_
      rintro rfl
      exact hrequested hunrequested
    | cancelRequestedRuns limit => exact hawaits r
  | aside => exact .refl

/-- From the request of a cancellation on, no release commit and no promotion of
the run is started, and the run ends as `CANCELLED` if it ends. -/
theorem cancellation_wins (parts : Installation) {s s' : Dispatchers}
    (hreach : Reach (step (dispatching parts)) Selects { store := {} } s)
    (hrun : s.store.db.runs.get? r = some run) (hopen : run.state ∉ runTerminalStates)
    (hrequest : run.cancellationRequestedAt ≠ none)
    (hlater : Reach (step (dispatching parts)) (fun s e => Selects s e ∧ HeedsRequest s e) s s') :
    s'.store.releases.count r = s.store.releases.count r ∧
      s'.store.promotions.count r = s.store.promotions.count r ∧
      ∃ run', s'.store.db.runs.get? r = some run' ∧
        (run'.state ∈ runTerminalStates → run'.state = .CANCELLED) := by
  have hkept : Reach (step (dispatching parts)) Selects { store := {} } s' ∧
      Withholds r s.store s'.store := by
    induction hlater with
    | start => exact ⟨hreach, .refl⟩
    | @next s₁ s₂ e _ hpermitted hstep ih =>
      obtain ⟨hreach₁, hwithholds⟩ := ih
      refine ⟨.next hreach₁ hpermitted.1 hstep, hwithholds.trans ?_⟩
      have hsound := sound (job_sound parts) (activity_answers parts) hreach₁
      obtain ⟨run₁, hrun₁, hrequest₁, -⟩ := hwithholds.run run hrun hrequest
      exact step_withholds hsound (fun h => hrequest₁ (h run₁ hrun₁)) hpermitted.2 hstep
  obtain ⟨-, hwithholds⟩ := hkept
  obtain ⟨run', hrun', -, hstate⟩ := hwithholds.run run hrun hrequest
  refine ⟨hwithholds.releases, hwithholds.promotions, run', hrun', fun hterminal => ?_⟩
  rcases hstate with hstate | hstate
  · exact absurd (hstate ▸ hterminal) hopen
  · exact hstate

def heedsRequest (s : Dispatchers) : Event Job Answer Outside → Bool
  | .spawn _ (.advance runId _) =>
    (s.store.db.runs.get? runId).all fun run => run.cancellationRequestedAt.isNone
  | .resume i _ =>
    match s.procs i with
    | some (.advance runId _, _) =>
      (s.store.db.runs.get? runId).all fun run => run.cancellationRequestedAt.isNone
    | _ => true
  | _ => true

theorem heedsRequest_of_check (s : Dispatchers) (e : Event Job Answer Outside)
    (h : (decide (Selects s e) && heedsRequest s e) = true) : Selects s e ∧ HeedsRequest s e := by
  obtain ⟨hselects, hcheck⟩ := Bool.and_eq_true_iff.mp h
  refine ⟨of_decide_eq_true hselects, ?_⟩
  cases e with
  | spawn i job =>
    cases job with
    | advance =>
      intro run hrun
      simpa [heedsRequest, hrun] using hcheck
    | cancelRequestedRuns limit => trivial
  | resume =>
    intro runId state p hproc run hrun
    simpa [heedsRequest, hproc, hrun] using hcheck
  | _ => trivial

/-- A run with one task that is ready, and the request to cancel it. -/
def sampleAccepted : List (Event Job Answer Outside) :=
  (sampleExecuted false).take 4 ++ [.environment (.plan (.cancelRun 40 210 90))]

/-- The sweep has cancelled the task and goes on to the run. -/
def sampleSweep : List (Event Job Answer Outside) :=
  [.spawn 1 (.cancelRequestedRuns 50), .resume 1 {}, .resume 1 {}, .resume 1 {}]

theorem cancellation_wins_sample : ∃ s' : Dispatchers, ∃ run',
    s'.store.db.runs.get? 40 = some run' ∧ run'.state = .CANCELLED := by
  obtain ⟨-, -, run', hrun', hwins⟩ := cancellation_wins (r := 40) sampleInstallation
    (.checked (fun _ _ => of_decide_eq_true) sampleAccepted (by decide +kernel))
    (eq_some_get (by decide +kernel)) (by decide +kernel) (by decide +kernel)
    (.checked heedsRequest_of_check (sampleSweep ++ [.resume 1 { now := 220 }]) (by decide +kernel))
  obtain rfl := Option.some.inj ((eq_some_get (by decide +kernel)).symm.trans hrun')
  exact ⟨_, _, hrun', hwins (by decide +kernel)⟩

/-- The sweep has cancelled the tasks, and before it reaches the run another
dispatcher finds no task completed and fails the run. -/
theorem cancellation_loses : ∃ s s' : Dispatchers,
    Reach sampleDispatching Selects { store := {} } s ∧
      (s.store.db.runs.get? 40).map (fun run => (run.state, run.cancellationRequestedAt)) =
        some (.EXECUTING, some 210) ∧
      Reach sampleDispatching Selects s s' ∧
      (s'.store.db.runs.get? 40).map RunRow.state = some .FAILED :=
  ⟨_, _, .checked (fun _ _ => of_decide_eq_true) sampleAccepted (by decide +kernel),
    by decide +kernel, .checked (fun _ _ => of_decide_eq_true)
      (sampleSweep ++ [.spawn 0 (.advance 40 .EXECUTING), .resume 0 { now := 230 },
        .resume 0 {}, .resume 0 { now := 240 }]) (by decide +kernel), by decide +kernel⟩

end AutoSwe
