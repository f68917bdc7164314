import AutoSwe.Scheduler.Fixpoint

/-!
# What one scan gets done

`reconcileDue` takes the first `limit` rows of each of its two selections. A
selected row that the decision leaves alone is selected again by the next scan,
so rows of that kind can fill the window: `reconcileDue_unstarved_iff` says when
a scan does anything at all.
-/

namespace AutoSwe

open Relational Transaction List Database Service

/-! ## Selection against decision -/

/-- One of the two selections of a scan takes the row. -/
def selected (state : TaskStatus) (graph : Option GraphExecutionState) (expired : Bool) : Bool :=
  ((state = .RUNNING || state = .LEASED) &&
      (expired || graph.any fun graph => graph ∈ terminalGraphStates)) ||
    graph.any fun graph => divergent state graph

/-- The selected pairs that no scan moves: the graph row is parked, or it is this
task's own and the task is leased beside a graph that was not cancelled, runs
beside a failed graph on a valid lease, or is settled beside a cancelled graph. -/
def Stalled (state : TaskStatus) (graph : Option GraphExecutionState) (mismatch expired : Bool) :
    Prop :=
  graph = some .NEEDS_RECONCILIATION ∨ mismatch = false ∧
    (state = .LEASED ∧ graph ≠ some .CANCELLED ∨
      state = .RUNNING ∧ graph = some .FAILED ∧ expired = false ∨
      (state = .COMPLETED ∨ state = .FAILED) ∧ graph = some .CANCELLED)

theorem judge_noop_iff (hmismatch : graph = none → mismatch = false)
    (hselected : selected state graph expired = true) :
    judge state graph mismatch expired = .NOOP ↔ Stalled state graph mismatch expired := by
  cases graph with
  | none =>
    have hmismatch := hmismatch rfl
    cases state <;> simp_all [selected, judge, Stalled]
  | some graph =>
    cases state <;> cases graph <;>
      simp [selected, divergent, terminalGraphStates] at hselected <;>
      cases mismatch <;> cases expired <;>
      simp_all [judge, Stalled, terminalTaskStates, terminalGraphStates]

/-! ## The results of a scan -/

def SameInputs (t : UUID) (db db' : Database) : Prop :=
  db'.view t = db.view t ∧ db'.runs = db.runs

theorem SameInputs.decision (h : SameInputs task.id db db') (now : Time) :
    db'.decision task now = db.decision task now := by
  have hgraph : db'.graphs.get? task.id = db.graphs.get? task.id := congrArg TaskView.graph h.1
  have hlease : db'.leases.get? task.id = db.leases.get? task.id := congrArg TaskView.lease h.1
  simp only [Database.decision, hgraph, hlease, h.2]

theorem reconcile_runs : ((reconcile projectId k now draw).commit db).2.runs = db.runs := by
  cases hrow : db.taskIn projectId k with
  | none => rw [reconcile_missing now draw hrow]
  | some task =>
    obtain ⟨db', hrun, hsame, hdone⟩ := run_reconcile hrow now draw
    rw [Prog.commit_of_ok hrun]
    by_cases hnoop : db.decision task now = .NOOP
    · rw [hsame hnoop]
    · exact (hdone hnoop).runs

/-- Reconciling another task leaves what the decision for this one reads. -/
theorem reconcile_sameInputs (projectId : UUID) (now : Time) (draw : Draw) (hk : t ≠ k)
    (db : Database) : SameInputs t db ((reconcile projectId k now draw).commit db).2 :=
  ⟨(reconcile_effect projectId k now draw db).frame hk, reconcile_runs⟩

/-- A scan of distinct tasks reports for each the decision on the rows at its start. -/
theorem collect_decisions (now : Time) (draws : UUID → Draw) (tasks : List TaskRow)
    (hdistinct : tasks.Pairwise fun a b => a.id ≠ b.id)
    (hrows : ∀ task ∈ tasks, db₀.tasks.get? task.id = some task)
    (hsame : ∀ task ∈ tasks, SameInputs task.id db₀ db) :
    (collect (reconcileLogged now draws)
      (tasks.map fun task => (task.projectId, task.id)) db).1 =
        .ok (tasks.map fun task => (task.id, db₀.decision task now)) := by
  induction tasks generalizing db with
  | nil => rfl
  | cons task rest ih =>
    obtain ⟨hhead, hrest⟩ := pairwise_cons.mp hdistinct
    have hhere := hsame task mem_cons_self
    have hrow : db.taskIn task.projectId task.id = some task := by
      refine taskIn_eq_some.mpr ⟨?_, rfl⟩
      exact (congrArg TaskView.row hhere.1).trans (hrows task mem_cons_self)
    obtain ⟨db', hrun, -⟩ := run_reconcile hrow now (draws task.id)
    have hcommit := Prog.commit_of_ok hrun
    have hnext : ∀ other ∈ rest, SameInputs other.id db₀ db' := by
      intro other hother
      have hbefore := hsame other (mem_cons_of_mem task hother)
      have hstep := reconcile_sameInputs task.projectId now (draws task.id)
        (Ne.symm (hhead other hother)) db
      rw [hcommit] at hstep
      exact ⟨hstep.1.trans hbefore.1, hstep.2.trans hbefore.2⟩
    have hih := ih hrest (fun other hother => hrows other (mem_cons_of_mem task hother)) hnext
    simp only [map_cons, collect, reconcileLogged, rescue, transact,
      Bind.bind, Pure.pure, hcommit, hhere.decision]
    generalize collect (reconcileLogged now draws)
      (rest.map fun task => (task.projectId, task.id)) db' = result at hih ⊢
    obtain ⟨results, db''⟩ := result
    obtain rfl : results = _ := hih
    rfl

variable (db : Database)

def Database.window (now : Time) (limit : Nat) : List TaskRow :=
  db.inFlight now limit ++ db.settledButDivergent limit

theorem mem_window {db : Database} (h : task ∈ db.window now limit) :
    db.tasks.get? task.id = some task := by
  rcases mem_append.mp h with h | h
  · exact (mem_inFlight h).1
  · exact (mem_settledButDivergent h).1

theorem reconcileTargets_eq :
    ∃ tasks : List TaskRow,
      db.reconcileTargets now limit = tasks.map (fun task => (task.projectId, task.id)) ∧
      (tasks.Pairwise fun a b => a.id ≠ b.id) ∧
        ∀ task, task ∈ tasks ↔ task ∈ db.window now limit := by
  have hkeys : ∀ a ∈ db.window now limit, ∀ b ∈ db.window now limit, a.id = b.id → a = b := by
    intro a ha b hb hid
    have hrow := mem_window ha
    rw [hid, mem_window hb] at hrow
    exact (Option.some.inj hrow).symm
  have hdedup : ∀ tasks : List TaskRow, (∀ task ∈ tasks, task ∈ db.window now limit) →
      (tasks.map fun task => (task.projectId, task.id)).dedup =
        tasks.dedup.map fun task => (task.projectId, task.id) := by
    intro tasks hmem
    induction tasks with
    | nil => rfl
    | cons a rest ih =>
      have hrest := ih fun task htask => hmem task (mem_cons_of_mem a htask)
      by_cases ha : a ∈ rest
      · have hkey : (a.projectId, a.id) ∈ rest.map fun task => (task.projectId, task.id) :=
          mem_map.mpr ⟨a, ha, rfl⟩
        rw [dedup_cons_of_mem ha, map_cons, dedup_cons_of_mem hkey, hrest]
      · have hkey : (a.projectId, a.id) ∉ rest.map fun task => (task.projectId, task.id) := by
          intro hkey
          obtain ⟨b, hb, heq⟩ := mem_map.mp hkey
          have hsame : b = a := hkeys b (hmem b (mem_cons_of_mem a hb)) a
            (hmem a mem_cons_self) (Prod.mk.inj heq).2
          exact ha (hsame ▸ hb)
        rw [dedup_cons_of_notMem ha, map_cons, dedup_cons_of_notMem hkey, hrest,
          map_cons]
  refine ⟨(db.window now limit).reverse.dedup.reverse, ?_, ?_, fun task => by simp⟩
  · rw [map_reverse, ← hdedup _ fun task htask => mem_reverse.mp htask, map_reverse]
    rfl
  · have hnodup : (db.window now limit).reverse.dedup.reverse.Nodup :=
      nodup_reverse.mpr (nodup_dedup _)
    refine hnodup.imp_of_mem fun ha hb hne hid => hne ?_
    exact hkeys _ (by simpa using ha) _ (by simpa using hb) hid

/-! ## Starvation -/

def Database.stalled (now : Time) (task : TaskRow) : Prop :=
  Stalled task.state ((db.graphs.get? task.id).map GraphExecutionRow.state) (db.mismatched task)
    (db.leaseExpired now task.id)

theorem stalled_iff {db : Database} (h : task ∈ db.window now limit) :
    db.stalled now task ↔ db.decision task now = .NOOP := by
  rw [decision_eq_judge, stalled]
  refine (judge_noop_iff (fun hnone => ?_) ?_).symm
  · rw [Option.map_eq_none_iff] at hnone
    simp [mismatched, hnone]
  · simp only [selected, Bool.or_eq_true, Bool.and_eq_true, Option.any_map]
    rcases mem_append.mp h with h | h
    · have hmem := mem_of_mem_take h
      simp only [mem_insertionSort, mem_filter, Bool.and_eq_true, Bool.or_eq_true] at hmem
      exact .inl hmem.2
    · have hmem := mem_of_mem_take h
      simp only [mem_insertionSort, mem_filter] at hmem
      exact .inr hmem.2

/-- A task is selected by a scan of any length, and reconciling it would act. -/
def Database.Due (now : Time) : Prop :=
  ∃ limit, ∃ task ∈ db.window now limit, db.decision task now ≠ .NOOP

def ScanActs (limit : Nat) (now : Time) (draws : UUID → Draw) (db : Database) : Prop :=
  ∃ results, (reconcileDue limit now draws db).1 = .ok results ∧
    ∃ result ∈ results, result.2 ≠ .NOOP

theorem scanActs_iff (limit : Nat) (now : Time) (draws : UUID → Draw) (db : Database) :
    ScanActs limit now draws db ↔ ∃ task ∈ db.window now limit, db.decision task now ≠ .NOOP := by
  obtain ⟨tasks, htargets, hdistinct, hmem⟩ := reconcileTargets_eq db
  have hresults : (reconcileDue limit now draws db).1 =
      .ok (tasks.map fun task => (task.id, db.decision task now)) := by
    have hcollect := collect_decisions now draws tasks hdistinct
      (fun task htask => mem_window ((hmem task).mp htask)) (fun _ _ => ⟨rfl, rfl⟩)
    rw [← htargets] at hcollect
    exact hcollect
  constructor
  · rintro ⟨results, hok, result, hresult, hact⟩
    rw [hresults] at hok
    cases hok
    obtain ⟨task, htask, rfl⟩ := mem_map.mp hresult
    exact ⟨task, (hmem task).mp htask, hact⟩
  · rintro ⟨task, htask, hact⟩
    exact ⟨_, hresults, _, mem_map_of_mem ((hmem task).mpr htask), hact⟩

/-- A due task makes a scan act exactly when one of the rows that the scan lists
is not stalled. -/
theorem reconcileDue_unstarved_iff (db : Database) (limit : Nat) (now : Time)
    (draws : UUID → Draw) :
    (db.Due now → ScanActs limit now draws db) ↔
      (db.Due now → ∃ task ∈ db.window now limit, ¬ db.stalled now task) := by
  refine imp_congr_right fun _ => (scanActs_iff limit now draws db).trans ?_
  refine exists_congr fun task => and_congr_right fun htask => ?_
  rw [stalled_iff htask]

def sampleSecond : Dispatch := { sampleDispatch with taskId := 2, token := 2, attemptId := 51 }

/-- Two tasks cancelled while their workers ran: the first one's graph completed
and the pair is quarantined, the second one's graph still runs. -/
def sampleStarved : Database :=
  [Operation.persistPlan (fun runId _ => runId) 40 [sampleSpec 1 [], sampleSpec 2 []] fun _ => {},
    .ambient (Table.insert ∅ sampleRepository) (Table.insert ∅ sampleRun) [],
    .claimReady "dispatcher" 5 100 fun t => { token := t },
    .startClaim { sampleDispatch with token := 1 } 110 {} {},
    .startClaim sampleSecond 110 {} {},
    .graphWrite 1 50 sampleIdentity "first" .RUNNING none {},
    .graphWrite 2 51 sampleIdentity "second" .RUNNING none {},
    .cancelTask 20 1 115 { now := 115 },
    .cancelTask 20 2 116 { now := 116 },
    .graphWrite 1 50 sampleIdentity "first" .COMPLETED none {},
    .reconcile 20 1 120 {}].foldl (perform sampleService) {}

/-- The quarantined task is the one row that a scan of length one ever lists. -/
theorem reconcileDue_starved :
    Reachable sampleService sampleStarved ∧ sampleStarved.Due 200 ∧
      ¬ ScanActs 1 200 (fun _ => {}) sampleStarved := by
  refine ⟨reachable_foldl .start _, ⟨2, by decide +kernel⟩, ?_⟩
  rw [scanActs_iff]
  decide +kernel

end AutoSwe
