import AutoSwe.Planning.Transactions

/-!
# Planning has one owner

Any number of claims, persists, failures and cancellations of a run, statement
by statement and in any order. The history of their commits is read as a small
machine on the rows of one run: it is unclaimed, claimed under the clock of the
most recent claim, or past planning, and only the claimed phase lets a plan or
a failure in.
-/

namespace AutoSwe

open Relational Transaction LabelledRun List Lock

abbrev PlanningJournal := Journal PlanningCall Database Lock Raised

abbrev PlanningCommit := Commit PlanningCall Database Lock

def PlanningJournal.step (service : RunPlanningService) :
    PlanningJournal → Event PlanningCall → Option PlanningJournal :=
  Journal.step (PlanningCall.body service)

/-- The fence that the caller of a persist or of a failure took with its claim. -/
def PlanningCall.fence : PlanningCall → Option Time
  | .persistPlan _ _ fenceStartedAt _ _ => some fenceStartedAt
  | .failRun _ _ fenceStartedAt _ _ _ => some fenceStartedAt
  | _ => none

def PlanningCall.claimedAt : PlanningCall → Option Time
  | .claimRun now => some now
  | _ => none

theorem PlanningCall.claimedAt_eq_some {call : PlanningCall} :
    call.claimedAt = some t ↔ call = .claimRun t := by
  cases call <;> simp [PlanningCall.claimedAt]

structure Database.Unplanned (db : Database) (r : UUID) : Prop where
  pending : ∃ run, db.runs.get? r = some run ∧ run.state = .PENDING ∧
    run.cancellationRequestedAt = none
  stages : ∀ stage, db.stageAttempts.get? (r, stage) = none
  revisions : ∀ revision, db.planRevisions.get? (r, revision) = none
  tasks : ∀ task ∈ db.tasks.rows, task.runId ≠ r

/-- Cancellation was requested, or the run has left planning. -/
def RunRows.pastPlanning (x : RunRows) : Prop :=
  ∃ run, x.run = some run ∧
    (run.cancellationRequestedAt ≠ none ∨ run.state ∉ [RunStatus.PENDING, .PLANNING])

def RunRows.failed (x : RunRows) : Prop := ∃ run, x.run = some run ∧ run.state = .FAILED

section Commits

variable (c : PlanningCommit) (r : UUID)

/-- The commit is a claim at time `t` that selected the run. -/
def Claims (t : Time) : Prop := c.call = .claimRun t ∧ run r ∈ c.held

def Plans : Prop :=
  (c.after.rowsOf r).revisions ≠ (c.before.rowsOf r).revisions ∨
    (c.after.rowsOf r).tasks ≠ (c.before.rowsOf r).tasks

def Fails : Prop := (c.after.rowsOf r).failed ∧ ¬ (c.before.rowsOf r).failed

end Commits

/-- What is known of a commit: what it did to each run. -/
def Faithful (service : RunPlanningService) (c : PlanningCommit) : Prop :=
  ∀ r, RunStep service c.call (run r ∈ c.held) (c.before.rowsOf r) (c.after.rowsOf r)

theorem planning_faithful (h : Reach (PlanningJournal.step service) ok { sys := { db } } j) :
    (∀ c ∈ j.log, Faithful service c) ∧ History db j.log j.sys.db :=
  Journal.sound (I := fun _ => True) (fun call db _ => planning_accounted service call db) db
    trivial h

/-! ## The phases of a run -/

/-- The clock of the most recent claim of the run in the history. -/
def LatestClaim (r : UUID) (log : List PlanningCommit) : Option Time → Prop
  | none => ∀ c ∈ log, ∀ t, ¬ Claims c r t
  | some t => ∃ before claim between, log = before ++ claim :: between ∧ Claims claim r t ∧
      ∀ c ∈ between, ∀ t', ¬ Claims c r t'

/-- Planning is not over: the attempt of the run has the clock of the most recent
claim, and no plan was written. -/
structure Planned (r : UUID) (t : Option Time) (log : List PlanningCommit) (x : RunRows) :
    Prop where
  fenced : ∀ stage attempt, x.stages stage = some attempt →
    stage = .architect ∧ t = some attempt.startedAt
  latest : LatestClaim r log t
  unplanned : ∀ c ∈ log, ¬ Plans c r

def Phase (r : UUID) (log : List PlanningCommit) (x : RunRows) : Prop :=
  (∃ t, Planned r t log x) ∨ x.pastPlanning

theorem LatestClaim.quiet (h : LatestClaim r log t)
    (hc : ∀ t', ¬ Claims c r t') : LatestClaim r (log ++ [c]) t := by
  cases t with
  | none =>
    intro c' hc'
    rcases mem_append.mp hc' with hc' | hc'
    · exact h c' hc'
    · exact mem_singleton.mp hc' ▸ hc
  | some t =>
    obtain ⟨before, claim, between, rfl, hclaim, hbetween⟩ := h
    refine ⟨before, claim, between ++ [c], by simp, hclaim, fun c' hc' => ?_⟩
    rcases mem_append.mp hc' with hc' | hc'
    · exact hbetween c' hc'
    · exact mem_singleton.mp hc' ▸ hc

section Steps
variable {service : RunPlanningService} {call : PlanningCall} {locked : Prop} {x x' : RunRows}
  {r : UUID} {log : List PlanningCommit} {c : PlanningCommit}

theorem claimable_open {run : RunRow} (h : run.claimable staleBefore = true) :
    run.cancellationRequestedAt = none ∧ run.state ∈ [RunStatus.PENDING, .PLANNING] := by
  simp only [RunRow.claimable, Bool.and_eq_true, Bool.or_eq_true, decide_eq_true_eq,
    Option.isNone_iff_eq_none] at h
  obtain ⟨hstate | ⟨hstate, -⟩, hopen⟩ := h <;> simp [hstate, hopen]

theorem claimed_state {run : RunRow} :
    (run.claimed now).state = .PLANNING ∧
      (run.claimed now).cancellationRequestedAt = run.cancellationRequestedAt := by
  simp only [RunRow.claimed]
  split
  · rename_i hplanning
    exact ⟨hplanning, rfl⟩
  · exact ⟨rfl, rfl⟩

/-- Past planning, a commit leaves the run there and does nothing for it. -/
theorem RunStep.past (h : RunStep service call locked x x') (hpast : x.pastPlanning) :
    x'.pastPlanning ∧ x'.revisions = x.revisions ∧ x'.tasks = x.tasks ∧
      (x'.failed → x.failed) ∧ (locked → ∀ t, call ≠ .claimRun t) := by
  obtain ⟨run, hrun, hover⟩ := hpast
  cases h with
  | idle h => exact ⟨⟨run, hrun, hover⟩, rfl, rfl, id, h⟩
  | claim _ _ hrun' hclaimable =>
    obtain rfl := Option.some.inj (hrun.symm.trans hrun')
    obtain ⟨hopen, hstate⟩ := claimable_open hclaimable
    exact absurd hover (not_or.mpr ⟨not_not.mpr hopen, not_not.mpr hstate⟩)
  | persist hrun' hstate hopen =>
    obtain rfl := Option.some.inj (hrun.symm.trans hrun')
    simp [hopen, hstate] at hover
  | fail hrun' hstate hopen =>
    obtain rfl := Option.some.inj (hrun.symm.trans hrun')
    simp [hopen, hstate] at hover
  | cancel hrun' hopen hrequested hstate =>
    obtain rfl := Option.some.inj (hrun.symm.trans hrun')
    refine ⟨⟨_, rfl, .inl hrequested⟩, rfl, rfl, ?_, by simp⟩
    rintro ⟨_, ⟨⟩, hfailed⟩
    refine ⟨run, hrun, hstate.resolve_left ?_ ▸ hfailed⟩
    simp [hfailed]

theorem RunStep.owner (h : RunStep service call locked x x')
    (hwrites : x'.revisions ≠ x.revisions ∨ x'.tasks ≠ x.tasks ∨ x'.failed ∧ ¬ x.failed) :
    ∃ run attempt, x.run = some run ∧ run.state = .PLANNING ∧
      run.cancellationRequestedAt = none ∧ x.stages attempt.stage = some attempt ∧
      call.fence = some attempt.startedAt := by
  cases h with
  | idle => simp at hwrites
  | claim =>
    simp only [ne_eq, not_true_eq_false, false_or] at hwrites
    obtain ⟨⟨_, ⟨⟩, hfailed⟩, -⟩ := hwrites
    simp [claimed_state.1] at hfailed
  | persist hrun hstate hopen hattempt hfence =>
    exact ⟨_, _, hrun, hstate, hopen, hattempt, congrArg some hfence.symm⟩
  | fail hrun hstate hopen hattempt hfence =>
    exact ⟨_, _, hrun, hstate, hopen, hattempt, congrArg some hfence.symm⟩
  | cancel hrun hopen _ hstate =>
    simp only [ne_eq, not_true_eq_false, false_or] at hwrites
    obtain ⟨⟨_, ⟨⟩, hfailed⟩, -⟩ := hwrites
    rcases hstate with ⟨hstate, -⟩ | hstate
    · simp [hfailed] at hstate
    · exact absurd (by simp [← hstate, hfailed, runTerminalStates]) hopen

theorem Phase.step (h : Faithful service c) (hphase : Phase r log (c.before.rowsOf r)) :
    Phase r (log ++ [c]) (c.after.rowsOf r) := by
  have hstep := h r
  rcases hphase with ⟨t, hplanned⟩ | hpast
  · have hunplanned : ¬ Plans c r → ∀ c' ∈ log ++ [c], ¬ Plans c' r := by
      intro hc c' hc'
      rcases mem_append.mp hc' with hc' | hc'
      · exact hplanned.unplanned c' hc'
      · exact mem_singleton.mp hc' ▸ hc
    have hfenced := hplanned.fenced
    unfold Plans at hunplanned
    generalize hcall : c.call = call at hstep
    generalize hheld : (run r ∈ c.held) = locked at hstep
    generalize c.before.rowsOf r = x at hstep hunplanned hfenced
    generalize c.after.rowsOf r = x' at hstep hunplanned ⊢
    cases hstep with
    | idle hidle =>
      refine .inl ⟨t, hfenced, hplanned.latest.quiet ?_, hunplanned (by simp)⟩
      rintro t' ⟨hclaim, hlock⟩
      exact hidle (hheld ▸ hlock) t' (hcall ▸ hclaim)
    | claim now hlocked _ _ hstarted =>
      refine .inl ⟨some now, fun stage attempt hattempt => ?_, ?_, hunplanned (by simp)⟩
      · by_cases hstage : stage = .architect
        · subst hstage
          obtain rfl : _ = attempt := by simpa using hattempt
          exact ⟨rfl, congrArg some hstarted.symm⟩
        · exact absurd (hfenced stage attempt (by simpa [hstage] using hattempt)).1 hstage
      · exact ⟨log, c, [], rfl, ⟨hcall, hheld ▸ hlocked⟩, by simp⟩
    | persist => exact .inr ⟨_, rfl, .inr (by simp [RunRow.enter])⟩
    | fail => exact .inr ⟨_, rfl, .inr (by simp [RunRow.enter])⟩
    | cancel _ _ hrequested => exact .inr ⟨_, rfl, .inl hrequested⟩
  · exact .inr (hstep.past hpast).1

end Steps

section Histories
variable {service : RunPlanningService} {db d : Database} {r : UUID}
  {log earlier later : List PlanningCommit} {c : PlanningCommit}

theorem Database.Unplanned.phase (h : db.Unplanned r) : Phase r [] (db.rowsOf r) := by
  refine .inl ⟨none, fun stage attempt hattempt => ?_, by simp [LatestClaim], by simp⟩
  simp [Database.rowsOf, h.stages stage] at hattempt

theorem phase_of_history (hfaithful : ∀ c ∈ log, Faithful service c) (hdb : db.Unplanned r)
    (h : History db log d) : Phase r log (d.rowsOf r) :=
  History.invariant (I := fun log d => Phase r log (d.rowsOf r)) hdb.phase
    (fun _ _ hc hphase => hphase.step hc) h hfaithful

/-- A plan and a failure of the run come from the caller with the clock of the
most recent claim, and before any other plan. -/
theorem owner_of_write (hfaithful : ∀ c ∈ log, Faithful service c) (hdb : db.Unplanned r)
    (h : History db log d) (hlog : log = earlier ++ c :: later) (hwrites : Plans c r ∨ Fails c r) :
    ∃ t, c.call.fence = some t ∧ LatestClaim r earlier (some t) ∧
      ∀ c' ∈ earlier, ¬ Plans c' r := by
  have hstep := hfaithful c (by simp [hlog]) r
  obtain ⟨run, attempt, hrun, hstate, hopen, hattempt, hfence⟩ := hstep.owner (by
    simpa [Plans, Fails, or_assoc] using hwrites)
  have hphase : Phase r earlier (c.before.rowsOf r) :=
    phase_of_history (fun c' hc' => hfaithful c' (by simp [hlog, hc'])) hdb (h.split hlog)
  rcases hphase with ⟨t, hplanned⟩ | ⟨run', hrun', hover⟩
  · obtain ⟨-, rfl⟩ := hplanned.fenced _ _ hattempt
    exact ⟨_, hfence, hplanned.latest, hplanned.unplanned⟩
  · obtain rfl := Option.some.inj (hrun.symm.trans hrun')
    simp [hopen, hstate] at hover

theorem pastPlanning_of_history (hfaithful : ∀ c ∈ log, Faithful service c)
    (h : History db log d) (hc : c ∈ log) (hpast : (c.after.rowsOf r).pastPlanning) :
    (d.rowsOf r).pastPlanning :=
  h.persists (K := fun d => (d.rowsOf r).pastPlanning) (fun _ hc hpast => ((hc r).past hpast).1)
    hfaithful hc hpast

end Histories

/-- What the commits of planning are to a run, in the order they happened in. -/
structure SingleOwner (r : UUID) (log : List PlanningCommit) : Prop where
  /-- Who writes a plan or fails the run has the fence of the most recent claim,
  and no earlier claim has that fence. -/
  owner : ∀ earlier c later, log = earlier ++ c :: later → Plans c r ∨ Fails c r →
    ∃ before claim between t, earlier = before ++ claim :: between ∧ c.call.fence = some t ∧
      Claims claim r t ∧ (∀ c' ∈ between, ∀ t', ¬ Claims c' r t') ∧ ∀ c' ∈ before, ¬ Claims c' r t
  once : ∀ earlier c later, log = earlier ++ c :: later → Plans c r →
    ∀ c' ∈ earlier ++ later, ¬ Plans c' r
  ended : ∀ earlier c later, log = earlier ++ c :: later → (c.after.rowsOf r).pastPlanning →
    ∀ c' ∈ later, ¬ Plans c' r ∧ ¬ Fails c' r ∧ ∀ t, ¬ Claims c' r t

/-- Planning is single-owner and cancellation-safe in every interleaving of its
transactions, statement by statement, if the claims of the run have different clocks. -/
theorem planning_single_owner (service : RunPlanningService) (db : Database) (r : UUID)
    (hdb : db.Unplanned r) (j : PlanningJournal)
    (hreach : Reach (PlanningJournal.step service) (fun _ _ => True) { sys := { db } } j)
    (hdistinct : j.log.Pairwise fun c c' => ∀ t t', Claims c r t → Claims c' r t' → t ≠ t') :
    SingleOwner r j.log := by
  obtain ⟨hfaithful, hhistory⟩ := planning_faithful hreach
  refine ⟨fun earlier c later hlog hwrites => ?_, fun earlier c later hlog hplans c' hc' => ?_,
    fun earlier c later hlog hpast c' hc' => ?_⟩
  · obtain ⟨t, hfence, ⟨before, claim, between, rfl, hclaim, hbetween⟩, -⟩ :=
      owner_of_write hfaithful hdb hhistory hlog hwrites
    refine ⟨before, claim, between, t, rfl, hfence, hclaim, hbetween, fun c' hc' hclaim' => ?_⟩
    rw [hlog, pairwise_append, pairwise_append] at hdistinct
    exact hdistinct.1.2.2 c' hc' claim (by simp) t t hclaim' hclaim rfl
  · rcases mem_append.mp hc' with hc' | hc'
    · obtain ⟨t, -, -, hearlier⟩ :=
        owner_of_write hfaithful hdb hhistory hlog (.inl hplans)
      exact hearlier c' hc'
    · -- the later one would come after a plan
      obtain ⟨between, rest, rfl⟩ := append_of_mem hc'
      intro hplans'
      have hlog' : j.log = (earlier ++ c :: between) ++ c' :: rest := by simp [hlog]
      obtain ⟨t, -, -, hearlier⟩ :=
        owner_of_write hfaithful hdb hhistory hlog' (.inl hplans')
      exact hearlier c (by simp) hplans
  · obtain ⟨between, rest, rfl⟩ := append_of_mem hc'
    have hlog' : j.log = (earlier ++ c :: between) ++ c' :: rest := by simp [hlog]
    have hbefore : (c'.before.rowsOf r).pastPlanning := by
      refine pastPlanning_of_history (fun c'' hc'' => hfaithful c'' ?_) (hhistory.split hlog')
        (by simp) hpast
      rw [hlog']
      exact mem_append_left _ hc''
    obtain ⟨-, hrevisions, htasks, hfailed, hclaims⟩ :=
      (hfaithful c' (by simp [hlog']) r).past hbefore
    refine ⟨?_, fun hfails => hfails.2 (hfailed hfails.1), fun t hclaim => ?_⟩
    · simp [Plans, hrevisions, htasks]
    · exact hclaims hclaim.2 t hclaim.1

def samplePlanner : RunPlanningService where
  specHash _ := "spec"
  uuid5 _ _ := 70
  isoformat _ := "then"

def sampleRequested : Database where
  repositories := Table.insert ∅ ⟨30, 20, "/srv/repository", "main"⟩
  runs := Table.insert ∅
    { id := 40, projectId := 20, repositoryId := 30, goal := "goal"
      baselineCommit := "0123456789012345678901234567890123456789" }

def sampleValidation (id : UUID) (planRevision : Nat) (dependencies : List UUID) : TaskSpec where
  id := id
  planRevision := planRevision
  projectId := 20
  repositoryId := 30
  title := "task"
  description := "work"
  taskType := .VALIDATION
  dependencies := dependencies
  assignedCapability := "validation"
  acceptanceCriteria := ["tests pass"]
  allowedTools := ["read_file", "run_tests"]
  riskCeiling := .MEDIUM

def sampleTaskPlan : TaskPlan where
  runId := 40
  projectId := 20
  repositoryId := 30
  baselineCommit := "0123456789012345678901234567890123456789"
  revision := 1
  tasks := [sampleValidation 1 1 []]
  limits := ⟨100, 20, 10000000000, 86400⟩

/-- A second dispatcher takes a stale run over; the plan of the first one is
refused, the plan of the second one is persisted. -/
def sampleTakenOver : List (Event PlanningCall) :=
  flatten [
    [.start 0 (.claimRun 100)], replicate 5 (.exec 0), [.finish 0],
    [.start 1 (.claimRun 30000200)], replicate 3 (.exec 1), [.finish 1],
    [.start 2 (.persistPlan sampleTaskPlan 70 100 30000300 fun _ => {})],
    replicate 2 (.exec 2), [.finish 2],
    [.start 3 (.persistPlan sampleTaskPlan 70 30000200 30000300 fun _ => {})],
    replicate 16 (.exec 3), [.finish 3]]

theorem planning_single_owner_sample :
    ∃ j : PlanningJournal, SingleOwner 40 j.log ∧
      j.log.map (fun c => c.call.fence) = [none, none, some 30000200] ∧
      (j.sys.db.tasks.get? 1).map TaskRow.state = some .READY := by
  refine ⟨_, planning_single_owner samplePlanner sampleRequested 40 ?_ _
    (.run sampleTakenOver (fun _ _ _ => trivial) (by decide +kernel)) ?_, by decide +kernel,
    by decide +kernel⟩
  · exact ⟨⟨_, rfl, rfl, rfl⟩, fun _ => rfl, fun _ => rfl,
      fun _ htask => (not_mem_nil htask).elim⟩
  · have hnodup : ∀ log : List PlanningCommit,
        (log.filterMap fun c => c.call.claimedAt).Nodup → log.Pairwise _ :=
      fun _ h => pairwise_filterMap.mp h
    refine (hnodup _ (by decide +kernel)).imp fun hne t t' hclaim hclaim' => ?_
    exact hne t (PlanningCall.claimedAt_eq_some.mpr hclaim.1) t'
      (PlanningCall.claimedAt_eq_some.mpr hclaim'.1)

end AutoSwe
