import AutoSwe.Planning.SingleOwner

/-!
# The spacing of planning takeovers

Whether a planned run is stale is decided by its `state_entered_at`. Only the
claim that takes the run from PENDING sets it; a takeover restarts the clock of
the stage attempt, which no claim reads.
-/

namespace AutoSwe

open Relational Transaction LabelledRun Table List Option

/-- A claim of the run at `t₁` over the given rows is followed by no other one
until the run is stale, in every interleaving with nondecreasing claim clocks. -/
def Spaced (service : RunPlanningService) (db : Database) (r : UUID) (t₁ : Time) : Prop :=
  ∀ (init : Database) (j : PlanningJournal),
    Reach (PlanningJournal.step service) (fun _ _ => True) { sys := { db := init } } j →
    (j.log.filterMap fun c => c.call.claimedAt).Pairwise (· ≤ ·) →
    ∀ earlier c later, j.log = earlier ++ c :: later → c.before = db → Claims c r t₁ →
      ∀ c' ∈ later, ∀ t₂, Claims c' r t₂ → service.staleAfter < t₂ - t₁

/-! ## After a first claim -/

/-- The run entered planning at the given time, or planning is over. -/
def RunRows.planningSince (t : Time) (x : RunRows) : Prop :=
  (∃ run, x.run = some run ∧ run.state = .PLANNING ∧ run.stateEnteredAt = t) ∨ x.pastPlanning

section Steps
variable {service : RunPlanningService} {call : PlanningCall} {locked : Prop} {x x' : RunRows}
  {run : RunRow}

theorem RunStep.planningSince (h : RunStep service call locked x x') (hx : x.planningSince t) :
    x'.planningSince t := by
  rcases hx with ⟨run, hrun, hstate, hentered⟩ | hpast
  · cases h with
    | idle => exact .inl ⟨run, hrun, hstate, hentered⟩
    | claim now _ hrun' =>
      obtain rfl := some.inj (hrun.symm.trans hrun')
      exact .inl ⟨_, rfl, by simp [RunRow.claimed, hstate, hentered]⟩
    | persist => exact .inr ⟨_, rfl, .inr (by simp [RunRow.enter])⟩
    | fail => exact .inr ⟨_, rfl, .inr (by simp [RunRow.enter])⟩
    | cancel _ _ hrequested => exact .inr ⟨_, rfl, .inl hrequested⟩
  · exact .inr (h.past hpast).1

theorem RunStep.planningSince_of_pending (h : RunStep service (.claimRun t) locked x x')
    (hlocked : locked) (hrun : x.run = some run) (hpending : run.state = .PENDING) :
    x'.planningSince t := by
  cases h with
  | idle hidle => exact absurd rfl (hidle hlocked t)
  | claim _ _ hrun' =>
    obtain rfl := some.inj (hrun.symm.trans hrun')
    exact .inl ⟨_, rfl, by simp [RunRow.claimed, hpending, RunRow.enter]⟩

theorem RunStep.stale (h : RunStep service (.claimRun t₂) locked x x') (hlocked : locked)
    (hx : x.planningSince t₁) : service.staleAfter < t₂ - t₁ := by
  rcases hx with ⟨run, hrun, hstate, rfl⟩ | hpast
  · cases h with
    | idle hidle => exact absurd rfl (hidle hlocked t₂)
    | claim _ _ hrun' hclaimable =>
      obtain rfl := some.inj (hrun.symm.trans hrun')
      simp only [RunRow.claimable, hstate, reduceCtorEq, decide_false, decide_true, Bool.false_or,
        Bool.true_and, Bool.and_eq_true, decide_eq_true_eq] at hclaimable
      exact lt_sub_comm.mp hclaimable.1
  · exact absurd rfl ((h.past hpast).2.2.2.2 hlocked t₂)

end Steps

theorem spaced_of_pending (hrun : db.runs.get? r = some run) (hpending : run.state = .PENDING) :
    Spaced service db r t₁ := by
  rintro init j hreach - earlier c later hlog rfl ⟨hcall, hlocked⟩ c' hc' t₂ ⟨hcall', hlocked'⟩
  obtain ⟨hfaithful, hhistory⟩ := planning_faithful hreach
  obtain ⟨between, rest, rfl⟩ := append_of_mem hc'
  have hlog' : j.log = (earlier ++ c :: between) ++ c' :: rest := by simp [hlog]
  have hafter : (c.after.rowsOf r).planningSince t₁ := by
    have hstep := hfaithful c (by simp [hlog]) r
    rw [hcall] at hstep
    exact hstep.planningSince_of_pending hlocked hrun hpending
  have hbefore : (c'.before.rowsOf r).planningSince t₁ := by
    refine (hhistory.split hlog').persists (K := fun d => (d.rowsOf r).planningSince t₁)
      (fun _ hc hsince => (hc r).planningSince hsince) (fun c'' hc'' => hfaithful c'' ?_)
      (by simp) hafter
    rw [hlog']
    exact mem_append_left _ hc''
  have hstep := hfaithful c' (by simp [hlog']) r
  rw [hcall'] at hstep
  exact hstep.stale hlocked' hbefore

/-! ## After a takeover -/

section Alone
variable {service : RunPlanningService} {db db' : Database} {run : RunRow}

theorem run_claimRun :
    (service.claimRun now).run db =
      match (db.claimableRuns (now - service.staleAfter)).head? with
      | none => .ok (none, db)
      | some run => (service.startPlanning now run).run db := by
  rw [RunPlanningService.claimRun, Prog.run_bind]
  cases hruns : db.claimableRuns (now - service.staleAfter) with
  | nil => simp [Prog.selectSkipLocked, Prog.run, hruns]
  | cons => simp [Prog.selectSkipLocked, Prog.run, hruns]

theorem taken_claimRun (hhead : (db.claimableRuns (now - service.staleAfter)).head? = some run) :
    Lock.run run.id ∈ ((PlanningCall.claimRun now).body service).taken db := by
  obtain ⟨rest, hruns⟩ := head?_eq_some_iff.mp hhead
  refine mem_append_left _ ?_
  simp [hruns]

theorem startStageAttempt_ok (h : (startStageAttempt row).run db = .ok (u, db')) :
    ∃ stageAttempts attempt, db' = { db with stageAttempts } ∧
      stageAttempts.get? row.key = some attempt := by
  obtain ⟨write, hwrite, rfl⟩ := Prog.checked_ok.mp h
  cases hexisting : db.stageAttempts.get? row.key with
  | some existing =>
    simp only [hexisting, Except.ok.injEq] at hwrite
    subst hwrite
    have hkey : existing.key = row.key := key_of_get? hexisting
    have hset : (db.stageAttempts.set (existing.restart row)).get? existing.key = _ :=
      get?_set_self (hkey ▸ hexisting)
    exact ⟨_, _, rfl, hkey ▸ hset⟩
  | none =>
    simp only [hexisting] at hwrite
    split at hwrite
    · cases hwrite
    · cases hwrite
      refine ⟨_, row, rfl, ?_⟩
      rw [get?_insert hexisting, if_pos rfl]

theorem enterPlanning_id (h : (enterPlanning run now).run db = .ok (run', db')) :
    run'.id = run.id := by
  simp only [enterPlanning] at h
  split at h
  · obtain ⟨_, _, -, h⟩ := Prog.bind_ok.mp h
    obtain ⟨_, _, -, h⟩ := Prog.bind_ok.mp h
    obtain ⟨_, _, -, ⟨rfl, -⟩⟩ := Prog.bind_ok.mp h
    rfl
  · cases h
    rfl

theorem startPlanning_id
    (h : (service.startPlanning now run).run db = .ok (some claim, db')) :
    claim.run.id = run.id := by
  obtain ⟨repository, _, ⟨rfl, rfl⟩, h⟩ := Prog.bind_ok.mp h
  cases hrepository : db.repositories.get? run.repositoryId with
  | none => simp [hrepository, Session.raise] at h
  | some repository =>
    simp only [hrepository] at h
    obtain ⟨_, _, henter, h⟩ := Prog.bind_ok.mp h
    obtain ⟨_, _, -, ⟨rfl, -⟩⟩ := Prog.bind_ok.mp h
    exact enterPlanning_id henter

/-- A takeover writes the stage attempt only. -/
theorem startPlanning_takeover (hplanning : run.state = .PLANNING)
    (h : (service.startPlanning now run).run db = .ok (claim, db')) :
    ∃ stageAttempts attempt, db' = { db with stageAttempts } ∧
      stageAttempts.get? (run.id, .architect) = some attempt ∧
      ∃ repository, db.repositories.get? run.repositoryId = some repository := by
  obtain ⟨repository, _, ⟨rfl, rfl⟩, h⟩ := Prog.bind_ok.mp h
  cases hrepository : db.repositories.get? run.repositoryId with
  | none => simp [hrepository, Session.raise] at h
  | some repository =>
    simp only [hrepository, enterPlanning, hplanning, ne_eq, not_true_eq_false, if_false] at h
    obtain ⟨_, _, ⟨rfl, rfl⟩, h⟩ := Prog.bind_ok.mp h
    obtain ⟨_, _, hstart, ⟨rfl, rfl⟩⟩ := Prog.bind_ok.mp h
    obtain ⟨stageAttempts, attempt, rfl, hattempt⟩ := startStageAttempt_ok hstart
    exact ⟨stageAttempts, attempt, rfl, hattempt, repository, rfl⟩

/-- Where there is an attempt, a takeover succeeds. -/
theorem startPlanning_restart (hplanning : run.state = .PLANNING)
    (hattempt : db.stageAttempts.get? (run.id, .architect) = some attempt)
    (hrepository : db.repositories.get? run.repositoryId = some repository) :
    (service.startPlanning now run).run db =
      .ok (some ⟨run, repository, stageAttemptId service.uuid5 run.id .architect, now⟩,
        db.setStageAttempt (attempt.restart (service.architectAttempt run now))) := by
  have hexisting : db.stageAttempts.get? (service.architectAttempt run now).key = some attempt :=
    hattempt
  simp [RunPlanningService.startPlanning, hrepository, enterPlanning, hplanning,
    startStageAttempt, Prog.run_checked, hexisting]

/-- A run that was taken over is at once taken over again. -/
theorem claimRun_again (hhead : (db.claimableRuns (now - service.staleAfter)).head? = some run)
    (hplanning : run.state = .PLANNING)
    (h : (service.claimRun now).run db = .ok (some claim, db')) :
    (db'.claimableRuns (now - service.staleAfter)).head? = some run ∧
      ∃ again db'', (service.claimRun now).run db' = .ok (some again, db'') := by
  simp only [run_claimRun, hhead] at h
  obtain ⟨stageAttempts, attempt, rfl, hattempt, hrepository⟩ :=
    startPlanning_takeover hplanning h
  have hhead' : (({ db with stageAttempts } : Database).claimableRuns
    (now - service.staleAfter)).head? = some run := hhead
  refine ⟨hhead', ?_⟩
  rw [run_claimRun, hhead']
  obtain ⟨repository, hrepository⟩ := hrepository
  exact ⟨_, _, startPlanning_restart hplanning hattempt hrepository⟩

end Alone

theorem claimableRuns_head {db : Database} {run : RunRow}
    (hhead : (db.claimableRuns staleBefore).head? = some run) :
    db.runs.get? run.id = some run ∧ run.state ∈ [RunStatus.PENDING, .PLANNING] := by
  have hmem := mem_of_mem_head? hhead
  rw [Database.claimableRuns, mem_insertionSort, mem_filter] at hmem
  exact ⟨get?_of_mem hmem.1, (claimable_open hmem.2).2⟩

theorem takeover_twice (hhead : (db.claimableRuns (now - service.staleAfter)).head? = some run)
    (hplanning : run.state = .PLANNING)
    (hclaim : (service.claimRun now).run db = .ok (some claim, db')) :
    ∃ (j : PlanningJournal) (c c' : PlanningCommit),
      Reach (PlanningJournal.step service) (fun _ _ => True) { sys := { db } } j ∧
      j.log = [c, c'] ∧ c.before = db ∧ Claims c run.id now ∧ Claims c' run.id now := by
  obtain ⟨hhead', again, db'', hagain⟩ := claimRun_again hhead hplanning hclaim
  have hbody : ∀ {db db' : Database} {claim : PlanningClaim},
      (service.claimRun now).run db = .ok (some claim, db') →
      ((PlanningCall.claimRun now).body service).run db = .ok ((), db') := by
    intro db db' claim h
    simp [PlanningCall.body, Prog.discard, h]
  obtain ⟨j₁, hreach₁, hidle₁, hdb₁, hlog₁⟩ := Sys.Idle.commit
    (.start : Reach (PlanningJournal.step service) (fun _ _ => True) { sys := { db } } _)
    ⟨fun _ => rfl, fun _ => rfl⟩ (.claimRun now)
  obtain ⟨j₂, hreach₂, -, -, hlog₂⟩ := Sys.Idle.commit hreach₁ hidle₁ (.claimRun now)
  rw [Prog.commit_of_ok (hbody hclaim)] at hdb₁
  have hlog := hlog₂ _ (by rw [hdb₁]; exact hbody hagain)
  rw [hlog₁ _ (hbody hclaim), hdb₁] at hlog
  exact ⟨j₂, _, _, hreach₂, hlog, rfl, ⟨rfl, taken_claimRun hhead⟩, ⟨rfl, taken_claimRun hhead'⟩⟩

/-- A claim that takes a run from PENDING is spaced, and no other one is unless
`stale_after` is negative. -/
theorem planning_takeover_spaced (service : RunPlanningService) (db : Database) (r : UUID)
    (t₁ : Time) :
    (((∃ run, db.runs.get? r = some run ∧ run.state = .PENDING) ∨ service.staleAfter < 0) →
      Spaced service db r t₁) ∧
    (∀ claim db', (service.claimRun t₁).run db = .ok (some claim, db') → claim.run.id = r →
      Spaced service db r t₁ →
      (∃ run, db.runs.get? r = some run ∧ run.state = .PENDING) ∨ service.staleAfter < 0) := by
  refine ⟨?_, ?_⟩
  · rintro (⟨run, hrun, hpending⟩ | hnegative)
    · exact spaced_of_pending hrun hpending
    · -- the clocks alone are enough
      rintro init j - hclocks earlier c later hlog - ⟨hcall, -⟩ c' hc' t₂ ⟨hcall', -⟩
      have hle : t₁ ≤ t₂ := by
        rw [pairwise_filterMap, hlog, pairwise_append, pairwise_cons] at hclocks
        exact hclocks.2.1.1 c' hc' t₁ (PlanningCall.claimedAt_eq_some.mpr hcall) t₂
          (PlanningCall.claimedAt_eq_some.mpr hcall')
      exact hnegative.trans_le (sub_nonneg.mpr hle)
  · rintro claim db' hclaim rfl hspaced
    by_contra hcondition
    rw [not_or, not_lt] at hcondition
    obtain ⟨hpending, hnonnegative⟩ := hcondition
    cases hhead : (db.claimableRuns (t₁ - service.staleAfter)).head? with
    | none => simp [run_claimRun, hhead] at hclaim
    | some run =>
      have hid : claim.run.id = run.id := by
        rw [run_claimRun, hhead] at hclaim
        exact startPlanning_id hclaim
      obtain ⟨hrun, hstate⟩ := claimableRuns_head hhead
      rw [hid] at hpending hspaced
      have hplanning : run.state = .PLANNING := by
        have hnot : run.state ≠ .PENDING := fun h => hpending ⟨run, hrun, h⟩
        simpa [hnot] using hstate
      obtain ⟨j, c, c', hreach, hlog, hbefore, hfirst, hsecond⟩ :=
        takeover_twice hhead hplanning hclaim
      have hlate := hspaced db j hreach
        (by simp [hlog, hfirst.1, hsecond.1, PlanningCall.claimedAt]) [] c [c'] hlog hbefore hfirst
        c' (by simp) t₁ hsecond
      exact absurd hnonnegative (not_le.mpr (by simpa using hlate))

def Database.architectStartedAt (db : Database) (r : UUID) : Option Time :=
  (db.stageAttempts.get? (r, .architect)).map RunStageAttemptRow.startedAt

/-- A claim that restarted the attempt of the run took the run. -/
theorem claims_of_restart (h : Faithful service c) (hcall : c.call.claimedAt = some t)
    (hchanged : c.before.architectStartedAt r ≠ c.after.architectStartedAt r) :
    Claims c r t := by
  have hclaim := PlanningCall.claimedAt_eq_some.mp hcall
  refine ⟨hclaim, ?_⟩
  have hstep := h r
  rw [hclaim] at hstep
  generalize (Lock.run r ∈ c.held) = locked at hstep ⊢
  have hrows : c.before.rowsOf r ≠ c.after.rowsOf r := fun he =>
    hchanged (congrArg (fun x : RunRows => (x.stages .architect).map _) he)
  generalize c.after.rowsOf r = x' at hstep hrows
  cases hstep with
  | idle => exact absurd rfl hrows
  | claim _ hlocked => exact hlocked

def sampleDisplaced : List (Event PlanningCall) :=
  flatten [
    [.start 0 (.claimRun 100)], replicate 5 (.exec 0), [.finish 0],
    [.start 1 (.claimRun 30000200)], replicate 3 (.exec 1), [.finish 1],
    [.start 2 (.claimRun 30000300)], replicate 3 (.exec 2), [.finish 2]]

/-- The second planner owns the run for 100 microseconds. -/
theorem planning_takeover_unspaced :
    ∃ (j : PlanningJournal) (first c c' : PlanningCommit),
      Reach (PlanningJournal.step samplePlanner) (fun _ _ => True)
        { sys := { db := sampleRequested } } j ∧
      j.log = [first, c, c'] ∧ first.call = .claimRun 100 ∧
      Claims c 40 30000200 ∧ Claims c' 40 30000300 ∧
      ¬ samplePlanner.staleAfter < 30000300 - 30000200 ∧
      ∃ run, j.sys.db.runs.get? 40 = some run ∧ run.state = .PLANNING ∧
        run.cancellationRequestedAt = none := by
  have hrun : (sampleDisplaced.foldlM (PlanningJournal.step samplePlanner)
      { sys := { db := sampleRequested } }).any (fun j =>
        decide (j.log.map (fun c => (c.call.claimedAt, c.before.architectStartedAt 40,
            c.after.architectStartedAt 40)) =
          [(some 100, none, some 100), (some 30000200, some 100, some 30000200),
            (some 30000300, some 30000200, some 30000300)]) &&
        (j.sys.db.runs.get? 40).any fun run =>
          decide (run.state = .PLANNING ∧ run.cancellationRequestedAt = none)) = true := by
    decide +kernel
  obtain ⟨j, hj, hcheck⟩ := any_eq_true _ _ |>.mp hrun
  obtain ⟨hlog, hopen⟩ := Bool.and_eq_true _ _ |>.mp hcheck
  obtain ⟨run, hget, hrun⟩ := exists_of_any hopen
  have hreach : Reach (PlanningJournal.step samplePlanner) (fun _ _ => True) _ j :=
    Reach.start.foldlM sampleDisplaced (fun _ _ _ => trivial) hj
  obtain ⟨hfaithful, -⟩ := planning_faithful hreach
  obtain ⟨first, _, hl, hfirst, hrest⟩ := map_eq_cons_iff.mp (of_decide_eq_true hlog)
  obtain ⟨c, _, rfl, hc, hrest⟩ := map_eq_cons_iff.mp hrest
  obtain ⟨c', _, rfl, hc', hrest⟩ := map_eq_cons_iff.mp hrest
  obtain rfl := map_eq_nil_iff.mp hrest
  simp only [Prod.mk.injEq] at hfirst hc hc'
  exact ⟨j, first, c, c', hreach, hl, PlanningCall.claimedAt_eq_some.mp hfirst.1,
    claims_of_restart (hfaithful c (by simp [hl])) hc.1 (by simp [hc.2]),
    claims_of_restart (hfaithful c' (by simp [hl])) hc'.1 (by simp [hc'.2]),
    by decide, run, hget, hrun⟩

end AutoSwe
