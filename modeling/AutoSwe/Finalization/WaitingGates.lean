import AutoSwe.Finalization.AdvanceNext

/-!
# Runs that wait on a gate

A run waits for the memory because its note could not be stored yet, and for an
operator because the release is not decided yet. It goes on waiting, however,
when the promotion gate has rejected the note and when the approval has expired
unless a late decision marked it so.
-/

namespace AutoSwe

open Relational Transaction Coroutine LabelledRun Table List Option Touches Fleet

/-! ## Rejected notes -/

def Unrejected (db : Database) : Prop :=
  ∀ id row, db.memoryCandidates.get? id = some row → row.status ≠ .REJECTED

theorem Unrejected.same (h : Unrejected db) (hsame : db'.memoryCandidates = db.memoryCandidates) :
    Unrejected db' := by
  rwa [Unrejected, hsame]

theorem Unrejected.set (h : Unrejected db)
    (hrow : row.status ≠ .REJECTED) : Unrejected (db.setCandidate row) := by
  intro id row' hget
  rw [Database.setCandidate, get?_set] at hget
  split at hget
  · obtain ⟨_, _, rfl⟩ := map_eq_some_iff.mp hget
    exact hrow
  · exact h id row' hget

/-- The sessions that reject no note. -/
abbrev Accepting (p : Session α) : Prop :=
  p.Writes fun write => ∀ db, Unrejected db → Unrejected (write db)

namespace Accepting

theorem committed (h : Accepting p) (hdb : Unrejected db) : Unrejected (p.commit db).2 :=
  (Prog.Writes.refines (R := fun db db' => Unrejected db → Unrejected db') (fun _ => id)
    (fun h h' hdb => h' (h hdb)) h).commit (fun _ => id) trivial hdb

theorem ofTouches (h : Touches tables p) (hcandidates : .memoryCandidates ∉ tables) : Accepting p :=
  h.mono fun _ hwrite db hdb => hdb.same (hwrite db .memoryCandidates hcandidates)

variable {service : PromotionService}

theorem prepareCandidate :
    Accepting (service.prepareCandidate run sink attempt plan commit messages draw) := by
  have hquery : ∀ {α : Type} (read : Database → α), Accepting (Prog.query read) :=
    fun read => Prog.Writes.query (fun _ => id) read
  have hrequire : ∀ check, Accepting (Session.require check) := fun check =>
    ofTouches (require check) not_mem_nil
  refine .bind (hquery _) fun artifacts => .bind (hrequire _) fun _ =>
    .bind (hquery _) fun row => ?_
  cases row with
  | some row => exact trivial
  | none =>
    refine .bind (hquery _) fun twin => ?_
    cases twin with
    | true => exact trivial
    | false =>
      refine .bind (Prog.Writes.execute fun db hdb id row hget => ?_) fun _ => trivial
      rcases get?_insert_cases db.memoryCandidates _ id with hsame | hnew
      · exact hdb id row (hsame.symm.trans hget)
      · cases hnew.symm.trans hget
        simp [PromotionService.candidateRow]

theorem setLocalState (h : status ≠ .REJECTED) :
    Accepting (service.setLocalState candidate status error revisionId draw) := by
  refine .bind (Prog.Writes.query (fun _ => id) _) fun row => ?_
  cases row with
  | none => exact trivial
  | some row =>
    refine .bind (Prog.Writes.execute fun db hdb => hdb.set h) fun _ => ?_
    split
    · exact ofTouches Logs.waitForMemory.writes (by decide)
    · exact trivial

theorem complete : Accepting (service.complete candidate revisionId now draw) := by
  refine .bind (Prog.Writes.query (fun _ => id) _) fun row => ?_
  cases row with
  | none => exact trivial
  | some row =>
    dsimp only
    split
    · exact trivial
    · have hlog : ∀ audit event, Touches [.auditEvents, .outbox] (do
          appendNamedAudit audit
          enqueueNamedEvent event) := fun audit event =>
        .bind (Touches.appendNamedAudit (by decide) audit) fun _ =>
          Touches.enqueueNamedEvent (by decide) event
      exact .bind (Prog.Writes.execute fun db hdb => hdb.set (by simp)) fun _ =>
        .bind (ofTouches Logs.resumeGraph.writes (by decide)) fun _ => ofTouches (hlog _ _)
          (by decide)

end Accepting

/-- The activity records that the promotion gate has rejected a note. -/
def Activity.rejects : Activity → Bool
  | .setLocalState _ .REJECTED _ _ => true
  | _ => false

theorem Activity.candidates_of_mem {a : Activity} (h : .memoryCandidates ∈ a.tables) :
    (∃ run sink attempt plan commit, a = .prepareCandidate run sink attempt plan commit) ∨
      (∃ candidate status error revisionId, a = .setLocalState candidate status error revisionId) ∨
      ∃ candidate revisionId, a = .complete candidate revisionId := by
  cases a <;> simp [Activity.tables, evidenceTables, graphTables, repairTables,
    runTables, approvalTables] at h ⊢

theorem act_unrejected {s : Platform} {a : Activity} (h : a.rejects = false)
    (hdb : Unrejected s.db) : Unrejected (a.act service s answer).2.db := by
  by_cases hcandidates : .memoryCandidates ∈ a.tables
  · unfold Activity.act
    rw [← a.start_db s] at hdb
    cases answer.failure with
    | some error => exact hdb
    | none =>
      rcases a.candidates_of_mem hcandidates with ⟨_, _, _, _, _, rfl⟩ | ⟨_, status, _, _, rfl⟩ |
        ⟨_, _, rfl⟩
      · exact Accepting.prepareCandidate.committed hdb
      · have hstatus : status ≠ .REJECTED := by
          rintro rfl
          cases h
        exact (Accepting.setLocalState hstatus).committed hdb
      · exact Accepting.complete.committed hdb
  · exact hdb.same (a.act_agree service s answer .memoryCandidates hcandidates)

/-- No dispatcher comes to record that the promotion gate has rejected a note. -/
def GateAccepts (s : Dispatchers) : Event Job Answer Outside → Prop
  | .resume i _ => ∀ job a next, s.procs i = some (job, .await a next) → a.rejects = false
  | _ => True

theorem unrejected_of_reach
    (h : Reach (step (dispatching parts)) (fun s e => Selects s e ∧ GateAccepts s e)
      { store := {} } s) : Unrejected s.store.db := by
  refine store_invariant (J := fun s : Platform => Unrejected s.db) ?_ ?_ ?_ ?_ h
  · exact fun _ _ hget => by cases hget
  · intro s e _ hs
    refine hs.same (parts.body_agree e s.store.db .memoryCandidates ?_)
    cases e <;> simp [Outside.tables, graphTables, planningTables, approvalTables]
  · intro s i answer job a next haccepts hproc hs
    exact act_unrejected (haccepts.2 job a next hproc) hs
  · exact fun _ _ _ _ _ _ _ _ hs => hs

/-! ## Expired approvals -/

section
variable (parts : Installation) {answers : Activity → Answer} {s : Platform} {run : RunRow}

theorem free_of_claimStage (h : (claimStage uuid5 runId state now).run db = .ok (some fence, db')) :
    db.stageFree runId state now := by
  have h := Prog.after h rfl
  split at h
  · assumption
  · cases h

theorem advanceNext_held (hrun : s.db.finalizable.head? = some run)
    (h : ¬ s.db.stageFree run.id run.state (answers (.claimStage run.id run.state)).now) :
    Keeps s.db (parts.finalizer.advanceNext answers s).2.db := by
  have hcall : (parts.finalizer.advanceRun run.id run.state).wp (parts.finalizer.alone answers)
      (fun _ s' => Keeps s.db s'.db) s := by
    refine advanceRun_wp (R := Keeps s.db) .trans (fun _ => .refl _) fun s₁ fence _ hclaimed => ?_
    rw [RunFinalizationService.act, Activity.act_ok hclaimed] at hclaimed
    exact absurd (free_of_claimStage (Platform.transact_ok hclaimed)) h
  simp only [RunFinalizationService.advanceNext, hrun]
  exact hcall.runAlone

/-- The call that takes up an expired approval fails the run only if the approval
had been turned down or marked as expired. -/
theorem advanceNext_expired (hanswers : ∀ a, (answers a).failure = none)
    (hid : ∀ row, s.db.stageAttemptById
      (stageAttemptId parts.finalizer.uuid5 run.id (.advance run.state)) = some row →
        row.key = (run.id, .advance run.state))
    (hrun : s.db.finalizable.head? = some run) (hstate : run.state = .WAITING_FOR_APPROVAL)
    (hidentity : s.db.releaseIdentity run = some identity)
    (happroval : s.db.approvalOf identity.call.callId = some approval)
    (hexpired : approval.expiresAt ≤ (answers (.authorize approval.id identity.call
      (approvalContext identity.run identity.sink identity.attempt))).now) :
    (∃ run', (parts.finalizer.advanceNext answers s).2.db.runs.get? run.id = some run' ∧
        run'.state ∈ runTerminalStates) ↔
      s.db.stageFree run.id run.state (answers (.claimStage run.id run.state)).now ∧
        approval.status ≠ .PENDING ∧ approval.status ≠ .APPROVED := by
  obtain ⟨hget, -⟩ := run_of_finalizable hrun
  -- a call after which the runs are as before has not moved this one
  have hunmoved : Keeps s.db (parts.finalizer.advanceNext answers s).2.db →
      ¬ ∃ run', (parts.finalizer.advanceNext answers s).2.db.runs.get? run.id = some run' ∧
        run'.state ∈ runTerminalStates := by
    rintro hkeeps ⟨run', hrun', hterminal⟩
    rw [hkeeps.runs, hget] at hrun'
    cases hrun'
    simp [hstate, runTerminalStates] at hterminal
  constructor
  · intro hmoved
    refine ⟨?_, not_or.mp fun hundecided => ?_⟩
    · by_contra hheld
      exact hunmoved (advanceNext_held parts hrun hheld) hmoved
    · refine hunmoved (advanceNext_unready parts.finalizer answers hrun ?_) hmoved
      simp only [RunFinalizationService.Unready, hstate]
      intro identity' approval' hidentity' happroval'
      cases hidentity.symm.trans hidentity'
      cases happroval.symm.trans happroval'
      exact hundecided.imp_right fun happroved => ⟨happroved, hexpired⟩
  · rintro ⟨hfree, hpending, happroved⟩
    have hfailing : s.db.Failing run := by
      simp only [Database.Failing, hstate]
      exact ⟨identity, approval, hidentity, happroval, hpending, happroved⟩
    have hfailed := advanceNext_failing parts answers hanswers hrun hfree hid hfailing
    obtain ⟨run', hrun', hstate'⟩ := map_eq_some_iff.mp hfailed
    exact ⟨run', hrun', by simp [hstate', runTerminalStates]⟩

end

/-- No run waits for the memory on a rejected note as long as the promotion gate
rejects none; a run that waits on an expired approval is ended by the next call
exactly if the approval had been turned down or marked as expired. -/
theorem waiting_runs_move (parts : Installation) :
    (∀ s : Dispatchers, Reach (step (dispatching parts))
        (fun s e => Selects s e ∧ GateAccepts s e) { store := {} } s →
      ∀ r run row, s.store.db.runs.get? r = some run → run.state = .WAITING_FOR_MEMORY →
        s.store.db.latestCandidate r = some row → row.status ≠ .REJECTED) ∧
    (∀ (s : Platform) (answers : Activity → Answer) run identity approval,
      (∀ a, (answers a).failure = none) →
      (∀ row, s.db.stageAttemptById
        (stageAttemptId parts.finalizer.uuid5 run.id (.advance run.state)) = some row →
          row.key = (run.id, .advance run.state)) →
      s.db.finalizable.head? = some run → run.state = .WAITING_FOR_APPROVAL →
      s.db.releaseIdentity run = some identity →
      s.db.approvalOf identity.call.callId = some approval →
      approval.expiresAt ≤ (answers (.authorize approval.id identity.call
        (approvalContext identity.run identity.sink identity.attempt))).now →
      ((∃ run', (parts.finalizer.advanceNext answers s).2.db.runs.get? run.id = some run' ∧
          run'.state ∈ runTerminalStates) ↔
        s.db.stageFree run.id run.state (answers (.claimStage run.id run.state)).now ∧
          approval.status ≠ .PENDING ∧ approval.status ≠ .APPROVED)) := by
  refine ⟨fun s hreach r run row _ _ hrow => ?_, fun s answers run identity approval
    hanswers hid hrun
    hstate hidentity happroval hexpired => ?_⟩
  · have hmem := mem_of_mem_head? hrow
    rw [mem_insertionSort, mem_filter] at hmem
    exact unrejected_of_reach hreach row.id row (get?_of_mem hmem.1)
  · exact advanceNext_expired parts hanswers hid hrun hstate hidentity happroval hexpired

/-- An installation in whose notes there is sensitive data, or none. -/
def sampleGated (sensitive : Bool) : Installation :=
  { sampleInstallation with finalizer := { sampleFinalizer with
      promotion := { sampleFinalizer.promotion with
        gate := { containsSensitiveData := fun _ => sensitive, casefold := id } } } }

abbrev sampleGating (sensitive : Bool) :
    Dispatchers → Event Job Answer Outside → Option Dispatchers :=
  step (dispatching (sampleGated sensitive))

/-- The executed run is reviewed, and the release commit submitted for approval. -/
def sampleReviewed : List (Event Job Answer Outside) :=
  sampleExecuted true ++
    [.spawn 0 (.advance 40 .EXECUTING), .resume 0 { now := 150 }, .resume 0 {},
      .resume 0 { objects := sampleFiles true }, .resume 0 {}, .resume 0 {}, .resume 0 {},
      .resume 0 {},
      .resume 0
        { review := ⟨true, "summary", [("tests pass", [60])], [], summary_length, noReasons_length⟩ },
      .resume 0 { objects := sampleFiles true }, .resume 0 {}, .resume 0 {},
      .resume 0 { text := "tree" }, .resume 0 { now := 160 }, .resume 0 { now := 170 },
      .resume 0 { now := 180 }]

def sampleDecision (now : Time) : List (Event Job Answer Outside) :=
  [.environment (.decide 46 "admin" true "call" now)]

/-- The commit, and the promotion up to the verdict of the gate. -/
def sampleCommitted : List (Event Job Answer Outside) :=
  [.spawn 1 (.advance 40 .WAITING_FOR_APPROVAL), .resume 1 { now := 210 }, .resume 1 {},
    .resume 1 {}, .resume 1 {}, .resume 1 { now := 220 }, .resume 1 { text := "commit" },
    .resume 1 {}, .resume 1 {}, .resume 1 {}, .resume 1 { messages := [7] }, .resume 1 {}]

def gateAccepts (s : Dispatchers) : Event Job Answer Outside → Bool
  | .resume i _ =>
    match s.procs i with
    | some (_, .await a _) => !a.rejects
    | _ => true
  | _ => true

theorem gateAccepts_of_check (s : Dispatchers) (e : Event Job Answer Outside)
    (h : (decide (Selects s e) && gateAccepts s e) = true) : Selects s e ∧ GateAccepts s e := by
  obtain ⟨hselects, hcheck⟩ := Bool.and_eq_true_iff.mp h
  refine ⟨of_decide_eq_true hselects, ?_⟩
  cases e with
  | resume =>
    intro job a next hproc
    simpa [gateAccepts, hproc] using hcheck
  | _ => trivial

theorem waiting_runs_move_sample :
    (∃ s : Dispatchers, ∃ row, s.store.db.latestCandidate 40 = some row ∧
      row.status ≠ .REJECTED) ∧
    ∃ s : Platform, (s.db.runs.get? 40).map RunRow.state = some .WAITING_FOR_APPROVAL ∧
      ∃ run, (sampleFinalizer.advanceNext (fun _ => { now := 4000000100 }) s).2.db.runs.get? 40 =
        some run ∧ run.state ∈ runTerminalStates := by
  constructor
  · have hrun :
      (checkedRun (sampleGating false) (fun s e => decide (Selects s e) && gateAccepts s e)
        (sampleReviewed ++ sampleDecision 200 ++ sampleCommitted ++
          [.resume 1 {}, .resume 1 {}, .resume 1 {}, .resume 1 {}]) { store := {} }).any (fun s =>
        (s.store.db.runs.get? 40).any (fun run => run.state = .WAITING_FOR_MEMORY) ∧
          (s.store.db.latestCandidate 40).isSome) := by
      decide +kernel
    obtain ⟨s, hs, hwaiting, hcandidate⟩ := exists_of_any hrun
    obtain ⟨run, hrow, hstate⟩ := any_eq_true _ _ |>.mp hwaiting
    obtain ⟨row, hlatest⟩ := isSome_iff_exists.mp hcandidate
    exact ⟨s, row, hlatest, (waiting_runs_move (sampleGated false)).1 s
      (Reach.checkedRun gateAccepts_of_check .start _ hs) 40 run row hrow
      (of_decide_eq_true hstate) hlatest⟩
  · have hrun : (checkedRun (sampleGating false) (fun s e => decide (Selects s e))
        (sampleReviewed ++ sampleDecision 4000000000) { store := {} }).any (fun s =>
        s.store.db.finalizable.head?.any fun run =>
          run.id = 40 ∧ run.state = .WAITING_FOR_APPROVAL ∧
          s.store.db.stageFree run.id run.state 4000000100 ∧
          (s.store.db.stageAttemptById (stageAttemptId sampleNames run.id
            (.advance run.state))).all (fun row => row.key = (run.id, .advance run.state)) ∧
          (s.store.db.releaseIdentity run).any fun identity =>
            (s.store.db.approvalOf identity.call.callId).any fun approval =>
              approval.expiresAt ≤ 4000000100 ∧ approval.status = .EXPIRED) := by
      decide +kernel
    obtain ⟨s, -, hs⟩ := any_eq_true _ _ |>.mp hrun
    obtain ⟨run, holdest, hid, hstate, hfree, hattempt, hrelease⟩ := exists_of_any hs
    obtain ⟨identity, hidentity, happrovals⟩ := any_eq_true _ _ |>.mp hrelease
    obtain ⟨approval, happroval, hexpired, hstatus⟩ := exists_of_any happrovals
    have hkey : ∀ row, s.store.db.stageAttemptById (stageAttemptId sampleNames run.id
        (.advance run.state)) = some row → row.key = (run.id, .advance run.state) :=
      fun row hrow => by simpa [hrow] using hattempt
    have hmoves := (waiting_runs_move (sampleGated false)).2 s.store
      (fun _ => { now := 4000000100 })
      run identity approval (fun _ => rfl) hkey holdest hstate hidentity happroval hexpired
    refine ⟨s.store, ?_, ?_⟩
    · rw [← hid, (run_of_finalizable holdest).1, map_some, hstate]
    · rw [← hid]
      exact hmoves.mpr ⟨hfree, by simp [hstatus]⟩

/-- The note of a run is rejected and the run waits for the memory; the approval of
another one runs out, undecided or granted, and the run waits for it. -/
theorem waiting_runs_stay :
    (∃ s : Dispatchers, Reach (sampleGating true) Selects { store := {} } s ∧
      (s.store.db.runs.get? 40).map RunRow.state = some .WAITING_FOR_MEMORY ∧
      (s.store.db.latestCandidate 40).map MemoryCandidateRow.status = some .REJECTED) ∧
    ∀ granted : Bool, ∃ s : Dispatchers, Reach (sampleGating false) Selects { store := {} } s ∧
      (s.store.db.runs.get? 40).map RunRow.state = some .WAITING_FOR_APPROVAL ∧
      s.store.db.approvals.rows.map (fun row => (row.expiresAt, row.status)) =
        [(3600000160, if granted then .APPROVED else .PENDING)] ∧
      ((sampleFinalizer.advanceNext (fun _ => { now := 4000000100 }) s.store).2.db.runs.get? 40).map
        RunRow.state = some .WAITING_FOR_APPROVAL := by
  refine ⟨⟨_, .checked (fun _ _ => of_decide_eq_true)
    (sampleReviewed ++ sampleDecision 200 ++ sampleCommitted ++ [.resume 1 {}, .resume 1 {}])
    (by decide +kernel), by decide +kernel, by decide +kernel⟩, fun granted => ?_⟩
  cases granted with
  | false =>
    exact ⟨_, .checked (fun _ _ => of_decide_eq_true) sampleReviewed (by decide +kernel),
      by decide +kernel, by decide +kernel, by decide +kernel⟩
  | true =>
    exact ⟨_, .checked (fun _ _ => of_decide_eq_true) (sampleReviewed ++ sampleDecision 200)
      (by decide +kernel), by decide +kernel, by decide +kernel, by decide +kernel⟩

end AutoSwe
