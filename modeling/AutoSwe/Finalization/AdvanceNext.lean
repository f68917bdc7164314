import AutoSwe.Finalization.Dispatchers

/-!
# One call of `advance_next`

A call that nobody disturbs takes the oldest run that is past planning and
works on that run only (`advanceNext_others`). A run that is not ready leaves
everything as it is, and stays the oldest one (`advanceNext_unready`); one whose
failure is certain is failed (`advanceNext_failing`).
-/

namespace AutoSwe

open Relational Transaction Coroutine Table List Process Activity Except

/-! ## Calls that nobody disturbs -/

namespace RunFinalizationService

variable (service : RunFinalizationService) (answers : Activity → Answer)

abbrev act (s : Platform) (answer : Answer) (a : Activity) : Except Raised a.Result × Platform :=
  a.act service s answer

abbrev alone : Setting Platform Activity Result Raised Answer :=
  .alone service.act answers

/-- `advance_next`, when every activity is answered by `answers`. -/
def advanceNext (s : Platform) : Except Raised (Option String) × Platform :=
  match s.db.finalizable.head? with
  | none => (.ok none, s)
  | some run => (service.advanceRun run.id run.state).runAlone service.act answers s

end RunFinalizationService

section
variable {service : RunFinalizationService} {answers : Activity → Answer}
  {Q : Except Raised α → Platform → Prop} {s : Platform}

theorem activity_wp (herror : ∀ e, (service.act s (answers a) a).1 = .error e →
      Q (.error e) (service.act s (answers a) a).2)
    (hok : ∀ b, (service.act s (answers a) a).1 = .ok b →
      (f b).wp (service.alone answers) Q (service.act s (answers a) a).2) :
    (activity a >>= f).wp (service.alone answers) Q s := by
  refine wp.bind (wp.alone (Q := fun r s' =>
    r = (service.act s (answers a) a).1 ∧ s' = (service.act s (answers a) a).2) ⟨rfl, rfl⟩) ?_ ?_
  · rintro b _ ⟨hb, rfl⟩
    exact hok b hb.symm
  · rintro e _ ⟨he, rfl⟩
    exact herror e he.symm

theorem answered_keeps (service : RunFinalizationService) (answers : Activity → Answer)
    (s : Platform) (a : Activity) (h : a.moves = false) :
    Keeps s.db (service.act s (answers a) a).2.db :=
  a.act_keeps service s (answers a) h

theorem read_wp (hstart : a.start s = s) (hread : (a.carryOut service s (answers a)).2 = s)
    (herror : ∀ e, (answers a).failure = some e ∨
      (a.carryOut service s (answers a)).1 = .error e → Q (.error e) s)
    (hok : ∀ b, (a.carryOut service s (answers a)).1 = .ok b →
      (f b).wp (service.alone answers) Q s) :
    (activity a >>= f).wp (service.alone answers) Q s := by
  refine activity_wp ?_ ?_ <;> simp only [RunFinalizationService.act, act] <;>
    cases hfailure : (answers a).failure <;> simp only [hstart, hread]
  · exact fun e he => herror e (.inr he)
  · exact fun e he => herror e (.inl (by rw [hfailure, error.inj he]))
  · exact hok
  · exact fun b hb => by cases hb

/-- The release of a stage in a `finally` goes unnoticed by runs, tasks and plans. -/
theorem finally_wp {p : Dispatching α} {R : Database → Prop}
    (hkeeps : ∀ {db db'}, R db → Keeps db db' → R db')
    (h : p.wp (service.alone answers) (fun _ s' => R s'.db) s) :
    (p.finally (activity (.releaseStage runId state fence))).wp (service.alone answers)
      (fun _ s' => R s'.db) s := by
  have hlast : ∀ {β : Type} {s : Platform} {f : Unit → Dispatching β}, R s.db →
      (∀ {s}, R s.db → (f ()).wp (service.alone answers) (fun _ s' => R s'.db) s) →
      (activity (.releaseStage runId state fence) >>= f).wp (service.alone answers)
        (fun _ s' => R s'.db) s := by
    intro β s f hs hf
    have hs' := hkeeps hs (answered_keeps service answers s (.releaseStage runId state fence) rfl)
    exact activity_wp (fun _ _ => hs') fun _ _ => hf hs'
  refine .bind (R := fun _ s' => R s'.db) ?_ (fun b s hs => hlast hs id) (fun _ _ hs => hs)
  exact .tryCatch h (fun _ _ hs => hs) fun e s hs => hlast hs id

theorem advanceRun_wp {R : Database → Prop} (hkeeps : ∀ {db db'}, R db → Keeps db db' → R db')
    (hclaim : (∀ fence, (service.act s (answers (.claimStage runId state))
      (.claimStage runId state)).1 ≠ .ok (some fence)) → R s.db)
    (hstage : ∀ (s₁ : Platform) fence, Agree [.stageAttempts] s.db s₁.db →
      (service.act s (answers (.claimStage runId state)) (.claimStage runId state)).1 =
        .ok (some fence) → (service.advanceStage runId state fence).wp (service.alone answers)
          (fun _ s' => R s'.db) s₁) :
    (service.advanceRun runId state).wp (service.alone answers) (fun _ s' => R s'.db) s := by
  have hunclaimed := fun h =>
    hkeeps (hclaim h) (answered_keeps service answers s (.claimStage runId state) rfl)
  refine activity_wp (fun e he => hunclaimed fun fence => by simp [he]) fun claimed hclaimed => ?_
  cases claimed with
  | none => exact hunclaimed fun fence => by simp [hclaimed]
  | some fence =>
    refine finally_wp hkeeps (hstage _ fence ?_ hclaimed)
    exact (Activity.claimStage runId state).act_agree service s _

end

/-! ## Runs that are not ready -/

/-- The memory has taken a note and finds it. -/
def Answer.remembered (answer : Answer) : Prop :=
  ∃ receipt revisionId, answer.receipt = .ok receipt ∧ receipt.revisionId = some revisionId ∧
    receipt.searchable = true

/-- The stage of the run has nothing to go on with: a task is open, the release is
not approved or no longer so, or the note is rejected or not remembered. -/
def RunFinalizationService.Unready (service : RunFinalizationService)
    (answers : Activity → Answer) (db : Database) (run : RunRow) : Prop :=
  match run.state with
  | .EXECUTING => db.tasksOf run.id = [] ∨
      ∃ task ∈ db.tasksOf run.id, task.state ∉ terminalTaskStates
  | .WAITING_FOR_APPROVAL => ∀ identity approval, db.releaseIdentity run = some identity →
      db.approvalOf identity.call.callId = some approval → approval.status = .PENDING ∨
        approval.status = .APPROVED ∧ approval.expiresAt ≤ (answers (.authorize approval.id
          identity.call (approvalContext identity.run identity.sink identity.attempt))).now
  | _ => ∀ row run' sink attempt, db.latestCandidate run.id = some row →
      db.finalStageIdentity run.id = .ok (run', sink, attempt) →
      service.promotion.gate.evaluate row.candidate
        (db.promotionReview run.id sink.id attempt.status) ≠ [] ∨
          ¬ (answers (.remember row.candidate)).remembered

section
variable {service : RunFinalizationService} {answers : Activity → Answer} {s : Platform}

theorem advanceExecuting_unready (h : s.db.tasksOf r = [] ∨
      ∃ task ∈ s.db.tasksOf r, task.state ∉ terminalTaskStates) :
    (service.advanceExecuting r).wp (service.alone answers) (fun _ s' => Keeps s.db s'.db) s := by
  refine read_wp rfl rfl (fun _ _ => .refl _) fun tasks htasks => ?_
  cases htasks
  rw [if_pos]
  · exact .refl _
  · simpa using h

theorem authorize_expired {service : ApprovalService} {db db' : Database} {approval : ApprovalRow}
    (hget : db.approvals.get? approval.id = some approval) (hexpired : approval.expiresAt ≤ now) :
    (service.authorize approval.id call context now).run db ≠ .ok ((), db') := by
  intro h
  obtain ⟨_, _, hscope, h⟩ := Prog.bind_ok.mp h
  obtain ⟨-, rfl⟩ := Session.require_ok.mp hscope
  have h := Prog.after h rfl
  simp only [hget] at h
  have hcheck := (Session.require_ok.mp h).1
  simp [ApprovalService.checkAuthorization, hexpired] at hcheck

theorem advanceApproval_unready {run : RunRow} (hrun : s.db.runs.get? r = some run)
    (h : ∀ identity approval, s.db.releaseIdentity run = some identity →
      s.db.approvalOf identity.call.callId = some approval → approval.status = .PENDING ∨
        approval.status = .APPROVED ∧ approval.expiresAt ≤ (answers (.authorize approval.id
          identity.call (approvalContext identity.run identity.sink identity.attempt))).now) :
    (service.advanceApproval r fence).wp (service.alone answers)
      (fun _ s' => Keeps s.db s'.db) s := by
  refine read_wp rfl (by simp only [Activity.carryOut, hrun]) (fun _ _ => .refl _) ?_
  intro identity hidentity
  simp only [Activity.carryOut, hrun, ok.injEq] at hidentity
  cases identity with
  | none => exact .refl _
  | some identity =>
    refine read_wp rfl rfl (fun _ _ => .refl _) fun approval happroval => ?_
    simp only [Activity.carryOut, ok.injEq] at happroval
    cases approval with
    | none => exact .refl _
    | some approval =>
      rcases h identity approval hidentity happroval with hpending | ⟨happroved, hexpired⟩
      · simp only [hpending, if_true]
        exact .refl _
      · simp only [happroved, reduceCtorEq, if_false, ne_eq, not_true_eq_false]
        refine read_wp rfl rfl (fun _ _ => .refl _) fun held _ => ?_
        cases held with
        | false => exact .refl _
        | true =>
          refine activity_wp (fun _ _ => answered_keeps service answers s (.authorize _ _ _) rfl) ?_
          intro u hauthorized
          rw [RunFinalizationService.act, Activity.act_ok hauthorized] at hauthorized
          have hget : s.db.approvals.get? approval.id = some approval :=
            get?_of_mem (mem_of_find?_eq_some happroval)
          exact absurd (Platform.transact_ok hauthorized) (authorize_expired hget hexpired)

theorem promote_unready (h : service.promotion.gate.evaluate candidate review ≠ [] ∨
      ¬ (answers (.remember candidate)).remembered) :
    (service.promote candidate review).wp (service.alone answers)
      (fun outcome s' => Keeps s.db s'.db ∧ outcome ≠ .ok .PROMOTED) s := by
  -- every way out but one records a state of the candidate and stands down
  have hlast : ∀ {s' : Platform} status error revisionId outcome, Keeps s.db s'.db →
      outcome ≠ .PROMOTED → (do
        activity (.setLocalState candidate status error revisionId)
        pure outcome : Dispatching PromotionOutcome).wp (service.alone answers)
          (fun outcome s' => Keeps s.db s'.db ∧ outcome ≠ .ok .PROMOTED) s' := by
    intro s' status error revisionId outcome hkeeps houtcome
    have hkeeps' := hkeeps.trans
      (answered_keeps service answers s' (.setLocalState candidate status error revisionId) rfl)
    exact activity_wp (fun _ _ => ⟨hkeeps', by simp⟩) fun _ _ => ⟨hkeeps', by simpa using houtcome⟩
  unfold RunFinalizationService.promote
  split
  · rename_i haccepted
    have hforgotten := h.resolve_left (not_not.mpr haccepted)
    have hkeeps := answered_keeps service answers s
      (.setLocalState candidate .PROMOTING none none) rfl
    refine activity_wp (fun _ _ => ⟨hkeeps, by simp⟩) fun _ _ => ?_
    refine read_wp rfl rfl (fun _ _ => ⟨hkeeps, by simp⟩) fun receipt hreceipt => ?_
    simp only [carryOut, ok.injEq] at hreceipt
    cases receipt with
    | error unavailable => exact hlast _ _ _ _ hkeeps (by simp)
    | ok receipt =>
      dsimp only
      split
      · rename_i revisionId hrevision
        split
        · rename_i hsearchable
          exact absurd ⟨receipt, revisionId, hreceipt, hrevision, hsearchable.1⟩ hforgotten
        · exact hlast _ _ _ _ hkeeps (by simp)
      · exact hlast _ _ _ _ hkeeps (by simp)
  · exact hlast _ _ _ _ (.refl _) (by simp)

theorem advanceMemory_unready (h : ∀ row run sink attempt, s.db.latestCandidate r = some row →
      s.db.finalStageIdentity r = .ok (run, sink, attempt) →
      service.promotion.gate.evaluate row.candidate
        (s.db.promotionReview r sink.id attempt.status) ≠ [] ∨
          ¬ (answers (.remember row.candidate)).remembered) :
    (service.advanceMemory r).wp (service.alone answers) (fun _ s' => Keeps s.db s'.db) s := by
  refine read_wp rfl rfl (fun _ _ => .refl _) fun found hfound => ?_
  simp only [carryOut, ok.injEq] at hfound
  subst hfound
  split
  · rename_i run row hfound
    obtain ⟨hrun, hrow⟩ := Prod.mk.inj hfound
    have hid : run.id = r := key_of_get? hrun
    refine read_wp rfl rfl (fun _ _ => .refl _) fun identity hidentity => ?_
    obtain ⟨run', sink, attempt⟩ := identity
    simp only [carryOut, hid] at hidentity
    refine read_wp rfl rfl (fun _ _ => .refl _) fun review hreview => ?_
    cases hreview
    refine .bind (promote_unready ?_) (fun outcome s' hs' => ?_) (fun _ _ hs' => hs'.1)
    · rw [hid]
      exact h row run' sink attempt hrow hidentity
    · rw [if_neg fun houtcome => hs'.2 (by rw [houtcome])]
      exact hs'.1
  · exact .refl _

theorem advanceStage_unready (hrun : s.db.runs.get? run.id = some run)
    (hstate : run.state ∈ finalizableStates) (h : service.Unready answers s.db run) :
    (service.advanceStage run.id run.state fence).wp (service.alone answers)
      (fun _ s' => Keeps s.db s'.db) s := by
  simp only [finalizableStates, mem_cons, not_mem_nil, or_false] at hstate
  rcases hstate with hstate | hstate | hstate <;>
    simp only [RunFinalizationService.Unready, hstate] at h ⊢
  · exact advanceExecuting_unready h
  · exact advanceApproval_unready hrun h
  · exact advanceMemory_unready h

end

section
variable (service : RunFinalizationService) (answers : Activity → Answer) {s : Platform}

theorem run_of_finalizable {db : Database} {run : RunRow} (h : db.finalizable.head? = some run) :
    db.runs.get? run.id = some run ∧ run.state ∈ finalizableStates := by
  have hmem := mem_of_mem_head? h
  rw [Database.finalizable, mem_insertionSort, mem_filter, decide_eq_true_eq] at hmem
  exact ⟨get?_of_mem hmem.1, hmem.2⟩

theorem advanceNext_unready (hrun : s.db.finalizable.head? = some run)
    (h : service.Unready answers s.db run) : Keeps s.db (service.advanceNext answers s).2.db := by
  obtain ⟨hget, hstate⟩ := run_of_finalizable hrun
  have hcall : (service.advanceRun run.id run.state).wp (service.alone answers)
      (fun _ s' => Keeps s.db s'.db) s := by
    refine advanceRun_wp (R := Keeps s.db) .trans (fun _ => .refl _) fun s₁ fence hagree _ => ?_
    have hkeeps := hagree.keeps (by decide) (by decide) (by decide)
    have hunready : service.Unready answers s₁.db run := by
      rw [hagree.eq_withTable]
      exact h
    rw [← hkeeps.runs] at hget
    exact (advanceStage_unready hget hstate hunready).mono fun _ _ => hkeeps.trans
  simp only [RunFinalizationService.advanceNext, hrun]
  exact hcall.runAlone

/-- No run but `r` enters a state or is planned anew. -/
def OnlyRun (r : UUID) (s s' : Platform) : Prop :=
  ∀ other, other ≠ r → s'.db.runs.get? other = s.db.runs.get? other ∧
    ∀ n, s'.db.planRevisions.get? (other, n) = s.db.planRevisions.get? (other, n)

theorem OnlyRun.refl (r : UUID) (s : Platform) : OnlyRun r s s := fun _ _ => ⟨rfl, fun _ => rfl⟩

theorem OnlyRun.trans (h : OnlyRun r a b) (h' : OnlyRun r b c) : OnlyRun r a c := by
  intro other hother
  obtain ⟨hrun, hplans⟩ := h other hother
  obtain ⟨hrun', hplans'⟩ := h' other hother
  exact ⟨hrun'.trans hrun, fun n => (hplans' n).trans (hplans n)⟩

/-- A task has failed and none is open, or the release was decided otherwise than
for approval. -/
def Database.Failing (db : Database) (run : RunRow) : Prop :=
  match run.state with
  | .EXECUTING => (∀ task ∈ db.tasksOf run.id, task.state ∈ terminalTaskStates) ∧
      ∃ task ∈ db.tasksOf run.id, task.state = .FAILED ∨ task.state = .CANCELLED
  | .WAITING_FOR_APPROVAL => ∃ identity approval, db.releaseIdentity run = some identity ∧
      db.approvalOf identity.call.callId = some approval ∧
      approval.status ≠ .PENDING ∧ approval.status ≠ .APPROVED
  | _ => False

/-- A stage that nobody holds is claimed. The ids of attempts are derived from
their stages. -/
theorem claimStage_free (hfree : db.stageFree runId state now)
    (hid : ∀ row, db.stageAttemptById (stageAttemptId uuid5 runId (.advance state)) = some row →
      row.key = (runId, .advance state)) :
    ((claimStage uuid5 runId state now).commit db).1 = .ok (some now) := by
  have hstart : ∃ db', (startStageAttempt (advanceAttempt uuid5 runId state now)).run db =
      .ok ((), db') := by
    simp only [startStageAttempt, Prog.run_checked]
    cases hrow : db.stageAttempts.get? (advanceAttempt uuid5 runId state now).key with
    | some existing => exact ⟨_, rfl⟩
    | none =>
      have hunused : db.stageAttemptById (advanceAttempt uuid5 runId state now).id = none := by
        rw [Option.eq_none_iff_forall_ne_some]
        intro row hfound
        have hget := get?_of_mem (mem_of_find?_eq_some hfound)
        rw [hid row hfound] at hget
        exact absurd (hrow.symm.trans hget) (by simp)
      simp only [hunused]
      exact ⟨_, rfl⟩
  obtain ⟨db', hstart⟩ := hstart
  have hrun : (claimStage uuid5 runId state now).run db = .ok (some now, db') := by
    simp [claimStage, hfree, hstart]
  rw [Prog.commit_of_ok hrun]

variable {service : RunFinalizationService} {answers : Activity → Answer}

theorem failRelease_wp (hanswers : ∀ a, (answers a).failure = none)
    (hrun : s.db.runs.get? r = some run) (htarget : .FAILED ∈ runTransitions run.state) :
    (RunFinalizationService.failRelease r).wp (service.alone answers)
      (fun _ s' => (s'.db.runs.get? r).map RunRow.state = some .FAILED) s := by
  obtain ⟨hok, henters⟩ := transitionRun_enters hrun htarget
    (answers (.transitionRun r .FAILED)).now
  obtain ⟨run', now, -, -, hrun'⟩ := henters.run
  have hact : service.act s (answers (.transitionRun r .FAILED)) (.transitionRun r .FAILED) =
      s.transact (transitionRun r .FAILED (answers (.transitionRun r .FAILED)).now) := by
    simp only [RunFinalizationService.act, act, hanswers]
    rfl
  refine activity_wp (fun e he => ?_) fun _ _ => ?_ <;> rw [hact] at *
  · exact absurd (he.symm.trans hok) (by simp)
  · exact congrArg (Option.map RunRow.state) hrun'

theorem advanceStage_failing (hanswers : ∀ a, (answers a).failure = none)
    (hrun : s.db.runs.get? run.id = some run) (h : s.db.Failing run) :
    (service.advanceStage run.id run.state fence).wp (service.alone answers)
      (fun _ s' => (s'.db.runs.get? run.id).map RunRow.state = some .FAILED) s := by
  cases hstate : run.state <;> simp only [Database.Failing, hstate] at h
  case EXECUTING =>
    obtain ⟨hterminal, task, htask, hfailed⟩ := h
    have hdone : ¬ (s.db.tasksOf run.id = [] ∨
        (s.db.tasksOf run.id).any (fun task => task.state ∉ terminalTaskStates) = true) := by
      rintro (hnil | hopen)
      · simp [hnil] at htask
      · obtain ⟨task, htask, hopen⟩ := any_eq_true.mp hopen
        exact of_decide_eq_true hopen (hterminal task htask)
    have hany : ((s.db.tasksOf run.id).any fun task =>
        task.state = .FAILED || task.state = .CANCELLED) = true :=
      any_eq_true.mpr ⟨task, htask, by simpa using hfailed⟩
    refine read_wp rfl rfl (by simp [hanswers, carryOut]) fun tasks htasks => ?_
    cases htasks
    rw [if_neg hdone, if_pos hany]
    exact failRelease_wp hanswers hrun (by rw [hstate]; decide)
  case WAITING_FOR_APPROVAL =>
    obtain ⟨identity, approval, hidentity, happroval, hpending, hdenied⟩ := h
    refine read_wp rfl (by simp only [carryOut, hrun])
      (by simp [hanswers, carryOut, hrun]) fun found hfound => ?_
    simp only [carryOut, hrun, hidentity, ok.injEq] at hfound
    subst hfound
    refine read_wp rfl rfl (by simp [hanswers, carryOut]) fun found hfound => ?_
    simp only [carryOut, happroval, ok.injEq] at hfound
    subst hfound
    simp only [hpending, hdenied, if_false, ne_eq, not_false_eq_true, if_true]
    exact failRelease_wp hanswers hrun (by rw [hstate]; decide)

end

section
variable (parts : Installation) (answers : Activity → Answer) {s : Platform} {run : RunRow}

theorem advanceNext_failing (hanswers : ∀ a, (answers a).failure = none)
    (hrun : s.db.finalizable.head? = some run)
    (hfree : s.db.stageFree run.id run.state (answers (.claimStage run.id run.state)).now)
    (hid : ∀ row, s.db.stageAttemptById
      (stageAttemptId parts.finalizer.uuid5 run.id (.advance run.state)) = some row →
        row.key = (run.id, .advance run.state)) (h : s.db.Failing run) :
    ((parts.finalizer.advanceNext answers s).2.db.runs.get? run.id).map RunRow.state =
      some .FAILED := by
  obtain ⟨hget, -⟩ := run_of_finalizable hrun
  have hclaim := claimStage_free hfree hid
  have hcall : (parts.finalizer.advanceRun run.id run.state).wp (parts.finalizer.alone answers)
      (fun _ s' => (s'.db.runs.get? run.id).map RunRow.state = some .FAILED) s := by
    refine advanceRun_wp (R := fun db => (db.runs.get? run.id).map RunRow.state = some .FAILED)
      (fun hfailed hkeeps => by rwa [hkeeps.runs]) (fun hunclaimed => ?_) fun s₁ fence
        hagree _ => ?_
    · refine absurd ?_ (hunclaimed (answers (.claimStage run.id run.state)).now)
      simp only [RunFinalizationService.act, act, hanswers]
      exact hclaim
    · have hfailing : s₁.db.Failing run := by
        rw [hagree.eq_withTable]
        exact h
      have hruns : s₁.db.runs = s.db.runs := hagree .runs (by decide)
      rw [← hruns] at hget
      exact advanceStage_failing hanswers hget hfailing
  simp only [RunFinalizationService.advanceNext, hrun]
  exact hcall.runAlone

end

end AutoSwe
