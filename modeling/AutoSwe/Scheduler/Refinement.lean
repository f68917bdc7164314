import AutoSwe.Scheduler.Updates

/-!
# The dispatcher follows the lifecycle

Every transaction that the dispatcher commits moves tasks along `Move`, one
after the other, and touches nothing else.
-/

namespace AutoSwe

open Relational Transaction LocalEffect Prog Table List TaskView

def Anywhere : UUID → Prop := fun _ => True

theorem TaskTouch.refl (t : UUID) (db : Database) : TaskTouch t db db :=
  ⟨.refl, fun _ _ => rfl⟩

theorem Updates.single (h : ViewUpdates t f db db')
    (hmove : Move db.Completed (db.view t) (f (db.view t))) : TaskTouch t db db' :=
  h.touch (.single hmove)

theorem row_of_updates (h : ViewUpdates t f db db')
    (hf : ∀ v, (f v).row = v.row) : db'.tasks.get? t = db.tasks.get? t :=
  (congrArg row h.1).trans (hf _)

theorem TaskTouch.completed (h : TaskTouch t db db') (hd : db.Completed d) : db'.Completed d := by
  obtain ⟨row, hrow, hstate⟩ := hd
  refine ⟨row, ?_, hstate⟩
  change (db'.view d).row = some row
  refine h.view_invariant (I := fun v => v.row = some row) ?_ hrow
  intro _ _ _ hmove hv
  exact hmove.terminal_stays hv (by simp [hstate, terminalTaskStates])

/-! ## claim_ready -/

theorem reserveWithGlobalCap_updates
    (h : (reserveWithGlobalCap t projectId resource units cap draw).run db = .ok (reserved, db')) :
    (reserved = false ∧ db = db') ∨
      (reserved = true ∧ ∃ row : ReservationRow, row.share = (resource, units) ∧
        ViewUpdates t (fun v => { v with held := v.held ++ [row] }) db db') := by
  rw [run_reserveWithGlobalCap] at h
  split at h
  · cases h
    exact .inr ⟨rfl, _, rfl, reserve_updates rfl⟩
  · cases h
    exact .inl ⟨rfl, rfl⟩

theorem reserveSlots_updates
    (h : (reserveSlots task resource slots cap draw).run db = .ok (reserved, db')) :
    (reserved = false ∧ db = db') ∨
      (reserved = true ∧ ∃ rows : List ReservationRow,
        rows.map ReservationRow.share = (if slots = 0 then [] else [(resource, slots)]) ∧
        ViewUpdates task.id (fun v => { v with held := v.held ++ rows }) db db') := by
  unfold reserveSlots at h
  split at h
  · rename_i hzero
    cases h
    refine .inr ⟨rfl, [], by simp [hzero], ?_⟩
    exact (Updates.refl task.id db).congr (by simp)
  · rename_i hslots
    rcases reserveWithGlobalCap_updates h with hno | ⟨hyes, row, hshare, hup⟩
    · exact .inl hno
    · exact .inr ⟨hyes, [row], by simp [hslots, hshare], hup⟩

theorem claimUnits_request :
    claimUnits estimate = [(.task, 1)] ++
      (if (resourceRequest estimate).modelSlots = 0 then []
        else [(.model, (resourceRequest estimate).modelSlots)]) ++
      (if (resourceRequest estimate).sandboxSlots = 0 then []
        else [(.sandbox, (resourceRequest estimate).sandboxSlots)]) := by
  obtain ⟨model, sandbox, hle⟩ := estimate
  have hsandbox : sandbox = 0 ∨ sandbox = 1 := by omega
  by_cases hmodel : model > 0 <;> rcases hsandbox with rfl | rfl <;>
    simp [claimUnits, resourceRequest, hmodel]

theorem createLease_updates (h : (createLease t owner token expiresAt draw).run db = .ok (u, db')) :
    ∃ lease, ViewUpdates t (fun v => { v with lease := some lease }) db db' := by
  obtain ⟨w, hw, rfl⟩ := checked_ok.mp h
  split at hw
  · cases hw
  · rename_i hnone
    split at hw
    · cases hw
    · cases hw
      exact ⟨_, insertLease_updates (by simpa using hnone)⟩

variable (service : SchedulerService) (owner : String)

/-- The claim of one task that is still ready and unchanged. -/
theorem claimTask_touch :
    (claimTask service owner now draws task).Refines
      (fun db => db.tasks.get? task.id = some task ∧ task.state = .READY)
      (TaskTouch task.id) := by
  rintro db claims db' ⟨hrow, hready⟩ h
  have h := after h rfl
  split at h
  · cases h
    exact .refl _ _
  obtain ⟨reserved, db₁, hreserve, h⟩ := bind_ok.mp h
  rcases reserveWithGlobalCap_updates hreserve with ⟨rfl, rfl⟩ | ⟨rfl, taskRow, htask, hup₁⟩
  · cases h
    exact .refl _ _
  obtain ⟨modelReserved, db₂, hmodel, h⟩ := bind_ok.mp h
  rcases reserveSlots_updates hmodel with ⟨rfl, rfl⟩ | ⟨rfl, modelRows, hmodels, hup₂⟩
  · -- no room for the model slot: the task unit goes back
    obtain ⟨_, db₂, hrelease, h⟩ := bind_ok.mp h
    cases h
    have hup := hup₁.trans (releaseReservations_updates hrelease)
    exact Updates.single hup (.unreserve hrow hready)
  obtain ⟨sandboxReserved, db₃, hsandbox, h⟩ := bind_ok.mp h
  rcases reserveSlots_updates hsandbox with ⟨rfl, rfl⟩ | ⟨rfl, sandboxRows, hsandboxes, hup₃⟩
  · obtain ⟨_, db₃, hrelease, h⟩ := bind_ok.mp h
    cases h
    have hup := (hup₁.trans hup₂).trans (releaseReservations_updates hrelease)
    exact Updates.single hup (.unreserve hrow hready)
  obtain ⟨moved, db₄, htrans, h⟩ := bind_ok.mp h
  obtain ⟨row, hrow', _, _, rfl, hup₄⟩ := transitionTask_updates htrans
  have hkept := row_of_updates ((hup₁.trans hup₂).trans hup₃) fun _ => rfl
  rw [hkept, hrow] at hrow'
  cases hrow'
  obtain ⟨_, db₅, hlease, h⟩ := bind_ok.mp h
  obtain ⟨lease, hup₅⟩ := createLease_updates hlease
  cases h
  have hall := (((hup₁.trans hup₂).trans hup₃).trans hup₄).trans hup₅
  refine Updates.single (hall.congr (g := fun v => { v with
    row := some (task.enter .LEASED (draws task.id).now), lease := some lease
    held := v.held ++ ([taskRow] ++ modelRows ++ sandboxRows) }) (by simp)) ?_
  refine .claim hrow hready ?_
  rw [claimUnits_request, map_append, map_append, hmodels, hsandboxes]
  simp [htask]

theorem nodup_ids_of_sublist {db : Database} {p : TaskRow → Bool} {r : TaskRow → TaskRow → Prop}
    [DecidableRel r] {tasks : List TaskRow}
    (h : tasks.Sublist ((db.tasks.rows.filter p).insertionSort r)) :
    (tasks.map TaskRow.id).Nodup := by
  have hsorted : (((db.tasks.rows.filter p).insertionSort r).map TaskRow.id).Nodup :=
    ((perm_insertionSort r _).map TaskRow.id).nodup_iff.mpr
      ((filter_sublist.map TaskRow.id).nodup db.tasks.nodup)
  exact (h.map TaskRow.id).nodup hsorted

/-- What a loop over selected rows knows about the rows still to come. -/
def StillIn (state : TaskStatus) (tasks : List TaskRow) (db : Database) : Prop :=
  (tasks.map TaskRow.id).Nodup ∧
    ∀ task ∈ tasks, db.tasks.get? task.id = some task ∧ task.state = state

theorem StillIn.tail (h : StillIn state (task :: tasks) db)
    (hframe : ∀ u, u ≠ task.id → db'.view u = db.view u) : StillIn state tasks db' := by
  obtain ⟨hnodup, hrows⟩ := h
  simp only [map_cons, nodup_cons] at hnodup
  refine ⟨hnodup.2, fun other hother => ?_⟩
  have hne : other.id ≠ task.id := fun he => hnodup.1 (he ▸ mem_map_of_mem hother)
  obtain ⟨hrow, hstate⟩ := hrows other (mem_cons_of_mem _ hother)
  exact ⟨(congrArg row (hframe _ hne)).trans hrow, hstate⟩

theorem stillIn_ready {db : Database} {tasks : List TaskRow} (h : tasks.Sublist db.readyTasks) :
    StillIn .READY tasks db := by
  refine ⟨nodup_ids_of_sublist h, fun task htask => ?_⟩
  have hmem := h.subset htask
  simp only [Database.readyTasks, mem_insertionSort, mem_filter,
    decide_eq_true_eq] at hmem
  exact ⟨get?_of_mem hmem.1, hmem.2⟩

theorem claimTasks_effect (hP : ∀ task ∈ tasks, P task.id) :
    (collect (claimTask service owner now draws) tasks).Refines (StillIn .READY tasks)
      (TaskEffect P) := by
  refine (Refines.collect (R := TaskEffect P)
    (I := fun rest db => StillIn .READY rest db ∧ ∀ task ∈ rest, P task.id)
    Effect.refl Effect.trans ?_ tasks).mono (fun db h => ⟨h, hP⟩) fun _ _ h => h
  rintro task rest db claims db' ⟨hstill, hkeys⟩ hrun
  have htouch := claimTask_touch service owner
    (hstill.2 task mem_cons_self) hrun
  exact ⟨htouch.effect (hkeys task mem_cons_self), hstill.tail htouch.frame,
    fun other hother => hkeys other (mem_cons_of_mem _ hother)⟩

theorem claimProject_effect :
    (claimProject service owner now draws candidates projectId).Refines
      (StillIn .READY (candidates.filter fun task => task.projectId = projectId))
      (TaskEffect fun u => ∃ task ∈ candidates, task.projectId = projectId ∧ task.id = u) := by
  intro db claims db' hstill h
  have h := after h rfl
  refine claimTasks_effect service owner ?_ hstill h
  intro task htask
  obtain ⟨hmem, hproject⟩ := mem_filter.mp htask
  exact ⟨task, hmem, by simpa using hproject, rfl⟩

theorem claimReady_effect (limit : Nat) (now : Time)
    (draws : UUID → Draw) :
    (claimReady service owner limit now draws).Refines (fun _ => True) (TaskEffect Anywhere) := by
  intro db claims db' _ h
  unfold claimReady at h
  split at h
  · cases h
    exact Effect.refl _
  obtain ⟨candidates, db₁, hselect, h⟩ := bind_ok.mp h
  obtain ⟨hsub, rfl⟩ := selectSkipLocked_ok hselect
  have hready := stillIn_ready hsub
  have hnodup := hready.1
  -- project by project: the candidates of the projects still to come are untouched
  refine Refines.collect (R := TaskEffect Anywhere)
    (I := fun projects db => projects.Nodup ∧
      StillIn .READY (candidates.filter fun task => task.projectId ∈ projects) db)
    Effect.refl Effect.trans ?_ (projectsOf candidates) ⟨?_, ?_⟩ h
  · rintro projectId rest db claims db' ⟨hprojects, hstill⟩ hrun
    obtain ⟨hfresh, hrest⟩ := nodup_cons.mp hprojects
    have hmine : StillIn .READY (candidates.filter fun task => task.projectId = projectId) db := by
      refine ⟨(filter_sublist.map _).nodup hnodup, fun task htask => hstill.2 task ?_⟩
      simp only [mem_filter, decide_eq_true_eq] at htask ⊢
      exact ⟨htask.1, by simp [htask.2]⟩
    have heffect := claimProject_effect service owner hmine hrun
    refine ⟨heffect.mono fun _ _ => trivial, hrest,
      (filter_sublist.map _).nodup hnodup, fun task htask => ?_⟩
    simp only [mem_filter, decide_eq_true_eq] at htask
    obtain ⟨hrow, hstate⟩ := hstill.2 task (by simp [htask.1, htask.2])
    refine ⟨(congrArg row (heffect.frame ?_)).trans hrow, hstate⟩
    rintro ⟨other, hother, hproject, hid⟩
    obtain rfl : other = task := inj_on_of_nodup_map hnodup hother htask.1 hid
    exact hfresh (hproject ▸ htask.2)
  · exact ((perm_insertionSort _ _).nodup_iff).mpr (nodup_dedup _)
  · exact ⟨(filter_sublist.map _).nodup hnodup,
      fun task htask => hready.2 task (mem_filter.mp htask).1⟩

/-! ## Pending tasks -/

/-- A dependency text joins the one task whose id it spells, or nothing. -/
theorem resolve_str (db : Database) (d : UUID) : db.resolve d.str = [db.tasks.get? d] := by
  have hfilter : (db.tasks.rows.filter fun row => row.id.str = d.str) =
    (db.tasks.get? d).toList := by
    rw [← filter_key]
    refine filter_congr fun row _ => ?_
    simp [UUID.str_injective.eq_iff]
  simp only [Database.resolve, hfilter]
  cases db.tasks.get? d <;> rfl

theorem dependenciesSatisfiedSql_iff (db : Database) (task : TaskRow) :
    db.dependenciesSatisfiedSql task = true ↔ ∀ d ∈ task.dependencies, db.Completed d := by
  simp only [Database.dependenciesSatisfiedSql, flatMap_map, resolve_str, decide_eq_true_eq,
    countP_eq_zero, mem_flatMap, mem_singleton]
  constructor
  · intro h d hd
    have hresolved := h _ ⟨d, hd, rfl⟩
    cases hget : db.tasks.get? d with
    | none => simp [hget] at hresolved
    | some row => exact ⟨row, hget, by simpa [hget] using hresolved⟩
  · rintro h _ ⟨d, hd, rfl⟩
    obtain ⟨row, hrow, hstate⟩ := h d hd
    simp [hrow, hstate]

theorem stillIn_pending {db : Database} {tasks : List TaskRow}
    (h : tasks.Sublist db.pendingTasks) : StillIn .PENDING tasks db := by
  refine ⟨nodup_ids_of_sublist h, fun task htask => ?_⟩
  have hmem := h.subset htask
  simp only [Database.pendingTasks, mem_insertionSort, mem_filter,
    decide_eq_true_eq] at hmem
  exact ⟨get?_of_mem hmem.1, hmem.2⟩

/-- Selected pending rows moved one by one, by a move that each of them allows
as long as it is untouched. -/
theorem moveAll_effect (target : TaskStatus) (draws : UUID → Draw) (tasks : List TaskRow)
    (Q : TaskRow → Database → Prop) (hstable : ∀ {task t db db'}, TaskTouch t db db' →
      Q task db → Q task db')
    (hmove : ∀ {task : TaskRow} {db : Database} {now : Time}, db.tasks.get? task.id = some task →
      task.state = .PENDING → Q task db →
      Move db.Completed (db.view task.id)
        { db.view task.id with row := some (task.enter target now) }) :
    (each (moveTo target draws) tasks).Refines
      (fun db => StillIn .PENDING tasks db ∧ ∀ task ∈ tasks, Q task db) (TaskEffect Anywhere) := by
  refine Refines.each (R := TaskEffect Anywhere)
    (I := fun rest db => StillIn .PENDING rest db ∧ ∀ task ∈ rest, Q task db)
    Effect.refl Effect.trans ?_ tasks
  rintro task rest db u db' ⟨hstill, hQ⟩ hrun
  obtain ⟨hrow, hstate⟩ := hstill.2 task mem_cons_self
  obtain ⟨row, hrow', _, hup⟩ := moveTo_updates hrun
  rw [hrow] at hrow'
  cases hrow'
  have htouch := Updates.single hup (hmove hrow hstate (hQ task mem_cons_self))
  exact ⟨htouch.effect trivial, hstill.tail htouch.frame,
    fun other hother => hstable htouch (hQ other (mem_cons_of_mem _ hother))⟩

theorem promoteRound_effect (limit : Nat) (draws : UUID → Draw) :
    (promoteRound limit draws).Refines (fun _ => True) (TaskEffect Anywhere) := by
  intro db count db' _ h
  obtain ⟨candidates, db₁, hselect, h⟩ := bind_ok.mp h
  obtain ⟨hsub, rfl⟩ := selectSkipLocked_ok hselect
  obtain ⟨_, db₂, heach, h⟩ := bind_ok.mp h
  cases h
  refine moveAll_effect .READY draws candidates
    (fun task db => ∀ d ∈ task.dependencies, db.Completed d) ?_ ?_
    ⟨stillIn_pending (hsub.trans filter_sublist), ?_⟩ heach
  · exact fun htouch hready d hd => htouch.completed (hready d hd)
  · exact fun hrow hstate hready => .promote hrow hstate hready
  · intro task htask
    exact (dependenciesSatisfiedSql_iff db task).mp (mem_filter.mp (hsub.subset htask)).2

theorem cancelBlockedRound_effect (limit : Nat) (draws : UUID → Draw) :
    (cancelBlockedRound limit draws).Refines (fun _ => True) (TaskEffect Anywhere) := by
  intro db count db' _ h
  obtain ⟨candidates, db₁, hselect, h⟩ := bind_ok.mp h
  obtain ⟨hsub, rfl⟩ := selectSkipLocked_ok hselect
  have h := after h rfl
  obtain ⟨_, db₃, heach, h⟩ := bind_ok.mp h
  cases h
  refine moveAll_effect .CANCELLED draws _ (fun _ _ => True) (fun _ _ => trivial) ?_
    ⟨stillIn_pending (filter_sublist.trans hsub), fun _ _ => trivial⟩ heach
  exact fun hrow hstate _ => .drop hrow hstate

/-! ## heartbeat -/

theorem heartbeat_effect (taskId : UUID) (owner : String)
    (token : UUID) (now : Time) :
    (heartbeat service taskId owner token now).Refines (fun _ => True)
      (TaskEffect Anywhere) := by
  intro db renewed db' _ h
  have h := after h rfl
  split at h
  · cases h
    exact Effect.refl _
  have h := after h rfl
  cases hlease : db.leaseOf taskId owner token with
  | none =>
    simp only [hlease] at h
    cases h
    exact Effect.refl _
  | some lease =>
    simp only [hlease] at h
    have h := after h rfl
    cases h
    have hget : db.leases.get? taskId = some lease := (Option.filter_eq_some_iff.mp hlease).1
    have hid : lease.taskId = taskId := key_of_get? hget
    subst hid
    exact (Updates.single (setLease_updates
      { lease with heartbeatAt := now, expiresAt := now + service.leaseTtl } hget)
      (.renew hget)).effect trivial

end AutoSwe
