import AutoSwe.Lib.Quota
import AutoSwe.Scheduler.Footprints
import AutoSwe.Scheduler.Invariants

/-!
# Admission ceilings under concurrency

The ceilings of the policy as one quota. Each resource is guarded by its own
advisory lock, each project by the lock of its key, which other projects may
share. `claimReady` adds a reservation only under the lock of its resource,
after reading that total; the project total is read earlier, but under the lock
of the project, so what was read still bounds it when the row goes in.
-/

namespace AutoSwe

open Transaction LabelledRun Prog List

/-! ## The quota -/

/-- What a ceiling is about: a resource, or the tasks of a project. -/
inductive Ceiling
  | resource (resource : Resource)
  | project (projectId : UUID)
deriving DecidableEq

def Ceiling.covers : Ceiling → ReservationRow → Bool
  | .resource r, row => row.resource = r
  | .project p, row => row.resource = .task && row.projectId = p

def ceilings (policy : ConcurrencyPolicy) : Quota Database Lock Ceiling ReservationRow where
  rows ceiling db := (db.active.filter ceiling.covers : List ReservationRow)
  units := ReservationRow.units
  cap
    | .resource r => policy.cap r
    | .project _ => policy.maxParallelTasksPerProject
  guard
    | .resource r => resourceLock r
    | .project p => projectLock p

section
variable {policy : ConcurrencyPolicy}

theorem total_project :
    (ceilings policy).total (.project projectId) db = db.activeProjectUnits .task projectId := by
  simp only [Quota.total, ceilings, Database.activeProjectUnits, Database.activeProjectReservations,
    Database.activeReservations, totalUnits, filter_filter, Multiset.map_coe,
    Multiset.sum_coe]
  congr 2
  refine filter_congr fun row _ => ?_
  simp [Ceiling.covers, Bool.and_comm]

theorem shrinks_of_kept
    (h : ∀ db, (write db).reservations = db.reservations) : (ceilings policy).Shrinks write :=
  .of_eq fun ceiling db => by simp [ceilings, Database.active, h]

theorem shrinks_release :
    (ceilings policy).Shrinks (Database.releaseSeen taskId releasedAt view) := by
  intro ceiling
  have hrows : ∀ db,
      (ceilings policy).rows ceiling (Database.releaseSeen taskId releasedAt view db) =
      ((ceilings policy).rows ceiling db).filter
        fun row => ¬ (row.taskId = taskId ∧ row ∈ view.reservations) := by
    intro db
    simp only [ceilings, active_releaseSeen, filter_filter, Multiset.filter_coe]
    congr 1
    refine filter_congr fun row _ => ?_
    rw [Bool.and_comm]
  refine ⟨fun db => ?_, fun db db' hle => ?_⟩
  · rw [hrows]
    exact Multiset.filter_le _ _
  · rw [hrows, hrows]
    exact Multiset.filter_le_filter _ hle

theorem RowWrite.shrinks (h : RowWrite may creates runs write) (hmay : ¬ may .reservations) :
    (ceilings policy).Shrinks write := by
  cases h with
  | release taskId releasedAt view => exact shrinks_release
  | reserve h => exact absurd h hmay
  | log h =>
    refine shrinks_of_kept fun db => ?_
    obtain ⟨auditEvents, outbox, stateDurations, he⟩ := h db
    rw [he]
  | attempt _ h | graph _ h | lease _ h =>
    refine shrinks_of_kept fun db => ?_
    obtain ⟨rows, he⟩ := h db
    rw [he]
  | ambient _ h =>
    refine shrinks_of_kept fun db => ?_
    obtain ⟨repositories, table, modelCalls, he⟩ := h db
    rw [he]
  | drop | set | create => exact shrinks_of_kept fun _ => rfl

theorem Schedules.shrinks (h : Schedules (· ≠ .reservations) True True p) :
    p.Writes (ceilings policy).Shrinks :=
  h.writes.mono fun _ hwrite => hwrite.shrinks (by simp)

end

/-! ## claim_ready -/

/-- No lock is forbidden: the ceilings do not depend on the order of locks. -/
abbrev AnyLock : Local Database Lock → Lock → Prop := fun _ _ => True

theorem rows_reserve (hactive : row.active) :
    (ceilings policy).rows ceiling (db.reserve row) =
      (ceilings policy).rows ceiling db + if ceiling.covers row then {row} else 0 := by
  simp only [ceilings, active_reserve db row hactive, filter_append]
  by_cases hcovers : ceiling.covers row <;> simp [hcovers, ← Multiset.coe_add]

section ClaimReady
variable {policy : ConcurrencyPolicy} {σ : Local Database Lock} {db : Database}

/-- A reservation under the lock of its resource, within the total read there;
a task unit also needs the lock of its project, with room in its total. -/
theorem reserve_fits (row : ReservationRow) (h : (ceilings policy).Fits σ db) (hactive : row.active)
    (hheld : resourceLock row.resource ∈ σ.held)
    (hread : (σ.own db).activeUnits row.resource + row.units ≤ policy.cap row.resource)
    (hproject : row.resource = .task → projectLock row.projectId ∈ σ.held ∧
      (ceilings policy).Room σ db (.project row.projectId) row.units)
    (hwrite : ∀ d, write view d = d.reserve row) :
    (ceilings policy).Fits (σ.wrote write view) db := by
  refine h.add (fun ceiling => if ceiling.covers row then {row} else 0) (fun ceiling d => ?_)
    fun ceiling hcovers => ?_
  · rw [hwrite, rows_reserve hactive]
  · replace hcovers : ceiling.covers row := by
      by_contra hnot
      simp [hnot] at hcovers
    simp only [hcovers, if_true, Multiset.map_singleton, Multiset.sum_singleton]
    cases ceiling with
    | resource r =>
      obtain rfl : row.resource = r := by simpa [Ceiling.covers] using hcovers
      exact ⟨hheld, h.room hread⟩
    | project p =>
      obtain ⟨htask, rfl⟩ : row.resource = .task ∧ row.projectId = p := by
        simpa [Ceiling.covers] using hcovers
      exact hproject htask

theorem reserveWithGlobalCap_wp (h : (ceilings policy).Fits σ db)
    (hproject : resource = .task → projectLock projectId ∈ σ.held ∧
      (ceilings policy).Room σ db (.project projectId) units) :
    (reserveWithGlobalCap taskId projectId resource units (policy.cap resource) draw).wp
      (ceilings policy).rely AnyLock (fun _ => (ceilings policy).Fits) σ db := by
  refine wp.advisory_bind trivial fun db₁ h₁ db₂ h₂ db₃ h₃ => Quota.Fits.rely ?_ h₃
  have hfits := (((h.rely h₁).saw (σ.own db₁)).took [resourceLock resource]).rely h₂
  by_cases hguard : (σ.own db₂).activeUnits resource + units ≤ policy.cap resource
  · let row : ReservationRow :=
      { taskId, projectId, resource, units, createdAt := draw.createdAt }
    refine reserve_fits row hfits rfl (.inr (by simp [row])) hguard (fun htask => ?_) fun d => ?_
    · obtain ⟨hlock, hroom⟩ := hproject htask
      have hlater : (ceilings policy).Room ((σ.saw (σ.own db₁)).took [resourceLock resource]) db₁
          (.project projectId) units := hroom.rely hlock h₁
      exact ⟨.inl hlock, hlater.rely (.inl hlock) h₂⟩
    · exact if_pos (decide_eq_true hguard)
  · refine hfits.shrink (shrinks_of_kept fun d => ?_)
    simp [hguard]

theorem reserveSlots_wp (h : (ceilings policy).Fits σ db) (hresource : resource ≠ .task) :
    (reserveSlots task resource slots (policy.cap resource) draw).wp
      (ceilings policy).rely AnyLock (fun _ => (ceilings policy).Fits) σ db := by
  unfold reserveSlots
  split
  · exact .pure _ fun db' hr => h.rely hr
  · exact reserveWithGlobalCap_wp h fun htask => absurd htask hresource

/-- The project total that was read bounds it for as long as the lock is held. -/
theorem admissionSnapshot_wp (h : (ceilings policy).Fits σ db)
    (hlock : projectLock projectId ∈ σ.held) :
    (admissionSnapshot projectId).wp (ceilings policy).rely AnyLock
      (fun snapshot σ' db' => (ceilings policy).Fits σ' db' ∧ ∀ n,
        snapshot.activeProjectTasks + n ≤ policy.maxParallelTasksPerProject →
          (ceilings policy).Room σ' db' (.project projectId) n) σ db := by
  refine .query_bind fun db₁ h₁ => .query_bind fun db₂ h₂ => .query_bind fun db₃ h₃ =>
    .query_bind fun db₄ h₄ => .pure _ fun db₅ h₅ => ?_
  have hfits₂ := ((h.rely h₁).saw (σ.own db₁)).rely h₂
  refine ⟨((((hfits₂.saw _).rely h₃).saw _).rely h₄ |>.saw _).rely h₅, fun n hn => ?_⟩
  have hread : (ceilings policy).total (.project projectId) (σ.own db₂) + n ≤
      (ceilings policy).cap (.project projectId) := by
    rw [total_project]
    exact hn
  have hroom := hfits₂.room hread
  exact ((hroom.rely hlock h₃).rely hlock h₄).rely hlock h₅

variable (owner : String)

theorem claimTask_wp (now : Time)
    (draws : UUID → Draw) (task : TaskRow) (h : (ceilings service.policy).Fits σ db)
    (hlock : projectLock task.projectId ∈ σ.held) :
    (claimTask service owner now draws task).wp (ceilings service.policy).rely AnyLock
      (fun _ => (ceilings service.policy).Fits) σ db := by
  have hsnapshot := (admissionSnapshot_wp h hlock).held
    (Set.singleton_subset_iff.mpr hlock)
  refine .bind (hsnapshot.mono ?_)
  rintro snapshot σ₁ db₁ ⟨hheld, hfits₁, hroom⟩
  split
  · exact .pure _ fun db' hr => hfits₁.rely hr
  rename_i hadmitted
  have hproject := hroom 1 (project_room_of_admitted (by simpa using hadmitted))
  refine .bind ((reserveWithGlobalCap_wp hfits₁ fun _ =>
    ⟨Set.singleton_subset_iff.mp hheld, hproject⟩).mono fun reserved σ₂ db₂ hfits₂ => ?_)
  split
  · exact .pure _ fun db' hr => hfits₂.rely hr
  refine .bind ((reserveSlots_wp hfits₂ (by simp)).mono
    fun model σ₃ db₃ hfits₃ => ?_)
  split
  · exact hfits₃.writes (.bind Schedules.releaseReservations.shrinks fun _ => trivial)
  refine .bind ((reserveSlots_wp hfits₃ (by simp)).mono
    fun sandbox σ₄ db₄ hfits₄ => ?_)
  split
  · exact hfits₄.writes (.bind Schedules.releaseReservations.shrinks fun _ => trivial)
  · exact hfits₄.writes (.bind (Schedules.transitionTask (by simp)).shrinks fun _ =>
      .bind (Schedules.createLease (by simp)).shrinks fun _ => trivial)

theorem claimProject_wp (h : (ceilings service.policy).Fits σ db) :
    (claimProject service owner now draws candidates projectId).wp (ceilings service.policy).rely
      AnyLock (fun _ => (ceilings service.policy).Fits) σ db := by
  refine .advisory_bind trivial fun db₁ h₁ => ?_
  -- every task of the loop is one of the project whose lock is held
  let J : List TaskRow → Local Database Lock → Database → Prop := fun tasks σ db =>
    (ceilings service.policy).Fits σ db ∧ projectLock projectId ∈ σ.held ∧
      ∀ task ∈ tasks, task.projectId = projectId
  refine wp.mono (wp.collect (J := J) ?_ ?_ _ ?_) fun _ _ _ hJ => hJ.1
  · exact fun σ db db' hJ hr => ⟨hJ.1.rely hr, hJ.2⟩
  · rintro task tasks σ db ⟨hfits, hlock, hof⟩
    obtain rfl : task.projectId = projectId := hof task mem_cons_self
    have hbody := (claimTask_wp owner now draws task hfits hlock).held
      (Set.singleton_subset_iff.mpr hlock)
    refine hbody.mono fun _ σ' db' ⟨hheld, hfits'⟩ => ⟨hfits', hheld rfl, ?_⟩
    exact fun other hother => hof other (mem_cons_of_mem task hother)
  · refine ⟨((h.rely h₁).saw _).took _, .inr mem_cons_self, fun task htask => ?_⟩
    simpa using (mem_filter.mp htask).2

theorem claimReady_wp (h : (ceilings service.policy).Fits σ db) :
    (claimReady service owner limit now draws).wp (ceilings service.policy).rely
      AnyLock (fun _ => (ceilings service.policy).Fits) σ db := by
  unfold claimReady
  split
  · exact .pure _ fun db' hr => h.rely hr
  refine .bind fun db₁ h₁ taken _ db₂ h₂ => ?_
  refine wp.collect (J := fun _ => (ceilings service.policy).Fits) ?_ ?_ _ ?_
  · exact fun σ db db' hfits hr => hfits.rely hr
  · exact fun projectId _ σ db hfits => claimProject_wp owner hfits
  · exact (((h.rely h₁).saw _).took taken).rely h₂

end ClaimReady

/-! ## Every transaction, in every interleaving -/

theorem calls_verified :
    Verified (ceilings service.policy).rely (ceilings service.policy).Within (fun _ => True)
      (fun _ => AnyLock) (Call.body service) := by
  intro call db _ hwithin
  have hstart := Quota.Fits.start hwithin
  suffices h : (call.body service).wp (ceilings service.policy).rely AnyLock
      (fun _ => (ceilings service.policy).Fits) {} db from h.mono fun _ _ _ hfits => hfits.owes
  by_cases hreserves : call.footprint .reservations
  · cases call with
    | claimReady owner limit now draws =>
      exact .bind ((claimReady_wp owner hstart).mono fun _ σ db hfits =>
        .pure _ fun db' hr => hfits.rely hr)
    | _ => simp [Call.footprint] at hreserves
  · exact hstart.writes ((call.rowWrites service).mono fun _ hwrite => hwrite.shrinks hreserves)

/-- In every interleaving of statements of any transactions, over any database
that is within the ceilings, every committed state is within them. -/
theorem admission_ceilings_hold (service : SchedulerService) (db : Database)
    (hresources : ∀ resource, db.activeUnits resource ≤ service.policy.cap resource)
    (hprojects : ∀ projectId, db.activeProjectUnits .task projectId ≤
      service.policy.maxParallelTasksPerProject)
    (s : Concurrent) (hreach : Reach (Concurrent.step service) (fun _ _ => True) { db } s) :
    s.db.activeUnits .task ≤ service.policy.maxParallelTasks ∧
      s.db.activeUnits .model ≤ service.policy.maxModelConcurrency ∧
      s.db.activeUnits .sandbox ≤ service.policy.maxSandboxConcurrency ∧
      ∀ projectId, s.db.activeProjectUnits .task projectId ≤
        service.policy.maxParallelTasksPerProject := by
  have hwithin : (ceilings service.policy).Within db := by
    intro ceiling
    cases ceiling with
    | resource r => exact hresources r
    | project p => exact (total_project).trans_le (hprojects p)
  have hsound := (calls_verified).sound db hwithin (fun _ _ _ _ => trivial) hreach
  refine ⟨hsound.committed (.resource .task), hsound.committed (.resource .model),
    hsound.committed (.resource .sandbox), fun projectId => ?_⟩
  rw [← total_project]
  exact hsound.committed (.project projectId)

/-- Two dispatchers scan for ready tasks; the second finds the only one locked. -/
def sampleInterleaving : List (Event Call) :=
  [.start 1 (.claimReady "one" 5 100 fun _ => { token := 9 }),
    .start 2 (.claimReady "two" 5 100 fun _ => { token := 8 }), .exec 1, .exec 2] ++
  replicate 15 (.exec 1) ++ [.finish 2, .finish 1]

def sampleInterleaved : Concurrent :=
  (sampleInterleaving.foldlM (Concurrent.step sampleService) { db := samplePlanned }).get
    (by decide)

theorem sampleInterleaved_reach :
    Reach (Concurrent.step sampleService) (fun _ _ => True) { db := samplePlanned }
      sampleInterleaved :=
  Reach.foldlM .start sampleInterleaving (fun _ _ _ => trivial) (Option.some_get _).symm

theorem admission_ceilings_hold_sample :
    sampleInterleaved.db.activeUnits .task = 1 ∧ sampleInterleaved.db.activeUnits .task ≤ 4 := by
  have hnone : samplePlanned.active = [] := by decide
  refine ⟨by decide, (admission_ceilings_hold sampleService samplePlanned (fun resource => ?_)
    (fun projectId => ?_) _ sampleInterleaved_reach).1⟩
  · simp [Database.activeUnits, Database.activeReservations, totalUnits, hnone]
  · simp [Database.activeProjectUnits, Database.activeProjectReservations,
      Database.activeReservations, totalUnits, hnone]

end AutoSwe
