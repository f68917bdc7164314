import AutoSwe.Scheduler.Ceilings

/-!
# The advisory locks of admission

A `claimReady` transaction alternates between the locks of its projects and the
locks of the resources, so two of them can wait for each other. What it asks
for is always one of four things (`MayAdmit`); from that, no cycle of waits can
form among transactions that wait for a project lock without holding a resource
lock and in the order of the keys.
-/

namespace AutoSwe

open Transaction LabelledRun List Option Function Lock

/-! ## What one transaction asks for -/

/-- Whoever has the lock of a resource has the one of the task slots. -/
def Orderly (held : Set Lock) : Prop :=
  ∀ resource, resourceLock resource ∈ held → resourceLock .task ∈ held

def MayAdmit (σ : Local Database Lock) (l : Lock) : Prop :=
  Orderly σ.held ∧ ((∃ projectId, l = projectLock projectId) ∨ l = resourceLock .task ∨
    (resourceLock .task ∈ σ.held ∧ ∃ resource, l = resourceLock resource) ∨ l ∈ σ.held)

section Requests
variable {P : Lock → Prop}

theorem require_requests : (Session.require check).Requests P := by
  cases check <;> exact trivial

theorem publish_requests :
    (publish eventId eventType aggregateType aggregateId correlationId topic payload).Requests P :=
  .bind (.execute _) fun _ => .execute _

theorem selectTaskForUpdate_requests (h : P (.task taskId)) :
    (selectTaskForUpdate projectId taskId).Requests P := by
  refine .queryForUpdate fun view l hl => ?_
  obtain ⟨_, _, rfl⟩ := map_eq_some_iff.mp hl
  exact h

theorem transitionTask_requests (h : P (.task taskId)) :
    (transitionTask projectId taskId expectedVersion target draw).Requests P := by
  refine .bind (selectTaskForUpdate_requests h) fun found => ?_
  cases found with
  | none => exact trivial
  | some row =>
    dsimp only
    split
    · exact trivial
    · exact .bind require_requests fun _ => .bind (.execute _) fun _ =>
        .bind (.execute _) fun _ => .bind publish_requests fun _ => trivial

theorem reserveWithGlobalCap_requests (h : P (resourceLock resource)) :
    (reserveWithGlobalCap taskId projectId resource units cap draw).Requests P :=
  .bind (.advisory h) fun _ => .executeIf _ _

theorem reserveSlots_requests {task : TaskRow} {resource : Resource} {slots cap : Nat}
    {draw : Draw} (h : P (resourceLock resource)) :
    (reserveSlots task resource slots cap draw).Requests P := by
  unfold reserveSlots
  split
  · exact trivial
  · exact reserveWithGlobalCap_requests h

end Requests

theorem orderly_of_task (h : resourceLock .task ∈ held) : Orderly held :=
  fun _ _ => h

theorem Orderly.union (h : Orderly held)
    (hnone : ∀ resource, resourceLock resource ∉ taken) : Orderly (held ∪ taken) :=
  fun resource hheld => .inl (h resource (hheld.resolve_right (hnone resource)))

section
variable {σ : Local Database Lock} {db : Database}

theorem admissionSnapshot_requests : (admissionSnapshot projectId).Requests P :=
  .bind (.query _) fun _ => .bind (.query _) fun _ => .bind (.query _) fun _ =>
    .bind (.query _) fun _ => trivial

/-- A transaction that has the lock of the task slots may ask for the others,
and for the row that it has locked. -/
theorem wp_of_taskSlot {p : Session α}
    (hp : p.Requests fun l => (∃ resource, l = resourceLock resource) ∨ l = .task taskId)
    (hslot : resourceLock .task ∈ σ.held) (hrow : task taskId ∈ σ.held) :
    p.wp .any MayAdmit
      (fun _ σ' _ => resourceLock .task ∈ σ'.held ∧ task taskId ∈ σ'.held) σ db := by
  refine Prog.wp.requests (J := fun held _ => resourceLock .task ∈ held ∧ task taskId ∈ held)
    hp ⟨hslot, hrow⟩ ?_ (fun _ _ _ h => h) ?_
  · rintro σ l ⟨hslot, hrow⟩ (⟨resource, rfl⟩ | rfl)
    · exact ⟨orderly_of_task hslot, .inr (.inr (.inl ⟨hslot, resource, rfl⟩))⟩
    · exact ⟨orderly_of_task hslot, .inr (.inr (.inr hrow))⟩
  · exact fun held _ l h _ => ⟨.inl h.1, .inl h.2⟩

variable (service : SchedulerService) (owner : String)

theorem claimTask_mayAdmit (now : Time)
    (draws : UUID → Draw) (task : TaskRow) (db : Database) (h : Orderly σ.held)
    (hrow : Lock.task task.id ∈ σ.held) :
    (claimTask service owner now draws task).wp .any MayAdmit
      (fun _ σ' _ => Orderly σ'.held) σ db := by
  have hsnapshot : (admissionSnapshot task.projectId).wp .any MayAdmit
      (fun _ σ' _ => Orderly σ'.held ∧ Lock.task task.id ∈ σ'.held) σ db :=
    Prog.wp.requests (P := fun _ => False)
      (J := fun held _ => Orderly held ∧ Lock.task task.id ∈ held) admissionSnapshot_requests
      ⟨h, hrow⟩ (fun _ _ _ hnone => hnone.elim) (fun _ _ _ h => h) fun _ _ _ _ hnone => hnone.elim
  refine .bind (hsnapshot.mono fun snapshot σ₁ db₁ ⟨horderly, hrow⟩ => ?_)
  split
  · exact .pure _ fun _ _ => horderly
  -- the lock of the task slots comes first; from then on it is held
  have hreserve : (reserveWithGlobalCap task.id task.projectId .task 1
      service.policy.maxParallelTasks (draws task.id)).wp .any MayAdmit
      (fun _ σ' _ => resourceLock .task ∈ σ'.held ∧ Lock.task task.id ∈ σ'.held) σ₁ db₁ :=
    .advisory_bind ⟨horderly, .inr (.inl rfl)⟩ fun _ _ _ _ _ _ => ⟨.inr (by simp), .inl hrow⟩
  refine .bind (hreserve.mono fun reserved σ₂ db₂ ⟨hslot, hrow⟩ => ?_)
  refine (wp_of_taskSlot ?_ hslot hrow).mono fun _ _ _ hheld => orderly_of_task hheld.1
  split
  · exact trivial
  refine .bind (reserveSlots_requests (.inl ⟨_, rfl⟩)) fun model => ?_
  split
  · exact .bind (.executeSeen _) fun _ => trivial
  refine .bind (reserveSlots_requests (.inl ⟨_, rfl⟩)) fun sandbox => ?_
  split
  · exact .bind (.executeSeen _) fun _ => trivial
  · exact .bind (transitionTask_requests (.inr rfl)) fun _ =>
      .bind (.checked _) fun _ => trivial

theorem claimProject_mayAdmit (now : Time)
    (draws : UUID → Draw) (candidates : List TaskRow) (projectId : UUID) (db : Database)
    (h : Orderly σ.held)
    (hrows : ∀ task ∈ candidates, Lock.task task.id ∈ σ.held) :
    (claimProject service owner now draws candidates projectId).wp .any MayAdmit
      (fun _ σ' _ => Orderly σ'.held) σ db := by
  refine .advisory_bind ⟨h, .inl ⟨projectId, rfl⟩⟩ fun db₁ _ => ?_
  let J : List TaskRow → Local Database Lock → Database → Prop := fun tasks σ _ =>
    Orderly σ.held ∧ ∀ task ∈ tasks, Lock.task task.id ∈ σ.held
  refine Prog.wp.mono (Prog.wp.collect (J := J) (fun _ _ _ hJ _ => hJ) ?_ _ ?_)
    fun _ _ _ hJ => hJ.1
  · rintro task tasks σ db ⟨horderly, hrows⟩
    have hbody := (claimTask_mayAdmit service owner now draws task db horderly
      (hrows task mem_cons_self)).held subset_rfl
    refine hbody.mono fun _ σ' db' ⟨hheld, horderly'⟩ => ⟨horderly', fun other hother => ?_⟩
    exact hheld (hrows other (mem_cons_of_mem task hother))
  · refine ⟨h.union fun resource hlock => ?_, fun task htask => ?_⟩
    · exact projectLock_ne_resourceLock projectId resource (mem_singleton.mp hlock).symm
    · exact .inl (hrows task (mem_of_mem_filter htask))

theorem claimReady_mayAdmit :
    (claimReady service owner limit now draws).wp .any MayAdmit (fun _ _ _ => True) {} db := by
  unfold claimReady
  split
  · exact .pure _ fun _ _ => trivial
  refine .bind fun db₁ _ taken htaken db₂ _ => ?_
  let candidates := db₁.readyTasks.filter fun task => Lock.task task.id ∈ taken
  let J : List UUID → Local Database Lock → Database → Prop := fun _ σ _ =>
    Orderly σ.held ∧ ∀ task ∈ candidates, Lock.task task.id ∈ σ.held
  refine Prog.wp.mono (Prog.wp.collect (J := J) (fun _ _ _ hJ _ => hJ) ?_ _ ?_)
    fun _ _ _ _ => trivial
  · rintro projectId _ σ db ⟨horderly, hrows⟩
    have hbody := (claimProject_mayAdmit service owner now draws candidates projectId db
      horderly hrows).held subset_rfl
    exact hbody.mono fun _ σ' db' ⟨hheld, horderly'⟩ =>
      ⟨horderly', fun task htask => hheld (hrows task htask)⟩
  · refine ⟨fun resource hlock => ?_, fun task htask => .inr ?_⟩
    · -- what the scan has locked are rows
      rcases hlock with hlock | hlock
      · exact hlock.elim
      · obtain ⟨task, _, htask⟩ := mem_map.mp (htaken.1.subset hlock)
        cases htask
    · simpa using (mem_filter.mp htask).2

end

/-! ## Waiting for each other -/

/-- Only `claimReady` transactions are started. -/
def ClaimsOnly (_ : Concurrent) : Event Call → Prop
  | .start _ (.claimReady ..) => True
  | .start _ _ => False
  | _ => True

/-- Whoever has to wait for the lock of a project holds no resource lock, and
of the project locks only ones with smaller keys. -/
def Polite (s : Concurrent) : Prop :=
  ∀ i projectId, s.request i = some (projectLock projectId) → s.waits i ≠ none →
    (∀ resource, s.owner (resourceLock resource) ≠ some i) ∧
      ∀ other, s.owner (projectLock other) = some i →
        projectLockKey other < projectLockKey projectId

/-- Project locks by their keys, resource locks after all of them. -/
def admissionRank : Lock → Nat
  | .advisory space key => if space = admissionLockNamespace then key else 2 ^ 31
  | _ => 0

theorem rank_project :
    admissionRank (projectLock projectId) = projectLockKey projectId := rfl

theorem rank_resource : admissionRank (resourceLock resource) = 2 ^ 31 := by
  cases resource <;> rfl

theorem projectLockKey_lt : projectLockKey projectId < 2 ^ 31 :=
  Nat.lt_of_le_of_lt Nat.and_le_right (by decide)

theorem claims_verified :
    Verified .any (fun _ => True) (fun call => ∃ owner limit now draws,
      call = Call.claimReady owner limit now draws) (fun _ => MayAdmit) (Call.body service) := by
  rintro _ db ⟨owner, limit, now, draws, rfl⟩ _
  refine .bind ((claimReady_mayAdmit service owner).mono fun _ σ db _ => ?_)
  exact .pure _ fun _ _ => ⟨trivial, fun _ _ => trivial⟩

theorem request_mayAdmit
    (hreach : Reach (Concurrent.step service) ClaimsOnly { db } s) (hl : s.request i = some l) :
    Orderly {l | s.owner l = some i} ∧ ((∃ projectId, l = projectLock projectId) ∨
      l = resourceLock .task ∨ (s.owner (resourceLock .task) = some i ∧
        ∃ resource, l = resourceLock resource) ∨ s.owner l = some i) := by
  have hsound := (claims_verified).sound db trivial (fun s i call hok => ?_) hreach
  · obtain ⟨tx, -, -, hmay⟩ := hsound.may_of_request hl
    exact hmay
  · cases call <;> simp_all [ClaimsOnly]

/-- Transactions of admission that wait politely never form a cycle of waits. -/
theorem admission_deadlock_free (service : SchedulerService) (db : Database) (s : Concurrent)
    (hreach : Reach (Concurrent.step service) ClaimsOnly { db } s) (hpolite : Polite s) :
    ¬ s.Deadlock := by
  refine Sys.not_deadlock admissionRank fun i j k l l' hl hown hne hl' hown' hne' hk => ?_
  have hj : s.waits j ≠ none := by simp [Sys.waits_eq_some.mpr ⟨l', hl', hown', hne'⟩]
  obtain ⟨horderly, hwant⟩ := request_mayAdmit hreach hl'
  -- what `i` waits for is not its own, so it is the lock of a project or of a resource
  have hkind : (∃ projectId, l = projectLock projectId) ∨
      ∃ resource, l = resourceLock resource := by
    rcases (request_mayAdmit hreach hl).2 with h | h | ⟨-, h⟩ | h
    · exact .inl h
    · exact .inr ⟨_, h⟩
    · exact .inr h
    · exact absurd (some.inj (hown.symm.trans h)) hne
  rcases hwant with ⟨p, rfl⟩ | rfl | ⟨hslot, resource, rfl⟩ | hheld
  · -- `j` waits for a project: it has no resource lock, and `l` has a smaller key
    obtain ⟨hnone, hkeys⟩ := hpolite j p hl' hj
    rcases hkind with ⟨q, rfl⟩ | ⟨resource, rfl⟩
    · exact hkeys q hown
    · exact absurd hown (hnone resource)
  · -- `j` waits for the task slots, so it has no lock of a resource at all
    rcases hkind with ⟨q, rfl⟩ | ⟨resource, rfl⟩
    · rw [rank_project, rank_resource]
      exact projectLockKey_lt
    · have hown'' : s.owner (resourceLock .task) = some j := horderly resource hown
      exact absurd (some.inj (hown'.symm.trans hown'')) hne'
  · -- whoever has another resource has the task slots, which `j` has
    obtain ⟨m, hm⟩ := ne_none_iff_exists'.mp hk
    obtain ⟨l'', hl'', -, -⟩ := Sys.waits_eq_some.mp hm
    have hslot' : s.owner (resourceLock .task) = some k :=
      (request_mayAdmit hreach hl'').1 resource hown'
    exact absurd (some.inj (hslot'.symm.trans hslot)) hne'
  · exact absurd (some.inj (hown'.symm.trans hheld)) hne'

def sampleReady (id projectId : UUID) : TaskSpec :=
  { sampleSpec id [] with projectId, estimate := {} }

/-- Two dispatchers, each with a task of the same project; the second waits for
the lock of the project. -/
def sampleQueue : List (Event Call) :=
  [.start 1 (.claimReady "one" 1 100 fun _ => { token := 9 }),
    .start 2 (.claimReady "two" 1 100 fun _ => { token := 8 }), .exec 1, .exec 2, .exec 1]

def samplePair : Database :=
  perform sampleService {} (.persistPlan (fun runId _ => runId) 40
    [sampleReady 1 0x100000000, sampleReady 2 0x100000000] fun _ => {})

def sampleQueued : Concurrent :=
  (sampleQueue.foldlM (Concurrent.step sampleService) { db := samplePair }).get (by decide)

theorem sampleQueued_reach :
    Reach (Concurrent.step sampleService) ClaimsOnly { db := samplePair } sampleQueued :=
  Reach.foldlM .start sampleQueue (by simp [sampleQueue, ClaimsOnly]) (some_get _).symm

theorem sampleQueued_polite : Polite sampleQueued := by
  intro i projectId hrequest hwaits
  have howner : sampleQueued.owner = fun l =>
      if l ∈ [projectLock 0x100000000] then some 1 else if l ∈ [task 2] then some 2
      else if l ∈ [task 1] then some 1 else none := rfl
  have hothers : ∀ j, j ≠ 1 → j ≠ 2 → sampleQueued.txs j = none := fun j h₁ h₂ => by
    change update (update (update (update (update
      (fun _ => none) 1 _) 2 _) 1 _) 2 _) 1 _ j = none
    simp [h₁, h₂]
  have hi : i = 2 := by
    by_contra h₂
    by_cases h₁ : i = 1
    · subst h₁
      exact hwaits (by decide)
    · simp [Sys.request, hothers i h₁ h₂] at hrequest
  subst hi
  rw [howner]
  refine ⟨fun resource => ?_, fun other => ?_⟩
  · cases resource <;> decide
  · simp only [mem_singleton]
    split_ifs <;> simp_all [projectLock]

theorem admission_deadlock_free_sample :
    sampleQueued.waits 2 = some 1 ∧ ¬ sampleQueued.Deadlock :=
  ⟨by decide, admission_deadlock_free sampleService samplePair sampleQueued sampleQueued_reach
    sampleQueued_polite⟩

/-- Two projects with lock keys 1 and 2, the first with one ready task and the
second with two. -/
def sampleProjects : Database :=
  perform sampleService {} (.persistPlan (fun runId _ => runId) 40
    [sampleReady 1 0x100000000, sampleReady 2 0x200000000, sampleReady 3 0x200000000] fun _ => {})

/-- The first dispatcher scans a task of each project, the second the task that
is left. The first leases its task of the first project; the second, under the
lock of the second project, gets as far as the task slots. -/
def sampleWaits : List (Event Call) :=
  [.start 1 (.claimReady "one" 2 100 fun _ => { token := 9 }),
    .start 2 (.claimReady "two" 2 100 fun _ => { token := 8 }), .exec 1, .exec 2] ++
  replicate 5 (.exec 2) ++ replicate 13 (.exec 1)

def sampleDeadlocked : Concurrent :=
  (sampleWaits.foldlM (Concurrent.step sampleService) { db := sampleProjects }).get (by decide)

/-- Two admissions, each waiting for an advisory lock of the other. -/
theorem admission_deadlocks :
    ∃ s : Concurrent, Reach (Concurrent.step sampleService) ClaimsOnly { db := sampleProjects } s ∧
      s.request 1 = some (projectLock 0x200000000) ∧ s.owner (projectLock 0x200000000) = some 2 ∧
      s.request 2 = some (resourceLock .task) ∧ s.owner (resourceLock .task) = some 1 ∧
      s.Deadlock := by
  have hreach : Reach (Concurrent.step sampleService) ClaimsOnly { db := sampleProjects }
      sampleDeadlocked :=
    Reach.foldlM .start sampleWaits (by simp [sampleWaits, or_imp, forall_and, ClaimsOnly])
      (some_get _).symm
  have hwaits : sampleDeadlocked.waits 1 = some 2 ∧ sampleDeadlocked.waits 2 = some 1 := by decide
  refine ⟨sampleDeadlocked, hreach, by decide, by decide, by decide, by decide, 1, ?_⟩
  exact .tail (.single hwaits.1) hwaits.2

end AutoSwe
