import AutoSwe.Persistence.Repositories

/-!
# Admission

The concurrency policy, the totals of active reservations it is checked
against, and the two statements that change reservations: the insert that the
global ceiling guards and the release of everything a task holds.
-/

namespace AutoSwe

open Transaction Prog List Database

structure ConcurrencyPolicy where
  maxParallelTasks : Nat
  maxParallelTasksPerProject : Nat
  maxModelConcurrency : Nat
  maxSandboxConcurrency : Nat
  maxTaskAttempts : Nat := 3
  maxRunCostUsd : Rat := 25
  one_le_maxParallelTasks : 1 ≤ maxParallelTasks := by decide
  one_le_maxParallelTasksPerProject : 1 ≤ maxParallelTasksPerProject := by decide
  one_le_maxModelConcurrency : 1 ≤ maxModelConcurrency := by decide
  one_le_maxSandboxConcurrency : 1 ≤ maxSandboxConcurrency := by decide
  one_le_maxTaskAttempts : 1 ≤ maxTaskAttempts := by decide
  maxTaskAttempts_le : maxTaskAttempts ≤ 100 := by decide
  maxRunCostUsd_pos : 0 < maxRunCostUsd := by norm_num

structure AdmissionSnapshot where
  activeTasks : Nat
  activeProjectTasks : Nat
  activeModelSlots : Nat
  activeSandboxSlots : Nat

structure ResourceRequest where
  taskSlots : Nat := 1
  modelSlots : Nat := 0
  sandboxSlots : Nat := 0

inductive AdmissionRefusal
  | MAX_PARALLEL_TASKS
  | MAX_PROJECT_PARALLEL_TASKS
  | MAX_MODEL_CONCURRENCY
  | MAX_SANDBOX_CONCURRENCY
deriving DecidableEq

/-- `none` when the request is admitted, the reason otherwise. -/
def evaluateAdmission (policy : ConcurrencyPolicy) (snapshot : AdmissionSnapshot)
    (request : ResourceRequest) : Option AdmissionRefusal :=
  if snapshot.activeTasks + request.taskSlots > policy.maxParallelTasks then
    some .MAX_PARALLEL_TASKS
  else if snapshot.activeProjectTasks + request.taskSlots > policy.maxParallelTasksPerProject then
    some .MAX_PROJECT_PARALLEL_TASKS
  else if snapshot.activeModelSlots + request.modelSlots > policy.maxModelConcurrency then
    some .MAX_MODEL_CONCURRENCY
  else if snapshot.activeSandboxSlots + request.sandboxSlots > policy.maxSandboxConcurrency then
    some .MAX_SANDBOX_CONCURRENCY
  else none

theorem project_room_of_admitted (h : evaluateAdmission policy snapshot request = none) :
    snapshot.activeProjectTasks + request.taskSlots ≤ policy.maxParallelTasksPerProject := by
  simp only [evaluateAdmission] at h
  split_ifs at h
  omega

def resourceRequest (estimate : ResourceEstimate) : ResourceRequest where
  modelSlots := if estimate.modelTokens > 0 then 1 else 0
  sandboxSlots := min 1 estimate.sandboxSlots

def ConcurrencyPolicy.cap (policy : ConcurrencyPolicy) : Resource → Nat
  | .task => policy.maxParallelTasks
  | .model => policy.maxModelConcurrency
  | .sandbox => policy.maxSandboxConcurrency

/-! ## Advisory locks -/

def admissionLockNamespace : Nat := 0x41555357 &&& 0x7FFFFFFF

def resourceLockNamespace : Nat := 0x52455356 &&& 0x7FFFFFFF

def projectLockKey (projectId : UUID) : Nat :=
  (projectId.int.val >>> 32) &&& 0x7FFFFFFF

/-- The first four bytes of the SHA-256 digest of the name, without the sign bit. -/
def resourceLockKey : Resource → Nat
  | .task => 0x0ebb429f
  | .model => 0x1372c470
  | .sandbox => 0x37ad5674

def projectLock (projectId : UUID) : Lock :=
  .advisory admissionLockNamespace (projectLockKey projectId)

def resourceLock (resource : Resource) : Lock :=
  .advisory resourceLockNamespace (resourceLockKey resource)

theorem projectLock_ne_resourceLock (projectId : UUID) (resource : Resource) :
    projectLock projectId ≠ resourceLock resource := by
  simp [projectLock, resourceLock, admissionLockNamespace, resourceLockNamespace]

/-! ## Reservations -/

def ReservationRow.active (row : ReservationRow) : Bool := row.releasedAt.isNone

def Database.active (db : Database) : List ReservationRow :=
  db.reservations.filter ReservationRow.active

variable (db : Database)

def Database.activeReservations (resource : Resource) : List ReservationRow :=
  db.active.filter fun row => row.resource = resource

def Database.activeProjectReservations (resource : Resource) (projectId : UUID) :
    List ReservationRow :=
  (db.activeReservations resource).filter fun row => row.projectId = projectId

variable (taskId : UUID)

/-- Everything a task currently holds. -/
def Database.heldBy : List ReservationRow :=
  db.active.filter fun row => row.taskId = taskId

def totalUnits (rows : List ReservationRow) : Nat := (rows.map ReservationRow.units).sum

def Database.activeUnits (resource : Resource) : Nat :=
  totalUnits (db.activeReservations resource)

def Database.activeProjectUnits (resource : Resource) (projectId : UUID) : Nat :=
  totalUnits (db.activeProjectReservations resource projectId)

/-- Four statements, each with its own view. -/
def admissionSnapshot (projectId : UUID) : Session AdmissionSnapshot := do
  let activeTasks ← query fun db => db.activeUnits .task
  let activeProjectTasks ← query fun db => db.activeProjectUnits .task projectId
  let activeModelSlots ← query fun db => db.activeUnits .model
  let activeSandboxSlots ← query fun db => db.activeUnits .sandbox
  pure { activeTasks, activeProjectTasks, activeModelSlots, activeSandboxSlots }

def Database.reserve (row : ReservationRow) : Database :=
  { db with reservations := db.reservations ++ [row] }

/-- Insert a reservation only when the global ceiling still has room. -/
def reserveWithGlobalCap (taskId projectId : UUID) (resource : Resource) (units cap : Nat)
    (draw : Draw) : Session Bool := do
  advisory (resourceLock resource)
  executeIf (fun view => view.activeUnits resource + units ≤ cap) fun db =>
    db.reserve { taskId, projectId, resource, units, createdAt := draw.createdAt }

variable (releasedAt : Time)

def ReservationRow.release (row : ReservationRow) : ReservationRow :=
  if row.taskId = taskId ∧ row.active then { row with releasedAt := some releasedAt } else row

def Database.release (db : Database) (taskId : UUID) (releasedAt : Time) : Database :=
  { db with reservations := db.reservations.map (ReservationRow.release taskId releasedAt) }

/-- The release of the rows that a statement sees, over a state in which others
may have inserted more. -/
def Database.releaseSeen (view db : Database) : Database :=
  { db with reservations := db.reservations.map fun row =>
      if row ∈ view.reservations then row.release taskId releasedAt else row }

def releaseReservations : Session Unit :=
  executeSeen (releaseSeen taskId releasedAt)

theorem run_reserveWithGlobalCap (taskId projectId : UUID) (resource : Resource) (units cap : Nat)
    (draw : Draw) (db : Database) :
    (reserveWithGlobalCap taskId projectId resource units cap draw).run db =
      if db.activeUnits resource + units ≤ cap then
        .ok (true, db.reserve { taskId, projectId, resource, units, createdAt := draw.createdAt })
      else .ok (false, db) := by
  simp only [reserveWithGlobalCap, run_bind, run_advisory, run_executeIf]
  by_cases h : db.activeUnits resource + units ≤ cap <;> simp [h]

theorem releaseSeen_self (db : Database) :
    releaseSeen taskId releasedAt db db = db.release taskId releasedAt := by
  have hall : (db.reservations.map fun row =>
      if row ∈ db.reservations then row.release taskId releasedAt else row) =
      db.reservations.map (ReservationRow.release taskId releasedAt) :=
    map_congr_left fun row hrow => if_pos hrow
  simp only [releaseSeen, release, hall]

@[simp] theorem run_releaseReservations (db : Database) :
    (releaseReservations taskId releasedAt).run db = .ok ((), db.release taskId releasedAt) := by
  rw [releaseReservations, run_executeSeen, releaseSeen_self]

/-! ## What the two writes do to the active rows -/

@[simp] theorem active_reserve (row : ReservationRow) (h : row.active) :
    (db.reserve row).active = db.active ++ [row] := by
  simp [active, reserve, h]

theorem active_releaseSeen (view db : Database) :
    (releaseSeen taskId releasedAt view db).active =
      db.active.filter fun row => ¬ (row.taskId = taskId ∧ row ∈ view.reservations) := by
  simp only [active, releaseSeen]
  induction db.reservations with
  | nil => rfl
  | cons row rows ih =>
    simp only [map_cons, filter_cons, ih]
    by_cases hactive : row.active
    · by_cases hseen : row ∈ view.reservations
      · by_cases htask : row.taskId = taskId
        · have hgone : (row.release taskId releasedAt).active = false := by
            rw [ReservationRow.release, if_pos ⟨htask, hactive⟩]
            rfl
          simp [hgone, hactive, hseen, htask]
        · simp [ReservationRow.release, htask, hactive]
      · simp [hseen, hactive]
    · simp [ReservationRow.release, hactive]

theorem active_release :
    (db.release taskId releasedAt).active = db.active.filter fun row => row.taskId ≠ taskId := by
  rw [← releaseSeen_self, active_releaseSeen]
  refine filter_congr fun row hrow => ?_
  have hseen : row ∈ db.reservations := mem_of_mem_filter hrow
  simp [hseen]

theorem heldBy_release (taskId other : UUID) (releasedAt : Time) :
    (db.release taskId releasedAt).heldBy other =
      if other = taskId then [] else db.heldBy other := by
  simp only [heldBy, active_release, filter_filter]
  split
  · rename_i h
    subst h
    refine filter_eq_nil_iff.mpr fun row _ => ?_
    simp
  · rename_i h
    refine filter_congr fun row _ => ?_
    by_cases hrow : row.taskId = other
    · simp [hrow, h]
    · simp [hrow]

theorem heldBy_reserve (row : ReservationRow) (h : row.active) (other : UUID) :
    (db.reserve row).heldBy other =
      if row.taskId = other then db.heldBy other ++ [row] else db.heldBy other := by
  by_cases htask : row.taskId = other <;> simp [heldBy, h, htask]

end AutoSwe
