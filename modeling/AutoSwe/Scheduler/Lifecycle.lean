import AutoSwe.Lib.Local
import AutoSwe.Scheduler.Reconciliation

/-!
# The lifecycle of a claim

What the scheduler is for, one task at a time. A task is created pending, promoted once its
dependencies have completed, leased together with its reservations, started, and settled, which
gives the lease and the reservations back. `Move` is that machine over a `TaskView`, everything the
database holds about one task. A lease and its reservations agree with the state (`Agrees`), and
whatever is past `PENDING` has its dependencies behind it (`DependencyOrder`).
-/

namespace AutoSwe

open LocalEffect

/-- Everything the database holds about one task. -/
structure TaskView where
  row : Option TaskRow
  lease : Option LeaseRow
  held : List ReservationRow
  graph : Option GraphExecutionRow
  attempted : Bool

variable (db : Database)

def Database.view (taskId : UUID) : TaskView where
  row := db.tasks.get? taskId
  lease := db.leases.get? taskId
  held := db.heldBy taskId
  graph := db.graphs.get? taskId
  attempted := db.attempts.rows.any fun attempt => attempt.taskId = taskId

def Database.taskState (t : UUID) : Option TaskStatus :=
  (db.tasks.get? t).map TaskRow.state

def Database.graphState (t : UUID) : Option GraphExecutionState :=
  (db.graphs.get? t).map GraphExecutionRow.state

def Database.Completed (taskId : UUID) : Prop :=
  ∃ row, db.tasks.get? taskId = some row ∧ row.state = .COMPLETED

/-- The units that a claim of a task with this estimate holds. -/
def claimUnits (estimate : ResourceEstimate) : List (Resource × Nat) :=
  [(.task, 1)] ++ (if estimate.modelTokens > 0 then [(.model, 1)] else []) ++
    (if estimate.sandboxSlots > 0 then [(.sandbox, 1)] else [])

def ReservationRow.share (row : ReservationRow) : Resource × Nat := (row.resource, row.units)

inductive Move (completed : UUID → Prop) : TaskView → TaskView → Prop
  | create {v row} (hnew : v.row = none) (hstate : row.state = .PENDING) :
      Move completed v { v with row := some row }
  | promote {v row now} (hrow : v.row = some row) (hstate : row.state = .PENDING)
      (hready : ∀ d ∈ row.dependencies, completed d) :
      Move completed v { v with row := some (row.enter .READY now) }
  | drop {v row now} (hrow : v.row = some row) (hstate : row.state = .PENDING) :
      Move completed v { v with row := some (row.enter .CANCELLED now) }
  | claim {v row now lease claimed} (hrow : v.row = some row) (hstate : row.state = .READY)
      (hshare : claimed.map ReservationRow.share = claimUnits row.estimate) :
      Move completed v { v with
        row := some (row.enter .LEASED now), lease := some lease, held := v.held ++ claimed }
  | unreserve {v row} (hrow : v.row = some row) (hstate : row.state = .READY) :
      Move completed v { v with held := [] }
  | renew {v old lease} (hlease : v.lease = some old) :
      Move completed v { v with lease := some lease }
  | start {v row now} (hrow : v.row = some row) (hstate : row.state = .LEASED) :
      Move completed v { v with row := some (row.enter .RUNNING now) }
  | attempt {v row} (hrow : v.row = some row) (hstate : row.state = .RUNNING) :
      Move completed v { v with attempted := true }
  | settle {v row target now} (hrow : v.row = some row)
    (hlegal : target ∈ taskTransitions row.state)
      (hfree : target.held = false)
      (hpending : row.state = .PENDING → target = .CANCELLED ∨ v.graph.isSome) :
      Move completed v { v with row := some (row.enter target now), lease := none, held := [] }
  | release {v row} (hrow : v.row = some row) (hfree : row.state.held = false) :
      Move completed v { v with lease := none, held := [] }
  | graph {v graph} (hstarted : v.attempted ∨ v.graph.isSome) :
      Move completed v { v with graph := some graph }

/-- One task moves, by what the rest of the database allows. -/
abbrev TaskTouch := Touch Database.view fun db => Move db.Completed

/-- Tasks in `P` move, one after the other. -/
abbrev TaskEffect (P : UUID → Prop) := Effect Database.view (fun db => Move db.Completed) P

/-! ## Leases, reservations and states agree -/

/-- A lease exists exactly in `LEASED` and `RUNNING`, with exactly the units of
the estimate; without it nothing is reserved. -/
def TaskView.Agrees (v : TaskView) : Prop :=
  match v.row with
  | none => v.lease = none ∧ v.held = []
  | some row =>
    if row.state.held then
      v.lease.isSome ∧ v.held.map ReservationRow.share = claimUnits row.estimate
    else v.lease = none ∧ v.held = []

theorem agrees_free {v : TaskView} (hrow : v.row = some row) (hfree : row.state.held = false) :
    v.Agrees ↔ v.lease = none ∧ v.held = [] := by
  simp [TaskView.Agrees, hrow, hfree]

theorem agrees_held {v : TaskView} (hrow : v.row = some row) (hheld : row.state.held = true) :
    v.Agrees ↔
      v.lease.isSome ∧ v.held.map ReservationRow.share = claimUnits row.estimate := by
  simp [TaskView.Agrees, hrow, hheld]

theorem TaskView.Agrees.free {v : TaskView} {row : TaskRow} (hrow : v.row = some row)
    (hfree : row.state.held = false) (h : v.lease = none ∧ v.held = []) : v.Agrees :=
  (agrees_free hrow hfree).mpr h

theorem TaskView.Agrees.held {v : TaskView} {row : TaskRow} (hrow : v.row = some row)
    (hheld : row.state.held = true)
    (h : v.lease.isSome ∧ v.held.map ReservationRow.share = claimUnits row.estimate) : v.Agrees :=
  (agrees_held hrow hheld).mpr h

theorem Move.agrees (h : Move completed v v') (hv : v.Agrees) : v'.Agrees := by
  cases h with
  | create hnew hstate =>
    refine .free rfl (by simp [hstate, TaskStatus.held]) ?_
    simpa [TaskView.Agrees, hnew] using hv
  | promote hrow hstate _ =>
    rw [agrees_free hrow (by simp [hstate, TaskStatus.held])] at hv
    exact .free rfl rfl hv
  | drop hrow hstate =>
    rw [agrees_free hrow (by simp [hstate, TaskStatus.held])] at hv
    exact .free rfl rfl hv
  | claim hrow hstate hshare =>
    rw [agrees_free hrow (by simp [hstate, TaskStatus.held])] at hv
    refine .held rfl rfl ⟨rfl, ?_⟩
    simpa [hv.2] using hshare
  | @unreserve row hrow hstate =>
    have hfree : row.state.held = false := by rw [hstate]; rfl
    rw [agrees_free hrow hfree] at hv
    exact .free hrow hfree ⟨hv.1, rfl⟩
  | renew hlease =>
    obtain ⟨row, lease, held, graph, attempted⟩ := v
    cases hlease
    unfold TaskView.Agrees at hv ⊢
    split at hv
    · simp at hv
    · split at hv <;> simp_all
  | start hrow hstate =>
    rw [agrees_held hrow (by simp [hstate, TaskStatus.held])] at hv
    exact .held rfl rfl hv
  | attempt => exact hv
  | settle _ _ hfree _ => exact .free rfl hfree ⟨rfl, rfl⟩
  | release hrow hfree => exact .free hrow hfree ⟨rfl, rfl⟩
  | graph => exact hv

/-! ## Dependency order -/

/-- No execution leaves a trace of a pending task. -/
def TaskView.Started (v : TaskView) : Prop :=
  (v.attempted ∨ v.graph.isSome) → ∃ row, v.row = some row ∧ row.state ≠ .PENDING

theorem Move.started (h : Move completed v v') (hv : v.Started) : v'.Started := by
  cases h with
  | create hnew _ =>
    intro hs
    obtain ⟨row, hrow, _⟩ := hv hs
    simp [hnew] at hrow
  | promote => exact fun _ => ⟨_, rfl, by simp⟩
  | drop => exact fun _ => ⟨_, rfl, by simp⟩
  | claim => exact fun _ => ⟨_, rfl, by simp⟩
  | unreserve => exact hv
  | renew => exact hv
  | start => exact fun _ => ⟨_, rfl, by simp⟩
  | attempt hrow hstate => exact fun _ => ⟨_, hrow, by simp [hstate]⟩
  | settle _ hlegal => exact fun _ => ⟨_, rfl, not_pending_of_transition hlegal⟩
  | release => exact hv
  | graph hstarted => exact fun _ => hv hstarted

/-- Past `PENDING` and not cancelled, with every dependency completed. -/
def TaskView.Ordered (completed : UUID → Prop) (v : TaskView) : Prop :=
  ∀ row, v.row = some row → row.state ≠ .PENDING → row.state ≠ .CANCELLED →
    ∀ d ∈ row.dependencies, completed d

theorem Move.ordered (h : Move completed v v') (hs : v.Started) (hv : v.Ordered completed) :
    v'.Ordered completed := by
  cases h with
  | create _ hstate =>
    rintro row ⟨⟩ hne
    exact absurd hstate hne
  | promote _ _ hready =>
    rintro row ⟨⟩ _ _
    exact hready
  | drop =>
    rintro row ⟨⟩ _ hne
    exact absurd rfl hne
  | @claim row now lease claimed hrow hstate _ =>
    rintro row' ⟨⟩ _ _
    exact hv row hrow (by simp [hstate]) (by simp [hstate])
  | unreserve => exact hv
  | renew => exact hv
  | @start row now hrow hstate =>
    rintro row' ⟨⟩ _ _
    exact hv row hrow (by simp [hstate]) (by simp [hstate])
  | attempt => exact hv
  | @settle row target now hrow hlegal hfree hpending =>
    rintro row' ⟨⟩ _ hcancelled
    refine hv row hrow ?_ ?_
    · intro hstate
      rcases hpending hstate with hc | hg
      · exact hcancelled hc
      · obtain ⟨row'', hrow'', hne⟩ := hs (.inr hg)
        rw [hrow] at hrow''
        cases hrow''
        exact hne hstate
    · intro hstate
      rw [hstate] at hlegal
      exact absurd hlegal (by simp [taskTransitions])
  | release => exact hv
  | graph => exact hv

theorem Move.terminal_stays (h : Move completed v v') (hrow : v.row = some row)
    (hterminal : row.state ∈ terminalTaskStates) : v'.row = some row := by
  have hstate : ∀ row', v.row = some row' → row'.state ∈ terminalTaskStates := by
    rintro row' hrow'
    rw [hrow] at hrow'
    cases hrow'
    exact hterminal
  cases h with
  | create hnew => simp [hnew] at hrow
  | promote hrow' hpending => simpa [hpending, terminalTaskStates] using hstate _ hrow'
  | drop hrow' hpending => simpa [hpending, terminalTaskStates] using hstate _ hrow'
  | claim hrow' hready => simpa [hready, terminalTaskStates] using hstate _ hrow'
  | start hrow' hleased => simpa [hleased, terminalTaskStates] using hstate _ hrow'
  | settle hrow' hlegal => exact absurd hlegal (terminal_absorbing (hstate _ hrow'))
  | unreserve | renew | attempt | release | graph => exact hrow

end AutoSwe
