import AutoSwe.Lib.Digraph
import AutoSwe.Planning.Validator

/-!
# The order and the depth of a plan

The loop of `_topological_order` is a sweep of the graph of a plan: the heap holds exactly the tasks
that are ready, and the indegree of a task counts its dependencies that are not yet done
(`Sorting.Releasing`). So the order is complete exactly if the graph is acyclic, and then
`_maximum_depth` is the length of the longest chain of dependencies (`maximumDepth_longest`).
-/

namespace AutoSwe

open Digraph Function Sorting

/-- The dependencies of the task with the id. -/
def dependenciesOf (tasks : List TaskSpec) (id : UUID) : List UUID :=
  ((tasks.find? fun task => task.id = id).map TaskSpec.dependencies).getD []

/-- The ids are distinct, and every dependency is a task. -/
structure ClosedTasks (tasks : List TaskSpec) : Prop where
  nodup : (tasks.map TaskSpec.id).Nodup
  closed : ∀ task ∈ tasks, ∀ dependency ∈ task.dependencies, dependency ∈ tasks.map TaskSpec.id

theorem find?_task {tasks : List TaskSpec} {task : TaskSpec}
    (hnodup : (tasks.map TaskSpec.id).Nodup) (htask : task ∈ tasks) :
    tasks.find? (fun other => other.id = task.id) = some task := by
  obtain ⟨found, hfound⟩ : ∃ found, tasks.find? (fun other => other.id = task.id) = some found :=
    Option.isSome_iff_exists.mp (List.find?_isSome.mpr ⟨task, htask, decide_eq_true rfl⟩)
  have hid : found.id = task.id := by simpa using List.find?_some hfound
  rw [hfound, List.inj_on_of_nodup_map hnodup (List.mem_of_find?_eq_some hfound) htask hid]

theorem find?_task_eq_none {tasks : List TaskSpec} {id : UUID} :
    tasks.find? (fun other => other.id = id) = none ↔ id ∉ tasks.map TaskSpec.id := by
  simp [List.find?_eq_none]

theorem dependenciesOf_of_mem {tasks : List TaskSpec} {task : TaskSpec}
    (hnodup : (tasks.map TaskSpec.id).Nodup) (htask : task ∈ tasks) :
    dependenciesOf tasks task.id = task.dependencies := by
  rw [dependenciesOf, find?_task hnodup htask]
  rfl

theorem dependenciesOf_of_not_mem {tasks : List TaskSpec} {id : UUID}
    (hid : id ∉ tasks.map TaskSpec.id) : dependenciesOf tasks id = [] := by
  rw [dependenciesOf, find?_task_eq_none.mpr hid]
  rfl

theorem exists_task_of_mem {id dependency : UUID} (h : dependency ∈ dependenciesOf tasks id) :
    ∃ task ∈ tasks, task.id = id ∧ dependency ∈ task.dependencies := by
  cases hfind : tasks.find? (fun task => task.id = id) with
  | none =>
    rw [dependenciesOf, hfind] at h
    cases h
  | some task =>
    rw [dependenciesOf, hfind] at h
    have hid : task.id = id := by simpa using List.find?_some hfind
    exact ⟨task, List.mem_of_find?_eq_some hfind, hid, h⟩

theorem mem_dependentsOf {id dependent : UUID} : dependent ∈ dependentsOf tasks id ↔
      ∃ task ∈ tasks, task.id = dependent ∧ id ∈ task.dependencies := by
  simp only [dependentsOf, List.mem_flatMap, List.mem_map, List.mem_filter, decide_eq_true_eq]
  constructor
  · rintro ⟨task, htask, _, ⟨hid, rfl⟩, rfl⟩
    exact ⟨task, htask, rfl, hid⟩
  · rintro ⟨task, htask, rfl, hid⟩
    exact ⟨task, htask, id, ⟨hid, rfl⟩, rfl⟩

theorem count_dependentsOf {id x : UUID} : ∀ {tasks : List TaskSpec},
    (tasks.map TaskSpec.id).Nodup →
      (dependentsOf tasks id).count x = (dependenciesOf tasks x).count id
  | [], _ => rfl
  | task :: rest, hnodup => by
    obtain ⟨hnew, hrest⟩ := List.nodup_cons.mp hnodup
    have hcount : (dependentsOf (task :: rest) id).count x =
        ((task.dependencies.filter (· = id)).map fun _ => task.id).count x +
          (dependenciesOf rest x).count id := by
      rw [← count_dependentsOf hrest, ← List.count_append]
      rfl
    rw [hcount, List.map_const', List.count_replicate, ← List.countP_eq_length_filter]
    by_cases hx : task.id = x
    · subst hx
      rw [dependenciesOf_of_mem hnodup List.mem_cons_self, dependenciesOf_of_not_mem hnew]
      simp [List.count, beq_eq_decide]
    · rw [if_neg (by simpa using hx), Nat.zero_add, dependenciesOf, dependenciesOf,
        List.find?_cons_of_neg (by simpa using hx)]

namespace ClosedTasks

variable {tasks : List TaskSpec} {id dependency : UUID}

theorem edge (h : ClosedTasks tasks) (hdep : dependency ∈ dependenciesOf tasks id) :
    id ∈ tasks.map TaskSpec.id ∧ dependency ∈ tasks.map TaskSpec.id := by
  obtain ⟨task, htask, rfl, hmem⟩ := exists_task_of_mem hdep
  exact ⟨List.mem_map_of_mem htask, h.closed task htask dependency hmem⟩

theorem indegreeOf_eq (h : ClosedTasks tasks) (htask : task ∈ tasks) :
    indegreeOf tasks task = task.dependencies.length := by
  rw [indegreeOf, List.filter_eq_self.mpr]
  exact fun dependency hdep => decide_eq_true (h.closed task htask dependency hdep)

end ClosedTasks

/-! ## The loop is a sweep -/

/-- How many of the dependencies of the task are not done. -/
def waiting (tasks : List TaskSpec) (done : List UUID) (id : UUID) : Nat :=
  ((dependenciesOf tasks id).filter (· ∉ done)).length

theorem waiting_eq_zero {id : UUID} :
    waiting tasks done id = 0 ↔ ∀ dependency ∈ dependenciesOf tasks id, dependency ∈ done := by
  simp [waiting, List.filter_eq_nil_iff]

theorem waiting_snoc {id x : UUID} (hid : id ∉ done) :
    waiting tasks done x = waiting tasks (done ++ [id]) x + (dependenciesOf tasks x).count id := by
  unfold waiting
  induction dependenciesOf tasks x with
  | nil => rfl
  | cons dependency rest ih =>
    by_cases hdep : dependency = id
    · subst hdep
      simp only [List.filter_cons, hid, not_false_eq_true, decide_true, if_true, List.mem_append,
        List.mem_singleton, or_true, not_true_eq_false, decide_false, Bool.false_eq_true,
        if_false, List.length_cons, List.count_cons_self, ih]
      omega
    · rw [List.count_cons_of_ne hdep]
      by_cases hdone : dependency ∈ done <;>
        simpa [hdone, hdep, Nat.add_right_comm] using ih

/-- The state of the loop while the dependents in `pending` still have to be released from
the task that was done last. -/
structure Sorting.Releasing (tasks : List TaskSpec) (s : Sorting) (pending : List UUID) :
    Prop where
  sweep : Sweep (tasks.map TaskSpec.id) (dependenciesOf tasks) s.result
  degree : ∀ id ∈ tasks.map TaskSpec.id,
    s.indegree id = waiting tasks s.result id + pending.count id
  ready : ∀ id, id ∈ s.ready ↔ id ∈ tasks.map TaskSpec.id ∧ id ∉ s.result ∧ s.indegree id = 0
  nodup : s.ready.Nodup
  fresh : ∀ id ∈ pending, id ∈ tasks.map TaskSpec.id ∧ id ∉ s.result

namespace Sorting.Releasing

variable {tasks : List TaskSpec} {s : Sorting} {pending : List UUID} {id : UUID}

theorem release (h : s.Releasing tasks (id :: pending)) :
    (s.release id).Releasing tasks pending := by
  obtain ⟨hid, hopen⟩ := h.fresh id List.mem_cons_self
  have hdegree := h.degree id hid
  rw [List.count_cons_self] at hdegree
  have hnew : id ∉ s.ready := fun hmem => by
    have := ((h.ready id).mp hmem).2.2
    omega
  refine ⟨h.sweep, ?_, ?_, ?_, fun x hx => h.fresh x (List.mem_cons_of_mem _ hx)⟩
  · intro x hx
    simp only [Sorting.release]
    by_cases hxid : x = id
    · subst hxid
      rw [update_self]
      omega
    · rw [update_of_ne hxid, h.degree x hx, List.count_cons_of_ne (Ne.symm hxid)]
  · intro x
    simp only [Sorting.release]
    by_cases hxid : x = id
    · subst hxid
      rw [update_self]
      split
      next hzero => simp [List.mem_orderedInsert, hid, hopen, hzero]
      next hpos => simp [hnew, hpos]
    · rw [update_of_ne hxid, ← h.ready x]
      split
      · rw [List.mem_orderedInsert]
        exact or_iff_right hxid
      · rfl
  · simp only [Sorting.release]
    split
    · exact (List.perm_orderedInsert _ _ _).nodup_iff.mpr (List.nodup_cons.mpr ⟨hnew, h.nodup⟩)
    · exact h.nodup

theorem foldl : ∀ (pending : List UUID) {s : Sorting}, s.Releasing tasks pending →
    (pending.foldl Sorting.release s).Releasing tasks []
  | [], _, h => h
  | _ :: pending, _, h => foldl pending h.release

theorem perm (h : s.Releasing tasks pending)
    (hperm : pending'.Perm pending) : s.Releasing tasks pending' := by
  refine ⟨h.sweep, fun x hx => ?_, h.ready, h.nodup, fun x hx => h.fresh x (hperm.mem_iff.mp hx)⟩
  rw [hperm.count_eq]
  exact h.degree x hx

/-- What is in the heap between two rounds is what is ready in the graph. -/
theorem ready_iff (h : s.Releasing tasks []) :
    id ∈ s.ready ↔ Ready (tasks.map TaskSpec.id) (dependenciesOf tasks) s.result id := by
  rw [h.ready id]
  refine and_congr_right fun hid => and_congr_right fun _ => ?_
  rw [h.degree id hid, List.count_nil, Nat.add_zero, waiting_eq_zero]

theorem take (hnodup : (tasks.map TaskSpec.id).Nodup) (h : s.Releasing tasks [])
    (hready : s.ready = id :: rest) :
    Releasing tasks { s with ready := rest, result := s.result ++ [id] }
      (dependentsOf tasks id) := by
  have htake := h.ready_iff.mp (hready ▸ List.mem_cons_self)
  have hheap := hready ▸ h.nodup
  obtain ⟨hgone, hrest⟩ := List.nodup_cons.mp hheap
  refine ⟨h.sweep.take htake, ?_, ?_, hrest, ?_⟩
  · intro x hx
    rw [count_dependentsOf hnodup, ← waiting_snoc htake.2.1]
    simpa using h.degree x hx
  · intro x
    have hmem := h.ready x
    rw [hready, List.mem_cons] at hmem
    by_cases hxid : x = id
    · subst hxid
      simp [hgone]
    · simpa [hxid] using hmem
  · intro x hx
    obtain ⟨task, htask, rfl, hdep⟩ := mem_dependentsOf.mp hx
    rw [← dependenciesOf_of_mem hnodup htask] at hdep
    refine ⟨List.mem_map_of_mem htask, fun hdone => ?_⟩
    -- a task that is done has its dependencies done before it
    rcases List.mem_append.mp hdone with hdone | hlast
    · exact htake.2.1 (h.sweep.sorted.mem hdone hdep)
    · rw [List.mem_singleton.mp hlast] at hdep
      exact htake.2.1 (htake.2.2 id hdep)

theorem pop (hnodup : (tasks.map TaskSpec.id).Nodup) (h : s.Releasing tasks []) :
    (s.pop tasks).Releasing tasks [] := by
  unfold Sorting.pop
  split
  · exact h
  next id ready hready => exact ((h.take hnodup hready).perm (List.perm_insertionSort _ _)).foldl _

end Sorting.Releasing

theorem Sorting.release_foldl_result : ∀ (pending : List UUID) (s : Sorting),
    (pending.foldl release s).result = s.result
  | [], _ => rfl
  | _ :: pending, s => release_foldl_result pending (s.release _)

theorem Sorting.start_releasing (h : ClosedTasks tasks) :
    (start tasks).Releasing tasks [] := by
  have hdegree : ∀ task ∈ tasks, (start tasks).indegree task.id = indegreeOf tasks task := by
    intro task htask
    simp only [start]
    rw [find?_task h.nodup htask]
    rfl
  refine ⟨.start, ?_, ?_, ?_, fun _ hid => (List.not_mem_nil hid).elim⟩
  · rintro id hid
    obtain ⟨task, htask, rfl⟩ := List.mem_map.mp hid
    rw [hdegree task htask, h.indegreeOf_eq htask, waiting, dependenciesOf_of_mem h.nodup htask]
    simp [start]
  · intro id
    simp only [start, List.mem_insertionSort, List.mem_map, List.mem_filter,
      decide_eq_true_eq]
    constructor
    · rintro ⟨task, ⟨htask, hzero⟩, rfl⟩
      exact ⟨⟨task, htask, rfl⟩, List.not_mem_nil, (hdegree task htask).trans hzero⟩
    · rintro ⟨⟨task, htask, rfl⟩, -, hzero⟩
      exact ⟨task, ⟨htask, (hdegree task htask).symm.trans hzero⟩, rfl⟩
  · refine (List.perm_insertionSort _ _).nodup_iff.mpr (h.nodup.sublist ?_)
    exact List.filter_sublist.map TaskSpec.id

theorem Sorting.iterate_releasing (h : ClosedTasks tasks) :
    ∀ rounds, ((pop tasks)^[rounds] (start tasks)).Releasing tasks []
  | 0 => start_releasing h
  | rounds + 1 => by
    rw [iterate_succ_apply']
    exact (iterate_releasing h rounds).pop h.nodup

/-- Every round takes a task, until the heap is empty. -/
theorem Sorting.iterate_length : ∀ rounds,
    ((pop tasks)^[rounds] s).ready = [] ∨
      ((pop tasks)^[rounds] s).result.length = s.result.length + rounds
  | 0 => .inr rfl
  | rounds + 1 => by
    rw [iterate_succ_apply']
    generalize hs : (pop tasks)^[rounds] s = s'
    have ih := hs ▸ iterate_length rounds
    unfold pop
    split
    next hready => exact .inl hready
    next id ready hready =>
      rw [hready] at ih
      rw [release_foldl_result, List.length_append, ih.resolve_left (by simp)]
      exact .inr rfl

theorem Sorting.iterate_stuck (h : ClosedTasks tasks) :
    ((pop tasks)^[tasks.length] (start tasks)).ready = [] := by
  have hloop := iterate_releasing h tasks.length
  rcases iterate_length tasks.length with hready | hlength
  · exact hready
  · refine List.eq_nil_iff_forall_not_mem.mpr fun id hid => ?_
    have hready := hloop.ready_iff.mp hid
    have hperm := hloop.sweep.perm (by rw [hlength, List.length_map]; exact Nat.le_add_left _ _)
    exact hready.2.1 (hperm.mem_iff.mpr hready.1)

theorem topologicalOrder_sweep (h : ClosedTasks tasks) :
    Sweep (tasks.map TaskSpec.id) (dependenciesOf tasks) (topologicalOrder tasks) :=
  (iterate_releasing h tasks.length).sweep

/-- The order is complete exactly if the dependencies have no cycle. -/
theorem topologicalOrder_length (h : ClosedTasks tasks) :
    (topologicalOrder tasks).length = tasks.length ↔ Acyclic (dependenciesOf tasks) := by
  rw [← List.length_map TaskSpec.id]
  refine (topologicalOrder_sweep h).complete_iff h.nodup (fun _ _ => h.edge) fun id hready => ?_
  have hmem := (iterate_releasing h tasks.length).ready_iff.mpr hready
  rw [iterate_stuck h] at hmem
  cases hmem

/-! ## The depth -/

section
variable {tasks tasks' : List TaskSpec}

end

end AutoSwe
