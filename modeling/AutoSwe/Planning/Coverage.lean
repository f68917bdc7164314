import AutoSwe.Planning.Ordering

/-!
# The final validation of a plan

The validator and the planner follow the dependencies of a sink with a stack and the
set of the tasks found so far. In a plan whose dependencies are tasks the search ends
with exactly the transitive dependencies (`ancestors_spec`), so both look for a
`FinalValidation`: a validation that no task depends on and that depends,
transitively, on every other task.
-/

namespace AutoSwe

open Digraph List
open Relation (TransGen)

namespace TaskPlan

/-- The first task names the second one as a dependency. -/
def DependsOn (plan : TaskPlan) (dependent dependency : UUID) : Prop :=
  ∃ task ∈ plan.tasks, task.id = dependent ∧ dependency ∈ task.dependencies

structure FinalValidation (plan : TaskPlan) (sink : TaskSpec) : Prop where
  mem : sink ∈ plan.tasks
  validation : sink.taskType = .VALIDATION
  last : ∀ task ∈ plan.tasks, sink.id ∉ task.dependencies
  covers : ∀ task ∈ plan.tasks, task.id ≠ sink.id → TransGen plan.DependsOn sink.id task.id

end TaskPlan

theorem edge_dependenciesOf {plan : TaskPlan} (hnodup : (plan.tasks.map TaskSpec.id).Nodup) :
    Edge (dependenciesOf plan.tasks) = plan.DependsOn := by
  funext dependent dependency
  refine propext ⟨exists_task_of_mem, ?_⟩
  rintro ⟨task, htask, rfl, hdep⟩
  rw [Edge, dependenciesOf_of_mem hnodup htask]
  exact hdep

theorem tasksById_of_mem {plan : TaskPlan} {task : TaskSpec}
    (hnodup : (plan.tasks.map TaskSpec.id).Nodup) (htask : task ∈ plan.tasks) :
    plan.tasksById task.id = some task := by
  refine find?_task ?_ (mem_reverse.mpr htask)
  rw [map_reverse]
  exact nodup_reverse.mpr hnodup

theorem mem_sinks {plan : TaskPlan} {task : TaskSpec} :
    task ∈ plan.sinks ↔ task ∈ plan.tasks ∧ ∀ other ∈ plan.tasks, task.id ∉ other.dependencies := by
  simp [TaskPlan.sinks]

/-! ## The search -/

/-- How many dependencies the tasks have that are not found yet. -/
def unseen (tasks : List TaskSpec) (found : List UUID) : Nat :=
  ((tasks.filter fun task => task.id ∉ found).map fun task => task.dependencies.length).sum

theorem unseen_nil (plan : TaskPlan) : unseen plan.tasks [] = plan.edges := by
  simp [unseen, TaskPlan.edges]

theorem unseen_cons_of_not_mem {id : UUID}
    (hid : id ∉ tasks.map TaskSpec.id) : unseen tasks (id :: found) = unseen tasks found := by
  unfold unseen
  congr 2
  refine filter_congr fun task htask => ?_
  have hne : task.id ≠ id := fun h => hid (h ▸ mem_map_of_mem htask)
  simp [hne]

theorem unseen_cons (hnew : task.id ∉ found) :
    ∀ {tasks : List TaskSpec}, (tasks.map TaskSpec.id).Nodup → task ∈ tasks →
      unseen tasks (task.id :: found) + task.dependencies.length = unseen tasks found
  | other :: rest, hnodup, htask => by
    obtain ⟨hother, hrest⟩ := nodup_cons.mp hnodup
    rcases mem_cons.mp htask with rfl | htask
    · have hsame : unseen rest (task.id :: found) = _ := unseen_cons_of_not_mem hother
      unfold unseen at hsame ⊢
      rw [filter_cons_of_neg (by simp), filter_cons_of_pos (by simpa using hnew), hsame,
        map_cons, sum_cons, Nat.add_comm]
    · have ih := unseen_cons hnew hrest htask
      have hne : other.id ≠ task.id := fun h => hother (h ▸ mem_map_of_mem htask)
      unfold unseen at ih ⊢
      by_cases hfound : other.id ∈ found
      · rwa [filter_cons_of_neg (by simp [hfound]), filter_cons_of_neg (by simp [hfound])]
      · rw [filter_cons_of_pos (by simp [hfound, hne]),
          filter_cons_of_pos (by simp [hfound])]
        simp only [map_cons, sum_cons]
        omega

/-- What holds in every round: everything on the stack and everything found is reached from
the source, and nothing that a found task depends on is forgotten. -/
structure Collecting (tasks : List TaskSpec) (source : UUID) (pending found : List UUID) :
    Prop where
  reached : ∀ id, id ∈ found ∨ id ∈ pending → TransGen (Edge (dependenciesOf tasks)) source id
  start : ∀ id ∈ dependenciesOf tasks source, id ∈ found ∨ id ∈ pending
  kept : ∀ id ∈ found, ∀ dependency ∈ dependenciesOf tasks id,
    dependency ∈ found ∨ dependency ∈ pending

namespace Collecting

variable {tasks : List TaskSpec} {source id : UUID} {pending found : List UUID}

theorem skip (h : Collecting tasks source (id :: pending) found) (hid : id ∈ found) :
    Collecting tasks source pending found := by
  have hleft : ∀ x, x ∈ found ∨ x ∈ id :: pending → x ∈ found ∨ x ∈ pending := by
    rintro x (hx | hx)
    · exact .inl hx
    · rcases mem_cons.mp hx with rfl | hx
      · exact .inl hid
      · exact .inr hx
  refine ⟨fun x hx => h.reached x (hx.imp_right (mem_cons_of_mem _)),
    fun x hx => hleft x (h.start x hx), fun x hx w hw => hleft w (h.kept x hx w hw)⟩

theorem visit (h : Collecting tasks source (id :: pending) found) :
    Collecting tasks source ((dependenciesOf tasks id).reverse ++ pending) (id :: found) := by
  have hid := h.reached id (.inr mem_cons_self)
  have hleft : ∀ x, x ∈ found ∨ x ∈ id :: pending →
      x ∈ id :: found ∨ x ∈ (dependenciesOf tasks id).reverse ++ pending := by
    rintro x (hx | hx)
    · exact .inl (mem_cons_of_mem _ hx)
    · rcases mem_cons.mp hx with rfl | hx
      · exact .inl mem_cons_self
      · exact .inr (mem_append_right _ hx)
  refine ⟨?_, fun x hx => hleft x (h.start x hx), ?_⟩
  · rintro x (hx | hx)
    · rcases mem_cons.mp hx with rfl | hx
      · exact hid
      · exact h.reached x (.inl hx)
    · rcases mem_append.mp hx with hx | hx
      · exact hid.tail (mem_reverse.mp hx)
      · exact h.reached x (.inr (mem_cons_of_mem _ hx))
  · intro x hx w hw
    rcases mem_cons.mp hx with rfl | hx
    · exact .inr (mem_append_left _ (mem_reverse.mpr hw))
    · exact hleft w (h.kept x hx w hw)

theorem found_iff (h : Collecting tasks source [] found) :
    id ∈ found ↔ TransGen (Edge (dependenciesOf tasks)) source id := by
  have hnil : ∀ x, x ∈ found ∨ x ∈ [] → x ∈ found := fun x hx => hx.resolve_right not_mem_nil
  refine ⟨fun hid => h.reached id (.inl hid), mem_of_reach ?_ ?_⟩
  · exact fun x hx => hnil x (h.start x hx)
  · exact fun x hx w hw => hnil w (h.kept x hx w hw)

end Collecting

/-- The search ends with the ids that are reached, or at one of them that is no task. The
rounds suffice: each one takes an item from the stack, and only what a newly found task
depends on is put on it. -/
theorem collectAncestors_cases {plan : TaskPlan} (hnodup : (plan.tasks.map TaskSpec.id).Nodup)
    {source : UUID} : ∀ {rounds : Nat} {pending found : List UUID},
    Collecting plan.tasks source pending found →
    (∀ id ∈ found, id ∈ plan.tasks.map TaskSpec.id) →
    pending.length + unseen plan.tasks found ≤ rounds →
      (∃ result, collectAncestors plan.tasksById rounds pending found = .ok result ∧
        (∀ id, id ∈ result ↔ TransGen (Edge (dependenciesOf plan.tasks)) source id) ∧
        ∀ id ∈ result, id ∈ plan.tasks.map TaskSpec.id) ∨
      (∃ raised, collectAncestors plan.tasksById rounds pending found = .error raised) ∧
        ∃ id ∉ plan.tasks.map TaskSpec.id, TransGen (Edge (dependenciesOf plan.tasks)) source id
  | 0, [], found, h, hfound, _ => .inl ⟨found, rfl, fun _ => h.found_iff, hfound⟩
  | _ + 1, [], found, h, hfound, _ => .inl ⟨found, rfl, fun _ => h.found_iff, hfound⟩
  | 0, _ :: _, _, _, _, hrounds => by
    rw [length_cons] at hrounds
    omega
  | rounds + 1, id :: pending, found, h, hfound, hrounds => by
    rw [length_cons] at hrounds
    unfold collectAncestors
    by_cases hid : id ∈ found
    · rw [if_pos hid]
      exact collectAncestors_cases hnodup (h.skip hid) hfound (by omega)
    · rw [if_neg hid]
      by_cases hknown : id ∈ plan.tasks.map TaskSpec.id
      · obtain ⟨task, htask, rfl⟩ := mem_map.mp hknown
        have hvisit := h.visit
        rw [dependenciesOf_of_mem hnodup htask] at hvisit
        rw [tasksById_of_mem hnodup htask]
        refine collectAncestors_cases hnodup hvisit (forall_mem_cons.mpr ⟨hknown, hfound⟩) ?_
        have hunseen := unseen_cons hid hnodup htask
        rw [length_append, length_reverse]
        omega
      · have hnone : plan.tasksById id = none := by
          refine find?_task_eq_none.mpr ?_
          rwa [map_reverse, mem_reverse]
        rw [hnone]
        exact .inr ⟨⟨_, rfl⟩, id, hknown, h.reached id (.inr mem_cons_self)⟩

/-- The ancestors of a task are its transitive dependencies, if all of them are tasks. -/
theorem ancestors_cases {plan : TaskPlan} (hnodup : (plan.tasks.map TaskSpec.id).Nodup)
    {task : TaskSpec} (htask : task ∈ plan.tasks) :
    (∃ result, plan.ancestors task = .ok result ∧
      (∀ id, id ∈ result ↔ TransGen plan.DependsOn task.id id) ∧
      ∀ id ∈ result, id ∈ plan.tasks.map TaskSpec.id) ∨
    (∃ raised, plan.ancestors task = .error raised) ∧
      ∃ id ∉ plan.tasks.map TaskSpec.id, TransGen plan.DependsOn task.id id := by
  rw [← edge_dependenciesOf hnodup]
  simp only [TaskPlan.ancestors, tasksById_of_mem hnodup htask, Option.map_some, Option.getD_some]
  rw [← dependenciesOf_of_mem hnodup htask]
  refine collectAncestors_cases hnodup ⟨?_, ?_, fun _ hid => (not_mem_nil hid).elim⟩
    (fun _ hid => (not_mem_nil hid).elim) ?_
  · rintro id (hid | hid)
    · exact (not_mem_nil hid).elim
    · exact .single (mem_reverse.mp hid)
  · exact fun id hid => .inr (mem_reverse.mpr hid)
  · rw [length_reverse, unseen_nil]
    omega

section
variable {plan : TaskPlan} (hclosed : ClosedTasks plan.tasks)
include hclosed

theorem ancestors_spec {task : TaskSpec} (htask : task ∈ plan.tasks) :
    ∃ result, plan.ancestors task = .ok result ∧
      (∀ id, id ∈ result ↔ TransGen plan.DependsOn task.id id) ∧
      ∀ id ∈ result, id ∈ plan.tasks.map TaskSpec.id := by
  refine (ancestors_cases hclosed.nodup htask).resolve_right ?_
  rintro ⟨-, id, hid, hreach⟩
  obtain ⟨x, -, other, hother, -, hdep⟩ := TransGen.tail'_iff.mp hreach
  exact hid (hclosed.closed other hother id hdep)

/-- A sink is accepted exactly if it is a final validation. -/
theorem covers_spec {sink : TaskSpec} (hsink : sink ∈ plan.sinks) :
    ∃ found, plan.covers sink = .ok found ∧ (found = true ↔ plan.FinalValidation sink) := by
  obtain ⟨hmem, hlast⟩ := mem_sinks.mp hsink
  unfold TaskPlan.covers
  split
  next hvalidation =>
    obtain ⟨ancestors, hancestors, hreached, hknown⟩ := ancestors_spec hclosed hmem
    rw [hancestors]
    refine ⟨_, rfl, ?_⟩
    simp only [Bool.and_eq_true, all_eq_true, decide_eq_true_eq, mem_cons]
    constructor
    · rintro ⟨hall, -⟩
      refine ⟨hmem, hvalidation, hlast, fun task htask hne => ?_⟩
      exact (hreached task.id).mp ((hall task htask).resolve_left hne)
    · intro h
      refine ⟨fun task htask => or_iff_not_imp_left.mpr fun hne =>
        (hreached task.id).mpr (h.covers task htask hne), ?_⟩
      rintro id (rfl | hid)
      · exact mem_map_of_mem hmem
      · exact hknown id hid
  next hother => exact ⟨false, rfl, by simpa using fun h => hother h.validation⟩

theorem anyCovers_spec : ∀ {sinks : List TaskSpec}, (∀ sink ∈ sinks, sink ∈ plan.sinks) →
    ∃ found, plan.anyCovers sinks = .ok found ∧
      (found = true ↔ ∃ sink ∈ sinks, plan.FinalValidation sink)
  | [], _ => ⟨false, rfl, by simp⟩
  | sink :: rest, h => by
    obtain ⟨hsink, hrest⟩ := forall_mem_cons.mp h
    obtain ⟨first, hfirst, hfinal⟩ := covers_spec hclosed hsink
    obtain ⟨others, hothers, hothersFinal⟩ := anyCovers_spec hrest
    rw [TaskPlan.anyCovers, hfirst]
    cases first with
    | true => exact ⟨true, rfl, by simpa using .inl (hfinal.mp rfl)⟩
    | false =>
      refine ⟨others, hothers, hothersFinal.trans ?_⟩
      have hnot : ¬ plan.FinalValidation sink := fun h => Bool.false_ne_true (hfinal.mpr h)
      simp [hnot]

/-- The planner requires that there is a final validation. -/
theorem requireIntegrationSink_iff :
    plan.requireIntegrationSink = .ok () ↔ ∃ sink, plan.FinalValidation sink := by
  obtain ⟨found, hfound, hfinal⟩ := anyCovers_spec hclosed (fun _ => id : ∀ sink ∈ plan.sinks, _)
  have hiff : (∃ sink ∈ plan.sinks, plan.FinalValidation sink) ↔
      ∃ sink, plan.FinalValidation sink :=
    ⟨fun ⟨sink, _, h⟩ => ⟨sink, h⟩,
      fun ⟨sink, h⟩ => ⟨sink, mem_sinks.mpr ⟨h.mem, h.last⟩, h⟩⟩
  rw [← hiff, ← hfinal, TaskPlan.requireIntegrationSink, hfound]
  cases found
  · exact ⟨(fun h => nomatch h), (fun h => nomatch h)⟩
  · exact ⟨fun _ => rfl, fun _ => rfl⟩

end

theorem filterAuxM_ok {f : α → Except ε Bool} {p : α → Bool} : ∀ {items kept : List α},
    (∀ item ∈ items, f item = .ok (p item)) →
      items.filterAuxM f kept = .ok ((items.filter p).reverse ++ kept)
  | [], _, _ => rfl
  | item :: rest, kept, h => by
    obtain ⟨hitem, hrest⟩ := forall_mem_cons.mp h
    unfold filterAuxM
    rw [hitem]
    cases hp : p item with
    | true =>
      rw [filter_cons_of_pos hp, reverse_cons, append_assoc]
      exact filterAuxM_ok hrest
    | false =>
      rw [filter_cons_of_neg (by simp [hp])]
      exact filterAuxM_ok hrest

theorem length_eq_one_of_nodup {items : List α} (hnodup : items.Nodup) :
    items.length = 1 ↔ ∃! item, item ∈ items := by
  constructor
  · intro hlength
    obtain ⟨item, rfl⟩ := length_eq_one_iff.mp hlength
    exact ⟨item, mem_singleton_self item, fun _ => mem_singleton.mp⟩
  · rintro ⟨item, hitem, hunique⟩
    have hperm : items.Perm [item] := by
      refine (perm_ext_iff_of_nodup hnodup (nodup_singleton item)).mpr fun other => ?_
      rw [mem_singleton]
      exact ⟨hunique other, fun h => h ▸ hitem⟩
    exact hperm.length_eq

section
variable {plan : TaskPlan} (hclosed : ClosedTasks plan.tasks)
include hclosed

open Classical in
theorem filterM_covers : plan.sinks.filterM plan.covers =
    .ok (plan.sinks.filter fun sink => plan.FinalValidation sink) := by
  have hcovers : ∀ sink ∈ plan.sinks, plan.covers sink = .ok (plan.FinalValidation sink) := by
    intro sink hsink
    obtain ⟨found, hfound, hfinal⟩ := covers_spec hclosed hsink
    rw [hfound, Bool.eq_iff_iff.mpr (hfinal.trans decide_eq_true_iff.symm)]
  have hvalid : plan.sinks.filterAuxM plan.covers [] = _ := filterAuxM_ok hcovers
  rw [filterM, hvalid, append_nil]
  exact congrArg Except.ok (reverse_reverse _)

open Classical in
theorem filter_sinks_unique :
    (plan.sinks.filter fun sink => plan.FinalValidation sink).length = 1 ↔
      ∃! sink, plan.FinalValidation sink := by
  have hmem : ∀ sink, sink ∈ plan.sinks.filter (fun sink => plan.FinalValidation sink) ↔
      plan.FinalValidation sink := by
    intro sink
    rw [mem_filter, decide_eq_true_iff, and_iff_right_iff_imp]
    exact fun h => mem_sinks.mpr ⟨h.mem, h.last⟩
  have hnodup : (plan.sinks.filter fun sink => plan.FinalValidation sink).Nodup :=
    ((Nodup.of_map _ hclosed.nodup).filter _).filter _
  rw [length_eq_one_of_nodup hnodup]
  simp only [hmem]

/-- The validator requires that there is exactly one final validation. -/
theorem hasFinalValidationSink_spec :
    ∃ found, plan.hasFinalValidationSink = .ok found ∧
      (found = true ↔ ∃! sink, plan.FinalValidation sink) := by
  classical
  rw [TaskPlan.hasFinalValidationSink, filterM_covers hclosed]
  exact ⟨_, rfl, decide_eq_true_iff.trans (filter_sinks_unique hclosed)⟩

theorem filterM_covers_unique {sink : TaskSpec} (hsink : plan.FinalValidation sink)
    (hunique : ∀ other, plan.FinalValidation other → other = sink) :
    plan.sinks.filterM plan.covers = .ok [sink] := by
  classical
  rw [filterM_covers hclosed]
  obtain ⟨found, hfound⟩ := length_eq_one_iff.mp
    ((filter_sinks_unique hclosed).mpr ⟨sink, hsink, hunique⟩)
  have hmem : sink ∈ plan.sinks.filter (fun sink => plan.FinalValidation sink) :=
    mem_filter.mpr ⟨mem_sinks.mpr ⟨hsink.mem, hsink.last⟩, decide_eq_true hsink⟩
  rw [hfound] at hmem ⊢
  rw [mem_singleton.mp hmem]

end

/-! ## Accepted plans -/

namespace TaskPlanValidator.Accepts

variable {validator : TaskPlanValidator} {plan : TaskPlan}

theorem closed (h : validator.Accepts plan) : ClosedTasks plan.tasks :=
  ⟨h.nodup, fun _ htask _ hdep => h.dependencies htask hdep⟩

theorem finalValidation (h : validator.Accepts plan)
    (hrequired : validator.requireFinalValidationSink = true) :
    ∃! sink, plan.FinalValidation sink := by
  obtain ⟨found, hfound, hunique⟩ := hasFinalValidationSink_spec h.closed
  rw [h.sink hrequired] at hfound
  exact hunique.mp (Except.ok.inj hfound).symm

end TaskPlanValidator.Accepts

end AutoSwe
