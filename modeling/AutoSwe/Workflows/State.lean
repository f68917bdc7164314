import AutoSwe.Domain.Values
import AutoSwe.Lib.Table

/-!
# Reducers of the workflow state

LangGraph folds the updates of parallel nodes into the state, in any order and, after a
replay, more than once. `merge_dispatch_results` keeps one result for each task and refuses
a second one that differs; `merge_unique` keeps the first occurrence of each value.
-/

namespace AutoSwe.Workflows

open List Relational Table

section
variable {ρ : Type} (taskId : ρ → UUID)

/-- `fan_in` of the graph of the admitted tasks. -/
def orderedTaskIds (results : List ρ) : List String :=
  (results.insertionSort fun a b => (taskId a).int ≤ (taskId b).int).map fun r => (taskId r).str

/-- Two results for one task differ. -/
def Conflict (results : List ρ) : Prop :=
  ∃ a ∈ results, ∃ b ∈ results, taskId a = taskId b ∧ a ≠ b

variable {taskId} {results results' : List ρ}

theorem Conflict.mono (h : Conflict taskId results) (hmem : ∀ r ∈ results, r ∈ results') :
    Conflict taskId results' := by
  obtain ⟨a, ha, b, hb, hconflict⟩ := h
  exact ⟨a, hmem a ha, b, hmem b hb, hconflict⟩

theorem not_conflict (byTask : Table UUID ρ taskId) : ¬ Conflict taskId byTask.rows := by
  rintro ⟨a, ha, b, hb, hkey, hne⟩
  exact hne (inj_on_of_nodup_map byTask.nodup ha hb hkey)

theorem orderedTaskIds_congr (h : (results.map taskId).Nodup) (h' : (results'.map taskId).Nodup)
    (hmem : ∀ r, r ∈ results ↔ r ∈ results') :
    orderedTaskIds taskId results = orderedTaskIds taskId results' := by
  have hperm : results ~ results' := (perm_ext_iff_of_nodup h.of_map h'.of_map).mpr hmem
  refine congrArg (map _) (Perm.eq_of_pairwise ?_ (pairwise_insertionSort _ _)
    (pairwise_insertionSort _ _)
    ((perm_insertionSort _ _).trans (hperm.trans (perm_insertionSort _ _).symm)))
  intro a b ha hb hle hge
  rw [mem_insertionSort] at ha hb
  exact inj_on_of_nodup_map h ha ((hmem b).mpr hb) (congrArg UUID.mk (le_antisymm hle hge))

theorem mem_put {byTask : Table UUID ρ taskId}
    (h : ∀ existing, byTask.get? (taskId item) = some existing → existing = item) :
    r ∈ (byTask.put item).rows ↔ r ∈ byTask.rows ∨ r = item := by
  have hmem : ∀ t : Table UUID ρ taskId, r ∈ t.rows ↔ t.get? (taskId r) = some r :=
    fun t => by simp [get?_eq_some]
  rw [hmem, hmem, get?_put]
  grind

theorem foldl_put (byTask : Table UUID ρ taskId) (items : List ρ)
    (h : ((byTask.rows ++ items).map taskId).Nodup) :
    (items.foldl put byTask).rows = byTask.rows ++ items := by
  induction items generalizing byTask with
  | nil => simp
  | cons item items ih =>
    have hnew : byTask.get? (taskId item) = none := by
      rw [map_append, map_cons] at h
      refine get?_eq_none.mpr fun r hr hkey => ?_
      exact disjoint_of_nodup_append h (mem_map_of_mem hr) (hkey ▸ mem_cons_self)
    have hrows := rows_insert hnew
    rw [← put_of_none hnew] at hrows
    rw [foldl_cons, ih _ (by simpa [hrows] using h), hrows, append_assoc, singleton_append]

end

/-! ## Results of tasks -/

section
variable {ρ : Type} [DecidableEq ρ] (taskId : ρ → UUID)

def mergeItem (byTask : Table UUID ρ taskId) (item : ρ) : Except Raised (Table UUID ρ taskId) :=
  match byTask.get? (taskId item) with
  | none => .ok (byTask.put item)
  | some existing =>
    if existing ≠ item then
      .error ⟨.valueError, "conflicting replay result for task " ++ (taskId item).str⟩
    else .ok (byTask.put item)

def mergeDispatchResults (left right : List ρ) : Except Raised (List ρ) := do
  let byTask ← right.foldlM (mergeItem taskId) (left.foldl put ∅)
  pure byTask.rows

variable {taskId} (byTask : Table UUID ρ taskId)

theorem mergeItem_cases (item : ρ) :
    (∃ byTask', mergeItem taskId byTask item = .ok byTask' ∧
      ∀ r, r ∈ byTask'.rows ↔ r ∈ byTask.rows ∨ r = item) ∨
    ∃ e, mergeItem taskId byTask item = .error e ∧
      ∃ a ∈ byTask.rows, taskId a = taskId item ∧ a ≠ item := by
  cases hget : byTask.get? (taskId item) with
  | none => exact .inl ⟨_, by simp only [mergeItem, hget], fun r => mem_put (by simp [hget])⟩
  | some existing =>
    by_cases hsame : existing = item
    · exact .inl ⟨_, by simp [mergeItem, hget, hsame], fun r => mem_put (by simp [hget, hsame])⟩
    · refine .inr ⟨_, by simp only [mergeItem, hget]; exact if_pos hsame, existing, ?_⟩
      exact ⟨mem_of_get? hget, key_of_get? hget, hsame⟩

theorem mergeItems_cases :
    (∃ byTask', items.foldlM (mergeItem taskId) byTask = .ok byTask' ∧
      ∀ r, r ∈ byTask'.rows ↔ r ∈ byTask.rows ++ items) ∨
    ∃ e, items.foldlM (mergeItem taskId) byTask = .error e ∧
      Conflict taskId (byTask.rows ++ items) := by
  induction items generalizing byTask with
  | nil => exact .inl ⟨byTask, rfl, by simp⟩
  | cons item items ih =>
    rw [foldlM_cons]
    rcases mergeItem_cases byTask item with ⟨byTask', hmerge, hrows⟩ | ⟨e, hmerge, a, ha, hconflict⟩
    · have hall : ∀ r, r ∈ byTask'.rows ++ items ↔ r ∈ byTask.rows ++ item :: items := by
        simp [hrows, or_assoc]
      rw [hmerge]
      rcases ih byTask' with ⟨last, hlast, hmem⟩ | ⟨e, herror, hconflict⟩
      · exact .inl ⟨last, hlast, fun r => (hmem r).trans (hall r)⟩
      · exact .inr ⟨e, herror, hconflict.mono fun r => (hall r).mp⟩
    · rw [hmerge]
      exact .inr ⟨e, rfl, a, by simp [ha], item, by simp, hconflict⟩

theorem foldlM_mergeDispatchResults (batches : List (List ρ)) :
    batches.foldlM (mergeDispatchResults taskId) byTask.rows =
      (batches.flatten.foldlM (mergeItem taskId) byTask).map rows := by
  induction batches generalizing byTask with
  | nil => rfl
  | cons batch batches ih =>
    have hself : byTask.rows.foldl put ∅ = byTask := by
      have hrows := foldl_put (∅ : Table UUID ρ taskId) byTask.rows byTask.nodup
      cases byTask
      exact Table.mk.injEq .. ▸ hrows
    rw [foldlM_cons, flatten_cons, foldlM_append, mergeDispatchResults, hself]
    cases batch.foldlM (mergeItem taskId) byTask with
    | error e => rfl
    | ok byTask' => exact ih byTask'

variable (taskId) in
theorem fan_in_cases (batches : List (List ρ)) :
    (∃ byTask : Table UUID ρ taskId,
      batches.foldlM (mergeDispatchResults taskId) [] = .ok byTask.rows ∧
      ∀ r, r ∈ byTask.rows ↔ r ∈ batches.flatten) ∨
    ∃ e, batches.foldlM (mergeDispatchResults taskId) [] = .error e ∧
      Conflict taskId batches.flatten := by
  have hfold := foldlM_mergeDispatchResults (∅ : Table UUID ρ taskId) batches
  rcases mergeItems_cases (∅ : Table UUID ρ taskId) with
    ⟨byTask, hmerged, hmem⟩ | ⟨e, hmerged, hconflict⟩
  · rw [hmerged] at hfold
    exact .inl ⟨byTask, hfold, hmem⟩
  · rw [hmerged] at hfold
    exact .inr ⟨e, hfold, hconflict⟩

end

/-! ## First occurrences -/

def mergeUnique [DecidableEq α] (left right : List α) : List α :=
  right.foldl (fun result value => if value ∈ result then result else result ++ [value]) left

theorem mergeUnique_eq [DecidableEq α] {left right : List α} :
    mergeUnique left right = left ++ (right.filter (· ∉ left)).eraseDups := by
  induction right generalizing left with
  | nil => simp [mergeUnique]
  | cons value right ih =>
    rw [mergeUnique, foldl_cons, ← mergeUnique, ih]
    split
    · rename_i hknown
      simp [hknown]
    · rename_i hnew
      rw [filter_cons_of_pos (by simpa using hnew), eraseDups_cons, filter_filter, append_assoc]
      refine congrArg (fun rest => left ++ value :: eraseDups rest) (filter_congr fun x _ => ?_)
      simp [and_comm, Bool.beq_eq_decide_eq]

theorem foldl_mergeUnique [DecidableEq α] {batches : List (List α)} :
    batches.foldl mergeUnique left = left ++ (batches.flatten.filter (· ∉ left)).eraseDups := by
  rw [← mergeUnique_eq]
  exact foldl_flatten.symm

/-- Whatever the order of the batches and the repetitions, a conflict is found if there is
one, and otherwise the same results come together; no id is kept twice. -/
theorem reducers_replay_safe {ρ : Type} [DecidableEq ρ] (taskId : ρ → UUID)
    (batches order : List (List ρ)) (hsame : ∀ b, b ∈ order ↔ b ∈ batches) :
    ((∃ e, order.foldlM (mergeDispatchResults taskId) [] = .error e) ↔
      Conflict taskId batches.flatten) ∧
    (¬ Conflict taskId batches.flatten → ∃ results results',
      batches.foldlM (mergeDispatchResults taskId) [] = .ok results ∧
      order.foldlM (mergeDispatchResults taskId) [] = .ok results' ∧
      (results'.map taskId).Nodup ∧ (∀ r, r ∈ results' ↔ r ∈ batches.flatten) ∧
      orderedTaskIds taskId results' = orderedTaskIds taskId results) ∧
    ∀ values again : List (List String), again ⊆ values →
      values.foldl mergeUnique [] = values.flatten.eraseDups ∧
      (values ++ again).foldl mergeUnique [] = values.foldl mergeUnique [] := by
  have hflat : ∀ r, r ∈ order.flatten ↔ r ∈ batches.flatten := by simp [mem_flatten, hsame]
  refine ⟨?_, fun hnone => ?_, fun values again hagain => ?_⟩
  · rcases fan_in_cases taskId order with ⟨byTask, hok, hmem⟩ | ⟨e, herror, hconflict⟩
    · refine iff_of_false (by simp [hok]) fun hconflict => not_conflict byTask ?_
      exact hconflict.mono fun r hr => (hmem r).mpr ((hflat r).mpr hr)
    · exact iff_of_true ⟨e, herror⟩ (hconflict.mono fun r => (hflat r).mp)
  · rcases fan_in_cases taskId batches with ⟨byTask, hok, hmem⟩ | ⟨-, -, hconflict⟩
    · rcases fan_in_cases taskId order with ⟨byTask', hok', hmem'⟩ | ⟨-, -, hconflict⟩
      · have hboth := fun r => (hmem' r).trans (hflat r)
        refine ⟨_, _, hok, hok', byTask'.nodup, hboth, ?_⟩
        exact orderedTaskIds_congr byTask'.nodup byTask.nodup fun r => (hboth r).trans (hmem r).symm
      · exact absurd (hconflict.mono fun r => (hflat r).mp) hnone
    · exact absurd hconflict hnone
  · have hfirst : values.foldl mergeUnique [] = values.flatten.eraseDups := by
      simp [foldl_mergeUnique, filter_eq_self.mpr]
    refine ⟨hfirst, ?_⟩
    have hknown : again.flatten.filter (· ∉ values.flatten.eraseDups) = [] := by
      refine filter_eq_nil_iff.mpr fun value hvalue => ?_
      obtain ⟨batch, hbatch, hvalue⟩ := mem_flatten.mp hvalue
      simpa using ⟨batch, hagain hbatch, hvalue⟩
    rw [foldl_append, hfirst, foldl_mergeUnique, hknown]
    simp

theorem reducers_replay_safe_sample :
    (∃ results, [[5], [4], [5]].foldlM (mergeDispatchResults (id : UUID → UUID)) [] = .ok results ∧
      ∀ r, r ∈ results ↔ r = 4 ∨ r = 5) ∧
    [["b", "a"], ["a"], ["b", "a"]].foldl mergeUnique [] = ["b", "a"] := by
  obtain ⟨-, hok, hunique⟩ := reducers_replay_safe (id : UUID → UUID) [[4], [5]] [[5], [4], [5]]
    (by simp)
  obtain ⟨-, results, -, hresults, -, hmem, -⟩ := hok fun ⟨_, _, _, _, hsame, hne⟩ => hne hsame
  exact ⟨⟨results, hresults, by simpa using hmem⟩,
    (hunique [["b", "a"], ["a"]] [["b", "a"]] (by simp)).2⟩

end AutoSwe.Workflows
