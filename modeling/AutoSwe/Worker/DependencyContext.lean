import AutoSwe.Messaging.Retention
import AutoSwe.Scheduler.Claims

/-!
# What a task is told about its dependencies

The executor hands a task the newest summary of each of its dependencies. One
query reads the messages of all of them and stops after 64 rows, newest first.
-/

namespace AutoSwe

open List Option

section
variable (text : Json → String)

/-- `str(payload.get("summary", ""))[:2_000]`, where `text` is `str` of a value. -/
def AgentMessageRow.summary (row : AgentMessageRow) : String :=
  clip (((row.payload.get? "summary").map text).getD "") 2000

def AgentMessageRow.summarizes (row : AgentMessageRow) (taskId : UUID) : Bool :=
  row.taskId = taskId ∧ row.summary text ≠ ""

variable (dependencies : List UUID)

def addSummary (refs : List (String × String)) (row : AgentMessageRow) : List (String × String) :=
  if (refs.lookup row.taskId.str).isSome ∨ row.taskId ∉ dependencies then refs
  else if row.summary text ≠ "" then refs ++ [(row.taskId.str, row.summary text)]
  else refs

/-- `rows` are the messages of the dependencies in the order of the query. -/
def dependencyContext (rows : List AgentMessageRow) : List (String × String) :=
  if dependencies = [] then []
  else (rows.take 64).foldl (addSummary text dependencies) []

/-- The query leaves the order of messages of one time to the database. -/
def NewestFirst (messages rows : List AgentMessageRow) : Prop :=
  rows.Perm (messages.filter fun row => row.taskId ∈ dependencies) ∧
    rows.Pairwise fun row later => later.createdAt ≤ row.createdAt

/-- Every dependency that has a summary is there with its newest one. -/
def ContextComplete (messages : List AgentMessageRow) (refs : List (String × String)) : Prop :=
  ∀ d ∈ dependencies, (∃ row ∈ messages, row.summarizes text d) →
    ∃ row ∈ messages, row.summarizes text d ∧
      (∀ other ∈ messages, other.summarizes text d → other.createdAt ≤ row.createdAt) ∧
      refs.lookup d.str = some (row.summary text)

end

section
variable {text : Json → String} {dependencies : List UUID}

theorem lookup_addSummary (hd : d ∈ dependencies) :
    (addSummary text dependencies refs row).lookup d.str =
      (refs.lookup d.str).or (if row.summarizes text d then some (row.summary text) else none) := by
  unfold addSummary AgentMessageRow.summarizes
  by_cases htask : row.taskId = d
  · subst htask
    cases hknown : refs.lookup row.taskId.str with
    | some known => simp [hknown]
    | none =>
      by_cases hempty : row.summary text = ""
      · simp [hknown, hempty]
      · simp [hknown, hd, hempty, lookup_append]
  · have hother : (d.str == row.taskId.str) = false :=
      beq_false_of_ne fun h => htask (UUID.str_injective h).symm
    have hlast : [(row.taskId.str, row.summary text)].lookup d.str = none := by
      rw [lookup_cons, hother]
      rfl
    simp only [htask, false_and, decide_false, Bool.false_eq_true, if_false, or_none]
    split_ifs
    · rfl
    · rw [lookup_append, hlast, or_none]
    · rfl

/-- The first summary of a task that the rows hold is the one that stays. -/
theorem lookup_foldl_addSummary (hd : d ∈ dependencies) (rows : List AgentMessageRow)
    (refs : List (String × String)) :
    (rows.foldl (addSummary text dependencies) refs).lookup d.str = (refs.lookup d.str).or
      ((rows.find? (·.summarizes text d)).map (·.summary text)) := by
  induction rows generalizing refs with
  | nil => simp
  | cons row rest ih =>
    rw [foldl_cons, ih, lookup_addSummary hd, Option.or_assoc, find?_cons]
    congr 1
    cases row.summarizes text d <;> simp

theorem lookup_dependencyContext (hd : d ∈ dependencies) :
    (dependencyContext text dependencies rows).lookup d.str =
      ((rows.take 64).find? (·.summarizes text d)).map (·.summary text) := by
  rw [dependencyContext, if_neg (ne_nil_of_mem hd), lookup_foldl_addSummary hd]
  simp

theorem NewestFirst.mem (h : NewestFirst dependencies messages rows) (hd : d ∈ dependencies) :
    (row ∈ rows ∧ row.summarizes text d) ↔ row ∈ messages ∧ row.summarizes text d := by
  refine and_congr_left fun hsummary => ?_
  have htask : row.taskId = d := (of_decide_eq_true hsummary).1
  rw [h.1.mem_iff, mem_filter, htask]
  simp [hd]

/-- In rows that are sorted, the summary that is found first is the newest. -/
theorem NewestFirst.newest (h : NewestFirst dependencies messages rows) (hd : d ∈ dependencies)
    (hfound : (rows.take limit).find? (·.summarizes text d) = some row) :
    row ∈ messages ∧ row.summarizes text d ∧
      ∀ other ∈ messages, other.summarizes text d → other.createdAt ≤ row.createdAt := by
  obtain ⟨hrow, before, after, hsplit, hbefore⟩ := find?_eq_some_iff_append.mp hfound
  have hrows : rows = before ++ row :: (after ++ rows.drop limit) := by
    rw [← cons_append, ← append_assoc, ← hsplit, take_append_drop]
  have hmem : row ∈ rows := hrows ▸ mem_append_right _ mem_cons_self
  refine ⟨((h.mem hd).mp ⟨hmem, hrow⟩).1, hrow, fun other hother hsummary => ?_⟩
  have hsorted := h.2
  have hin := ((h.mem hd).mpr ⟨hother, hsummary⟩).1
  rw [hrows] at hsorted hin
  obtain ⟨-, hlater, -⟩ := pairwise_append.mp hsorted
  rcases mem_append.mp hin with hin | hin
  · have hnot := hbefore other hin
    rw [hsummary] at hnot
    cases hnot
  · rcases mem_cons.mp hin with rfl | hin
    · exact le_refl _
    · exact (pairwise_cons.mp hlater).1 other hin

/-- The context is complete exactly when each dependency that has a summary has
one among the 64 newest messages of all dependencies. -/
theorem dependency_context_complete_iff
    (h : NewestFirst dependencies messages rows) :
    ContextComplete text dependencies messages (dependencyContext text dependencies rows) ↔
      ∀ d ∈ dependencies, (∃ row ∈ messages, row.summarizes text d) →
        ∃ row ∈ rows.take 64, row.summarizes text d := by
  refine forall₂_congr fun d hd => imp_congr_right fun _ => ?_
  rw [lookup_dependencyContext hd, ← find?_isSome]
  constructor
  · rintro ⟨row, -, -, -, hlookup⟩
    exact isSome_map.symm.trans (isSome_of_eq_some hlookup)
  · intro hsome
    obtain ⟨row, hfound⟩ := isSome_iff_exists.mp hsome
    obtain ⟨hmem, hrow, hnewest⟩ := h.newest hd hfound
    exact ⟨row, hmem, hrow, hnewest, by rw [hfound, map_some]⟩

end

def sampleText : Json → String
  | .str text => text
  | _ => ""

def sampleHandoff (taskId : UUID) (createdAt : Time) (id : Fin (2 ^ 128)) : AgentMessageRow :=
  ⟨⟨id⟩, 40, taskId, .obj [("summary", .str "done")], createdAt, none⟩

theorem dependency_context_complete_iff_sample :
    ContextComplete sampleText [1, 2] [sampleHandoff 1 7 0, sampleHandoff 2 5 1]
      (dependencyContext sampleText [1, 2] [sampleHandoff 1 7 0, sampleHandoff 2 5 1]) := by
  refine (dependency_context_complete_iff ⟨.refl _, by simp [sampleHandoff]⟩).mpr ?_
  decide

/-- One dependency that sent 64 messages hides the summary of another. -/
theorem dependency_context_hides : ∃ messages : List AgentMessageRow,
    NewestFirst [1, 2] messages messages ∧ (∃ row ∈ messages, row.summarizes sampleText 2) ∧
      (dependencyContext sampleText [1, 2] messages).lookup (2 : UUID).str = none := by
  refine ⟨(range 64).map (fun i => sampleHandoff 1 7 (Fin.ofNat _ i)) ++
    [sampleHandoff 2 5 64], ⟨?_, ?_⟩, ?_, ?_⟩
  · rw [filter_eq_self.mpr (by decide)]
  · decide
  · exact ⟨sampleHandoff 2 5 64, by simp, by decide⟩
  · rw [lookup_dependencyContext (by simp)]
    decide

end AutoSwe
