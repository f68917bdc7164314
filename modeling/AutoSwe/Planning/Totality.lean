import AutoSwe.Finalization.Repair
import AutoSwe.Planning.Soundness

/-!
# Which plans the validator answers

Dangling dependencies, cycles and paths out of the repository are reported, but two kinds of plans
are not answered at all: those with a relative path that has no parts, and, if a final validation is
required, acyclic ones in which the search from a validation sink leaves the tasks
(`validate_ok_iff`). A mutation is judged by the same validator, after checks of its own that do not
cover what the class of the plan checks.
-/

namespace AutoSwe

open List Function TaskPlanValidator
open Relation (TransGen)

/-! ## Paths and issues -/

/-- An absolute path, or one that has a part. -/
def HasAnchorOrPart (value : String) : Prop :=
  (normalizedPath value).head? = some '/' ∨ pathSegments value ≠ []

theorem isRepositoryRelative_cases (hvalue : normalizedPath value ≠ []) :
    HasAnchorOrPart value ∧ (∃ found, isRepositoryRelative value = .ok found ∧
      (found = true ↔ RepositoryRelative value)) ∨
    ¬ HasAnchorOrPart value ∧ ∃ raised, isRepositoryRelative value = .error raised := by
  by_cases hparts : pathSegments value = []
  · by_cases habsolute : (normalizedPath value).head? = some '/'
    · refine .inl ⟨.inl habsolute, false, if_pos (.inr (.inl habsolute)), ?_⟩
      exact ⟨nofun, fun h => absurd habsolute h.relative⟩
    · refine .inr ⟨fun h => h.elim habsolute (absurd hparts), ?_⟩
      unfold isRepositoryRelative
      simp only [← normalizedPath.eq_1, ← pathSegments.eq_1, hparts]
      exact ⟨_, if_neg fun h => h.elim hvalue fun h => h.elim habsolute not_mem_nil⟩
  · exact .inl ⟨.inr hparts, isRepositoryRelative_spec hparts⟩

theorem TaskSpec.WellFormed.path {task : TaskSpec} {path : String} (h : task.WellFormed)
    (hpath : path ∈ task.repositoryPaths) : normalizedPath path ≠ [] := by
  obtain ⟨-, -, -, -, -, -, -, -, -, -, -, -, hpaths, -⟩ := h
  have hlength := hpaths path hpath
  simp only [lengthIn, Bool.and_eq_true, decide_eq_true_eq, ← String.length_toList] at hlength
  intro hnil
  rw [normalizedPath, map_eq_nil_iff] at hnil
  rw [hnil] at hlength
  exact absurd hlength.1 (by decide)

theorem TaskSpec.WellFormed.self {task : TaskSpec} (h : task.WellFormed) :
    task.id ∉ task.dependencies := by
  obtain ⟨-, -, -, -, -, -, -, -, -, -, -, -, -, hself, -⟩ := h
  exact hself

theorem collectIssues_ok :
    ∀ {items : List α}, (∀ item ∈ items, ∃ found, issues item = .ok found) →
      ∃ found, collectIssues issues items = .ok found
  | [], _ => ⟨[], rfl⟩
  | item :: rest, h => by
    obtain ⟨⟨first, hfirst⟩, hrest⟩ := forall_mem_cons.mp h
    obtain ⟨others, hothers⟩ := collectIssues_ok hrest
    refine ⟨first ++ others, ?_⟩
    rw [collectIssues, hfirst, hothers]
    rfl

theorem collectIssues_mem :
    ∀ {items : List α} {found : List ValidationIssue}, collectIssues issues items = .ok found →
      ∀ item ∈ items, ∃ first, issues item = .ok first ∧ first ⊆ found
  | [], _, _ => fun _ hitem => (not_mem_nil hitem).elim
  | item :: rest, found, h => by
    obtain ⟨first, hfirst, h⟩ := except_bind_ok.mp h
    obtain ⟨others, hothers, h⟩ := except_bind_ok.mp h
    cases h
    refine forall_mem_cons.mpr ⟨⟨first, hfirst, subset_append_left _ _⟩, ?_⟩
    intro other hother
    obtain ⟨found, hfound, hsub⟩ := collectIssues_mem hothers other hother
    exact ⟨found, hfound, subset_append_of_subset_right _ hsub⟩

def Reports (issues : List ValidationIssue) (code : String) (taskId : Option UUID) : Prop :=
  ∃ issue ∈ issues, issue.code = code ∧ issue.taskId = taskId

theorem Reports.mono
    (h : Reports issues code taskId) (hsub : issues ⊆ found) : Reports found code taskId :=
  let ⟨issue, hissue, hcode⟩ := h
  ⟨issue, hsub hissue, hcode⟩

theorem reports_issueIf
    (h : found = true) : Reports (issueIf found code message taskId) code taskId := by
  rw [issueIf, if_pos h]
  exact ⟨_, mem_singleton_self _, rfl, rfl⟩

namespace TaskPlanValidator

variable {validator : TaskPlanValidator} {plan : TaskPlan} {task : TaskSpec} {ids : List UUID}

theorem taskIssues_ok_iff (htask : task.WellFormed) :
    (∃ found, validator.taskIssues plan ids task = .ok found) ↔
      ∀ path ∈ task.repositoryPaths, HasAnchorOrPart path := by
  simp only [taskIssues, semanticsIssues, except_bind_ok]
  constructor
  · rintro ⟨_, _, ⟨paths, hpaths, -⟩, -⟩ path hpath
    obtain ⟨_, hissue, -⟩ := collectIssues_mem hpaths path hpath
    obtain ⟨relative, hrelative, -⟩ := except_bind_ok.mp hissue
    rcases isRepositoryRelative_cases (TaskSpec.WellFormed.path htask hpath) with ⟨h, -⟩ | ⟨-, _, h⟩
    · exact h
    · rw [h] at hrelative
      cases hrelative
  · intro h
    obtain ⟨paths, hpaths⟩ : ∃ found,
        collectIssues (validator.pathIssue task) task.repositoryPaths = .ok found := by
      refine collectIssues_ok fun path hpath => ?_
      rcases isRepositoryRelative_cases (TaskSpec.WellFormed.path htask hpath) with
        ⟨-, relative, hrelative, -⟩ | ⟨hnot, -⟩
      · exact ⟨_, except_bind_ok.mpr ⟨relative, hrelative, rfl⟩⟩
      · exact absurd (h path hpath) hnot
    exact ⟨_, _, ⟨paths, hpaths, rfl⟩, rfl⟩

theorem taskIssues_reports (htask : task.WellFormed)
    (h : validator.taskIssues plan ids task = .ok found) :
    (∀ dependency ∈ task.dependencies, dependency ∉ ids →
      Reports found "MISSING_DEPENDENCY" task.id) ∧
    ∀ path ∈ task.repositoryPaths, ¬ RepositoryRelative path →
      Reports found "REPOSITORY_PATH_ESCAPE" task.id := by
  simp only [taskIssues, semanticsIssues, except_bind_ok, Except.ok.injEq] at h
  obtain ⟨_, ⟨paths, hpaths, rfl⟩, rfl⟩ := h
  constructor
  · intro dependency hdep hid
    have hself : dependency ≠ task.id := fun h => TaskSpec.WellFormed.self htask (h ▸ hdep)
    have hreport : Reports (dependencyIssue ids task dependency) "MISSING_DEPENDENCY" task.id := by
      rw [dependencyIssue, if_neg hself]
      exact reports_issueIf (decide_eq_true hid)
    refine hreport.mono ?_
    refine subset_append_of_subset_right _ (subset_append_of_subset_right _ ?_)
    exact fun issue hissue => mem_flatMap.mpr ⟨dependency, hdep, hissue⟩
  · intro path hpath hescape
    obtain ⟨first, hissue, hsub⟩ := collectIssues_mem hpaths path hpath
    obtain ⟨relative, hrelative, hissue⟩ := except_bind_ok.mp hissue
    cases hissue
    refine Reports.mono (reports_issueIf ?_) (Subset.trans hsub ?_)
    rcases isRepositoryRelative_cases (TaskSpec.WellFormed.path htask hpath) with
      ⟨-, _, hfound, hiff⟩ | ⟨-, _, hraised⟩
    · cases hrelative.symm.trans hfound
      rw [Bool.not_eq_true', Bool.eq_false_iff]
      exact fun h => hescape (hiff.mp h)
    · cases hrelative.symm.trans hraised
    · exact subset_append_of_subset_right _
        (subset_append_of_subset_left _ (subset_append_right _ _))

end TaskPlanValidator

/-! ## The graph -/

/-- The tasks without the dependencies that are no tasks. -/
def knownTasks (tasks : List TaskSpec) : List TaskSpec :=
  tasks.map fun task =>
    { task with dependencies := task.dependencies.filter (· ∈ tasks.map TaskSpec.id) }

theorem knownTasks_ids (tasks : List TaskSpec) :
    (knownTasks tasks).map TaskSpec.id = tasks.map TaskSpec.id := by
  rw [knownTasks, map_map]
  rfl

theorem knownTasks_closed (hnodup : (tasks.map TaskSpec.id).Nodup) :
    ClosedTasks (knownTasks tasks) := by
  refine ⟨(knownTasks_ids tasks).symm ▸ hnodup, ?_⟩
  rw [knownTasks_ids]
  intro task htask dependency hdep
  obtain ⟨other, -, rfl⟩ := mem_map.mp htask
  exact of_decide_eq_true (mem_filter.mp hdep).2

theorem start_knownTasks (tasks : List TaskSpec) :
    Sorting.start (knownTasks tasks) = Sorting.start tasks := by
  have hdegree : ∀ task : TaskSpec, indegreeOf (knownTasks tasks)
      { task with dependencies := task.dependencies.filter (· ∈ tasks.map TaskSpec.id) } =
        indegreeOf tasks task := by
    intro task
    simp only [indegreeOf, knownTasks_ids, filter_filter, Bool.and_self]
  unfold Sorting.start
  generalize indegreeOf (knownTasks tasks) = degree at hdegree ⊢
  congr 1
  · funext id
    rw [knownTasks, find?_map, Option.map_map]
    exact congrArg (Option.getD · 0) (Option.map_congr fun task _ => hdegree task)
  · rw [knownTasks, filter_map, map_map]
    simp only [comp_def, hdegree]

theorem dependentsOf_knownTasks {id : UUID} (hid : id ∈ tasks.map TaskSpec.id) :
    dependentsOf (knownTasks tasks) id = dependentsOf tasks id := by
  have hfilter : ∀ dependencies : List UUID,
      (dependencies.filter (· ∈ tasks.map TaskSpec.id)).filter (· = id) =
        dependencies.filter (· = id) := by
    intro dependencies
    rw [filter_filter]
    refine filter_congr fun dependency _ => ?_
    by_cases heq : dependency = id
    · simp only [heq, hid, decide_true, Bool.and_self]
    · simp only [heq, decide_false, Bool.false_and]
  simp only [dependentsOf, knownTasks, flatMap_map, hfilter]

theorem topologicalOrder_knownTasks (hnodup : (tasks.map TaskSpec.id).Nodup) :
    topologicalOrder (knownTasks tasks) = topologicalOrder tasks := by
  have hpop : ∀ n, (Sorting.pop (knownTasks tasks))^[n] (Sorting.start (knownTasks tasks)) =
      (Sorting.pop tasks)^[n] (Sorting.start tasks) := by
    intro n
    induction n with
    | zero => exact start_knownTasks tasks
    | succ n ih =>
      have hready := (Sorting.iterate_releasing (knownTasks_closed hnodup) n).ready
      rw [iterate_succ_apply', iterate_succ_apply', ← ih]
      unfold Sorting.pop
      split
      next => rfl
      next id ready hcons =>
        have hid := ((hready id).mp (hcons ▸ mem_cons_self)).1
        rw [dependentsOf_knownTasks (knownTasks_ids tasks ▸ hid)]
  rw [topologicalOrder, topologicalOrder, hpop, knownTasks, length_map]

/-- The order is complete exactly if there is no cycle, whatever else the tasks name. -/
theorem length_eq_iff_acyclic {plan : TaskPlan} (hnodup : (plan.tasks.map TaskSpec.id).Nodup) :
    (topologicalOrder plan.tasks).length = plan.tasks.length ↔ plan.Acyclic := by
  let known : TaskPlan := { plan with tasks := knownTasks plan.tasks }
  have hclosed : ClosedTasks known.tasks := knownTasks_closed hnodup
  have hedge : ∀ a b, known.DependsOn a b ↔
      plan.DependsOn a b ∧ b ∈ plan.tasks.map TaskSpec.id := by
    intro a b
    simp only [TaskPlan.DependsOn, known, knownTasks, mem_map, exists_exists_and_eq_and,
      mem_filter, decide_eq_true_eq]
    exact ⟨fun ⟨task, htask, ha, hdep, hb⟩ => ⟨⟨task, htask, ha, hdep⟩, hb⟩,
      fun ⟨⟨task, htask, ha, hdep⟩, hb⟩ => ⟨task, htask, ha, hdep, hb⟩⟩
  have hacyclic : known.Acyclic ↔ plan.Acyclic := by
    refine ⟨fun h id hcycle => h id ?_, fun h id hcycle => h id ?_⟩
    · -- every id of a cycle has dependencies, so it is a task
      have hknown : ∀ b, TransGen plan.DependsOn id b → b ∈ plan.tasks.map TaskSpec.id →
          TransGen known.DependsOn id b := by
        intro b hreach
        induction hreach with
        | single hdep => exact fun hb => .single ((hedge _ _).mpr ⟨hdep, hb⟩)
        | @tail b c _ hdep ih =>
          have hb : b ∈ plan.tasks.map TaskSpec.id := by
            obtain ⟨task, htask, rfl, -⟩ := hdep
            exact mem_map_of_mem htask
          exact fun hc => (ih hb).tail ((hedge b c).mpr ⟨hdep, hc⟩)
      obtain ⟨_, ⟨task, htask, rfl, -⟩, -⟩ := TransGen.head'_iff.mp hcycle
      exact hknown _ hcycle (mem_map_of_mem htask)
    · exact TransGen.mono (fun a b h => ((hedge a b).mp h).1) id id hcycle
  rw [← hacyclic, ← acyclic_iff_length hclosed, topologicalOrder_knownTasks hnodup]
  simp only [known, knownTasks, length_map]

theorem filterAuxM_ok_mem {f : α → Except ε Bool} : ∀ {items kept : List α},
    items.filterAuxM f kept = .ok result → ∀ item ∈ items, ∃ found, f item = .ok found
  | [], _, _ => fun _ hitem => (not_mem_nil hitem).elim
  | item :: rest, kept, h => by
    obtain ⟨found, hfound, h⟩ := except_bind_ok.mp h
    exact forall_mem_cons.mpr ⟨⟨found, hfound⟩, filterAuxM_ok_mem h⟩

/-- Nothing that a validation sink depends on is missing. -/
def TaskPlan.SinksClosed (plan : TaskPlan) : Prop :=
  ∀ sink ∈ plan.tasks, sink.taskType = .VALIDATION →
    (∀ task ∈ plan.tasks, sink.id ∉ task.dependencies) →
    ∀ id, TransGen plan.DependsOn sink.id id → id ∈ plan.tasks.map TaskSpec.id

theorem hasFinalValidationSink_ok_iff {plan : TaskPlan}
    (hnodup : (plan.tasks.map TaskSpec.id).Nodup) :
    (∃ found, plan.hasFinalValidationSink = .ok found) ↔ plan.SinksClosed := by
  simp only [TaskPlan.hasFinalValidationSink, except_bind_ok]
  constructor
  · rintro ⟨_, valid, hvalid, -⟩ sink hsink hvalidation hlast
    obtain ⟨_, haux, -⟩ := except_bind_ok.mp hvalid
    obtain ⟨found, hfound⟩ := filterAuxM_ok_mem haux sink (mem_sinks.mpr ⟨hsink, hlast⟩)
    rw [TaskPlan.covers, if_pos hvalidation] at hfound
    rcases ancestors_cases hnodup hsink with ⟨result, -, hreach, hknown⟩ | ⟨⟨raised, hraised⟩, -⟩
    · exact fun id hid => hknown id ((hreach id).mpr hid)
    · rw [hraised] at hfound
      cases hfound
  · intro hclosed
    have hcovers : ∀ sink ∈ plan.sinks, plan.covers sink =
        .ok ((plan.covers sink).toOption.getD false) := by
      intro sink hsink
      obtain ⟨hmem, hlast⟩ := mem_sinks.mp hsink
      unfold TaskPlan.covers
      split
      next hvalidation =>
        rcases ancestors_cases hnodup hmem with ⟨result, hresult, -⟩ | ⟨-, id, hid, hreach⟩
        · rw [hresult]
          rfl
        · exact absurd (hclosed sink hmem hvalidation hlast id hreach) hid
      next => rfl
    have hvalid : plan.sinks.filterAuxM plan.covers [] = _ := filterAuxM_ok hcovers
    exact ⟨_, _, except_bind_ok.mpr ⟨_, hvalid, rfl⟩, rfl⟩

/-! ## The plan -/

/-- No relative path is without parts, and the search for the final validation, if there is
one, stays among the tasks. -/
structure TaskPlanValidator.Answers (validator : TaskPlanValidator) (plan : TaskPlan) : Prop where
  paths : ∀ task ∈ plan.tasks, ∀ path ∈ task.repositoryPaths, HasAnchorOrPart path
  sinks : validator.requireFinalValidationSink = true → plan.Acyclic → plan.SinksClosed

/-- The issues name every dangling dependency, a cycle and every path out of the repository. -/
structure TaskPlan.Reported (plan : TaskPlan) (issues : List ValidationIssue) : Prop where
  dangling : ∀ task ∈ plan.tasks, ∀ dependency ∈ task.dependencies,
    dependency ∉ plan.tasks.map TaskSpec.id → Reports issues "MISSING_DEPENDENCY" task.id
  cycle : ¬ plan.Acyclic → Reports issues "CYCLE" none
  paths : ∀ task ∈ plan.tasks, ∀ path ∈ task.repositoryPaths, ¬ RepositoryRelative path →
    Reports issues "REPOSITORY_PATH_ESCAPE" task.id

section
variable {validator : TaskPlanValidator} {plan : TaskPlan} (hplan : plan.WellFormed)
include hplan

theorem graphIssues_ok_iff :
    (∃ found, validator.graphIssues plan (topologicalOrder plan.tasks) = .ok found) ↔
      (validator.requireFinalValidationSink = true → plan.Acyclic → plan.SinksClosed) := by
  obtain ⟨-, -, -, -, -, -, hnodup, -⟩ := hplan
  rw [← length_eq_iff_acyclic hnodup, ← hasFinalValidationSink_ok_iff hnodup]
  unfold graphIssues
  split
  next hlength => exact ⟨fun _ _ h => absurd h hlength, fun _ => ⟨_, rfl⟩⟩
  next hlength =>
    split
    next hrequired =>
      simp only [except_bind_ok]
      refine ⟨fun ⟨_, found, hfound, _⟩ _ _ => ⟨found, hfound⟩, fun h => ?_⟩
      obtain ⟨found, hfound⟩ := h hrequired (not_not.mp hlength)
      exact ⟨_, found, hfound, rfl⟩
    next hrequired => exact ⟨fun _ h => absurd h hrequired, fun _ => ⟨[], rfl⟩⟩

theorem validate_ok_iff : (∃ result, validator.validate plan = .ok result) ↔
    validator.Answers plan := by
  have hgraphs :
      (∃ found, validator.graphIssues plan (topologicalOrder plan.tasks) = .ok found) ↔ _ :=
    graphIssues_ok_iff hplan
  obtain ⟨-, -, -, -, htasks, -, hnodup, -⟩ := hplan
  simp only [validate, firstTasks_of_nodup hnodup, except_bind_ok]
  constructor
  · rintro ⟨_, issues, hissues, graph, hgraph, -⟩
    refine ⟨fun task htask => ?_, hgraphs.mp ⟨graph, hgraph⟩⟩
    obtain ⟨found, hfound, -⟩ :=
      collectIssues_mem hissues task ((mem_insertionSort _).mpr htask)
    exact (taskIssues_ok_iff (htasks task htask)).mp ⟨found, hfound⟩
  · intro h
    obtain ⟨graph, hgraph⟩ := hgraphs.mpr h.sinks
    obtain ⟨issues, hissues⟩ := collectIssues_ok fun task
        (htask : task ∈ plan.tasks.insertionSort fun a b => a.id.int ≤ b.id.int) =>
      have hmem := (mem_insertionSort _).mp htask
      (taskIssues_ok_iff (htasks task hmem)).mpr (h.paths task hmem)
    exact ⟨_, issues, hissues, graph, hgraph, rfl⟩

theorem validate_reported (h : validator.validate plan = .ok result) :
    plan.Reported result.issues := by
  obtain ⟨-, -, -, -, htasks, -, hnodup, -⟩ := hplan
  simp only [validate, firstTasks_of_nodup hnodup, except_bind_ok] at h
  obtain ⟨issues, hissues, graph, hgraph, h⟩ := h
  cases h
  have hreports : ∀ task ∈ plan.tasks, ∃ found ⊆ issues,
      validator.taskIssues plan (plan.tasks.map TaskSpec.id) task = .ok found := by
    intro task htask
    obtain ⟨found, hfound, hsub⟩ :=
      collectIssues_mem hissues task ((mem_insertionSort _).mpr htask)
    exact ⟨found, hsub, hfound⟩
  refine ⟨?_, ?_, ?_⟩
  · intro task htask dependency hdep hid
    obtain ⟨found, hsub, hfound⟩ := hreports task htask
    have hreport := (taskIssues_reports (htasks task htask) hfound).1
    exact (hreport dependency hdep hid).mono fun issue hissue => by simp [hsub hissue]
  · intro hcycle
    rw [← length_eq_iff_acyclic hnodup] at hcycle
    rw [graphIssues, if_pos hcycle] at hgraph
    have hreport : Reports graph "CYCLE" none := Except.ok.inj hgraph ▸ reports_issueIf rfl
    exact hreport.mono fun issue hissue => by simp [hissue]
  · intro task htask path hpath hescape
    obtain ⟨found, hsub, hfound⟩ := hreports task htask
    have hreport := (taskIssues_reports (htasks task htask) hfound).2
    exact (hreport path hpath hescape).mono fun issue hissue => by simp [hsub hissue]

end

/-- For every configuration and every plan that the model classes admit: the validator returns
a result that names every dangling dependency, cycle and path out of the repository, exactly if
the plan has no relative path without parts and the search for a required final validation
stays among the tasks. -/
theorem validate_returns_iff (validator : TaskPlanValidator) (plan : TaskPlan)
    (hplan : plan.WellFormed) :
    (∃ result, validator.validate plan = .ok result ∧ plan.Reported result.issues) ↔
      (∀ task ∈ plan.tasks, ∀ path ∈ task.repositoryPaths,
        (normalizedPath path).head? = some '/' ∨ pathSegments path ≠ []) ∧
      (validator.requireFinalValidationSink = true → (∀ id, ¬ TransGen plan.DependsOn id id) →
        ∀ sink ∈ plan.tasks, sink.taskType = .VALIDATION →
          (∀ task ∈ plan.tasks, sink.id ∉ task.dependencies) →
          ∀ id, TransGen plan.DependsOn sink.id id → id ∈ plan.tasks.map TaskSpec.id) := by
  constructor
  · rintro ⟨result, hresult, -⟩
    have h := (validate_ok_iff hplan).mp ⟨result, hresult⟩
    exact ⟨h.paths, h.sinks⟩
  · rintro ⟨hpaths, hsinks⟩
    obtain ⟨result, hresult⟩ := (validate_ok_iff hplan).mpr ⟨hpaths, hsinks⟩
    exact ⟨result, hresult, validate_reported hplan hresult⟩

theorem validate_returns_iff_sample : ∃ result,
    (platformValidator .HIGH id toString).validate sampleDiamond = .ok result ∧
      sampleDiamond.Reported result.issues := by
  refine (validate_returns_iff _ sampleDiamond (by decide +kernel)).mpr ⟨by decide +kernel, ?_⟩
  intro _ _ sink _ _ _ id hreach
  obtain ⟨_, -, task, htask, -, hdep⟩ := TransGen.tail'_iff.mp hreach
  have hclosed : ∀ task ∈ sampleDiamond.tasks, ∀ dependency ∈ task.dependencies,
      dependency ∈ sampleDiamond.tasks.map TaskSpec.id := by decide
  exact hclosed task htask id hdep

def sampleRootPath : TaskPlan :=
  { sampleDiamond with tasks := sampleDiamond.tasks.map fun task =>
      { task with repositoryPaths := if task.id = 1 then ["."] else task.repositoryPaths } }

/-- The validation depends on a task that is not there. -/
def sampleDangling : TaskPlan :=
  { sampleDiamond with tasks := [sampleTaskOf 4 .VALIDATION "validation" [3, 9],
      sampleTaskOf 3 .TEST "tester" []] }

theorem validate_raises :
    sampleRootPath.WellFormed ∧ sampleDangling.WellFormed ∧
      (∀ result, (platformValidator .HIGH id toString).validate sampleRootPath ≠ .ok result) ∧
      ∀ result, (platformValidator .HIGH id toString).validate sampleDangling ≠ .ok result := by
  have hroot : ((platformValidator .HIGH id toString).validate sampleRootPath).toOption.isNone =
      true := by decide +kernel
  have hdangling : ((platformValidator .HIGH id toString).validate
      sampleDangling).toOption.isNone = true := by decide +kernel
  refine ⟨by decide +kernel, by decide +kernel, fun result h => ?_, fun result h => ?_⟩
  · rw [h] at hroot
    cases hroot
  · rw [h] at hdangling
    cases hdangling

/-! ## Mutations -/

def TaskPlanMutation.WellFormed (mutation : TaskPlanMutation) : Prop :=
  1 ≤ mutation.baseRevision ∧ lengthIn 1 20000 mutation.reason ∧ 1 ≤ mutation.tasks.length ∧
    mutation.tasks.length ≤ 500 ∧ ∀ task ∈ mutation.tasks, task.WellFormed

/-- The mutation is for the current plan, and its tasks are new, different and of the next
revision. -/
def TaskPlan.Fits (current : TaskPlan) (mutation : TaskPlanMutation) : Prop :=
  mutation.baseRevision = current.revision ∧
    (∀ task ∈ mutation.tasks,
      task.id ∉ current.tasks.map TaskSpec.id ∧ task.planRevision = current.revision + 1) ∧
    (mutation.tasks.map TaskSpec.id).Nodup

theorem mutationIssues_eq_nil {current : TaskPlan} {mutation : TaskPlanMutation} :
    current.mutationIssues mutation = [] ↔ current.Fits mutation := by
  simp [TaskPlan.mutationIssues, TaskPlan.Fits, mutationTaskIssues_eq_nil]

theorem checkTasks_ok_iff {plan : TaskPlan} : ∀ {tasks : List TaskSpec},
    plan.checkTasks tasks = .ok () ↔ ∀ task ∈ tasks, task.projectId = plan.projectId ∧
      task.repositoryId = plan.repositoryId ∧ task.planRevision ≤ plan.revision
  | [] => by simp [TaskPlan.checkTasks]
  | task :: rest => by
    rw [TaskPlan.checkTasks, forall_mem_cons, ← checkTasks_ok_iff]
    split
    next hscope =>
      refine ⟨nofun, fun ⟨h, _⟩ => ?_⟩
      exact absurd hscope (not_or.mpr ⟨not_not.mpr h.1, not_not.mpr h.2.1⟩)
    next hscope =>
      simp only [not_or, not_not] at hscope
      split
      next hrevision => exact ⟨nofun, fun ⟨h, _⟩ => absurd h.2.2 (Nat.not_le.mpr hrevision)⟩
      next hrevision => simp [hscope, Nat.not_lt.mp hrevision]

theorem check_ok_iff {plan : TaskPlan} :
    plan.check = .ok () ↔ (1 ≤ plan.tasks.length ∧ plan.tasks.length ≤ 500) ∧
      (plan.tasks.map TaskSpec.id).Nodup ∧
      ∀ task ∈ plan.tasks, task.projectId = plan.projectId ∧
        task.repositoryId = plan.repositoryId ∧ task.planRevision ≤ plan.revision := by
  rw [TaskPlan.check, ← checkTasks_ok_iff]
  split
  next hlength => exact ⟨nofun, fun h => absurd h.1 (by omega)⟩
  next hlength =>
    split
    next hnodup => exact ⟨nofun, fun h => absurd h.2.1 hnodup⟩
    next hnodup => simp only [not_not.mp hnodup, true_and, iff_and_self]; omega

/-- The scope of the new tasks and their number, which nothing looks at before the plan is
built. -/
def TaskPlan.Extends (current : TaskPlan) (mutation : TaskPlanMutation) : Prop :=
  (∀ task ∈ mutation.tasks,
    task.projectId = current.projectId ∧ task.repositoryId = current.repositoryId) ∧
  current.tasks.length + mutation.tasks.length ≤ 500

section
variable {validator : TaskPlanValidator} {current : TaskPlan} {mutation : TaskPlanMutation}
  (hcurrent : current.WellFormed) (hmutation : mutation.WellFormed) (hfits : current.Fits mutation)
include hcurrent hfits

theorem mutated_check_iff :
    (current.mutated mutation).check = .ok () ↔ current.Extends mutation := by
  obtain ⟨-, -, hsome, -, -, -, hnodup, hscope⟩ := hcurrent
  obtain ⟨-, hnew, hdistinct⟩ := hfits
  rw [check_ok_iff]
  simp only [TaskPlan.mutated, length_append, map_append]
  constructor
  · rintro ⟨⟨-, hlength⟩, -, htasks⟩
    refine ⟨fun task htask => ?_, hlength⟩
    obtain ⟨hproject, hrepository, -⟩ := htasks task (mem_append_right _ htask)
    exact ⟨hproject, hrepository⟩
  · rintro ⟨hextends, hlength⟩
    refine ⟨⟨by omega, hlength⟩, ?_, fun task htask => ?_⟩
    · refine nodup_append'.mpr ⟨hnodup, hdistinct, fun id hid hid' => ?_⟩
      obtain ⟨task, htask, rfl⟩ := mem_map.mp hid'
      exact (hnew task htask).1 hid
    · rcases mem_append.mp htask with htask | htask
      · obtain ⟨hproject, hrepository, hrevision⟩ := hscope task htask
        exact ⟨hproject, hrepository, hrevision.trans (Nat.le_succ _)⟩
      · obtain ⟨hproject, hrepository⟩ := hextends task htask
        exact ⟨hproject, hrepository, (hnew task htask).2.le⟩

include hmutation in
theorem mutated_wellFormed (h : current.Extends mutation) :
    (current.mutated mutation).WellFormed := by
  obtain ⟨⟨hsome, hlength⟩, hnodup, hscope⟩ :=
    check_ok_iff.mp ((mutated_check_iff hcurrent hfits).mpr h)
  obtain ⟨hcommit, -, -, -, htasks, hlimits, -⟩ := hcurrent
  obtain ⟨-, -, -, -, hnew⟩ := hmutation
  refine ⟨hcommit, Nat.succ_pos _, hsome, hlength, fun task htask => ?_, hlimits, hnodup, hscope⟩
  exact (mem_append.mp htask).elim (htasks task) (hnew task)

include hmutation in
/-- A mutation that fits is judged exactly if the plan can be built and is answered. -/
theorem validateMutation_ok_iff :
    (∃ result, validator.validateMutation current mutation = .ok result) ↔
      current.Extends mutation ∧ validator.Answers (current.mutated mutation) := by
  simp only [validateMutation, mutationIssues_eq_nil.mpr hfits, except_bind_ok]
  constructor
  · rintro ⟨_, ⟨⟩, hcheck, hvalidation⟩
    have hextends := (mutated_check_iff hcurrent hfits).mp hcheck
    have hplan := mutated_wellFormed hcurrent hmutation hfits hextends
    exact ⟨hextends, (validate_ok_iff hplan).mp (hvalidation.imp fun _ h => h.1)⟩
  · rintro ⟨hextends, hanswers⟩
    have hplan := mutated_wellFormed hcurrent hmutation hfits hextends
    obtain ⟨validation, hvalidation⟩ := (validate_ok_iff hplan).mpr hanswers
    have hcheck := (mutated_check_iff hcurrent hfits).mpr hextends
    by_cases hvalid : validation.valid = true
    · exact ⟨_, ⟨⟩, hcheck, validation, hvalidation, if_pos hvalid⟩
    · exact ⟨_, ⟨⟩, hcheck, validation, hvalidation, if_neg hvalid⟩

end

/-- The plan with the new tasks behind the current ones, or issues and no plan. -/
def MutationValidationResult.Judges (result : MutationValidationResult)
    (validator : TaskPlanValidator) (current : TaskPlan) (mutation : TaskPlanMutation) : Prop :=
  (result.issues = [] ∧ ∃ plan, result.proposedPlan = some plan ∧
    plan.tasks = current.tasks ++ mutation.tasks ∧ plan.revision = current.revision + 1 ∧
    validator.Accepts plan) ∨
  (result.issues ≠ [] ∧ result.proposedPlan = none)

theorem validateMutation_judges {validator : TaskPlanValidator} {current : TaskPlan}
    (h : validator.validateMutation current mutation = .ok result) :
    result.Judges validator current mutation := by
  unfold validateMutation at h
  split at h
  next =>
    obtain ⟨-, -, h⟩ := except_bind_ok.mp h
    obtain ⟨validation, hvalidation, h⟩ := except_bind_ok.mp h
    split at h
    next hvalid =>
      cases h
      exact .inl ⟨rfl, _, rfl, rfl, rfl, validation, hvalidation, hvalid⟩
    next hvalid =>
      cases h
      exact .inr ⟨fun hnil => hvalid (isEmpty_iff.mpr hnil), rfl⟩
  next hissues =>
    cases h
    exact .inr ⟨hissues, rfl⟩

/-- A mutation is judged exactly if it is refused before the plan is built, or its tasks are of
the scope of the plan, there are at most 500 tasks and the validator answers the new plan. -/
theorem validateMutation_judges_iff (validator : TaskPlanValidator) (current : TaskPlan)
    (mutation : TaskPlanMutation) (hcurrent : current.WellFormed)
    (hmutation : mutation.WellFormed) :
    (∃ result, validator.validateMutation current mutation = .ok result ∧
      result.Judges validator current mutation) ↔
    ¬ current.Fits mutation ∨
      current.Extends mutation ∧ validator.Answers (current.mutated mutation) := by
  rw [← imp_iff_not_or]
  constructor
  · rintro ⟨result, hresult, -⟩ hfits
    exact (validateMutation_ok_iff hcurrent hmutation hfits).mp ⟨result, hresult⟩
  · intro h
    obtain ⟨result, hresult⟩ : ∃ result,
        validator.validateMutation current mutation = .ok result := by
      by_cases hfits : current.Fits mutation
      · exact (validateMutation_ok_iff hcurrent hmutation hfits).mpr (h hfits)
      · unfold validateMutation
        split
        next hissues => exact absurd (mutationIssues_eq_nil.mp hissues) hfits
        next => exact ⟨_, rfl⟩
    exact ⟨result, hresult, validateMutation_judges hresult⟩

/-- One more task for the plan, of the given project. -/
def sampleExtension (projectId : UUID) : TaskPlanMutation where
  mutationId := 50
  baseRevision := 1
  reason := "repair"
  tasks := [{ sampleTaskOf 5 .VALIDATION "validation" [4] with
    planRevision := 2, projectId := projectId }]

theorem validateMutation_judges_iff_sample : ∃ result,
    (platformValidator .HIGH id toString).validateMutation sampleDiamond (sampleExtension 20) =
        .ok result ∧
      result.Judges (platformValidator .HIGH id toString) sampleDiamond (sampleExtension 20) := by
  refine (validateMutation_judges_iff _ _ _ (by decide +kernel)
    (by unfold TaskPlanMutation.WellFormed; decide +kernel)).mpr
    (.inr ⟨⟨by decide, by decide⟩, by unfold HasAnchorOrPart; decide +kernel, ?_⟩)
  intro _ _ sink _ _ _ id hreach
  obtain ⟨_, -, task, htask, -, hdep⟩ := TransGen.tail'_iff.mp hreach
  have hclosed : ∀ task ∈ (sampleDiamond.mutated (sampleExtension 20)).tasks,
      ∀ dependency ∈ task.dependencies,
        dependency ∈ (sampleDiamond.mutated (sampleExtension 20)).tasks.map TaskSpec.id := by decide
  exact hclosed task htask id hdep

theorem validateMutation_raises :
    sampleDiamond.WellFormed ∧ (sampleExtension 21).WellFormed ∧
      ∀ result, (platformValidator .HIGH id toString).validateMutation sampleDiamond
        (sampleExtension 21) ≠ .ok result := by
  have hraised : ((platformValidator .HIGH id toString).validateMutation sampleDiamond
      (sampleExtension 21)).toOption.isNone = true := by decide +kernel
  refine ⟨by decide +kernel, by unfold TaskPlanMutation.WellFormed; decide +kernel, ?_⟩
  intro result h
  rw [h] at hraised
  cases hraised

end AutoSwe
