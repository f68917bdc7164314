import AutoSwe.Sandbox.Integration

/-!
# Histories of task worktrees

The worktrees of the tasks of a run are prepared and edited in any order, and all stay at the
baseline before the release (`Workspace.reached`). A worktree that is prepared again, for a later
attempt, gets the changes of the dependencies again: this spares the edits of the task just if they
are where no dependency provides a file (`preparation_repeats_iff`).
-/

namespace AutoSwe

open FileTree Git List Option Function GitWorktreeManager SourceRepository

variable {P C : Type} [LinearOrder P]

/-! ## Edits -/

inductive Edit (P C : Type)
  | write (path : P) (content : C)
  | delete (path : P)

namespace Edit

def path : Edit P C → P
  | write p _ | delete p => p

def apply (t : Tree P C) : Edit P C → Tree P C
  | write p c => t.write p c
  | delete p => t.remove p

theorem get?_apply_ne (t : Tree P C) (e : Edit P C) (h : p ≠ e.path) :
    (e.apply t).get? p = t.get? p := by
  cases e with
  | write q c => exact (Tree.get?_write t q c p).trans (if_neg h)
  | delete q => exact (Tree.get?_remove t q p).trans (if_neg h)

theorem get?_foldl_apply {edits : List (Edit P C)} {p : P} (h : ∀ e ∈ edits, e.path ≠ p) :
    (edits.foldl apply t).get? p = t.get? p := by
  induction edits generalizing t with
  | nil => rfl
  | cons e rest ih =>
    rw [foldl_cons, ih fun e' he' => h e' (mem_cons_of_mem _ he')]
    exact get?_apply_ne t e (h e mem_cons_self).symm

end Edit

/-! ## Histories -/

inductive WorkspaceEvent (P C : Type)
  | prepare (taskId : UUID) (dependencies : List UUID)
  | edit (taskId : UUID) (edit : Edit P C)

/-- The worktrees, and the paths that each task has edited in its own. -/
structure Workspace (P C : Type) [LinearOrder P] where
  source : SourceRepository P C
  edited : UUID → List P := fun _ => []

namespace SourceRepository

def files (source : SourceRepository P C) (worktree : ManagedWorktree) : Tree P C :=
  ((source.worktrees worktree).map Checkout.files).getD ∅

/-- No task has been worked on, and the baseline is known. -/
structure Fresh (source : SourceRepository P C) (baseline : Commit P C) : Prop where
  known : source.commits.find? (fun commit => commit.id = baseline.id) = some baseline
  commitId : isCommitId baseline.id = true
  worktrees : ∀ id, source.worktrees (.task id) = none
  branches : ∀ id, source.branches (ManagedWorktree.task id).branch = none

/-- Every task branch is at the baseline, and so is every task worktree. -/
structure Based (source : SourceRepository P C) (baseline : Commit P C) : Prop where
  known : source.commits.find? (fun commit => commit.id = baseline.id) = some baseline
  commitId : isCommitId baseline.id = true
  worktrees : ∀ id w, source.worktrees (.task id) = some w →
    AtBaseline baseline w ∧ w.branch = (ManagedWorktree.task id).branch
  branches : ∀ id commit, source.branches (ManagedWorktree.task id).branch = some commit →
    commit = baseline

theorem Fresh.based {source : SourceRepository P C} {baseline : Commit P C}
    (h : source.Fresh baseline) : source.Based baseline where
  known := h.known
  commitId := h.commitId
  worktrees id w hw := by rw [h.worktrees id] at hw; cases hw
  branches id commit hcommit := by rw [h.branches id] at hcommit; cases hcommit

section
variable {source : SourceRepository P C} {baseline : Commit P C}

theorem worktrees_setFiles {source : SourceRepository P C} {worktree other : ManagedWorktree}
    {files : Tree P C} : (source.setFiles worktree files).worktrees other =
      if other = worktree then (source.worktrees other).map ({ · with files })
      else source.worktrees other := by
  by_cases hother : other = worktree
  · subst hother
    simp [setFiles]
  · simp [setFiles, hother]

theorem Based.setFiles (h : source.Based baseline) (worktree : ManagedWorktree)
    (files : Tree P C) : (source.setFiles worktree files).Based baseline where
  known := h.known
  commitId := h.commitId
  branches := h.branches
  worktrees id w hw := by
    rw [worktrees_setFiles] at hw
    split at hw
    · obtain ⟨w', hw', rfl⟩ := map_eq_some_iff.mp hw
      obtain ⟨hbaseline, hbranch⟩ := h.worktrees id w' hw'
      exact ⟨⟨hbaseline.head, hbaseline.index⟩, hbranch⟩
    · exact h.worktrees id w hw

theorem Based.createTaskWorktree (h : source.Based baseline) (taskId : UUID) :
    ∃ source', source.createTaskWorktree taskId baseline.id = .ok source' ∧
      source'.Based baseline ∧
      (∀ other, other ≠ .task taskId → source'.worktrees other = source.worktrees other) ∧
      (source.worktrees (.task taskId) ≠ none → source' = source) ∧
      (source.worktrees (.task taskId) = none →
        source'.worktrees (.task taskId) = some
          { branch := (ManagedWorktree.task taskId).branch, head := baseline,
            index := baseline.tree, files := baseline.tree }) := by
  simp only [SourceRepository.createTaskWorktree, create, h.commitId, h.known, not_true_eq_false,
    if_false]
  cases hw : source.worktrees (.task taskId) with
  | some w =>
    simp only [(h.worktrees taskId w hw).2, ne_eq, not_true_eq_false, if_false]
    exact ⟨source, rfl, h, fun _ _ => rfl, fun _ => rfl, nofun⟩
  | none =>
    have hcommit : (source.branches (ManagedWorktree.task taskId).branch).getD baseline =
        baseline := by
      cases hbranch : source.branches (ManagedWorktree.task taskId).branch with
      | none => rfl
      | some commit => exact h.branches taskId commit hbranch
    rw [hcommit]
    refine ⟨_, rfl, ⟨h.known, h.commitId, fun id w hid => ?_, fun id commit hid => ?_⟩,
      fun other hother => ?_, fun hne => absurd rfl hne, fun _ => ?_⟩
    · by_cases hsame : id = taskId
      · subst hsame
        simp only [addWorktree, update_self, some.injEq] at hid
        subst hid
        exact ⟨⟨rfl, rfl⟩, rfl⟩
      · refine h.worktrees id w ?_
        simpa [addWorktree, hsame] using hid
    · simp only [addWorktree, update_apply] at hid
      split at hid
      · exact (some.inj hid).symm
      · exact h.branches id commit hid
    · simp [addWorktree, hother]
    · simp [addWorktree]

end

end SourceRepository

/-! ## Preparing a worktree -/

section
variable [DecidableEq C] {source : SourceRepository P C} {baseline : Commit P C}

theorem GitWorktreeManager.integrateEach_congr (manager : GitWorktreeManager P C)
    (h : ∀ id ∈ order, source'.worktrees (.task id) = source.worktrees (.task id))
    (target : Tree P C) :
    manager.integrateEach source' order target = manager.integrateEach source order target := by
  induction order generalizing target with
  | nil => rfl
  | cons id rest ih =>
    have hrest := ih fun id hid => h id (mem_cons_of_mem _ hid)
    simp only [integrateEach, h id mem_cons_self, hrest]

namespace SourceRepository

/-- The files that a task finds before its dependencies are integrated. -/
def startFiles (source : SourceRepository P C) (baseline : Commit P C) (taskId : UUID) :
    Tree P C :=
  ((source.worktrees (.task taskId)).map Checkout.files).getD baseline.tree

theorem Based.prepareWorktree (manager : GitWorktreeManager P C) (h : source.Based baseline)
    (hself : taskId ∉ dependencies) :
    ∃ source', manager.prepareWorktree source taskId baseline.id dependencies =
        ((manager.integrateEach source (GitWorktreeManager.byId dependencies)
          (source.startFiles baseline taskId)).1, source') ∧
      source'.Based baseline ∧
      (∀ other, other ≠ .task taskId → source'.worktrees other = source.worktrees other) ∧
      ∃ w', source'.worktrees (.task taskId) = some w' ∧
        w'.files = (manager.integrateEach source (GitWorktreeManager.byId dependencies)
          (source.startFiles baseline taskId)).2 := by
  obtain ⟨created, hcreate, hbased, hothers, hthere, hnew⟩ := h.createTaskWorktree taskId
  obtain ⟨w, hw, hfiles⟩ : ∃ w, created.worktrees (.task taskId) = some w ∧
      w.files = source.startFiles baseline taskId := by
    cases hw : source.worktrees (.task taskId) with
    | none => exact ⟨_, hnew hw, by rw [startFiles, hw]; rfl⟩
    | some w =>
      refine ⟨w, ?_, by rw [startFiles, hw]; rfl⟩
      rw [hthere (by simp [hw]), hw]
  simp only [GitWorktreeManager.prepareWorktree, hcreate]
  split
  · rename_i hnone
    subst hnone
    exact ⟨created, rfl, hbased, hothers, w, hw, hfiles⟩
  · have hsame : manager.integrateEach created (GitWorktreeManager.byId dependencies) w.files =
        manager.integrateEach source (GitWorktreeManager.byId dependencies)
          (source.startFiles baseline taskId) := by
      rw [hfiles]
      refine manager.integrateEach_congr (fun id hid => hothers _ ?_) _
      rintro ⟨⟩
      exact hself ((mem_insertionSort _).mp hid)
    simp only [GitWorktreeManager.integrateTaskDependencies, hw, hsame]
    refine ⟨_, rfl, hbased.setFiles _ _, fun other hother => ?_, { w with files := _ }, ?_, rfl⟩
    · rw [worktrees_setFiles, if_neg hother, hothers other hother]
    · rw [worktrees_setFiles, if_pos rfl, hw, map_some]

theorem Based.prepared {manager : GitWorktreeManager P C} (h : source.Based baseline) :
    (manager.prepareWorktree source taskId baseline.id dependencies).2.Based baseline := by
  obtain ⟨created, hcreate, hbased, -⟩ := h.createTaskWorktree taskId
  simp only [GitWorktreeManager.prepareWorktree, hcreate]
  split
  · exact hbased
  · unfold GitWorktreeManager.integrateTaskDependencies
    split
    · exact hbased
    · exact hbased.setFiles _ _

end SourceRepository

namespace Workspace

variable (manager : GitWorktreeManager P C) (baselineCommit : String) (s : Workspace P C)

def step : WorkspaceEvent P C → Workspace P C
  | .prepare taskId dependencies =>
    { s with source := (manager.prepareWorktree s.source taskId baselineCommit dependencies).2 }
  | .edit taskId edit =>
    { source := s.source.setFiles (.task taskId) (edit.apply (s.source.files (.task taskId)))
      edited := update s.edited taskId (edit.path :: s.edited taskId) }

def run (events : List (WorkspaceEvent P C)) : Workspace P C :=
  events.foldl (step manager baselineCommit) s

theorem reached {s : Workspace P C} (h : s.source.Based baseline)
    (events : List (WorkspaceEvent P C)) :
    (s.run manager baseline.id events).source.Based baseline := by
  induction events generalizing s with
  | nil => exact h
  | cons event rest ih =>
    refine ih ?_
    cases event with
    | prepare taskId dependencies => exact h.prepared
    | edit => exact h.setFiles _ _

end Workspace

end

/-! ## Preparing a worktree again -/

theorem GitWorktreeManager.mem_byId :
    d ∈ byId dependencies ↔ d ∈ dependencies :=
  mem_insertionSort _

open GitWorktreeManager (byId mem_byId)

section
variable [DecidableEq C] {source : SourceRepository P C} {baseline : Commit P C}
  (manager : GitWorktreeManager P C)

/-- An integration goes through if the dependencies are there and their changes meet
no conflict. -/
theorem GitWorktreeManager.integrateEach_ok
    (source : SourceRepository P C) (order : List UUID) (target t : Tree P C) :
    manager.integrateEach source order target = (.ok (), t) ↔
      (∀ id ∈ order, source.worktrees (.task id) ≠ none) ∧
        replay (manager.changesOfEach source order) target = some t := by
  have hcompleted : ∀ r : Except Raised Unit × Tree P C,
      completedTree r = some t ↔ r = (.ok (), t) := by
    rintro ⟨result, files⟩
    cases result <;> simp [completedTree]
  have hthere : ∀ {order : List UUID} {target : Tree P C},
      manager.integrateEach source order target = (.ok (), t) →
        ∀ id ∈ order, source.worktrees (.task id) ≠ none := by
    intro order
    induction order with
    | nil => simp
    | cons id rest ih =>
      intro target h
      simp only [integrateEach] at h
      split at h
      · cases h
      · rename_i w hw
        split at h
        · simpa [hw] using ih h
        · cases h
  constructor
  · intro h
    rw [← manager.integrateEach_completed (hthere h), hcompleted]
    exact ⟨hthere h, h⟩
  · rintro ⟨hthere, h⟩
    rwa [← manager.integrateEach_completed hthere, hcompleted] at h

theorem SourceRepository.Based.prepareWorktree_ok
    (h : source.Based baseline)
    (hself : taskId ∉ dependencies) :
    (∃ source', manager.prepareWorktree source taskId baseline.id dependencies = (.ok (), source') ∧
        source'.files (.task taskId) = t) ↔
      (∀ d ∈ dependencies, source.worktrees (.task d) ≠ none) ∧
        replay (manager.changesOfEach source (byId dependencies))
          (source.startFiles baseline taskId) = some t := by
  obtain ⟨source', hprepare, -, -, w', hw', hfiles⟩ := h.prepareWorktree manager hself
  have hintegrate := manager.integrateEach_ok source (byId dependencies)
    (source.startFiles baseline taskId) t
  simp only [mem_byId] at hintegrate
  rw [← hintegrate]
  simp only [hprepare]
  have hsame : source'.files (.task taskId) =
      (manager.integrateEach source (byId dependencies) (source.startFiles baseline taskId)).2 := by
    simp [files, hw', hfiles]
  constructor
  · rintro ⟨_, hok, rfl⟩
    obtain ⟨hresult, rfl⟩ := Prod.mk.inj hok
    exact Prod.ext hresult hsame.symm
  · intro hok
    rw [hok] at hsame ⊢
    exact ⟨source', rfl, hsame⟩

theorem preparation_repeats_iff (manager : GitWorktreeManager P C)
    (source : SourceRepository P C) (baseline : Commit P C) (hfresh : source.Fresh baseline)
    (events : List (WorkspaceEvent P C)) (taskId : UUID) (dependencies : List UUID)
    (hself : taskId ∉ dependencies) (edits : List (Edit P C)) (first : SourceRepository P C)
    (hfirst : manager.prepareWorktree
      (Workspace.run manager baseline.id { source } events).source taskId
      baseline.id dependencies = (.ok (), first)) :
    let made := first.files (.task taskId)
    let own := edits.foldl Edit.apply made
    (∃ again, manager.prepareWorktree (first.setFiles (.task taskId) own) taskId baseline.id
        dependencies = (.ok (), again) ∧
      ∀ e ∈ edits, (again.files (.task taskId)).get? e.path = own.get? e.path) ↔
    ∀ e ∈ edits, own.get? e.path = made.get? e.path ∨
      ∀ d ∈ dependencies, ∀ w, first.worktrees (.task d) = some w →
        ¬ manager.Provides w e.path := by
  intro made own
  have hbased := Workspace.reached manager (s := { source }) hfresh.based events
  generalize (Workspace.run manager baseline.id { source } events).source = s at hfirst hbased
  -- the first attempt
  obtain ⟨hthere, hreplay⟩ := (hbased.prepareWorktree_ok manager hself).mp ⟨first, hfirst, rfl⟩
  obtain ⟨_, hprepare, hbased₁, hothers, w₁, hw₁, -⟩ := hbased.prepareWorktree manager hself
  obtain ⟨-, rfl⟩ := Prod.mk.inj (hfirst.symm.trans hprepare)
  -- the second one replays the same changes
  have hdependency : ∀ d ∈ dependencies,
      (first.setFiles (.task taskId) own).worktrees (.task d) = first.worktrees (.task d) ∧
        first.worktrees (.task d) = s.worktrees (.task d) := by
    intro d hd
    have hne : ManagedWorktree.task d ≠ .task taskId := by
      rintro ⟨⟩
      exact hself hd
    exact ⟨(first.worktrees_setFiles).trans (if_neg hne), hothers _ hne⟩
  have hchanges : ∀ {source' : SourceRepository P C},
      (∀ d ∈ dependencies, source'.worktrees (.task d) = first.worktrees (.task d)) →
        manager.changesOfEach source' (byId dependencies) =
          manager.changesOfEach first (byId dependencies) := by
    intro source' hsame
    refine flatMap_congr fun d hd => ?_
    rw [hsame d (mem_byId.mp hd)]
  have hstart : (first.setFiles (.task taskId) own).startFiles baseline taskId = own := by
    simp [startFiles, worktrees_setFiles, hw₁]
  rw [hchanges fun d hd => (hdependency d hd).2.symm] at hreplay
  have hbaseline : ∀ id w, first.worktrees (.task id) = some w → AtBaseline baseline w :=
    fun id w hw => (hbased₁.worktrees id w hw).1
  have hagain := fun t => (hbased₁.setFiles (.task taskId) own).prepareWorktree_ok manager hself
    (t := t)
  simp only [hstart, hchanges fun d hd => (hdependency d hd).1] at hagain
  have havailable : ∀ d ∈ dependencies,
      (first.setFiles (.task taskId) own).worktrees (.task d) ≠ none := by
    intro d hd
    rw [(hdependency d hd).1, (hdependency d hd).2]
    exact hthere d hd
  have hspared := replay_again own (fun p => ∃ e ∈ edits, e.path = p)
    (uniform_changesAt hbaseline _) hreplay fun p hp =>
      Edit.get?_foldl_apply (fun e he heq => hp ⟨e, he, heq⟩)
  simp only [forall_exists_index, and_imp, forall_apply_eq_imp_iff₂,
    changesAt_eq_nil hbaseline, mem_byId] at hspared
  refine Iff.trans ?_ (hspared.trans (forall₂_congr fun _ _ => or_comm))
  constructor
  · rintro ⟨again, hok, hkept⟩
    exact ⟨_, ((hagain _).mp ⟨again, hok, rfl⟩).2, hkept⟩
  · rintro ⟨t, ht, hkept⟩
    obtain ⟨again, hok, rfl⟩ := (hagain t).mpr ⟨havailable, ht⟩
    exact ⟨again, hok, hkept⟩

end

/-! ## A second attempt -/

def sampleCommit : Commit String String where
  id := String.ofList (replicate 40 'a')
  tree := (∅ : Tree String String).write "app.py" "1"
  message := "baseline"

def sampleSource : SourceRepository String String := { commits := [sampleCommit] }

theorem sampleSource_fresh : sampleSource.Fresh sampleCommit where
  known := by simp [sampleSource]
  commitId := by decide +kernel
  worktrees _ := rfl
  branches _ := rfl

def sampleEdits : List (WorkspaceEvent String String) :=
  [.prepare 1 [], .edit 1 (.write "app.py" "2"), .edit 1 (.write "new.py" "n")]

def samplePreparation : Except Raised Unit × SourceRepository String String :=
  sampleManager.prepareWorktree
    (Workspace.run sampleManager sampleCommit.id { source := sampleSource } sampleEdits).source 2
    sampleCommit.id [1]

/-- The worktree is prepared again after the task has edited one file. -/
def sampleRepeated (edit : Edit String String) :
    Except Raised Unit × SourceRepository String String :=
  sampleManager.prepareWorktree
    (samplePreparation.2.setFiles (.task 2) (edit.apply (samplePreparation.2.files (.task 2)))) 2
    sampleCommit.id [1]

theorem preparation_repeats_iff_sample :
    ∃ again, sampleRepeated (.write "own.py" "o") = (.ok (), again) ∧
      (again.files (.task 2)).get? "own.py" = some "o" := by
  have hprovides : (samplePreparation.2.worktrees (.task 1)).all (fun w =>
      !decide (sampleManager.Provides w "own.py")) = true := by decide +kernel
  obtain ⟨again, hagain, hkept⟩ := (preparation_repeats_iff sampleManager sampleSource sampleCommit
    sampleSource_fresh sampleEdits 2 [1] (by decide) [.write "own.py" "o"] samplePreparation.2
    (Prod.ext (by decide +kernel) rfl)).mpr fun e he => by
      obtain rfl := mem_singleton.mp he
      refine .inr fun d hd w hw => ?_
      obtain rfl := mem_singleton.mp hd
      rw [hw] at hprovides
      simpa [Edit.path] using hprovides
  refine ⟨again, hagain, (hkept _ mem_cons_self).trans ?_⟩
  decide +kernel

theorem second_attempt_loses_edit :
    (sampleRepeated (.write "app.py" "3")).1 = .ok () ∧
    ((sampleRepeated (.write "app.py" "3")).2.files (.task 2)).get? "app.py" = some "2" ∧
    (sampleRepeated (.write "new.py" "x")).1 = .error ⟨.worktreePolicyError,
      "dependency integration conflict at new.py"⟩ := by
  decide +kernel

end AutoSwe
