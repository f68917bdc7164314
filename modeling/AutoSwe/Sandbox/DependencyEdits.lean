import AutoSwe.Sandbox.Workspaces

/-!
# The edits of dependencies

A task that starts from its dependencies should find the edits of all of them, or be told of a
conflict. Integration copies what differs from the baseline; `integration_loses_nothing_iff` says
when this comes to the same. It does not where a file was deleted, where two dependencies have
edited one tracked file, and where one has only inherited what another one has edited.
-/

namespace AutoSwe

open FileTree Git List Option GitWorktreeManager SourceRepository
open GitWorktreeManager (byId)

variable {P C : Type} [LinearOrder P] [DecidableEq C]

/-! ## What integration makes of the versions of a file -/

/-- The file that a task has at the path. -/
def SourceRepository.version (source : SourceRepository P C) (id : UUID) (p : P) : Option C :=
  (source.files (.task id)).get? p

/-- The worktree of the task has a file at the path that integration copies. -/
def SourceRepository.Provides (manager : GitWorktreeManager P C) (source : SourceRepository P C)
    (id : UUID) (p : P) : Prop :=
  ∃ w, source.worktrees (.task id) = some w ∧ manager.Provides w p

/-- The baseline with the changes of the dependencies, in the given order. -/
def SourceRepository.merged (manager : GitWorktreeManager P C) (source : SourceRepository P C)
    (baseline : Commit P C) (order : List UUID) : Option (Tree P C) :=
  replay (manager.changesOfEach source order) baseline.tree

section
variable {manager : GitWorktreeManager P C} {source : SourceRepository P C} {baseline : Commit P C}
  {order : List UUID} {t : Tree P C} {p : P}
  (hbaseline : ∀ d w, source.worktrees (.task d) = some w → AtBaseline baseline w)

include hbaseline

theorem mem_changesAt_iff : change ∈ changesAt p (manager.changesOfEach source order) ↔
      ∃ d ∈ order, source.Provides manager d p ∧
        ∃ c, source.version d p = some c ∧ change = changeKind baseline.tree p c := by
  rw [mem_changesAt hbaseline]
  refine exists_congr fun d => and_congr_right fun _ => ?_
  constructor
  · rintro ⟨w, c, hw, hprovides, hfile, rfl⟩
    refine ⟨⟨w, hw, hprovides⟩, c, ?_, rfl⟩
    simpa [version, files, hw] using hfile
  · rintro ⟨⟨w, hw, hprovides⟩, c, hfile, rfl⟩
    refine ⟨w, c, hw, hprovides, ?_, rfl⟩
    simpa [version, files, hw] using hfile

omit hbaseline in
theorem version_of_provides (h : source.Provides manager d p) :
    ∃ c, source.version d p = some c := by
  obtain ⟨w, hw, hprovides⟩ := h
  obtain ⟨c, hfile⟩ := ne_none_iff_exists'.mp hprovides.1
  exact ⟨c, by simpa [version, files, hw] using hfile⟩

theorem mem_changesAt_of_provides (hd : d ∈ order) (h : source.Provides manager d p) :
    ∃ c, source.version d p = some c ∧
      changeKind baseline.tree p c ∈ changesAt p (manager.changesOfEach source order) := by
  obtain ⟨c, hfile⟩ := version_of_provides h
  exact ⟨c, hfile, (mem_changesAt_iff hbaseline).mpr ⟨d, hd, h, c, hfile, rfl⟩⟩

theorem merged_untracked (h : source.merged manager baseline order = some t)
    (hp : baseline.tree.get? p = none) (hd : d ∈ order) (hprovides : source.Provides manager d p) :
    t.get? p = source.version d p := by
  obtain ⟨c, hfile, hmem⟩ := mem_changesAt_of_provides hbaseline hd hprovides
  have hensures : ∀ change ∈ changesAt p (manager.changesOfEach source order),
      ∃ c, change = .ensure c := by
    intro change hchange
    obtain ⟨-, -, -, c, -, rfl⟩ := (mem_changesAt_iff hbaseline).mp hchange
    exact ⟨c, by simp [changeKind, hp]⟩
  rw [settle_ensures hensures (replay_eq_some.mp h p) _ hmem, content_changeKind, hfile]

theorem merged_last (order : List UUID) (h : source.merged manager baseline (order ++ [d]) = some t)
    (hprovides : source.Provides manager d p) : t.get? p = source.version d p := by
  cases hp : baseline.tree.get? p with
  | none => exact merged_untracked hbaseline h hp (by simp) hprovides
  | some b =>
    obtain ⟨w, hw, hw'⟩ := hprovides
    obtain ⟨c, hfile⟩ := ne_none_iff_exists'.mp hw'.1
    have hsettle := replay_eq_some.mp h p
    have hlast : changesAt p (manager.changesOfEach source (order ++ [d])) =
        changesAt p (manager.changesOfEach source order) ++ [.overwrite c] := by
      simp only [changesOfEach, flatMap_append, flatMap_singleton,
        changesAt_append, hw, map_some, getD_some,
        (hbaseline d w hw).changesAt_changes, hw', if_true, hfile]
      simp [changeKind, hp]
    rw [hlast] at hsettle
    rw [settle_concat_overwrite hsettle]
    simp [version, files, hw, hfile]

omit hbaseline in
/-- The dependencies that provide the file have the same version of it. -/
def SourceRepository.Agreed (manager : GitWorktreeManager P C) (source : SourceRepository P C)
    (order : List UUID) (p : P) : Prop :=
  ∀ d ∈ order, ∀ d' ∈ order, source.Provides manager d p → source.Provides manager d' p →
    source.version d p = source.version d' p

theorem settle_agreed (h : source.Agreed manager order p) :
    ∃ file, settle (changesAt p (manager.changesOfEach source order)) (baseline.tree.get? p) =
        some file ∧
      (∀ d ∈ order, source.Provides manager d p → file = source.version d p) ∧
      ((∀ d ∈ order, ¬ source.Provides manager d p) → file = baseline.tree.get? p) := by
  by_cases hnone : ∀ d ∈ order, ¬ source.Provides manager d p
  · have hnil : changesAt p (manager.changesOfEach source order) = [] :=
      eq_nil_iff_forall_not_mem.mpr fun change hchange => by
        obtain ⟨d, hd, hprovides, -⟩ := (mem_changesAt_iff hbaseline).mp hchange
        exact hnone d hd hprovides
    rw [hnil]
    exact ⟨_, rfl, fun d hd hprovides => absurd hprovides (hnone d hd), fun _ => rfl⟩
  · obtain ⟨d, hd, hprovides⟩ : ∃ d ∈ order, source.Provides manager d p := by
      simpa using hnone
    obtain ⟨c, hfile, hmem⟩ := mem_changesAt_of_provides hbaseline hd hprovides
    have hafter : ∀ change ∈ changesAt p (manager.changesOfEach source order),
        change.after (baseline.tree.get? p) = some c := by
      intro change hchange
      obtain ⟨d', hd', hprovides', c', hfile', rfl⟩ := (mem_changesAt_iff hbaseline).mp hchange
      have hsame := h d hd d' hd' hprovides hprovides'
      rw [hfile, hfile'] at hsame
      obtain rfl := some.inj hsame
      unfold changeKind
      cases baseline.tree.get? p <;> rfl
    refine ⟨some c, ?_, fun d' hd' hprovides' => ?_, fun hnone' => absurd hnone' hnone⟩
    · rw [settle_of_after hafter, if_neg (ne_nil_of_mem hmem)]
    · rw [← hfile]
      exact h d hd d' hd' hprovides hprovides'

/-- Dependencies that agree are merged, in every order with the same result. -/
theorem merged_agreed (h : ∀ p, source.Agreed manager order p) :
    ∃ t, source.merged manager baseline order = some t ∧ ∀ p,
      (∀ d ∈ order, source.Provides manager d p → t.get? p = source.version d p) ∧
      ((∀ d ∈ order, ¬ source.Provides manager d p) → t.get? p = baseline.tree.get? p) := by
  have hsettle := fun p => settle_agreed hbaseline (h p)
  obtain ⟨t, ht⟩ := replay_exists (manager.changesOfEach source order) baseline.tree
    fun p hnone => by
      obtain ⟨file, hfile, -⟩ := hsettle p
      exact absurd (hnone.symm.trans hfile) (by simp)
  refine ⟨t, ht, fun p => ?_⟩
  obtain ⟨file, hfile, hversion⟩ := hsettle p
  rw [replay_eq_some.mp ht p] at hfile
  obtain rfl := some.inj hfile
  exact hversion

/-- Only untracked files meet conflicts. -/
theorem merged_eq_none :
    source.merged manager baseline order = none ↔
      ∃ p, baseline.tree.get? p = none ∧ ¬ source.Agreed manager order p := by
  constructor
  · intro hnone
    by_contra hagreed
    obtain ⟨t, ht⟩ := replay_exists (manager.changesOfEach source order) baseline.tree
      fun p => by
        cases hp : baseline.tree.get? p with
        | none =>
          have h : source.Agreed manager order p := by
            by_contra hdisagreed
            exact hagreed ⟨p, hp, hdisagreed⟩
          obtain ⟨file, hfile, -⟩ := settle_agreed hbaseline h
          rw [hp] at hfile
          simp [hfile]
        | some b =>
          refine settle_overwrites_ne_none (fun change hchange => ?_) _
          obtain ⟨-, -, -, c, -, rfl⟩ := (mem_changesAt_iff hbaseline).mp hchange
          exact ⟨c, by simp [changeKind, hp]⟩
    exact absurd (hnone.symm.trans ht) (by simp)
  · rintro ⟨p, hp, hdisagreed⟩
    by_contra hsome
    obtain ⟨t, ht⟩ := ne_none_iff_exists'.mp hsome
    refine hdisagreed fun d hd d' hd' hprovides hprovides' => ?_
    rw [← merged_untracked hbaseline ht hp hd hprovides,
      merged_untracked hbaseline ht hp hd' hprovides']

end

/-! ## Edits -/

namespace Workspace

variable (manager : GitWorktreeManager P C) (baseline : Commit P C) (s : Workspace P C)
  (dependencies : List UUID)

/-- Two dependencies have edited a file differently; a deletion is an edit, too. -/
def Clash (s : Workspace P C) (dependencies : List UUID) : Prop :=
  ∃ p, ∃ d ∈ dependencies, ∃ d' ∈ dependencies, p ∈ s.edited d ∧ p ∈ s.edited d' ∧
    s.source.version d p ≠ s.source.version d' p

/-- The files of the task after a preparation that succeeds. -/
def outcome (taskId : UUID) : Option (Tree P C) :=
  match manager.prepareWorktree s.source taskId baseline.id dependencies with
  | (.ok (), source) => some (source.files (.task taskId))
  | (.error _, _) => none

/-- What is expected of integration. -/
structure LosesNothing (taskId : UUID) : Prop where
  /-- The order of the ids plays no part. -/
  order : ∀ order : List UUID, order.Perm dependencies →
    completedTree (manager.integrateEach s.source order baseline.tree) =
      s.outcome manager baseline dependencies taskId
  conflict : s.Clash dependencies → s.outcome manager baseline dependencies taskId = none
  edits : ¬ s.Clash dependencies → ∃ t, s.outcome manager baseline dependencies taskId = some t ∧
    ∀ p, ∀ d ∈ dependencies, p ∈ s.edited d → t.get? p = s.source.version d p

/-- The dependencies that provide a file or have edited it have the same version of it,
and a file that was edited is provided or is as in the baseline. -/
structure Coherent : Prop where
  same : ∀ p, ∀ d ∈ dependencies, ∀ d' ∈ dependencies,
    s.source.Provides manager d p ∨ p ∈ s.edited d →
    s.source.Provides manager d' p ∨ p ∈ s.edited d' → s.source.version d p = s.source.version d' p
  carried : ∀ p, ∀ d ∈ dependencies, p ∈ s.edited d →
    (∃ d' ∈ dependencies, s.source.Provides manager d' p) ∨
      s.source.version d p = baseline.tree.get? p

section
variable {manager baseline s dependencies}
  (hbaseline : ∀ d w, s.source.worktrees (.task d) = some w → AtBaseline baseline w)

include hbaseline

theorem Coherent.merged (h : s.Coherent manager baseline dependencies) :
    ∃ t, (∀ order : List UUID, order.Perm dependencies →
        s.source.merged manager baseline order = some t) ∧
      ∀ p, ∀ d ∈ dependencies, p ∈ s.edited d → t.get? p = s.source.version d p := by
  have hagreed : ∀ p, s.source.Agreed manager dependencies p :=
    fun p d hd d' hd' hprovides hprovides' =>
      h.same p d hd d' hd' (.inl hprovides) (.inl hprovides')
  obtain ⟨t, ht, hversions⟩ := merged_agreed hbaseline hagreed
  refine ⟨t, fun order horder => ?_, fun p d hd hedited => ?_⟩
  · obtain ⟨t', ht', hversions'⟩ := merged_agreed hbaseline
      fun p d hd d' hd' => hagreed p d (horder.mem_iff.mp hd) d' (horder.mem_iff.mp hd')
    rw [ht']
    refine congrArg some (Tree.ext_get? fun p => ?_)
    by_cases hnone : ∀ d ∈ dependencies, ¬ s.source.Provides manager d p
    · rw [(hversions p).2 hnone, (hversions' p).2 fun d hd => hnone d (horder.mem_iff.mp hd)]
    · obtain ⟨d, hd, hprovides⟩ : ∃ d ∈ dependencies, s.source.Provides manager d p := by
        simpa using hnone
      rw [(hversions p).1 d hd hprovides, (hversions' p).1 d (horder.mem_iff.mpr hd) hprovides]
  · rcases h.carried p d hd hedited with ⟨d', hd', hprovides⟩ | hsame
    · rw [(hversions p).1 d' hd' hprovides]
      exact h.same p d' hd' d hd (.inl hprovides) (.inr hedited)
    · by_cases hnone : ∀ d ∈ dependencies, ¬ s.source.Provides manager d p
      · rw [(hversions p).2 hnone, hsame]
      · obtain ⟨d', hd', hprovides⟩ : ∃ d ∈ dependencies, s.source.Provides manager d p := by
          simpa using hnone
        rw [(hversions p).1 d' hd' hprovides]
        exact h.same p d' hd' d hd (.inl hprovides) (.inr hedited)

/-- A result that does not depend on the order and has all edits. -/
theorem coherent_of_merged
    (horder : ∀ order : List UUID, order.Perm dependencies →
      s.source.merged manager baseline order = some t)
    (hedits : ∀ p, ∀ d ∈ dependencies, p ∈ s.edited d → t.get? p = s.source.version d p) :
    s.Coherent manager baseline dependencies := by
  have hversion : ∀ p, ∀ d ∈ dependencies, s.source.Provides manager d p ∨ p ∈ s.edited d →
      t.get? p = s.source.version d p := by
    rintro p d hd (hprovides | hedited)
    · refine merged_last hbaseline (dependencies.erase d) (horder _ ?_) hprovides
      exact perm_append_comm.trans (perm_cons_erase hd).symm
    · exact hedits p d hd hedited
  refine ⟨fun p d hd d' hd' h h' => ?_, fun p d hd hedited => ?_⟩
  · rw [← hversion p d hd h, hversion p d' hd' h']
  · by_cases hnone : ∀ d ∈ dependencies, ¬ s.source.Provides manager d p
    · refine .inr ?_
      have hagreed : s.source.Agreed manager dependencies p :=
        fun d hd _ _ hprovides => absurd hprovides (hnone d hd)
      obtain ⟨file, hfile, -, hfree⟩ := settle_agreed hbaseline hagreed
      rw [replay_eq_some.mp (horder dependencies (.refl _)) p] at hfile
      rw [← hedits p d hd hedited, some.inj hfile, hfree hnone]
    · exact .inl (by simpa using hnone)

omit hbaseline in
/-- The first preparation of a task merges the changes of its dependencies. -/
theorem outcome_eq_merged (hbased : s.source.Based baseline)
    (hnew : s.source.worktrees (.task taskId) = none)
    (hthere : ∀ d ∈ dependencies, s.source.worktrees (.task d) ≠ none) :
    s.outcome manager baseline dependencies taskId =
      s.source.merged manager baseline (byId dependencies) := by
  have hself : taskId ∉ dependencies := fun hmem => hthere taskId hmem hnew
  have hstart : s.source.startFiles baseline taskId = baseline.tree := by
    simp [startFiles, hnew]
  refine ext fun t => ?_
  have hok := hbased.prepareWorktree_ok manager hself (t := t)
  rw [hstart] at hok
  refine Iff.trans ?_ (hok.trans (and_iff_right hthere))
  unfold outcome
  split
  · rename_i heq
    simp [heq]
  · rename_i heq
    simp [heq]

theorem merged_conflict (horder : order.Perm dependencies) :
    s.source.merged manager baseline order = none ↔ ∃ p, baseline.tree.get? p = none ∧
      ∃ d ∈ dependencies, ∃ d' ∈ dependencies, s.source.Provides manager d p ∧
        s.source.Provides manager d' p ∧ s.source.version d p ≠ s.source.version d' p := by
  rw [merged_eq_none hbaseline]
  simp [Agreed, horder.mem_iff]

end

end Workspace

theorem integration_loses_nothing_iff (manager : GitWorktreeManager P C)
    (source : SourceRepository P C) (baseline : Commit P C) (hfresh : source.Fresh baseline)
    (events : List (WorkspaceEvent P C)) (s : Workspace P C)
    (hs : s = Workspace.run manager baseline.id { source } events) (taskId : UUID)
    (dependencies : List UUID) (hnew : s.source.worktrees (.task taskId) = none)
    (hthere : ∀ d ∈ dependencies, s.source.worktrees (.task d) ≠ none) :
    s.LosesNothing manager baseline dependencies taskId ↔
      s.Coherent manager baseline dependencies ∨
        s.Clash dependencies ∧ ∃ p, baseline.tree.get? p = none ∧
          ∃ d ∈ dependencies, ∃ d' ∈ dependencies, s.source.Provides manager d p ∧
            s.source.Provides manager d' p ∧ s.source.version d p ≠ s.source.version d' p := by
  have hbased : s.source.Based baseline :=
    hs ▸ Workspace.reached manager (s := { source }) hfresh.based events
  have hbaseline : ∀ d w, s.source.worktrees (.task d) = some w → AtBaseline baseline w :=
    fun d w hw => (hbased.worktrees d w hw).1
  have horder : ∀ order : List UUID, order.Perm dependencies →
      completedTree (manager.integrateEach s.source order baseline.tree) =
        s.source.merged manager baseline order := fun order hperm =>
    manager.integrateEach_completed (fun d hd => hthere d (hperm.mem_iff.mp hd)) _
  have houtcome : s.outcome manager baseline dependencies taskId =
      s.source.merged manager baseline (byId dependencies) :=
    Workspace.outcome_eq_merged hbased hnew hthere
  have hperm : (byId dependencies).Perm dependencies := perm_insertionSort _ _
  constructor
  · intro h
    by_cases hclash : s.Clash dependencies
    · exact .inr ⟨hclash, (Workspace.merged_conflict hbaseline hperm).mp
        (houtcome ▸ h.conflict hclash)⟩
    · obtain ⟨t, ht, hedits⟩ := h.edits hclash
      refine .inl (Workspace.coherent_of_merged hbaseline (fun order hperm => ?_) hedits)
      rw [← horder order hperm, h.order order hperm, ht]
  · rintro (hcoherent | ⟨hclash, hdiffer⟩)
    · obtain ⟨t, ht, hedits⟩ := hcoherent.merged hbaseline
      refine ⟨fun order hperm' => ?_, fun hclash => ?_, fun _ => ⟨t, ?_, hedits⟩⟩
      · rw [horder order hperm', houtcome, ht order hperm', ht _ hperm]
      · obtain ⟨p, d, hd, d', hd', hedited, hedited', hne⟩ := hclash
        exact absurd (hcoherent.same p d hd d' hd' (.inr hedited) (.inr hedited')) hne
      · rw [houtcome, ht _ hperm]
    · have hnone := fun (order : List UUID) (hperm : order.Perm dependencies) =>
        (Workspace.merged_conflict hbaseline hperm).mpr hdiffer
      refine ⟨fun order hperm' => ?_, fun _ => ?_, fun hfree => absurd hclash hfree⟩
      · rw [horder order hperm', houtcome, hnone order hperm', hnone _ hperm]
      · rw [houtcome, hnone _ hperm]

/-! ## Dependencies of one task -/

def sampleWorkspace (events : List (WorkspaceEvent String String)) : Workspace String String :=
  Workspace.run sampleManager sampleCommit.id { source := sampleSource } events

/-- One dependency edits the tracked file, the other one adds a file. -/
def sampleApart : Workspace String String :=
  sampleWorkspace [.prepare 1 [], .prepare 3 [], .edit 1 (.write "app.py" "2"),
    .edit 3 (.write "new.py" "n")]

theorem sampleApart_concerns (d : UUID) (name : String) (p : String)
    (hlists : (sampleApart.source.worktrees (.task d)).map (fun w =>
      w.others sampleManager.toRules ++ w.differing) = some [name] ∧ sampleApart.edited d = [name])
    (h : sampleApart.source.Provides sampleManager d p ∨ p ∈ sampleApart.edited d) : p = name := by
  rcases h with ⟨w, hw, -, hlisted⟩ | hedited
  · have hmem := mem_append.mpr (hlisted.imp id And.left)
    simp only [hw, map_some, some.injEq] at hlists
    simpa [hlists.1] using hmem
  · simpa [hlists.2] using hedited

theorem sampleApart_provides (h : (sampleApart.source.worktrees (.task d)).any (fun w =>
      decide (sampleManager.Provides w p)) = true) :
    sampleApart.source.Provides sampleManager d p := by
  cases hw : sampleApart.source.worktrees (.task d) with
  | none =>
    rw [hw] at h
    cases h
  | some w =>
    rw [hw] at h
    exact ⟨w, hw, of_decide_eq_true h⟩

theorem integration_loses_nothing_iff_sample :
    sampleApart.LosesNothing sampleManager sampleCommit [1, 3] 2 := by
  have hfirst := fun p => sampleApart_concerns 1 "app.py" p (by decide +kernel)
  have hsecond := fun p => sampleApart_concerns 3 "new.py" p (by decide +kernel)
  refine (integration_loses_nothing_iff sampleManager sampleSource sampleCommit sampleSource_fresh
    [.prepare 1 [], .prepare 3 [], .edit 1 (.write "app.py" "2"), .edit 3 (.write "new.py" "n")]
    sampleApart rfl 2 [1, 3] (by decide +kernel) (by decide +kernel)).mpr (.inl ⟨?_, ?_⟩)
  · intro p d hd d' hd' h h'
    simp only [mem_cons, not_mem_nil, or_false] at hd hd'
    rcases hd with rfl | rfl <;> rcases hd' with rfl | rfl
    · rfl
    · exact absurd ((hfirst p h).symm.trans (hsecond p h')) (by decide)
    · exact absurd ((hfirst p h').symm.trans (hsecond p h)) (by decide)
    · rfl
  · intro p d hd hedited
    simp only [mem_cons, not_mem_nil, or_false] at hd
    rcases hd with rfl | rfl
    · obtain rfl := hfirst p (.inr hedited)
      exact .inl ⟨1, by simp, sampleApart_provides (by decide +kernel)⟩
    · obtain rfl := hsecond p (.inr hedited)
      exact .inl ⟨3, by simp, sampleApart_provides (by decide +kernel)⟩

def sampleFound (events : List (WorkspaceEvent String String)) (taskId : UUID)
    (dependencies : List UUID) : Option (Option String) :=
  ((sampleWorkspace events).outcome sampleManager sampleCommit dependencies taskId).map
    fun t => t.get? "app.py"

/-- A deletion is undone; of two edits the one of the larger id is taken; and so is a
copy that its owner has only inherited. -/
theorem integration_loses_edits :
    sampleFound [.prepare 1 [], .edit 1 (.delete "app.py")] 9 [1] = some (some "1") ∧
    sampleFound [.prepare 1 [], .prepare 2 [], .edit 1 (.write "app.py" "2"),
      .edit 2 (.write "app.py" "3")] 9 [1, 2] = some (some "3") ∧
    sampleFound [.prepare 1 [], .edit 1 (.write "app.py" "2"), .prepare 2 [1], .prepare 3 [1],
      .edit 2 (.write "app.py" "3")] 9 [2, 3] = some (some "2") := by
  decide +kernel

end AutoSwe
