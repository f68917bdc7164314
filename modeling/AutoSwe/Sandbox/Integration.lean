import AutoSwe.Sandbox.Worktrees

/-!
# What integration copies

A dependency that is integrated makes changes: it overwrites the tracked files that
its diff lists and asks for its untracked ones. Integrating dependencies replays
their changes one after the other (`integrateEach_completed`). In worktrees that are
at their baseline, as all worktrees of tasks are, a path is tracked by all of them or
by none, so that the changes at one path are of one kind.
-/

namespace AutoSwe

open FileTree Git List Option GitWorktreeManager

variable {P C : Type} [LinearOrder P]

/-! ## Changes of listed files -/

/-- One change for each listed file that there is. -/
def changesOf (kind : C → Change C) (files : Tree P C) (names : List P) : List (P × Change C) :=
  names.filterMap fun p => (files.get? p).map fun c => (p, kind c)

theorem changesAt_changesOf
    (hnames : names.Nodup) (p : P) : changesAt p (changesOf kind files names) =
      if p ∈ names then ((files.get? p).map kind).toList else [] := by
  induction names with
  | nil => rfl
  | cons q rest ih =>
    obtain ⟨hq, hrest⟩ := nodup_cons.mp hnames
    have hcons : changesOf kind files (q :: rest) =
        ((files.get? q).map fun c => (q, kind c)).toList ++ changesOf kind files rest := by
      cases hfile : files.get? q <;> simp [changesOf, hfile]
    rw [hcons, changesAt_append, ih hrest]
    by_cases hp : p = q
    · subst hp
      cases files.get? p <;> simp [changesAt, hq]
    · have hnone : changesAt p ((files.get? q).map fun c => (q, kind c)).toList = [] := by
        cases files.get? q <;> simp [changesAt, Ne.symm hp]
      simp [hnone, hp]

variable [DecidableEq C]

/-- The files after an integration that was not given up. -/
def completedTree : Except Raised Unit × Tree P C → Option (Tree P C)
  | (.ok (), files) => some files
  | (.error _, _) => none

namespace GitWorktreeManager

variable (manager : GitWorktreeManager P C)

def changes (w : Checkout P C) : List (P × Change C) :=
  changesOf .overwrite w.files (w.differing.filter manager.plain) ++
    changesOf .ensure w.files (w.others manager.toRules)

theorem copyDiffering_replay (w : Checkout P C) (target : Tree P C) :
    replay (changesOf .overwrite w.files (w.differing.filter manager.plain)) target =
      some (manager.copyDiffering w target) := by
  unfold copyDiffering
  generalize w.differing.filter manager.plain = names
  induction names generalizing target with
  | nil => rfl
  | cons p rest ih =>
    cases hfile : w.files.get? p with
    | none => simpa [changesOf, hfile] using ih target
    | some c => simpa [changesOf, hfile, replay, Change.after] using ih (target.write p c)

theorem copyUntracked_completed (hnames : ∀ p ∈ names, w.files.get? p ≠ none) (target : Tree P C) :
    completedTree (manager.copyUntracked w names target) =
      replay (changesOf .ensure w.files names) target := by
  induction names generalizing target with
  | nil => rfl
  | cons p rest ih =>
    have hrest := ih fun q hq => hnames q (mem_cons_of_mem _ hq)
    obtain ⟨c, hfile⟩ := ne_none_iff_exists'.mp (hnames p mem_cons_self)
    have hcons : changesOf .ensure w.files (p :: rest) =
        (p, .ensure c) :: changesOf .ensure w.files rest := by
      simp [changesOf, hfile]
    rw [hcons, replay, copyUntracked, hfile]
    cases htarget : target.get? p with
    | none => exact hrest (target.write p c)
    | some existing =>
      by_cases hsame : existing = c
      · subst hsame
        simp only [Change.after, if_true, bind_some, ne_eq, not_true_eq_false, if_false,
          hrest, Tree.write_present htarget]
      · simp [Change.after, hsame, completedTree]

theorem integrateDependency_completed (w : Checkout P C) (target : Tree P C) :
    completedTree (manager.integrateDependency w target) = replay (manager.changes w) target := by
  rw [changes, replay_append, copyDiffering_replay, bind_some]
  exact manager.copyUntracked_completed (fun p hp => (Checkout.mem_others.mp hp).1) _

/-- The changes of the dependencies in the given order. -/
def changesOfEach (source : SourceRepository P C) (order : List UUID) : List (P × Change C) :=
  order.flatMap fun id => ((source.worktrees (.task id)).map manager.changes).getD []

theorem integrateEach_completed
    (horder : ∀ id ∈ order, source.worktrees (.task id) ≠ none) (target : Tree P C) :
    completedTree (manager.integrateEach source order target) =
      replay (manager.changesOfEach source order) target := by
  induction order generalizing target with
  | nil => rfl
  | cons id rest ih =>
    have hrest := ih fun id hid => horder id (mem_cons_of_mem _ hid)
    obtain ⟨w, hw⟩ := ne_none_iff_exists'.mp (horder id mem_cons_self)
    have hcons : manager.changesOfEach source (id :: rest) =
        manager.changes w ++ manager.changesOfEach source rest := by
      simp [changesOfEach, hw]
    rw [hcons, replay_append, ← integrateDependency_completed, integrateEach, hw]
    dsimp only
    obtain ⟨result, files⟩ := manager.integrateDependency w target
    cases result with
    | ok _ => exact hrest files
    | error e => rfl

/-! ## Changes at one path -/

/-- The worktree has a file at the path that is copied: an untracked one that is not
ignored, or a tracked one that differs from the tip and has a plain name. -/
def Provides (w : Checkout P C) (p : P) : Prop :=
  w.files.get? p ≠ none ∧
    (p ∈ w.others manager.toRules ∨ p ∈ w.differing ∧ manager.plain p = true)

instance (w : Checkout P C) (p : P) : Decidable (manager.Provides w p) :=
  inferInstanceAs (Decidable (_ ∧ _))

end GitWorktreeManager

/-- A worktree as it was created but for its files. -/
structure AtBaseline (baseline : Commit P C) (w : Checkout P C) : Prop where
  head : w.head = baseline
  index : w.index = baseline.tree

/-- The change by which a file comes to a worktree at the baseline. -/
def changeKind (baseline : Tree P C) (p : P) : C → Change C :=
  if (baseline.get? p).isSome then .overwrite else .ensure

omit [DecidableEq C] in
theorem content_changeKind (baseline : Tree P C) (p : P) (c : C) :
    (changeKind baseline p c).content = c := by
  unfold changeKind
  split <;> rfl

namespace AtBaseline

variable {baseline : Commit P C} {w : Checkout P C} (manager : GitWorktreeManager P C)

theorem changesAt_changes (h : AtBaseline baseline w) (p : P) :
    changesAt p (manager.changes w) =
      if manager.Provides w p then ((w.files.get? p).map (changeKind baseline.tree p)).toList
      else [] := by
  rw [changes, changesAt_append,
    changesAt_changesOf (w.nodup_differing.filter _), changesAt_changesOf (w.nodup_others _)]
  simp only [mem_filter]
  have hothers : p ∈ w.others manager.toRules → baseline.tree.get? p = none := fun hp => by
    rw [← h.index]
    exact (Checkout.mem_others.mp hp).2.1
  have hdiffering : p ∈ w.differing → (baseline.tree.get? p).isSome = true := fun hp => by
    by_contra hnone
    refine Checkout.mem_differing.mp hp ?_
    simp [Checkout.tracked, h.index, h.head, not_isSome_iff_eq_none.mp hnone]
  cases hfile : w.files.get? p with
  | none => simp
  | some c =>
    by_cases hp : p ∈ w.others manager.toRules
    · have hnot : p ∉ w.differing := fun hd => by simpa [hothers hp] using hdiffering hd
      simp [Provides, changeKind, hfile, hp, hnot, hothers hp]
    · by_cases hd : p ∈ w.differing ∧ manager.plain p = true
      · simp [Provides, changeKind, hfile, hp, hd, hdiffering hd.1]
      · simp [Provides, hfile, hp, hd]

end AtBaseline

namespace GitWorktreeManager

variable {manager : GitWorktreeManager P C} {source : SourceRepository P C} {baseline : Commit P C}
  (hbaseline : ∀ id w, source.worktrees (.task id) = some w → AtBaseline baseline w)

include hbaseline

theorem mem_changesAt : change ∈ changesAt p (manager.changesOfEach source order) ↔
      ∃ id ∈ order, ∃ w c, source.worktrees (.task id) = some w ∧ manager.Provides w p ∧
        w.files.get? p = some c ∧ change = changeKind baseline.tree p c := by
  have hflat : changesAt p (manager.changesOfEach source order) = order.flatMap fun id =>
      changesAt p (((source.worktrees (.task id)).map manager.changes).getD []) := by
    simp only [changesAt, changesOfEach, filter_flatMap, map_flatMap]
  rw [hflat, mem_flatMap]
  refine exists_congr fun id => and_congr_right fun _ => ?_
  cases hw : source.worktrees (.task id) with
  | none => simp [changesAt]
  | some w =>
    simp only [map_some, getD_some, (hbaseline id w hw).changesAt_changes]
    by_cases hprovides : manager.Provides w p
    · cases hfile : w.files.get? p <;> simp [hprovides, hfile]
    · simp [hprovides]

theorem changesAt_eq_nil : changesAt p (manager.changesOfEach source order) = [] ↔
      ∀ id ∈ order, ∀ w, source.worktrees (.task id) = some w → ¬ manager.Provides w p := by
  rw [eq_nil_iff_forall_not_mem]
  constructor
  · intro h id hid w hw hprovides
    obtain ⟨c, hfile⟩ := ne_none_iff_exists'.mp hprovides.1
    exact h _ ((mem_changesAt hbaseline).mpr ⟨id, hid, w, c, hw, hprovides, hfile, rfl⟩)
  · intro h change hchange
    obtain ⟨id, hid, w, c, hw, hprovides, -⟩ := (mem_changesAt hbaseline).mp hchange
    exact h id hid w hw hprovides

theorem uniform_changesAt (order : List UUID) (p : P) :
    Uniform (changesAt p (manager.changesOfEach source order)) := by
  cases htracked : (baseline.tree.get? p).isSome with
  | true =>
    refine .inl fun change hchange => ?_
    obtain ⟨-, -, -, c, -, -, -, rfl⟩ := (mem_changesAt hbaseline).mp hchange
    exact ⟨c, by simp [changeKind, htracked]⟩
  | false =>
    refine .inr fun change hchange => ?_
    obtain ⟨-, -, -, c, -, -, -, rfl⟩ := (mem_changesAt hbaseline).mp hchange
    exact ⟨c, by simp [changeKind, htracked]⟩

end GitWorktreeManager

end AutoSwe
