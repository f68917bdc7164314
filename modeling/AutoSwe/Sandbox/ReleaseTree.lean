import AutoSwe.Sandbox.Worktrees

/-!
# The tree of a release

The tree that is hashed for the approval and committed after it is staged in an
index that starts empty, where `git add --all` finds no tracked files. It keeps the
files that nobody has touched just if none of them is ignored
(`release_tree_keeps_untouched`): a tracked file that the ignore rules match is
deleted by the release (`release_drops_ignored_file`).
-/

namespace AutoSwe

open FileTree Git Coroutine Process GitWorktreeManager

variable {P C : Type} [LinearOrder P]

/-- The tree has every file of the tip that is as it was. -/
def KeepsUntouched (w : Checkout P C) (tree : Tree P C) : Prop :=
  ∀ p c, w.head.tree.get? p = some c → w.files.get? p = some c → tree.get? p = some c

/-- The tree that is hashed and committed. -/
def GitWorktreeManager.scratchTree (manager : GitWorktreeManager P C) (w : Checkout P C) :
    Tree P C :=
  manager.addAll w.files ∅

theorem GitWorktreeManager.get?_scratchTree (manager : GitWorktreeManager P C) (w : Checkout P C)
    (p : P) : (manager.scratchTree w).get? p =
      if manager.ignores w.files p = false then w.files.get? p else none := by
  simp [scratchTree, Rules.get?_addAll]

theorem keepsUntouched_scratchTree {manager : GitWorktreeManager P C} {w : Checkout P C} :
    KeepsUntouched w (manager.scratchTree w) ↔ ∀ p c, w.head.tree.get? p = some c →
      w.files.get? p = some c → manager.ignores w.files p = false := by
  refine forall₄_congr fun p c _ hfile => ?_
  rw [manager.get?_scratchTree, hfile]
  simp

namespace GitWorktreeManager

variable [DecidableEq C] {manager : GitWorktreeManager P C} {inputs : GitCommand P C → GitAnswer}
  {w : Checkout P C} {worktree : Option (Checkout P C)}

theorem act_ok {command : GitCommand P C} {b : command.Result}
    (h : command.act manager (some w) (inputs command) = (.ok b, worktree)) :
    ∃ w', worktree = some w' ∧
      command.carryOut manager w (inputs command).commitId = (.ok b, w') := by
  simp only [GitCommand.act] at h
  split at h
  · obtain ⟨hresult, rfl⟩ := Prod.mk.inj h
    exact ⟨_, rfl, Prod.ext hresult rfl⟩
  · cases h

theorem git_ok {command : GitCommand P C} {b : command.Result}
    (h : (git command).runAlone (GitCommand.act manager) inputs (some w) = (.ok b, worktree)) :
    ∃ w', worktree = some w' ∧
      command.carryOut manager w (inputs command).commitId = (.ok b, w') := by
  rw [git, runAlone_perform] at h
  exact act_ok h

theorem worktreeTreeHash_ok
    (h : worktreeTreeHash.runAlone (GitCommand.act manager) inputs (some w) =
      (.ok treeHash, worktree)) :
    treeHash = manager.treeHash (manager.scratchTree w) ∧ worktree = some w := by
  obtain ⟨_, _, hdir, h⟩ := runAlone_bind_ok.mp h
  obtain ⟨_, rfl, hcommand⟩ := git_ok hdir
  cases hcommand
  obtain ⟨index, _, hindex, h⟩ := runAlone_bind_ok.mp h
  obtain ⟨_, rfl, hcommand⟩ := git_ok hindex
  cases hcommand
  obtain ⟨_, rfl, hcommand⟩ := git_ok h
  cases hcommand
  exact ⟨rfl, rfl⟩

/-- What is staged under a reviewed hash is the tree of that hash. -/
theorem stage_ok (h : (stage (some treeHash)).runAlone (GitCommand.act manager) inputs (some w) =
      (.ok (), worktree)) :
    manager.treeHash (manager.scratchTree w) = treeHash ∧
      worktree = some { w with index := manager.scratchTree w } := by
  obtain ⟨_, _, hdir, h⟩ := runAlone_bind_ok.mp h
  obtain ⟨_, rfl, hcommand⟩ := git_ok hdir
  cases hcommand
  obtain ⟨index, _, hindex, h⟩ := runAlone_bind_ok.mp h
  obtain ⟨_, rfl, hcommand⟩ := git_ok hindex
  cases hcommand
  obtain ⟨actual, _, hactual, h⟩ := runAlone_bind_ok.mp h
  obtain ⟨_, rfl, hcommand⟩ := git_ok hactual
  cases hcommand
  split at h
  · cases h
  · rename_i hsame
    obtain ⟨_, rfl, hcommand⟩ := git_ok h
    cases hcommand
    exact ⟨not_not.mp hsame, rfl⟩

/-- A commit leaves its index as the tree of the tip. -/
theorem commitStaged_ok
    (h : (commitStaged message).runAlone (GitCommand.act manager) inputs (some w) =
      (.ok commit, worktree)) :
    ∃ w', worktree = some w' ∧ w'.head.tree = w.index ∧ w'.head.id = commit := by
  obtain ⟨staged, _, hstaged, h⟩ := runAlone_bind_ok.mp h
  obtain ⟨_, rfl, hcommand⟩ := git_ok hstaged
  cases hcommand
  split at h
  · rename_i hsame
    obtain ⟨_, rfl, hcommand⟩ := git_ok h
    cases hcommand
    exact ⟨w, rfl, (of_decide_eq_true hsame).symm, rfl⟩
  · rename_i hdiffers
    obtain ⟨_, _, hcommit, h⟩ := runAlone_bind_ok.mp h
    obtain ⟨w', rfl, hcommand⟩ := git_ok hcommit
    simp only [GitCommand.carryOut, Checkout.commit, if_neg (of_decide_eq_false
      (Bool.not_eq_true _ ▸ hdiffers))] at hcommand
    cases hcommand
    obtain ⟨_, rfl, hcommand⟩ := git_ok h
    cases hcommand
    exact ⟨_, rfl, rfl, rfl⟩

theorem commitTaskWorktree_ok
    (h : (manager.commitTaskWorktree message (some treeHash)).runAlone (GitCommand.act manager)
      inputs (some w) = (.ok commit, worktree)) :
    ∃ w', worktree = some w' ∧ w'.head.tree = manager.scratchTree w ∧ w'.head.id = commit := by
  obtain ⟨_, _, hdir, h⟩ := runAlone_bind_ok.mp h
  obtain ⟨_, rfl, hcommand⟩ := git_ok hdir
  cases hcommand
  simp only [if_true] at h
  split at h
  · cases h
  · obtain ⟨_, _, hstage, h⟩ := runAlone_bind_ok.mp h
    obtain ⟨-, rfl⟩ := stage_ok hstage
    exact commitStaged_ok h

end GitWorktreeManager

/-! ## Files that nobody has touched -/

theorem release_tree_keeps_untouched [DecidableEq C] (manager : GitWorktreeManager P C)
    (w : Checkout P C) :
    (∀ inputs treeHash worktree, worktreeTreeHash.runAlone
        (GitCommand.act manager) inputs (some w) = (.ok treeHash, worktree) →
      treeHash = manager.treeHash (manager.scratchTree w)) ∧
    ((KeepsUntouched w (manager.scratchTree w) ∧
      ∀ message treeHash inputs commit w',
        (manager.commitTaskWorktree message (some treeHash)).runAlone (GitCommand.act manager)
          inputs (some w) = (.ok commit, some w') →
        KeepsUntouched w w'.head.tree) ↔
      ∀ p c, w.head.tree.get? p = some c → w.files.get? p = some c →
        manager.ignores w.files p = false) := by
  refine ⟨fun inputs treeHash worktree h => (worktreeTreeHash_ok h).1, ?_⟩
  rw [← keepsUntouched_scratchTree]
  refine and_iff_left_of_imp fun hkept message treeHash inputs commit w' h => ?_
  obtain ⟨_, ⟨⟩, htree, -⟩ := commitTaskWorktree_ok h
  rwa [htree]

/-! ## An ignored file -/

def sampleBaseline : Tree String String :=
  ((∅ : Tree String String).write ".gitignore" "build/").write "build/app.js" "1"

def sampleCheckout : Checkout String String where
  branch := "autoswe/task/1"
  head := ⟨"base", sampleBaseline, "baseline"⟩
  index := sampleBaseline
  files := sampleBaseline

def sampleRelease : Except Raised String × Option (Checkout String String) :=
  (sampleManager.commitTaskWorktree "release"
    (some (sampleManager.treeHash (sampleManager.scratchTree sampleCheckout)))).runAlone
      (GitCommand.act sampleManager) (fun _ => { commitId := "release" }) (some sampleCheckout)

theorem release_drops_ignored_file :
    sampleCheckout.head.tree.get? "build/app.js" = some "1" ∧
    sampleCheckout.files.get? "build/app.js" = some "1" ∧
    sampleRelease.1 = .ok "release" ∧
    (sampleRelease.2.map fun w' => w'.head.tree.get? "build/app.js") = some none := by
  decide +kernel

end AutoSwe
