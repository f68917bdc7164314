import AutoSwe.Domain.Values
import AutoSwe.Lib.Git
import AutoSwe.Lib.Process

/-!
# Managed worktrees

Every task works in a worktree of its own, on a branch that starts at the baseline
commit. A worktree is prepared by copying into it what the worktrees of the
dependencies have over their baseline: the tracked files that the diff lists, and
the untracked files. The release commits the worktree of the last task.

The paths are those of Git, relative and without `..`; the files are regular ones.
-/

namespace AutoSwe

open FileTree Git Coroutine Function

/-- A child of the managed root. -/
inductive ManagedWorktree
  | task (id : UUID)
  | integration (id : UUID)
deriving DecidableEq

def ManagedWorktree.branch : ManagedWorktree → String
  | task id => "autoswe/task/" ++ id.str
  | integration id => "autoswe/integration/" ++ id.str

/-- The source repository with its commits and branches, and the worktrees below the
managed root. -/
structure SourceRepository (P C : Type) [LinearOrder P] where
  commits : List (Commit P C) := []
  branches : String → Option (Commit P C) := fun _ => none
  worktrees : ManagedWorktree → Option (Checkout P C) := fun _ => none

/-- `posix` is the text of a path and `split` is the one of the string class. -/
structure GitWorktreeManager (P C : Type) [LinearOrder P] extends Rules P C where
  posix : P → String
  split : String → List String

def worktreePolicyError (message : String) : Raised := ⟨.worktreePolicyError, message⟩

def isCommitId (text : String) : Bool :=
  40 ≤ text.length && text.length ≤ 64 && text.toList.all ("0123456789abcdef".toList.contains ·)

variable {P C : Type} [LinearOrder P]

namespace SourceRepository

variable (source : SourceRepository P C)

/-- `git worktree add`: a new checkout of the commit on the branch. -/
def addWorktree (destination : ManagedWorktree) (commit : Commit P C) : SourceRepository P C :=
  { source with
    branches := update source.branches destination.branch (some commit)
    worktrees := update source.worktrees destination (some
      { branch := destination.branch, head := commit, index := commit.tree
        files := commit.tree }) }

def setFiles (worktree : ManagedWorktree) (files : Tree P C) : SourceRepository P C :=
  { source with
    worktrees := update source.worktrees worktree
      ((source.worktrees worktree).map ({ · with files })) }

/-- `_create`. What Git writes about a commit that it does not know is left out. -/
def create (destination : ManagedWorktree)
    (baselineCommit : String) : Except Raised (SourceRepository P C) :=
  if ¬ isCommitId baselineCommit then
    .error (worktreePolicyError "baseline commit must be an immutable Git object ID")
  else
    match source.commits.find? fun commit => commit.id = baselineCommit with
    | none => .error (worktreePolicyError "governed Git operation failed: ")
    | some baseline =>
      match source.worktrees destination with
      | some checkout =>
        if checkout.branch ≠ destination.branch then
          .error (worktreePolicyError "existing worktree belongs to another branch")
        else .ok source
      | none =>
        -- the branch may be there without its worktree
        .ok (source.addWorktree destination ((source.branches destination.branch).getD baseline))

def createTaskWorktree (taskId : UUID) (baselineCommit : String) :
    Except Raised (SourceRepository P C) :=
  source.create (.task taskId) baselineCommit

end SourceRepository

/-! ## Integrating dependencies -/

namespace GitWorktreeManager

variable [DecidableEq C] (manager : GitWorktreeManager P C)

/-- The loop over the names of the diff. A name that is listed in quotes, or that
loses blanks at its ends, is no file of the dependency; nor is a deleted one. -/
def copyDiffering (dependency : Checkout P C) (target : Tree P C) : Tree P C :=
  (dependency.differing.filter manager.plain).foldl (fun target rel =>
    match dependency.files.get? rel with
    | some content => target.write rel content
    | none => target) target

/-- `_copy_untracked`, from the given names on. -/
def copyUntracked (dependency : Checkout P C) :
    List P → Tree P C → Except Raised Unit × Tree P C
  | [], target => (.ok (), target)
  | relative :: rest, target =>
    match dependency.files.get? relative with
    | none => (.error (worktreePolicyError
        "untracked dependency content must be a regular file"), target)
    | some content =>
      match target.get? relative with
      | some existing =>
        if existing ≠ content then
          (.error (worktreePolicyError
            ("dependency integration conflict at " ++ manager.posix relative)), target)
        else copyUntracked dependency rest target
      | none => copyUntracked dependency rest (target.write relative content)

def integrateDependency (dependency : Checkout P C) (target : Tree P C) :
    Except Raised Unit × Tree P C :=
  manager.copyUntracked dependency (dependency.others manager.toRules)
    (manager.copyDiffering dependency target)

/-- The loop over the dependencies, in the given order. What was copied stays when a
later copy fails. -/
def integrateEach (source : SourceRepository P C) :
    List UUID → Tree P C → Except Raised Unit × Tree P C
  | [], target => (.ok (), target)
  | dependencyId :: rest, target =>
    match source.worktrees (.task dependencyId) with
    | none => (.error (worktreePolicyError
        ("completed dependency worktree is unavailable: " ++ dependencyId.str)), target)
    | some dependency =>
      match manager.integrateDependency dependency target with
      | (.ok (), target) => integrateEach source rest target
      | (.error e, target) => (.error e, target)

def byId (dependencyIds : List UUID) : List UUID :=
  dependencyIds.insertionSort fun a b => a.int ≤ b.int

def integrateTaskDependencies (source : SourceRepository P C) (target : ManagedWorktree)
    (dependencyIds : List UUID) : Except Raised Unit × SourceRepository P C :=
  match source.worktrees target with
  | none => (.error (worktreePolicyError "target task worktree is unavailable"), source)
  | some checkout =>
    let (result, files) := manager.integrateEach source (byId dependencyIds) checkout.files
    (result, source.setFiles target files)

/-- What `node_executor_factory` does for the worktree of a task. -/
def prepareWorktree (source : SourceRepository P C) (taskId : UUID) (baselineCommit : String)
    (dependencies : List UUID) : Except Raised Unit × SourceRepository P C :=
  match source.createTaskWorktree taskId baselineCommit with
  | .error e => (.error e, source)
  | .ok source =>
    if dependencies = [] then (.ok (), source)
    else manager.integrateTaskDependencies source (.task taskId) dependencies

end GitWorktreeManager

/-! ## Hashing and committing -/

/-- The commands that hash and commit a worktree. `addScratch` is `git add --all` in
an index of its own that starts empty, `promote` copies such an index over the real
one. -/
inductive GitCommand (P C : Type) [LinearOrder P]
  | isDir
  | absoluteGitDir
  | addAll
  | addScratch
  | writeTree (index : Tree P C)
  | promote (index : Tree P C)
  | diffCached
  | commit (message : String)
  | revParseHead

abbrev GitCommand.Result : GitCommand P C → Type
  | .isDir | .diffCached => Bool
  | .addScratch => Tree P C
  | .writeTree _ | .revParseHead => String
  | _ => Unit

/-- What is outside of the model of a command: the id of a commit that it makes, and
a failure, which may come after the command has taken effect. -/
structure GitAnswer where
  commitId : String := ""
  failure : Option Raised := none
  applied : Bool := false

section
variable [DecidableEq C] (manager : GitWorktreeManager P C)

def GitCommand.carryOut (w : Checkout P C) (commitId : String) :
    (command : GitCommand P C) → Except Raised command.Result × Checkout P C
  | .isDir => (.ok true, w)
  | .absoluteGitDir => (.ok (), w)
  | .addAll => (.ok (), { w with index := manager.addAll w.files w.index })
  | .addScratch => (.ok (manager.addAll w.files ∅), w)
  | .writeTree index => (.ok (manager.treeHash index), w)
  | .promote index => (.ok (), { w with index })
  | .diffCached => (.ok (w.index = w.head.tree), w)
  | .commit message =>
    match w.commit commitId message with
    | some w' => (.ok (), w')
    | none => (.error (worktreePolicyError "governed Git operation failed: "), w)
  | .revParseHead => (.ok w.head.id, w)

/-- One command in a worktree, if there is one. -/
def GitCommand.act (worktree : Option (Checkout P C)) (answer : GitAnswer)
    (command : GitCommand P C) : Except Raised command.Result × Option (Checkout P C) :=
  match worktree, command with
  | none, .isDir => (.ok false, none)
  | none, _ => (.error (worktreePolicyError "governed Git operation failed: "), none)
  | some w, command =>
    let (result, w') := command.carryOut manager w answer.commitId
    match answer.failure with
    | none => (result, some w')
    | some error => (.error error, some (if answer.applied then w' else w))

end

abbrev GitProcess (P C : Type) [LinearOrder P] :=
  Process (GitCommand P C) GitCommand.Result Raised

def git (command : GitCommand P C) : GitProcess P C command.Result := Process.perform command

namespace GitWorktreeManager

def worktreeTreeHash : GitProcess P C String := do
  if ← git .isDir then do
    let index ← git .addScratch
    git (.writeTree index)
  else throw (worktreePolicyError "task worktree is unavailable")

/-- The index that is to be committed, with the tree that was reviewed if there is one. -/
def stage : Option String → GitProcess P C Unit
  | none => git .addAll
  | some expectedTreeHash => do
    git .absoluteGitDir
    let index ← git .addScratch
    let actual ← git (.writeTree index)
    if actual ≠ expectedTreeHash then
      throw (worktreePolicyError
        "worktree content changed after approval was granted; refusing to commit")
    else git (.promote index)

def commitStaged (message : String) : GitProcess P C String := do
  let staged ← git .diffCached
  if staged then git .revParseHead
  else do
    git (.commit message)
    git .revParseHead

variable (manager : GitWorktreeManager P C)

def normalized (message : String) : String := String.intercalate " " (manager.split message)

def commitTaskWorktree (message : String) (expectedTreeHash : Option String) :
    GitProcess P C String := do
  if ← git .isDir then
    if manager.normalized message = "" ∨ 300 < (manager.normalized message).length then
      throw (worktreePolicyError "commit message must be a bounded single line")
    else do
      stage expectedTreeHash
      commitStaged (manager.normalized message)
  else throw (worktreePolicyError "approved task worktree is unavailable")

end GitWorktreeManager

/-- A manager over texts: where there are ignore rules, they match what is below
`build`. -/
def sampleManager : GitWorktreeManager String String where
  ignores files p := (files.get? ".gitignore").isSome && p.startsWith "build/"
  plain _ := true
  treeHash tree := String.intercalate ";" (tree.entries.map fun e => e.1 ++ "=" ++ e.2)
  posix := id
  split message := [message]

end AutoSwe
