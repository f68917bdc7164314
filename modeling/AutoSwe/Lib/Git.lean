import AutoSwe.Lib.FileTree

/-!
# Git checkouts

What some Git commands do to a checked out branch: `git add --all`,
`git ls-files --others`, `git diff --name-only HEAD` and `git commit`. Paths and
contents are of any type; modes and links are left out.
-/

namespace Git

open FileTree List Option

structure Commit (P C : Type) [LinearOrder P] where
  id : String
  tree : Tree P C
  message : String

/-- A checked out branch: its tip, the commits that were made in the checkout, the
index and the files. -/
structure Checkout (P C : Type) [LinearOrder P] where
  branch : String
  head : Commit P C
  added : List (Commit P C) := []
  index : Tree P C
  files : Tree P C

/-- What the commands depend on besides: `ignores` are the ignore rules, some of
which are files themselves, `plain` are the names that a listing shows as they
are, and `treeHash` is the id of a tree object. -/
structure Rules (P C : Type) [LinearOrder P] where
  ignores : Tree P C → P → Bool
  plain : P → Bool
  treeHash : Tree P C → String

variable {P C : Type} [LinearOrder P]

/-- `git add --all`: the index that results from the given one. -/
def Rules.addAll (rules : Rules P C) (files index : Tree P C) : Tree P C :=
  files.filter fun p => !rules.ignores files p || (index.get? p).isSome

theorem Rules.get?_addAll (rules : Rules P C) (files index : Tree P C) (p : P) :
    (rules.addAll files index).get? p =
      if rules.ignores files p = false ∨ index.get? p ≠ none then files.get? p else none := by
  rw [addAll, Tree.get?_filter]
  refine if_congr ?_ rfl rfl
  simp [isSome_iff_ne_none]

namespace Checkout

/-- `git ls-files --others --exclude-standard`. -/
def others (rules : Rules P C) (w : Checkout P C) : List P :=
  w.files.paths.filter fun p => (w.index.get? p).isNone && !rules.ignores w.files p

theorem mem_others {rules : Rules P C} {w : Checkout P C} {p : P} :
    p ∈ w.others rules ↔
      w.files.get? p ≠ none ∧ w.index.get? p = none ∧ rules.ignores w.files p = false := by
  simp [others, Tree.mem_paths, ne_none_iff_exists']

theorem nodup_others (rules : Rules P C) (w : Checkout P C) : (w.others rules).Nodup :=
  w.files.nodup_paths.filter _

variable (w : Checkout P C)

/-- The file at the path, if the path is tracked. -/
def tracked (p : P) : Option C :=
  if (w.index.get? p).isSome then w.files.get? p else none

variable [DecidableEq C]

/-- `git diff --name-only HEAD`. -/
def differing : List P :=
  ((w.head.tree.paths ++ w.index.paths).dedup.insertionSort (· ≤ ·)).filter fun p =>
    w.tracked p ≠ w.head.tree.get? p

theorem mem_differing {w : Checkout P C} {p : P} :
    p ∈ w.differing ↔ w.tracked p ≠ w.head.tree.get? p := by
  simp only [differing, mem_filter, mem_insertionSort, mem_dedup, mem_append,
    Tree.mem_paths, decide_eq_true_eq, and_iff_right_iff_imp]
  intro hne
  by_contra hnone
  obtain ⟨hhead, hindex⟩ : w.head.tree.get? p = none ∧ w.index.get? p = none := by
    simpa [eq_none_iff_forall_ne_some] using hnone
  exact hne (by simp [tracked, hhead, hindex])

theorem nodup_differing : w.differing.Nodup :=
  ((perm_insertionSort _ _).nodup_iff.mpr (nodup_dedup _)).filter _

/-- `git commit`: the index becomes the new tip, unless it is the tip already. -/
def commit (id message : String) : Option (Checkout P C) :=
  if w.index = w.head.tree then none
  else some { w with
    head := ⟨id, w.index, message⟩
    added := w.added ++ [⟨id, w.index, message⟩] }

end Checkout

end Git
