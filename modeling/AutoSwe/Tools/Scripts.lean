import AutoSwe.Scheduler.Claims

/-!
# The scripts of the production tools

`search_code` runs a fixed program in the sandbox and returns what it prints.
-/

namespace AutoSwe

open List

/-! ## search_code -/

/-- A path under the base of a search, relative to the worktree. `lines` are those of
the file, unless it cannot be read as UTF-8. -/
structure ListedPath where
  parts : List String
  symlink : Bool
  file : Bool
  lines : Option (List String)

structure SearchMatch where
  path : String
  line : Nat
  text : String

def ListedPath.searched (path : ListedPath) : Bool :=
  !path.symlink && path.file && ".git" ∉ path.parts

def ListedPath.posix (path : ListedPath) : String := String.intercalate "/" path.parts

section
variable (query : String)

/-- `query in line` -/
def occursIn (line : String) : Bool := query.toList <:+: line.toList

/-- The matching lines of a file from line `number` on. -/
def lineMatches (path : String) (number : Nat) : List String → List SearchMatch
  | [] => []
  | line :: rest =>
    if occursIn query line then
      ⟨path, number, clip line 2000⟩ :: lineMatches path (number + 1) rest
    else lineMatches path (number + 1) rest

def pathMatches (path : ListedPath) : List SearchMatch :=
  if path.searched then lineMatches query path.posix 1 (path.lines.getD []) else []

/-- All matching lines, in path and line order. -/
def allMatches (files : List ListedPath) : List SearchMatch := files.flatMap (pathMatches query)

variable (limit : Nat)

/-- The inner loop: it stops at the limit. -/
def searchLines (path : String) (number : Nat) (found : List SearchMatch) :
    List String → List SearchMatch
  | [] => found
  | line :: rest =>
    if occursIn query line then
      let found := found ++ [⟨path, number, clip line 2000⟩]
      if limit ≤ found.length then found else searchLines path (number + 1) found rest
    else searchLines path (number + 1) found rest

/-- The outer loop, over the paths in order: the matches and `truncated`. -/
def searchFiles (found : List SearchMatch) : List ListedPath → List SearchMatch × Bool
  | [] => (found, false)
  | path :: rest =>
    if limit ≤ found.length then (found, true)
    else if path.searched then
      match path.lines with
      | none => searchFiles found rest
      | some lines => searchFiles (searchLines query limit path.posix 1 found lines) rest
    else searchFiles found rest

/-- Without `truncated` nothing is missing, and with it the limit is reached. -/
def SearchHonest (files : List ListedPath) : Prop :=
  let result := searchFiles query limit [] files
  (result.2 = false → result.1 = allMatches query files) ∧
    (result.2 = true → result.1.length = limit)

end

section
variable {query : String} {limit : Nat}

theorem searchLines_eq (path : String) (number : Nat) (lines : List String)
    (h : found.length < limit) : searchLines query limit path number found lines =
      (found ++ lineMatches query path number lines).take limit := by
  induction lines generalizing number found with
  | nil => simp [searchLines, lineMatches, take_of_length_le h.le]
  | cons line rest ih =>
    simp only [searchLines, lineMatches]
    split
    · rw [append_cons found _ (lineMatches ..)]
      split
      · rename_i hfull
        rw [take_append_of_le_length hfull, take_of_length_le (by simp; omega)]
      · exact ih (number + 1) (by omega)
    · exact ih (number + 1) h

/-- One path: what it adds is cut at the limit. -/
theorem searchFiles_cons (path : ListedPath) (rest : List ListedPath) (h : found.length < limit) :
    searchFiles query limit found (path :: rest) =
      searchFiles query limit ((found ++ pathMatches query path).take limit) rest := by
  have hfound : found.take limit = found := take_of_length_le h.le
  rw [searchFiles, if_neg (Nat.not_le.mpr h), pathMatches]
  split
  · cases path.lines with
    | none => simp [lineMatches, hfound]
    | some lines => simp only [Option.getD_some, searchLines_eq path.posix 1 lines h]
  · rw [append_nil, hfound]

theorem searchFiles_eq (found : List SearchMatch) (files : List ListedPath)
    (h : found.length ≤ limit) :
    searchFiles query limit found files = ((found ++ allMatches query files).take limit,
      decide (files ≠ [] ∧ limit ≤ (found ++ allMatches query files.dropLast).length)) := by
  induction files generalizing found with
  | nil => simp [searchFiles, allMatches, take_of_length_le h]
  | cons path rest ih =>
    by_cases hfull : limit ≤ found.length
    · rw [searchFiles, if_pos hfull, take_append_of_le_length hfull, take_of_length_le h]
      simp
      omega
    · rw [searchFiles_cons path rest (Nat.not_le.mp hfull), ih _ (length_take_le _ _)]
      refine Prod.ext ?_ (decide_eq_decide.mpr ?_)
      · simp only [allMatches, flatMap_cons, ← append_assoc]
        generalize found ++ pathMatches query path = known
        rw [take_append, take_append, take_take, Nat.min_self, length_take]
        congr 2
        omega
      · cases rest with
        | nil => simpa [allMatches] using hfull
        | cons next rest =>
          simp [allMatches]
          omega

/-- A search tells what it leaves out exactly when it leaves out nothing or finds
`limit` matches before the last path. -/
theorem search_honest_iff (files : List ListedPath) (query : String) (limit : Nat) :
    SearchHonest query limit files ↔ (allMatches query files).length ≤ limit ∨
      files ≠ [] ∧ limit ≤ (allMatches query files.dropLast).length := by
  have hsearch : searchFiles query limit [] files = _ := searchFiles_eq [] files (Nat.zero_le limit)
  rw [nil_append, nil_append] at hsearch
  simp only [SearchHonest, hsearch, decide_eq_false_iff_not, decide_eq_true_eq, length_take,
    take_eq_self_iff]
  by_cases hcut : files ≠ [] ∧ limit ≤ (allMatches query files.dropLast).length
  · obtain ⟨init, last, rfl⟩ := (eq_nil_or_concat files).resolve_left hcut.1
    simp [allMatches]
    omega
  · simp [hcut]

end

def sampleFile (lines : List String) : ListedPath :=
  ⟨["notes", "todo.txt"], false, true, some lines⟩

/-- With one result allowed, the second matching line of the last file is dropped
and `truncated` is not set. -/
theorem search_hides_match : ∃ files : List ListedPath,
    (allMatches "fix" files).length = 2 ∧
      (searchFiles "fix" 1 [] files).1.length = 1 ∧ (searchFiles "fix" 1 [] files).2 = false :=
  ⟨[sampleFile ["fix a", "fix b"]], by decide⟩

end AutoSwe
