import Mathlib

/-!
# File trees

A file tree maps the paths of its files to their contents. Its entries stand in the order of their
paths, so that trees with the same files are equal (`Tree.ext_get?`). `replay` brings files into a
tree one after the other. A change either overwrites the file at its path or asks for it, which
fails if another file is there; what happens at one path depends on the changes there only.
-/

namespace FileTree

open List Option Prod

structure Tree (P C : Type) [LinearOrder P] where
  entries : List (P × C)
  sorted : entries.Pairwise fun a b => a.1 < b.1
deriving DecidableEq

variable {P C : Type} [LinearOrder P]

namespace Tree

instance : EmptyCollection (Tree P C) := ⟨⟨[], .nil⟩⟩

variable (t : Tree P C)

def get? (p : P) : Option C := (t.entries.find? fun e => e.1 = p).map snd

def paths : List P := t.entries.map fst

def filter (t : Tree P C) (keep : P → Bool) : Tree P C :=
  ⟨t.entries.filter fun e => keep e.1, t.sorted.filter _⟩

def write (p : P) (c : C) : Tree P C where
  entries := t.entries.filter (fun e => e.1 < p) ++ (p, c) :: t.entries.filter fun e => p < e.1
  sorted := by
    refine pairwise_append.mpr ⟨t.sorted.filter _, pairwise_cons.mpr
      ⟨fun e he => ?_, t.sorted.filter _⟩, fun a ha b hb => ?_⟩
    · simpa using (mem_filter.mp he).2
    · have hap : a.1 < p := by simpa using (mem_filter.mp ha).2
      rcases mem_cons.mp hb with rfl | hb
      · exact hap
      · exact hap.trans (by simpa using (mem_filter.mp hb).2)

def remove (p : P) : Tree P C := t.filter (· ≠ p)

theorem get?_eq_some {t : Tree P C} {p : P} {c : C} :
    t.get? p = some c ↔ (p, c) ∈ t.entries := by
  obtain ⟨entries, sorted⟩ := t
  simp only [get?, map_eq_some_iff, Prod.exists, exists_eq_right]
  constructor
  · rintro ⟨q, hfound⟩
    obtain rfl : q = p := by simpa using find?_some hfound
    exact mem_of_find?_eq_some hfound
  · intro hmem
    induction entries with
    | nil => cases hmem
    | cons e rest ih =>
      obtain ⟨hfirst, hrest⟩ := pairwise_cons.mp sorted
      rcases mem_cons.mp hmem with rfl | hmem
      · exact ⟨p, by simp⟩
      · have hne : e.1 ≠ p := (hfirst (p, c) hmem).ne
        simpa [find?_cons, hne] using ih hrest hmem

theorem mem_paths {t : Tree P C} {p : P} : p ∈ t.paths ↔ ∃ c, t.get? p = some c := by
  simp [paths, get?_eq_some]

theorem nodup_paths : t.paths.Nodup :=
  pairwise_map.mpr (t.sorted.imp fun h => h.ne)

theorem ext_get? {t u : Tree P C} (h : ∀ p, t.get? p = u.get? p) : t = u := by
  have hmem : ∀ e, e ∈ t.entries ↔ e ∈ u.entries := by
    intro e
    rw [← get?_eq_some (p := e.1), ← get?_eq_some (p := e.1), h]
  have hnodup : ∀ v : Tree P C, v.entries.Nodup := fun v =>
    v.sorted.imp fun hlt heq => hlt.ne (congrArg fst heq)
  have hperm := (perm_ext_iff_of_nodup (hnodup t) (hnodup u)).mpr hmem
  obtain ⟨entries, sorted⟩ := t
  obtain ⟨entries', sorted'⟩ := u
  congr
  exact hperm.eq_of_pairwise (fun a b _ _ hab hba => absurd hab hba.asymm) sorted sorted'

@[simp] theorem get?_empty : (∅ : Tree P C).get? p = none := rfl

theorem get?_filter (keep : P → Bool) (p : P) :
    (t.filter keep).get? p = if keep p then t.get? p else none := by
  refine ext fun c => ?_
  by_cases hp : keep p <;> simp [get?_eq_some, filter, hp]

theorem get?_write (p : P) (c : C) (q : P) :
    (t.write p c).get? q = if q = p then some c else t.get? q := by
  refine ext fun d => ?_
  rw [get?_eq_some]
  rcases lt_trichotomy q p with hq | rfl | hq
  · simp [write, hq, hq.ne, hq.asymm, get?_eq_some]
  · simp [write, eq_comm]
  · simp [write, hq, hq.ne', hq.asymm, get?_eq_some]

theorem write_present {t : Tree P C} {p : P} {c : C} (h : t.get? p = some c) : t.write p c = t := by
  refine ext_get? fun q => ?_
  rw [get?_write]
  split
  · rename_i hq
    rw [hq, h]
  · rfl

theorem get?_remove (p q : P) : (t.remove p).get? q = if q = p then none else t.get? q := by
  by_cases hq : q = p <;> simp [remove, get?_filter, hq]

end Tree

/-! ## Changes -/

inductive Change (C : Type)
  | overwrite (content : C)
  | ensure (content : C)

def Change.content : Change C → C
  | overwrite c | ensure c => c

def changesAt (p : P) (changes : List (P × Change C)) : List (Change C) :=
  (changes.filter fun change => change.1 = p).map snd

theorem changesAt_cons_self (p : P) (change : Change C) (rest : List (P × Change C)) :
    changesAt p ((p, change) :: rest) = change :: changesAt p rest := by
  simp [changesAt]

theorem changesAt_cons_ne (h : q ≠ p) (change : Change C) (rest : List (P × Change C)) :
    changesAt q ((p, change) :: rest) = changesAt q rest := by
  simp [changesAt, Ne.symm h]

theorem changesAt_append (p : P) (changes changes' : List (P × Change C)) :
    changesAt p (changes ++ changes') = changesAt p changes ++ changesAt p changes' := by
  simp [changesAt]

variable [DecidableEq C]

/-- The file after the change, or a conflict. -/
def Change.after : Change C → Option C → Option C
  | overwrite c, _ => some c
  | ensure c, none => some c
  | ensure c, some d => if d = c then some c else none

/-- What changes make of one file. -/
def settle : List (Change C) → Option C → Option (Option C)
  | [], file => some file
  | change :: rest, file => (change.after file).bind fun c => settle rest (some c)

def replay : List (P × Change C) → Tree P C → Option (Tree P C)
  | [], t => some t
  | (p, change) :: rest, t => (change.after (t.get? p)).bind fun c => replay rest (t.write p c)

theorem replay_eq_some {changes : List (P × Change C)} {t u : Tree P C} :
    replay changes t = some u ↔ ∀ p, settle (changesAt p changes) (t.get? p) = some (u.get? p) := by
  induction changes generalizing t with
  | nil =>
    constructor
    · rintro ⟨⟩ p
      rfl
    · exact fun h => congrArg some (Tree.ext_get? fun p => some.inj (h p))
  | cons head rest ih =>
    obtain ⟨q, change⟩ := head
    simp only [replay]
    cases hafter : change.after (t.get? q) with
    | none =>
      refine ⟨nofun, fun h => ?_⟩
      have hq := h q
      rw [changesAt_cons_self, settle, hafter] at hq
      cases hq
    | some c =>
      simp only [bind_some, ih]
      refine forall_congr' fun p => ?_
      by_cases hp : p = q
      · subst hp
        rw [changesAt_cons_self, settle, hafter, Tree.get?_write, if_pos rfl, bind_some]
      · rw [changesAt_cons_ne hp, Tree.get?_write, if_neg hp]

theorem replay_append (changes changes' : List (P × Change C)) (t : Tree P C) :
    replay (changes ++ changes') t = (replay changes t).bind (replay changes') := by
  induction changes generalizing t with
  | nil => rfl
  | cons head rest ih =>
    obtain ⟨p, change⟩ := head
    simp only [cons_append, replay]
    cases change.after (t.get? p) with
    | none => rfl
    | some c => exact ih _

theorem replay_exists (changes : List (P × Change C)) (t : Tree P C)
    (h : ∀ p, settle (changesAt p changes) (t.get? p) ≠ none) : ∃ u, replay changes t = some u := by
  induction changes generalizing t with
  | nil => exact ⟨t, rfl⟩
  | cons head rest ih =>
    obtain ⟨q, change⟩ := head
    have hq := h q
    rw [changesAt_cons_self, settle] at hq
    simp only [replay]
    cases hafter : change.after (t.get? q) with
    | none => exact absurd (by rw [hafter]; rfl) hq
    | some c =>
      rw [hafter] at hq
      refine ih (t.write q c) fun p => ?_
      rw [Tree.get?_write]
      split
      · rename_i hp
        subst hp
        exact hq
      · rename_i hp
        have hother := h p
        rwa [changesAt_cons_ne hp] at hother

/-! ## Changes of one file -/

variable {changes : List (Change C)} {file result : Option C} {c : C}

theorem Change.content_of_after {change : Change C} (h : change.after file = some c) :
    change.content = c := by
  cases change with
  | overwrite d => exact some.inj h
  | ensure d =>
    cases file with
    | none => exact some.inj h
    | some e =>
      simp only [after] at h
      split at h
      · exact some.inj h
      · cases h

theorem Change.after_content (change : Change C) :
    change.after (some change.content) = some change.content := by
  cases change <;> simp [after, content]

theorem settle_append (changes changes' : List (Change C)) (file : Option C) :
    settle (changes ++ changes') file = (settle changes file).bind (settle changes') := by
  induction changes generalizing file with
  | nil => rfl
  | cons change rest ih =>
    simp only [cons_append, settle]
    cases change.after file with
    | none => rfl
    | some c => exact ih (some c)

theorem settle_of_after (h : ∀ change ∈ changes, change.after file = some c) :
    settle changes file = some (if changes = [] then file else some c) := by
  induction changes generalizing file with
  | nil => rfl
  | cons change rest ih =>
    have hrest : ∀ change ∈ rest, change.after (some c) = some c := fun change hmem => by
      have hcontent := change.content_of_after (h change (mem_cons_of_mem _ hmem))
      rw [← hcontent]
      exact change.after_content
    simp only [settle, h change mem_cons_self, bind_some, ih hrest]
    simp

theorem settle_concat_overwrite (h : settle (changes ++ [.overwrite c]) file = some result) :
    result = some c := by
  rw [settle_append] at h
  obtain ⟨before, -, hlast⟩ := bind_eq_some_iff.mp h
  exact (some.inj hlast).symm

theorem settle_ensures_present (hchanges : ∀ change ∈ changes, ∃ c, change = .ensure c)
    (h : settle changes (some c) = some result) : result = some c := by
  induction changes with
  | nil => exact (some.inj h).symm
  | cons change rest ih =>
    obtain ⟨d, rfl⟩ := hchanges change mem_cons_self
    obtain ⟨e, hafter, hsettle⟩ := bind_eq_some_iff.mp h
    simp only [Change.after] at hafter
    split at hafter
    · rename_i heq
      obtain rfl : c = e := heq.trans (some.inj hafter)
      exact ih (fun change hmem => hchanges change (mem_cons_of_mem _ hmem)) hsettle
    · cases hafter

theorem settle_ensures (hchanges : ∀ change ∈ changes, ∃ c, change = .ensure c)
    (h : settle changes file = some result) :
    ∀ change ∈ changes, result = some change.content := by
  induction changes generalizing file with
  | nil => simp
  | cons change rest ih =>
    have hrest : ∀ change ∈ rest, ∃ c, change = .ensure c :=
      fun change hmem => hchanges change (mem_cons_of_mem _ hmem)
    obtain ⟨c, hafter, hsettle⟩ := bind_eq_some_iff.mp h
    intro other hmem
    rcases mem_cons.mp hmem with rfl | hmem
    · rw [Change.content_of_after hafter]
      exact settle_ensures_present hrest hsettle
    · exact ih hrest hsettle other hmem

theorem settle_overwrites (hchanges : ∀ change ∈ changes, ∃ c, change = .overwrite c)
    (hne : changes ≠ []) (file file' : Option C) : settle changes file = settle changes file' := by
  cases changes with
  | nil => exact absurd rfl hne
  | cons change rest =>
    obtain ⟨c, rfl⟩ := hchanges change mem_cons_self
    rfl

theorem settle_overwrites_ne_none (hchanges : ∀ change ∈ changes, ∃ c, change = .overwrite c)
    (file : Option C) : settle changes file ≠ none := by
  induction changes generalizing file with
  | nil => exact nofun
  | cons change rest ih =>
    obtain ⟨c, rfl⟩ := hchanges change mem_cons_self
    exact ih (fun change hmem => hchanges change (mem_cons_of_mem _ hmem)) (some c)

/-- Changes of one kind, as they come from files that are all tracked or all not. -/
def Uniform (changes : List (Change C)) : Prop :=
  (∀ change ∈ changes, ∃ c, change = .overwrite c) ∨ ∀ change ∈ changes, ∃ c, change = .ensure c

/-- Uniform changes meet no conflict with what they have made themselves. -/
theorem settle_again (hchanges : Uniform changes) (h : settle changes file = some result) :
    settle changes result = some result := by
  by_cases hne : changes = []
  · subst hne
    rfl
  rcases hchanges with hchanges | hchanges
  · rwa [settle_overwrites hchanges hne result file]
  · obtain ⟨change, hmem⟩ := exists_mem_of_ne_nil changes hne
    have hresult := settle_ensures hchanges h
    rw [hresult change hmem]
    refine (settle_of_after (c := change.content) fun other hother => ?_).trans (by rw [if_neg hne])
    rw [← some.inj ((hresult other hother).symm.trans (hresult change hmem))]
    exact other.after_content

/-- Uniform changes spare no file but the one that they have made themselves. -/
theorem settle_fixed (hchanges : Uniform changes) (hne : changes ≠ [])
    (h : settle changes file = some result)
    (hother : settle changes other = some other) : other = result := by
  rcases hchanges with hchanges | hchanges
  · rw [settle_overwrites hchanges hne other file, h] at hother
    exact (some.inj hother).symm
  · obtain ⟨change, hmem⟩ := exists_mem_of_ne_nil changes hne
    rw [settle_ensures hchanges h change hmem, settle_ensures hchanges hother change hmem]

/-- Uniform changes are replayed onto a tree that was edited in between. They spare
the edited files just if there are no changes at their paths or the edits have
left what the changes had made. -/
theorem replay_again {changes : List (P × Change C)} {t u : Tree P C} (t' : Tree P C)
    (edited : P → Prop) (huniform : ∀ p, Uniform (changesAt p changes))
    (h : replay changes t = some u)
    (hrest : ∀ p, ¬ edited p → t'.get? p = u.get? p) :
    (∃ u', replay changes t' = some u' ∧ ∀ p, edited p → u'.get? p = t'.get? p) ↔
      ∀ p, edited p → changesAt p changes = [] ∨ t'.get? p = u.get? p := by
  constructor
  · rintro ⟨u', hu', hspared⟩ p hp
    have hsettle := replay_eq_some.mp hu' p
    rw [hspared p hp] at hsettle
    by_cases hne : changesAt p changes = []
    · exact .inl hne
    · exact .inr (settle_fixed (huniform p) hne (replay_eq_some.mp h p) hsettle)
  · intro hspared
    have hsettle : ∀ p, settle (changesAt p changes) (t'.get? p) = some (t'.get? p) := by
      intro p
      have hmade : t'.get? p = u.get? p →
          settle (changesAt p changes) (t'.get? p) = some (t'.get? p) := by
        intro hsame
        rw [hsame]
        exact settle_again (huniform p) (replay_eq_some.mp h p)
      by_cases hp : edited p
      · rcases hspared p hp with hnone | hsame
        · rw [hnone]
          rfl
        · exact hmade hsame
      · exact hmade (hrest p hp)
    exact ⟨t', replay_eq_some.mpr hsettle, fun _ _ => rfl⟩

end FileTree
