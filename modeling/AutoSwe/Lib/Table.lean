import Mathlib

/-!
# Tables with a primary key

A table is a list of rows in which no two rows share a key. `set` replaces
the row that has the key of the given one, `insert` appends a row whose key
is free, `erase` removes a row; each keeps the keys distinct, so a table that
breaks its primary key cannot be built. The `get?` laws are all that the
clients of a table use.
-/

namespace Relational

open List Function

structure Table (κ ρ : Type) (key : ρ → κ) where
  rows : List ρ
  nodup : (rows.map key).Nodup

namespace Table

variable {κ ρ : Type} {key : ρ → κ}

def empty : Table κ ρ key := ⟨[], nodup_nil⟩

instance : EmptyCollection (Table κ ρ key) := ⟨empty⟩

variable [DecidableEq κ]

def get? (t : Table κ ρ key) (k : κ) : Option ρ := t.rows.find? fun r => key r = k

def set (t : Table κ ρ key) (row : ρ) : Table κ ρ key where
  rows := t.rows.map fun r => if key r = key row then row else r
  nodup := by
    have h : (t.rows.map fun r => if key r = key row then row else r).map key = t.rows.map key := by
      rw [map_map]
      refine map_congr_left fun r _ => ?_
      simp only [comp]
      split
      · rename_i hk; exact hk.symm
      · rfl
    rw [h]
    exact t.nodup

def erase (t : Table κ ρ key) (k : κ) : Table κ ρ key where
  rows := t.rows.filter fun r => key r ≠ k
  nodup := (Sublist.map key filter_sublist).nodup t.nodup

def deleteWhere (t : Table κ ρ key) (p : ρ → Bool) : Table κ ρ key where
  rows := t.rows.filter fun r => !p r
  nodup := (Sublist.map key filter_sublist).nodup t.nodup

/-- Append a row; a row whose key is taken is dropped, and the statement that
inserts it reports the violation. -/
def insert (t : Table κ ρ key) (row : ρ) : Table κ ρ key :=
  if h : key row ∈ t.rows.map key then t
  else ⟨t.rows ++ [row], by
    rw [map_append]
    exact Nodup.append t.nodup (nodup_singleton _) (by simpa using h)⟩

variable {t : Table κ ρ key}

theorem get?_eq_some {k : κ} {r : ρ} :
    t.get? k = some r ↔ r ∈ t.rows ∧ key r = k := by
  constructor
  · intro h
    exact ⟨mem_of_find?_eq_some h, by simpa using find?_some h⟩
  · rintro ⟨hr, rfl⟩
    obtain ⟨rows, nodup⟩ := t
    simp only [get?] at hr ⊢
    induction rows with
    | nil => simp at hr
    | cons x xs ih =>
      obtain ⟨hx, hxs⟩ := nodup_cons.mp nodup
      rcases mem_cons.mp hr with rfl | hr
      · simp
      · have hne : key x ≠ key r := fun he => hx (he ▸ mem_map_of_mem hr)
        simpa [find?_cons, hne] using ih hxs hr

theorem key_of_get? (h : t.get? k = some r) : key r = k :=
  (get?_eq_some.mp h).2

theorem mem_of_get? (h : t.get? k = some r) : r ∈ t.rows :=
  (get?_eq_some.mp h).1

theorem get?_of_mem (h : r ∈ t.rows) : t.get? (key r) = some r :=
  get?_eq_some.mpr ⟨h, rfl⟩

theorem get?_eq_none {k : κ} : t.get? k = none ↔ ∀ r ∈ t.rows, key r ≠ k := by
  simp [get?, find?_eq_none]

theorem filter_key (t : Table κ ρ key) (k : κ) :
    t.rows.filter (fun r => key r = k) = (t.get? k).toList := by
  obtain ⟨rows, nodup⟩ := t
  simp only [get?]
  induction rows with
  | nil => rfl
  | cons x xs ih =>
    obtain ⟨hx, hxs⟩ := nodup_cons.mp nodup
    by_cases hk : key x = k
    · have hrest : xs.filter (fun r => key r = k) = [] := by
        refine filter_eq_nil_iff.mpr fun r hr => ?_
        simpa using fun he : key r = k => hx ((hk.trans he.symm) ▸ mem_map_of_mem hr)
      simp [hk, hrest]
    · simpa [filter_cons, find?_cons, hk] using ih hxs

@[simp] theorem get?_empty (k : κ) : (∅ : Table κ ρ key).get? k = none := rfl

theorem get?_set (t : Table κ ρ key) (row : ρ) (k : κ) :
    (t.set row).get? k = if k = key row then (t.get? k).map fun _ => row else t.get? k := by
  obtain ⟨rows, nodup⟩ := t
  simp only [get?, set]
  clear nodup
  induction rows with
  | nil => simp
  | cons x xs ih =>
    by_cases hx : key x = key row
    · by_cases hk : k = key row
      · simp [hx, hk]
      · simpa [hx, hk, Ne.symm hk] using ih
    · by_cases hxk : key x = k
      · have hk : k ≠ key row := fun h => hx (hxk.trans h)
        simp [hxk, hk]
      · simpa [find?_cons, hx, hxk] using ih

theorem get?_set_self (h : t.get? (key row) = some r) :
    (t.set row).get? (key row) = some row := by
  simp [get?_set, h]

theorem get?_set_ne (t : Table κ ρ key) (h : k ≠ key row) : (t.set row).get? k = t.get? k := by
  simp [get?_set, h]

theorem get?_erase (t : Table κ ρ key) (k' k : κ) :
    (t.erase k').get? k = if k = k' then none else t.get? k := by
  split
  · rename_i hk
    subst hk
    rw [get?_eq_none]
    intro r hr
    simpa using (mem_filter.mp hr).2
  · rename_i hk
    refine Option.ext fun r => ?_
    rw [get?_eq_some, get?_eq_some]
    constructor
    · rintro ⟨hr, he⟩
      exact ⟨(mem_filter.mp hr).1, he⟩
    · rintro ⟨hr, he⟩
      exact ⟨mem_filter.mpr ⟨hr, by simpa [he] using hk⟩, he⟩

@[simp] theorem get?_erase_self (t : Table κ ρ key) (k : κ) : (t.erase k).get? k = none := by
  simp [get?_erase]

theorem get?_deleteWhere (t : Table κ ρ key) (p : ρ → Bool) (k : κ) :
    (t.deleteWhere p).get? k = (t.get? k).filter fun r => !p r := by
  refine Option.ext fun r => ?_
  rw [get?_eq_some, Option.filter_eq_some_iff, get?_eq_some, deleteWhere, mem_filter]
  exact and_right_comm

theorem rows_insert (h : t.get? (key row) = none) :
    (t.insert row).rows = t.rows ++ [row] := by
  have hn : key row ∉ t.rows.map key := by
    intro hm
    obtain ⟨r, hr, he⟩ := mem_map.mp hm
    exact get?_eq_none.mp h r hr he
  simp only [insert, hn, dite_false]

theorem get?_insert (h : t.get? (key row) = none) (k : κ) :
    (t.insert row).get? k = if k = key row then some row else t.get? k := by
  simp only [get?, rows_insert h, find?_append]
  split
  · rename_i hk
    subst hk
    change t.rows.find? _ = none at h
    simp [h]
  · rename_i hk
    simp [Ne.symm hk]

theorem get?_insert_cases (t : Table κ ρ key) (row : ρ) (k : κ) :
    (t.insert row).get? k = t.get? k ∨ (t.insert row).get? k = some row := by
  cases h : t.get? (key row) with
  | none =>
    rw [get?_insert h]
    split
    · exact .inr rfl
    · exact .inl rfl
  | some r =>
    have hmem : key row ∈ t.rows.map key :=
      mem_map.mpr ⟨r, mem_of_get? h, key_of_get? h⟩
    exact .inl (by simp only [insert, hmem, dite_true])

theorem get?_insert_of_some (h : t.get? k = some r) (row : ρ) :
    (t.insert row).get? k = some r := by
  cases hrow : t.get? (key row) with
  | none =>
    have hk : k ≠ key row := by
      rintro rfl
      rw [h] at hrow
      cases hrow
    rw [get?_insert hrow, if_neg hk, h]
  | some other =>
    have hmem : key row ∈ t.rows.map key :=
      mem_map.mpr ⟨other, mem_of_get? hrow, key_of_get? hrow⟩
    simpa only [insert, hmem, dite_true] using h

theorem get?_insert_ne (t : Table κ ρ key) (h : k ≠ key row) :
    (t.insert row).get? k = t.get? k := by
  refine (get?_insert_cases t row k).resolve_right fun hrow => ?_
  exact h (key_of_get? hrow).symm

theorem get?_foldl_insert {σ : Type} (f : σ → ρ) (items : List σ)
    (h : (items.foldl (fun t item => t.insert (f item)) t).get? k = some row) :
    t.get? k = some row ∨ ∃ item ∈ items, row = f item := by
  induction items generalizing t with
  | nil => exact .inl h
  | cons item items ih =>
    rcases ih h with hbefore | ⟨item', hitem', hrow⟩
    · rcases get?_insert_cases t (f item) k with hsame | hnew
      · exact .inl (hsame.symm.trans hbefore)
      · refine .inr ⟨item, mem_cons_self, ?_⟩
        exact (Option.some.inj (hnew.symm.trans hbefore)).symm
    · exact .inr ⟨item', mem_cons_of_mem item hitem', hrow⟩

/-- Insert a row or replace the one that has its key. -/
def put (t : Table κ ρ key) (row : ρ) : Table κ ρ key :=
  match t.get? (key row) with
  | none => t.insert row
  | some _ => t.set row

theorem put_of_none (h : t.get? (key row) = none) :
    t.put row = t.insert row := by
  simp [put, h]

theorem put_of_some (h : t.get? (key row) = some r) :
    t.put row = t.set row := by
  simp [put, h]

theorem get?_put (t : Table κ ρ key) (row : ρ) (k : κ) :
    (t.put row).get? k = if k = key row then some row else t.get? k := by
  cases h : t.get? (key row) with
  | none => rw [put_of_none h, get?_insert h]
  | some r =>
    rw [put_of_some h, get?_set]
    split
    · rename_i hk
      simp [hk, h]
    · rfl

/-- Rewrite the rows that satisfy a condition; the key is not among the columns
that are written. -/
def updateWhere (t : Table κ ρ key) (p : ρ → Bool) (f : ρ → ρ)
    (h : ∀ r, key (f r) = key r) : Table κ ρ key where
  rows := t.rows.map fun r => if p r then f r else r
  nodup := by
    have hkeys : (t.rows.map fun r => if p r then f r else r).map key = t.rows.map key := by
      rw [map_map]
      refine map_congr_left fun r _ => ?_
      simp only [comp]
      split
      · exact h r
      · rfl
    rw [hkeys]
    exact t.nodup

theorem get?_updateWhere (t : Table κ ρ key) (p : ρ → Bool) (f : ρ → ρ)
    (h : ∀ r, key (f r) = key r) (k : κ) :
    (t.updateWhere p f h).get? k = (t.get? k).map fun r => if p r then f r else r := by
  have hkey : ∀ r, key (if p r then f r else r) = key r := by
    intro r
    split
    · exact h r
    · rfl
  simp [get?, updateWhere, find?_map, hkey]

end Table

end Relational
