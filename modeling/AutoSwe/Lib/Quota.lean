import AutoSwe.Lib.Interleave

/-!
# Ceilings over shared rows

A quota bounds the units of the rows of each kind. Rows may go at any time;
they are added only under the lock that guards their kind, after reading that
there is room. A lock may guard several kinds.

`Fits` is the local invariant of a transaction that works like this, and
`Fits.owes` what it gives at the commit. `Room` is what remains true of a
reading of the total for as long as the lock is held.
-/

namespace Transaction

variable {D L ε α β κ ρ : Type}

structure Quota (D L κ ρ : Type) where
  rows : κ → D → Multiset ρ
  units : ρ → Nat
  cap : κ → Nat
  guard : κ → L

namespace Quota

def total (q : Quota D L κ ρ) (k : κ) (d : D) : Nat := ((q.rows k d).map q.units).sum

def Within (q : Quota D L κ ρ) (d : D) : Prop := ∀ k, q.total k d ≤ q.cap k

theorem total_mono {q : Quota D L κ ρ} (h : q.rows k d ≤ q.rows k d') :
    q.total k d ≤ q.total k d' := by
  obtain ⟨more, hmore⟩ := Multiset.le_iff_exists_add.mp h
  simp [total, hmore]

/-- The others keep the ceilings and add nothing that my locks guard. -/
def rely (q : Quota D L κ ρ) : Rely D L where
  rel held d d' := (q.Within d → q.Within d') ∧ ∀ k, q.guard k ∈ held → q.rows k d' ≤ q.rows k d
  refl _ _ := ⟨id, fun _ _ => le_rfl⟩
  trans h h' := ⟨h'.1 ∘ h.1, fun k hk => (h'.2 k hk).trans (h.2 k hk)⟩

/-- A write that takes rows away, the same ones wherever it is replayed. -/
def Shrinks (q : Quota D L κ ρ) (write : D → D) : Prop :=
  ∀ k, (∀ d, q.rows k (write d) ≤ q.rows k d) ∧
    ∀ d d', q.rows k d ≤ q.rows k d' → q.rows k (write d) ≤ q.rows k (write d')

theorem Shrinks.of_eq {q : Quota D L κ ρ} (h : ∀ k d, q.rows k (write d) = q.rows k d) :
    q.Shrinks write :=
  fun k => ⟨fun d => (h k d).le, fun d d' hle => by rw [h, h]; exact hle⟩

structure Fits (q : Quota D L κ ρ) (σ : Local D L) (db : D) : Prop where
  within : q.Within db
  mono : ∀ k d d', q.rows k d ≤ q.rows k d' → q.rows k (σ.own d) ≤ q.rows k (σ.own d')
  unguarded : ∀ k, q.guard k ∉ σ.held → ∀ d, q.rows k (σ.own d) ≤ q.rows k d
  guarded : ∀ k, q.guard k ∈ σ.held → ∀ d, q.rows k d ≤ q.rows k db →
    q.total k (σ.own d) ≤ q.cap k

/-- Over every state that the others can leave, `n` more units fit. -/
def Room (q : Quota D L κ ρ) (σ : Local D L) (db : D) (k : κ) (n : Nat) : Prop :=
  ∀ d, q.rows k d ≤ q.rows k db → q.total k (σ.own d) + n ≤ q.cap k

section
variable {q : Quota D L κ ρ} {σ : Local D L} {db db' : D}

theorem Fits.start (h : q.Within db) : q.Fits {} db where
  within := h
  mono _ _ _ hle := hle
  unguarded _ _ _ := le_rfl
  guarded _ hk := hk.elim

theorem Fits.rely (h : q.Fits σ db) (hr : q.rely.rel σ.held db db') : q.Fits σ db' where
  within := hr.1 h.within
  mono := h.mono
  unguarded := h.unguarded
  guarded k hk d hle := h.guarded k hk d (hle.trans (hr.2 k hk))

theorem Room.rely (h : q.Room σ db k n) (hk : q.guard k ∈ σ.held)
    (hr : q.rely.rel σ.held db db') : q.Room σ db' k n :=
  fun d hle => h d (hle.trans (hr.2 k hk))

theorem Fits.saw (h : q.Fits σ db) (view : D) : q.Fits (σ.saw view) db :=
  ⟨h.within, h.mono, h.unguarded, h.guarded⟩

theorem Fits.took (h : q.Fits σ db) (taken : List L) : q.Fits (σ.took taken) db where
  within := h.within
  mono := h.mono
  unguarded k hk := h.unguarded k fun hheld => hk (.inl hheld)
  guarded k hk d hle := by
    by_cases hheld : q.guard k ∈ σ.held
    · exact h.guarded k hheld d hle
    · calc q.total k (σ.own d) ≤ q.total k d := total_mono (h.unguarded k hheld d)
        _ ≤ q.total k db := total_mono hle
        _ ≤ q.cap k := h.within k

theorem Fits.shrink (h : q.Fits σ db) (hwrite : q.Shrinks (write view)) :
    q.Fits (σ.wrote write view) db where
  within := h.within
  mono k d d' hle := (hwrite k).2 _ _ (h.mono k d d' hle)
  unguarded k hk d := ((hwrite k).1 _).trans (h.unguarded k hk d)
  guarded k hk d hle := (total_mono ((hwrite k).1 _)).trans (h.guarded k hk d hle)

/-- A write that adds rows, only of kinds whose lock is held and that have room. -/
theorem Fits.add (h : q.Fits σ db) (more : κ → Multiset ρ)
    (hwrite : ∀ k d, q.rows k (write view d) = q.rows k d + more k)
    (hroom : ∀ k, more k ≠ 0 →
      q.guard k ∈ σ.held ∧ q.Room σ db k ((more k).map q.units).sum) :
    q.Fits (σ.wrote write view) db where
  within := h.within
  mono k d d' hle := by
    simp only [Local.wrote, hwrite]
    exact add_le_add_left (h.mono k d d' hle) _
  unguarded k hk d := by
    have hnone : more k = 0 := by
      by_contra hmore
      exact hk (hroom k hmore).1
    simp only [Local.wrote, hwrite, hnone, add_zero]
    exact h.unguarded k hk d
  guarded k hk d hle := by
    simp only [Local.wrote, total, hwrite, Multiset.map_add, Multiset.sum_add]
    by_cases hmore : more k = 0
    · simpa [hmore, total] using h.guarded k hk d hle
    · exact (hroom k hmore).2 d hle

theorem Fits.room (h : q.Fits σ db) (hread : q.total k (σ.own db) + n ≤ q.cap k) :
    q.Room σ db k n :=
  fun d hle => (Nat.add_le_add_right (total_mono (h.mono k d db hle)) n).trans hread

/-- A program that only takes rows away keeps the invariant. -/
theorem Fits.writes {p : Prog D L ε α} (h : q.Fits σ db) (hp : p.Writes q.Shrinks) :
    p.wp q.rely (fun _ _ => True) (fun _ => q.Fits) σ db := by
  induction p generalizing σ db with
  | done a => exact fun db' hr => h.rely hr
  | raise e => trivial
  | stmt write next ih => exact fun db' hr => ih _ ((h.rely hr).shrink (hp _).1) (hp _).2
  | lock want next ih =>
    exact fun db' hr => ⟨fun _ _ => trivial, ih _ (((h.rely hr).saw _).took _) (hp _)⟩
  | skipLocked rows limit next ih =>
    exact fun db' hr taken _ => ih _ _ (((h.rely hr).saw _).took taken) (hp _ taken)

theorem Fits.owes (h : q.Fits σ db) : Owes q.rely q.Within σ db := by
  have hwithin : q.Within (σ.own db) := by
    intro k
    by_cases hk : q.guard k ∈ σ.held
    · exact h.guarded k hk db le_rfl
    · exact (total_mono (h.unguarded k hk db)).trans (h.within k)
  refine ⟨hwithin, fun held hdisjoint => ⟨fun _ => hwithin, fun k hk => ?_⟩⟩
  exact h.unguarded k (Set.disjoint_left.mp hdisjoint hk) db

end

end Quota

end Transaction
