import Mathlib

/-!
# Finite directed graphs

A graph is given by the list of the successors of every vertex. A list of vertices is sorted if all
successors of a vertex stand before it. `Sweep` is the abstract form of Kahn's algorithm: a sweep
that is stuck has taken everything exactly if the graph has no cycle (`Sweep.complete_iff`).
`IsDepth` is the recursion for the longest chain from a vertex.
-/

namespace Digraph

open List

open Relation (TransGen)

variable {V : Type} {next : V → List V} {vertices l : List V} {v w : V}

def Edge (next : V → List V) (v w : V) : Prop := w ∈ next v

def Acyclic (next : V → List V) : Prop := ∀ v, ¬ TransGen (Edge next) v v

def Sorted (next : V → List V) (l : List V) : Prop :=
  ∀ before v after, l = before ++ v :: after → ∀ w ∈ next v, w ∈ before

theorem Sorted.snoc (h : Sorted next l) (hv : ∀ w ∈ next v, w ∈ l) : Sorted next (l ++ [v]) := by
  intro before x after hl w hw
  rcases eq_nil_or_concat after with rfl | ⟨after, last, rfl⟩
  · obtain ⟨rfl, hx⟩ := append_inj' hl rfl
    cases hx
    exact hv w hw
  · rw [concat_eq_append, ← cons_append, ← append_assoc] at hl
    obtain ⟨hl, -⟩ := append_inj' hl rfl
    exact h before x after hl w hw

theorem Sorted.init (h : Sorted next (l ++ [v])) : Sorted next l ∧ ∀ w ∈ next v, w ∈ l := by
  refine ⟨fun before x after hl w hw => h before x (after ++ [v]) ?_ w hw, h l v [] rfl⟩
  rw [hl, append_assoc, cons_append]

theorem Sorted.mem (h : Sorted next l) (hv : v ∈ l) (hw : w ∈ next v) : w ∈ l := by
  obtain ⟨before, after, hl⟩ := append_of_mem hv
  rw [hl]
  exact mem_append_left _ (h before v after hl w hw)

theorem Sorted.idxOf_lt [DecidableEq V] (h : Sorted next l) (hv : v ∈ l) (hw : w ∈ next v) :
    l.idxOf w < l.idxOf v := by
  refine (mem_take_iff_idxOf_lt (h.mem hv hw)).mp ?_
  have hlt := idxOf_lt_length_of_mem hv
  refine h _ v (l.drop (l.idxOf v + 1)) ?_ w hw
  have hdrop := drop_eq_getElem_cons hlt
  rw [getElem_idxOf] at hdrop
  rw [← hdrop, take_append_drop]

theorem Sorted.acyclic [DecidableEq V] (h : Sorted next l) (hall : ∀ v w, w ∈ next v → v ∈ l) :
    Acyclic next := by
  have hdown : ∀ v w, TransGen (Edge next) v w → l.idxOf w < l.idxOf v := by
    intro v w hvw
    induction hvw with
    | single hedge => exact h.idxOf_lt (hall _ _ hedge) hedge
    | tail _ hedge ih => exact (h.idxOf_lt (hall _ _ hedge) hedge).trans ih
  exact fun v hcycle => Nat.lt_irrefl _ (hdown v v hcycle)

theorem Acyclic.exists_last (h : Acyclic next) {P : V → Prop} (hfinite : ∀ v, P v → v ∈ vertices)
    (hv : P v) : ∃ m, P m ∧ ∀ w ∈ next m, ¬ P w := by
  classical
  have : Finite {v // v ∈ vertices} := vertices.finite_toSet.to_subtype
  let below (a b : {v // v ∈ vertices}) : Prop := TransGen (Edge next) b.1 a.1
  have : IsTrans _ below := ⟨fun _ _ _ hab hbc => hbc.trans hab⟩
  have : Std.Irrefl below := ⟨fun a => h a.1⟩
  have hwf : WellFounded below := Finite.wellFounded_of_trans_of_irrefl below
  obtain ⟨m, hm, hmin⟩ := hwf.has_min {a | P a.1} ⟨⟨v, hfinite v hv⟩, hv⟩
  exact ⟨m.1, hm, fun w hw hP => hmin ⟨w, hfinite w hP⟩ hP (.single hw)⟩

/-- What holds of the successors of `v`, and of those of every vertex it holds of, holds
of everything that `v` reaches. -/
theorem mem_of_reach {P : V → Prop} (hstart : ∀ w ∈ next v, P w)
    (hclosed : ∀ x, P x → ∀ w ∈ next x, P w) (h : TransGen (Edge next) v w) : P w := by
  induction h with
  | single hedge => exact hstart _ hedge
  | tail _ hedge ih => exact hclosed _ ih _ hedge

/-! ## Taking the vertices one after another -/

def Ready (vertices : List V) (next : V → List V) (taken : List V) (v : V) : Prop :=
  v ∈ vertices ∧ v ∉ taken ∧ ∀ w ∈ next v, w ∈ taken

inductive Sweep (vertices : List V) (next : V → List V) : List V → Prop
  | start : Sweep vertices next []
  | take {taken : List V} {v : V} (h : Sweep vertices next taken)
    (hv : Ready vertices next taken v) :
      Sweep vertices next (taken ++ [v])

theorem Sweep.nodup (h : Sweep vertices next l) : l.Nodup := by
  induction h with
  | start => exact nodup_nil
  | take _ hv ih =>
    refine nodup_append'.mpr ⟨ih, nodup_singleton _, ?_⟩
    exact disjoint_singleton.mpr hv.2.1

theorem Sweep.subset (h : Sweep vertices next l) : l ⊆ vertices := by
  induction h with
  | start => exact nil_subset _
  | take _ hv ih =>
    exact append_subset.mpr ⟨ih, cons_subset.mpr ⟨hv.1, nil_subset _⟩⟩

theorem Sweep.sorted (h : Sweep vertices next l) : Sorted next l := by
  induction h with
  | start => exact fun before v after hl => absurd hl (by simp)
  | take _ hv ih => exact ih.snoc hv.2.2

theorem Sweep.length_le (h : Sweep vertices next l) : l.length ≤ vertices.length :=
  (h.nodup.subperm h.subset).length_le

theorem Sweep.perm (h : Sweep vertices next l) (hlength : vertices.length ≤ l.length) :
    l.Perm vertices :=
  (h.nodup.subperm h.subset).perm_of_length_le hlength

theorem Sweep.complete_iff [DecidableEq V] (h : Sweep vertices next l) (hnodup : vertices.Nodup)
    (hclosed : ∀ v w, w ∈ next v → v ∈ vertices ∧ w ∈ vertices)
    (hstuck : ∀ v, ¬ Ready vertices next l v) :
    l.length = vertices.length ↔ Acyclic next := by
  constructor
  · intro hlength
    have hperm := h.perm hlength.ge
    exact h.sorted.acyclic fun v w hw => hperm.mem_iff.mpr (hclosed v w hw).1
  · intro hacyclic
    refine Nat.le_antisymm h.length_le (hnodup.subperm fun v hv => ?_).length_le
    by_contra hleft
    -- the last of the vertices that are left would be ready
    obtain ⟨m, ⟨hm, hmleft⟩, hlast⟩ := hacyclic.exists_last
      (P := fun v => v ∈ vertices ∧ v ∉ l) (fun _ => And.left) ⟨hv, hleft⟩
    refine hstuck m ⟨hm, hmleft, fun w hw => ?_⟩
    by_contra hwleft
    exact hlast w hw ⟨(hclosed m w hw).2, hwleft⟩

/-! ## The longest chain -/

/-- The maximum is an upper bound, and one of the numbers or the start. -/
theorem foldl_max_spec : ∀ (ns : List Nat) (least : Nat),
    (least ≤ ns.foldl max least ∧ ∀ n ∈ ns, n ≤ ns.foldl max least) ∧
      (ns.foldl max least = least ∨ ns.foldl max least ∈ ns)
  | [], least => ⟨⟨Nat.le_refl least, fun _ h => (not_mem_nil h).elim⟩, .inl rfl⟩
  | n :: ns, least => by
    obtain ⟨⟨hleast, hall⟩, hone⟩ := foldl_max_spec ns (max least n)
    refine ⟨⟨(Nat.le_max_left least n).trans hleast, ?_⟩, ?_⟩
    · exact forall_mem_cons.mpr ⟨(Nat.le_max_right least n).trans hleast, hall⟩
    · rcases hone with hone | hone
      · rw [foldl_cons, hone]
        rcases max_choice least n with h | h
        · exact .inl h
        · rw [h]
          exact .inr mem_cons_self
      · exact .inr (mem_cons_of_mem _ hone)

/-- One more than the deepest successor. -/
def IsDepth (next : V → List V) (l : List V) (depth : V → Nat) : Prop :=
  ∀ v ∈ l, depth v = 1 + ((next v).map depth).foldl max 0

theorem IsDepth.lt (h : IsDepth next l depth) (hv : v ∈ l) (hw : w ∈ next v) :
    depth w < depth v := by
  have hle := (foldl_max_spec ((next v).map depth) 0).1.2 _ (mem_map_of_mem hw)
  rw [h v hv]
  omega

theorem IsDepth.length_le (h : IsDepth next l depth) (hsorted : Sorted next l) :
    ∀ {v : V} {chain : List V}, v ∈ l → (v :: chain).IsChain (Edge next) →
      (v :: chain).length ≤ depth v
  | v, [], hv, _ => by
    rw [h v hv, length_singleton]
    omega
  | v, w :: chain, hv, hchain => by
    obtain ⟨hedge, hchain⟩ := isChain_cons_cons.mp hchain
    have hrest := h.length_le hsorted (hsorted.mem hv hedge) hchain
    have hlt := h.lt hv hedge
    rw [length_cons]
    omega

end Digraph
