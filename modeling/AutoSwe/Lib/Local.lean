import Mathlib

/-!
# Local effects

A state `S` is looked at one key at a time through `view : S → K → V`. A step
is local when it moves the view of one key along the moves that the state
allows and leaves the view of every other key as it is. An effect is a
sequence of local steps; what every move preserves, every effect preserves.
-/

namespace LocalEffect

open Relation

variable {S K V : Type} {view : S → K → V} {move : S → V → V → Prop}

/-- `s'` is `s` with the view of `k` changed by `f`. -/
def Updates (view : S → K → V) (k : K) (f : V → V) (s s' : S) : Prop :=
  view s' k = f (view s k) ∧ ∀ j, j ≠ k → view s' j = view s j

theorem Updates.refl (k : K) (s : S) : Updates view k id s s := ⟨rfl, fun _ _ => rfl⟩

theorem Updates.trans (hf : Updates view k f s s₁) (hg : Updates view k g s₁ s₂) :
    Updates view k (g ∘ f) s s₂ := by
  refine ⟨?_, fun j hj => ?_⟩
  · rw [hg.1, hf.1]
    rfl
  · rw [hg.2 j hj, hf.2 j hj]

theorem Updates.congr (hf : Updates view k f s s') (h : f (view s k) = g (view s k)) :
    Updates view k g s s' :=
  ⟨hf.1.trans h, hf.2⟩

structure Touch (view : S → K → V) (move : S → V → V → Prop) (k : K) (s s' : S) : Prop where
  moves : ReflTransGen (move s) (view s k) (view s' k)
  frame : ∀ j, j ≠ k → view s' j = view s j

theorem Updates.touch (h : Updates view k f s s')
    (hmoves : ReflTransGen (move s) (view s k) (f (view s k))) : Touch view move k s s' :=
  ⟨h.1 ▸ hmoves, h.2⟩

/-- Local steps on keys in `P`, one after the other. -/
def Effect (view : S → K → V) (move : S → V → V → Prop) (P : K → Prop) : S → S → Prop :=
  ReflTransGen fun s s' => ∃ k, P k ∧ Touch view move k s s'

theorem Effect.refl (s : S) : Effect view move P s s := ReflTransGen.refl

theorem Effect.trans (h : Effect view move P s s₁) (h' : Effect view move P s₁ s₂) :
    Effect view move P s s₂ :=
  ReflTransGen.trans h h'

theorem Touch.effect (h : Touch view move k s s') (hk : P k) : Effect view move P s s' :=
  ReflTransGen.single ⟨k, hk, h⟩

theorem Effect.mono (h : Effect view move P s s') (hP : ∀ k, P k → Q k) :
    Effect view move Q s s' := by
  induction h with
  | refl => exact Effect.refl _
  | tail _ hstep ih =>
    obtain ⟨k, hk, ht⟩ := hstep
    exact ih.tail ⟨k, hP k hk, ht⟩

theorem Effect.frame (h : Effect view move P s s') (hj : ¬ P j) : view s' j = view s j := by
  induction h with
  | refl => rfl
  | tail _ hstep ih =>
    obtain ⟨k, hk, ht⟩ := hstep
    rw [ht.frame j fun he => hj (he ▸ hk), ih]

theorem Touch.view_invariant {I : V → Prop} (hmove : ∀ {s v v'}, move s v v' → I v → I v')
    (h : Touch view move k s s') (hI : I (view s j)) : I (view s' j) := by
  by_cases hj : j = k
  · subst hj
    have hmoves := h.moves
    generalize view s' j = v' at hmoves
    induction hmoves with
    | refl => exact hI
    | tail _ hstep ih => exact hmove hstep ih
  · rw [h.frame j hj]
    exact hI

theorem Effect.view_invariant {I : V → Prop} (hmove : ∀ {s v v'}, move s v v' → I v → I v')
    (h : Effect view move P s s') (hI : I (view s j)) : I (view s' j) := by
  induction h with
  | refl => exact hI
  | tail _ hstep ih =>
    obtain ⟨k, _, ht⟩ := hstep
    exact ht.view_invariant hmove ih

theorem Effect.invariant {J : S → Prop} (hstep : ∀ {k s s'}, Touch view move k s s' → J s → J s')
    (h : Effect view move P s s') (hJ : J s) : J s' := by
  induction h with
  | refl => exact hJ
  | tail _ ht ih =>
    obtain ⟨k, _, ht⟩ := ht
    exact hstep ht ih

end LocalEffect
