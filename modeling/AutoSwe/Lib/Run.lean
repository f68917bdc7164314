import Mathlib

/-!
# Runs of a labelled step function

`Reach step ok init` holds of the states that a run from `init` can be in when
every event of the run is one that `ok` permits in the state it happens in.
-/

namespace LabelledRun

open Option

variable {S E : Type}

inductive Reach (step : S → E → Option S) (ok : S → E → Prop) (init : S) : S → Prop
  | start : Reach step ok init init
  | next {s s' : S} {e : E} (before : Reach step ok init s) (permitted : ok s e)
      (result : step s e = some s') : Reach step ok init s'

theorem Reach.invariant {step : S → E → Option S} {ok : S → E → Prop} {I : S → Prop}
    (hinit : I init) (hstep : ∀ {s s' e}, I s → ok s e → step s e = some s' → I s')
    (h : Reach step ok init s) : I s := by
  induction h with
  | start => exact hinit
  | next _ hok hres ih => exact hstep ih hok hres

theorem Reach.departs {step : S → E → Option S} {ok : S → E → Prop} {I : S → Prop}
    (h : Reach step ok init s) (hinit : I init) (hs : ¬ I s) :
    ∃ s₁ e s₂, Reach step ok init s₁ ∧ I s₁ ∧ ok s₁ e ∧ step s₁ e = some s₂ ∧ ¬ I s₂ ∧
      Reach step ok s₂ s := by
  induction h with
  | start => exact absurd hinit hs
  | @next s₃ s₄ e hbefore hok hstep ih =>
    by_cases hin : I s₃
    · exact ⟨s₃, e, s₄, hbefore, hin, hok, hstep, hs, .start⟩
    · obtain ⟨s₁, e₁, s₂, hfirst, hin₁, hok₁, hstep₁, hout, hrest⟩ := ih hin
      exact ⟨s₁, e₁, s₂, hfirst, hin₁, hok₁, hstep₁, hout, .next hrest hok hstep⟩

theorem Reach.foldlM (h : Reach step ok init s) (events : List E) (hok : ∀ e ∈ events, ∀ s, ok s e)
    (hrun : events.foldlM step s = some s') : Reach step ok init s' := by
  induction events generalizing s with
  | nil =>
    cases hrun
    exact h
  | cons e events ih =>
    obtain ⟨s₁, hstep, hrest⟩ := bind_eq_some_iff.mp hrun
    refine ih (.next h (hok e List.mem_cons_self s) hstep) ?_ hrest
    exact fun e' he' => hok e' (List.mem_cons_of_mem e he')

/-- The state after a list of events that each pass a check in the state they
happen in. -/
def checkedRun (step : S → E → Option S) (check : S → E → Bool) : List E → S → Option S
  | [], s => some s
  | e :: events, s => if check s e then (step s e).bind (checkedRun step check events) else none

theorem Reach.checkedRun (hcheck : ∀ s e, check s e = true → ok s e) (h : Reach step ok init s)
    (events : List E) (hrun : LabelledRun.checkedRun step check events s = some s') :
    Reach step ok init s' := by
  induction events generalizing s with
  | nil =>
    cases hrun
    exact h
  | cons e events ih =>
    simp only [LabelledRun.checkedRun] at hrun
    split at hrun
    · rename_i hok
      obtain ⟨s₁, hstep, hrest⟩ := bind_eq_some_iff.mp hrun
      exact ih (.next h (hcheck s e hok) hstep) hrest
    · cases hrun

section
variable {step : S → E → Option S} {ok : S → E → Prop} {init : S}

theorem Reach.run (events : List E) (hok : ∀ e ∈ events, ∀ s, ok s e)
    (h : (events.foldlM step init).isSome) : Reach step ok init ((events.foldlM step init).get h) :=
  .foldlM .start events hok (some_get h).symm

theorem Reach.checked {check : S → E → Bool} (hcheck : ∀ s e, check s e = true → ok s e)
    (events : List E) (h : (LabelledRun.checkedRun step check events init).isSome) :
    Reach step ok init ((LabelledRun.checkedRun step check events init).get h) :=
  .checkedRun hcheck .start events (some_get h).symm

end

theorem eq_some_get {found : Option α} (h : found.isSome) : found = some (found.get h) :=
  (some_get h).symm

theorem exists_of_any {P : α → Prop} [DecidablePred P] {found : Option α}
    (h : found.any (fun a => decide (P a)) = true) : ∃ a, found = some a ∧ P a :=
  let ⟨a, ha, hP⟩ := any_eq_true _ _ |>.mp h
  ⟨a, ha, of_decide_eq_true hP⟩

end LabelledRun
