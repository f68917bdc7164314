import AutoSwe.Lib.Run

/-!
# Event sources

A log is the source of a view if whatever happens to the view is in what was
appended to the log. Then the view is the fold of the whole log, in every state
of every run (`Source.replay`).
-/

namespace EventSource

/-- `apply` refuses an event that does not follow from the view. -/
structure Source (D σ E : Type) where
  view : D → σ
  log : D → List E
  apply : σ → E → Option σ

namespace Source

variable {D σ E L : Type} (src : Source D σ E)

/-- The events that were appended lead from the one view to the other. -/
def Advances (d d' : D) : Prop :=
  ∃ events, src.log d' = src.log d ++ events ∧
    events.foldlM src.apply (src.view d) = some (src.view d')

variable {src}

theorem Advances.of_same (hlog : src.log d' = src.log d) (hview : src.view d' = src.view d) :
    src.Advances d d' :=
  ⟨[], by simp [hlog], by simp [hview]⟩

theorem Advances.refl (d : D) : src.Advances d d := .of_same rfl rfl

theorem Advances.trans (h : src.Advances a b) (h' : src.Advances b c) : src.Advances a c := by
  obtain ⟨events, hlog, hview⟩ := h
  obtain ⟨events', hlog', hview'⟩ := h'
  refine ⟨events ++ events', by rw [hlog', hlog, List.append_assoc], ?_⟩
  rw [List.foldlM_append, hview]
  exact hview'

theorem Advances.append (event : E) (hlog : src.log d' = src.log d ++ [event])
    (happly : src.apply (src.view d) event = some (src.view d')) : src.Advances d d' := by
  refine ⟨[event], hlog, ?_⟩
  rw [List.foldlM_cons, happly]
  rfl

/-- The view is the fold of the log, if every step advances it. -/
theorem replay (hstep : ∀ {d d' l}, ok d l → step d l = some d' → src.Advances d d')
    (hinit : src.log init = []) (h : LabelledRun.Reach step ok init d) :
    (src.log d).foldlM src.apply (src.view init) = some (src.view d) := by
  have hadvances : src.Advances init d :=
    h.invariant (.refl init) fun hbefore hok hres => hbefore.trans (hstep hok hres)
  obtain ⟨events, hlog, hview⟩ := hadvances
  rw [hlog, hinit]
  exact hview

end Source

end EventSource
