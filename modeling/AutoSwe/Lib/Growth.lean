import AutoSwe.Lib.Process

/-!
# Processes over a store that grows

What a process may rely on when it awaits an action is often a fact about the
store that no step takes back: that something was recorded earlier. `Growth` is
an order on the stores with what holds of the store whenever an action is
awaited and what an answer guarantees from then on. `Keeps` holds of a program
by its structure, and of every process of a fleet in every run (`Fleet.keeps`).
-/

namespace Coroutine

structure Growth (S A : Type) (B : A → Type) where
  le : S → S → Prop
  refl : ∀ s, le s s
  trans : ∀ {s s' s''}, le s s' → le s' s'' → le s s''
  /-- What holds of the store while the action is awaited. -/
  awaits : S → A → Prop
  /-- What holds of the store once the action has returned. -/
  returns : S → (a : A) → B a → Prop

variable {A : Type} {B : A → Type} {ε α β M S I E : Type}

namespace Process

/-- Wherever the store grows to, the process awaits actions as it may, and ends
with a result that satisfies `Q`. -/
def Keeps (g : Growth S A B) (Q : S → α → Prop) : Process A B ε α → S → Prop
  | .done a, s => Q s a
  | .fail _, _ => True
  | .await a next, s => ∀ s', g.le s s' → g.awaits s' a ∧
      ∀ answer, (∀ b, answer = .ok b → g.returns s' a b) → (next answer).Keeps g Q s'

variable {g : Growth S A B} {Q : S → α → Prop}

theorem Keeps.grow {p : Process A B ε α} (hQ : ∀ s s' a, g.le s s' → Q s a → Q s' a)
    (h : p.Keeps g Q s) (hs : g.le s s') : p.Keeps g Q s' := by
  cases p with
  | done a => exact hQ s s' a hs h
  | fail e => trivial
  | await => exact fun s'' hs' => h s'' (g.trans hs hs')

theorem Keeps.mono {p : Process A B ε α} {Q' : S → α → Prop} (h : p.Keeps g Q s)
    (hQ : ∀ s a, Q s a → Q' s a) : p.Keeps g Q' s := by
  induction p generalizing s with
  | done a => exact hQ s a h
  | fail e => trivial
  | await a next ih =>
    intro s' hs
    exact ⟨(h s' hs).1, fun answer hanswer => ih answer ((h s' hs).2 answer hanswer)⟩

theorem Keeps.bind {p : Process A B ε α} {f : α → Process A B ε β} {Q' : S → β → Prop}
    (h : p.Keeps g Q s) (hf : ∀ a s', g.le s s' → Q s' a → (f a).Keeps g Q' s') :
    (p >>= f).Keeps g Q' s := by
  change (p.bind f).Keeps g Q' s
  induction p generalizing s with
  | done a => exact hf a s (g.refl s) h
  | fail e => trivial
  | await a next ih =>
    intro s' hs
    refine ⟨(h s' hs).1, fun answer hanswer => ?_⟩
    exact ih answer ((h s' hs).2 answer hanswer) fun b s'' hs' => hf b s'' (g.trans hs hs')

theorem Keeps.tryCatch {p : Process A B ε α} {handler : ε → Process A B ε α}
    (h : p.Keeps g Q s) (hh : ∀ e s', g.le s s' → (handler e).Keeps g Q s') :
    (MonadExcept.tryCatch p handler).Keeps g Q s := by
  change (p.catching handler).Keeps g Q s
  induction p generalizing s with
  | done a => exact h
  | fail e => exact hh e s (g.refl s)
  | await a next ih =>
    intro s' hs
    refine ⟨(h s' hs).1, fun answer hanswer => ?_⟩
    exact ih answer ((h s' hs).2 answer hanswer) fun e s'' hs' => hh e s'' (g.trans hs hs')

theorem Keeps.perform (h : ∀ s', g.le s s' → g.awaits s' a) :
    (Process.perform a : Process A B ε (B a)).Keeps g (fun s' => g.returns s' a) s := by
  intro s' hs
  refine ⟨h s' hs, fun answer hanswer => ?_⟩
  cases answer with
  | ok b => exact hanswer b rfl
  | error e => trivial

end Process

/-- Processes that keep to a growth from their start do so in every run, along
with what every step preserves of the store given what its process relies on. -/
theorem Fleet.keeps {sys : System M S A B ε α I E} {g : M → Growth S A B} {J : S → Prop}
    {Q : M → S → α → Prop} (hQ : ∀ m s s' a, (g m).le s s' → Q m s a → Q m s' a)
    {permitted : Fleet M S A B ε α → Event M I E → Prop} {store : S} (hinit : J store)
    (hspawn : ∀ s i m, permitted s (.spawn i m) → J s.store →
      (sys.body m).Keeps (g m) (Q m) s.store)
    (henvironment : ∀ s e, permitted s (.environment e) → J s.store →
      (∀ m, (g m).le s.store (sys.environment s.store e)) ∧ J (sys.environment s.store e))
    (hact : ∀ s i input m a next, permitted s (.resume i input) →
      s.procs i = some (m, .await a next) → (g m).awaits s.store a → J s.store →
        ((∀ m, (g m).le s.store (sys.act s.store input a).2) ∧
          ∀ b, (sys.act s.store input a).1 = .ok b →
            (g m).returns (sys.act s.store input a).2 a b) ∧ J (sys.act s.store input a).2)
    (haside : ∀ s i input m a next, permitted s (.aside i input) →
      s.procs i = some (m, .await a next) → J s.store →
        (∀ m, (g m).le s.store (sys.aside s.store input a)) ∧ J (sys.aside s.store input a))
    (h : LabelledRun.Reach (step sys) permitted { store } s) :
    J s.store ∧ ∀ i m p, s.procs i = some (m, p) → p.Keeps (g m) (Q m) s.store := by
  induction h with
  | start => exact ⟨hinit, by simp⟩
  | @next s s' e _ hpermitted hstep ih =>
    obtain ⟨hJ, ih⟩ := ih
    have hawaits : ∀ {j m a next}, s.procs j = some (m, .await a next) → (g m).awaits s.store a :=
      fun hj => (ih _ _ _ hj s.store ((g _).refl _)).1
    have hgrown : (∀ m, (g m).le s.store s'.store) ∧ J s'.store := by
      cases step_cases hstep with
      | environment e => exact henvironment s e hpermitted hJ
      | spawn => exact ⟨fun m => (g m).refl _, hJ⟩
      | resume j input hj =>
        obtain ⟨⟨hle, -⟩, hJ'⟩ := hact s j input _ _ _ hpermitted hj (hawaits hj) hJ
        exact ⟨hle, hJ'⟩
      | aside j input hj => exact haside s j input _ _ _ hpermitted hj hJ
    refine ⟨hgrown.2, fun i m p hi => ?_⟩
    obtain ⟨-, hp⟩ | ⟨rfl, rfl, hstore⟩ | ⟨input, a, next, rfl, hp, rfl, hstore⟩ :=
      step_procs hstep hi
    · exact (ih i m p hp).grow (hQ m) (hgrown.1 m)
    · rw [hstore]
      exact hspawn s i m hpermitted hJ
    · obtain ⟨⟨hle, hreturns⟩, -⟩ := hact s i input m a next hpermitted hp (hawaits hp) hJ
      rw [hstore]
      exact (ih i m _ hp _ (hle m)).2 _ hreturns

/-- What holds of the store whenever an action of a run is awaited. -/
theorem Fleet.awaits {g : M → Growth S A B} {Q : M → S → α → Prop} {s : Fleet M S A B ε α}
    (h : ∀ i m p, s.procs i = some (m, p) → p.Keeps (g m) (Q m) s.store)
    (hi : s.procs i = some (m, .await a next)) : (g m).awaits s.store a :=
  (h i m _ hi s.store ((g m).refl _)).1

end Coroutine
