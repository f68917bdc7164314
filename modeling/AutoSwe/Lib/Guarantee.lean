import AutoSwe.Lib.Process

/-!
# Rely and guarantee

Processes of one fleet that each keep to a guarantee `G` as long as the others
do: `Obeys` is the rule for one process, whose steps may use what it knows of
the store although the others go on, and `Fleet.guarantee` its adequacy. What
happens to the store over any part of a run is then a sequence of `G`-steps.
-/

namespace Coroutine

open Relation Process

variable {A : Type} {B : A → Type} {ε α β M S I E : Type}

namespace Process

/-- Others keep to the guarantee between the steps of a process. -/
def Setting.under (act : S → I → (a : A) → Except ε (B a) × S) (permits : S → I → A → Prop)
    (G : S → S → Prop) : Setting S A B ε I where
  act := act
  permits := permits
  meanwhile _ := ReflTransGen G
  refl _ _ := .refl
  trans h h' := h.trans h'

/-- In the setting, every step of the process is one of `G`, and it ends with `Q`. -/
def Obeys (σ : Setting S A B ε I) (G : S → S → Prop) (Q : Except ε α → S → Prop) :
    Process A B ε α → S → Prop
  | .done a, s => Q (.ok a) s
  | .fail e, s => Q (.error e) s
  | .await a next, s => ∀ s', σ.meanwhile a s s' → ∀ input, σ.permits s' input a →
      G s' (σ.act s' input a).2 ∧ (next (σ.act s' input a).1).Obeys σ G Q (σ.act s' input a).2

section
variable {σ : Setting S A B ε I} {G : S → S → Prop} {Q : Except ε α → S → Prop}

theorem Obeys.bind {p : Process A B ε β} {f : β → Process A B ε α} {R : Except ε β → S → Prop}
    (h : p.Obeys σ G R s) (hok : ∀ b s, R (.ok b) s → (f b).Obeys σ G Q s)
    (herror : ∀ e s, R (.error e) s → Q (.error e) s) : (p >>= f).Obeys σ G Q s := by
  change (p.bind f).Obeys σ G Q s
  induction p generalizing s with
  | done b => exact hok b s h
  | fail e => exact herror e s h
  | await a next ih =>
    intro s' hs input hpermits
    obtain ⟨hG, hnext⟩ := h s' hs input hpermits
    exact ⟨hG, ih _ hnext⟩

theorem Obeys.perform {a : A} {Q : Except ε (B a) → S → Prop}
    (h : ∀ s', σ.meanwhile a s s' → ∀ input, σ.permits s' input a →
      G s' (σ.act s' input a).2 ∧ Q (σ.act s' input a).1 (σ.act s' input a).2) :
    (perform a).Obeys σ G Q s := by
  intro s' hs input hpermits
  obtain ⟨hG, hQ⟩ := h s' hs input hpermits
  refine ⟨hG, ?_⟩
  generalize σ.act s' input a = outcome at hQ ⊢
  obtain ⟨answer, store⟩ := outcome
  cases answer <;> exact hQ

/-- What every step of the guarantee preserves holds at the end, too. -/
theorem Obeys.stable {act : S → I → (a : A) → Except ε (B a) × S} {permits : S → I → A → Prop}
    {J : S → Prop} (hJ : ∀ s s', G s s' → J s → J s') {p : Process A B ε α}
    (h : p.Obeys (.under act permits G) G Q s) (hs : J s) :
    p.Obeys (.under act permits G) G (fun r s => Q r s ∧ J s) s := by
  induction p generalizing s with
  | done a => exact ⟨h, hs⟩
  | fail e => exact ⟨h, hs⟩
  | await a next ih =>
    intro s' hmeanwhile input hpermits
    obtain ⟨hG, hnext⟩ := h s' hmeanwhile input hpermits
    have hs' : J s' := by
      clear hpermits hG hnext
      induction hmeanwhile with
      | refl => exact hs
      | tail _ hstep ih => exact hJ _ _ hstep ih
    exact ⟨hG, ih _ hnext (hJ _ _ hG hs')⟩

theorem Sound.obeys {P : A → Prop} {ok : (a : A) → B a → Prop} {R : α → Prop}
    {p : Process A B ε α}
    (hP : ∀ a, P a → ∀ s input, σ.permits s input a → G s (σ.act s input a).2)
    (hok : ∀ s input a b, (σ.act s input a).1 = .ok b → ok a b)
    (h : p.Sound P ok R) (s : S) : p.Obeys σ G (fun _ _ => True) s := by
  induction p generalizing s with
  | done a => trivial
  | fail e => trivial
  | await a next ih =>
    intro s' _ input hpermits
    exact ⟨hP a h.1 s' input hpermits, ih _ (h.2 _ fun b hb => hok s' input a b hb) _⟩

end

end Process

namespace Fleet

section
variable {sys : System M S A B ε α I E} {permits : S → I → A → Prop} {G : S → S → Prop}
  {permitted : Fleet M S A B ε α → Event M I E → Prop} {s s' : Fleet M S A B ε α}

/-- Every process of the fleet keeps to the guarantee. -/
def AllObey (sys : System M S A B ε α I E) (permits : S → I → A → Prop) (G : S → S → Prop)
    (s : Fleet M S A B ε α) : Prop :=
  ∀ i m p, s.procs i = some (m, p) →
    p.Obeys (Setting.under sys.act permits G) G (fun _ _ => True) s.store

/-- What has to be verified of the processes and of the environment. -/
structure Guaranteed (sys : System M S A B ε α I E) (permits : S → I → A → Prop)
    (G : S → S → Prop) (permitted : Fleet M S A B ε α → Event M I E → Prop) : Prop where
  refl : ∀ s, G s s
  body : ∀ m s, (sys.body m).Obeys (Setting.under sys.act permits G) G (fun _ _ => True) s
  aside : ∀ s input a, sys.aside s input a = s
  environment : ∀ s e, permitted s (.environment e) → G s.store (sys.environment s.store e)
  resume : ∀ s i input m a next, permitted s (.resume i input) →
    s.procs i = some (m, .await a next) → permits s.store input a

theorem AllObey.others {store : S} (h : AllObey sys permits G s) (hG : G s.store store) :
    AllObey sys permits G { s with store } := by
  intro i m p hp
  have hobeys := h i m p hp
  cases p with
  | done a => trivial
  | fail e => trivial
  | await => exact fun s' hs => hobeys s' (ReflTransGen.head hG hs)

theorem AllObey.update (h : AllObey sys permits G s) (m : M)
    (hp : p.Obeys (Setting.under sys.act permits G) G (fun _ _ => True) s.store) :
    AllObey sys permits G { s with procs := Function.update s.procs i (some (m, p)) } := by
  intro j m' p' hj
  by_cases hij : j = i
  · subst hij
    obtain ⟨rfl, rfl⟩ : m = m' ∧ p = p' := by simpa using hj
    exact hp
  · exact h j m' p' (by simpa [hij] using hj)

theorem AllObey.step (hsys : Guaranteed sys permits G permitted) (h : AllObey sys permits G s)
    (hpermitted : permitted s e) (hstep : step sys s e = some s') :
    G s.store s'.store ∧ AllObey sys permits G s' := by
  cases step_cases hstep with
  | environment e =>
    have hG := hsys.environment s e hpermitted
    exact ⟨hG, h.others hG⟩
  | spawn i m => exact ⟨hsys.refl _, h.update m (hsys.body m s.store)⟩
  | resume i input hi =>
    obtain ⟨hG, hnext⟩ := h i _ _ hi s.store .refl input
      (hsys.resume s i input _ _ _ hpermitted hi)
    exact ⟨hG, (h.others hG).update _ hnext⟩
  | aside =>
    rw [hsys.aside]
    exact ⟨hsys.refl _, h⟩

/-- Adequacy: from a fleet whose processes keep to the guarantee, a run changes
the store along the guarantee. -/
theorem guarantee (hsys : Guaranteed sys permits G permitted) (h : AllObey sys permits G s)
    (hreach : LabelledRun.Reach (step sys) permitted s s') :
    ReflTransGen G s.store s'.store ∧ AllObey sys permits G s' := by
  induction hreach with
  | start => exact ⟨.refl, h⟩
  | next _ hpermitted hstep ih =>
    obtain ⟨hG, hobey⟩ := ih.2.step hsys hpermitted hstep
    exact ⟨ih.1.tail hG, hobey⟩

end

end Fleet

end Coroutine
