import AutoSwe.Lib.Run

/-!
# Processes over a shared store

A process awaits actions one after the other and goes on with what each of them returned or failed
with. A fleet is any number of processes over one store: in every step one of them resumes, one does
something on the side while it waits, a new one is spawned, or the environment changes the store.

`Sound` is the rule for what a process awaits: it holds of a program by its structure, and of every
process of a fleet in every run (`Fleet.sound`).
-/

namespace Coroutine

open Function LabelledRun

/-- `A` are the actions, `B a` is what the action `a` returns. -/
inductive Process (A : Type) (B : A → Type) (ε α : Type)
  | done (value : α)
  | fail (error : ε)
  | await (a : A) (next : Except ε (B a) → Process A B ε α)

variable {A A' : Type} {B : A → Type} {B' : A' → Type} {ε α β γ M S I E : Type}

namespace Process

def bind : Process A B ε α → (α → Process A B ε β) → Process A B ε β
  | .done a, f => f a
  | .fail e, _ => .fail e
  | .await a next, f => .await a fun answer => (next answer).bind f

def catching : Process A B ε α → (ε → Process A B ε α) → Process A B ε α
  | .done a, _ => .done a
  | .fail e, handler => handler e
  | .await a next, handler => .await a fun answer => (next answer).catching handler

instance : Monad (Process A B ε) where
  pure := .done
  bind := .bind

instance : MonadExcept ε (Process A B ε) where
  throw := .fail
  tryCatch := .catching

def ofExcept : Except ε α → Process A B ε α
  | .ok a => .done a
  | .error e => .fail e

def perform (a : A) : Process A B ε (B a) := .await a ofExcept

def ended : Process A B ε α → Bool
  | .await _ _ => false
  | _ => true

/-- Every action that is awaited satisfies `P` and a result satisfies `Q`, if
what actions return satisfies `ok`. -/
def Sound (P : A → Prop) (ok : (a : A) → B a → Prop) (Q : α → Prop) : Process A B ε α → Prop
  | .done a => Q a
  | .fail _ => True
  | .await a next => P a ∧ ∀ answer, (∀ b, answer = .ok b → ok a b) → (next answer).Sound P ok Q

section
variable {P : A → Prop} {ok : (a : A) → B a → Prop} {Q : α → Prop} {p : Process A B ε α}
  {handler : ε → Process A B ε α}

theorem Sound.bind {f : α → Process A B ε β} {Q' : β → Prop}
    (h : p.Sound P ok Q) (hf : ∀ a, Q a → (f a).Sound P ok Q') : (p >>= f).Sound P ok Q' := by
  change (p.bind f).Sound P ok Q'
  induction p with
  | done a => exact hf a h
  | fail e => trivial
  | await a next ih => exact ⟨h.1, fun answer hok => ih answer (h.2 answer hok)⟩

theorem Sound.tryCatch (h : p.Sound P ok Q) (hh : ∀ e, (handler e).Sound P ok Q) :
    (MonadExcept.tryCatch p handler).Sound P ok Q := by
  change (p.catching handler).Sound P ok Q
  induction p with
  | done a => exact h
  | fail e => exact hh e
  | await a next ih => exact ⟨h.1, fun answer hok => ih answer (h.2 answer hok)⟩

theorem Sound.perform (a : A) (h : P a) : (perform a : Process A B ε (B a)).Sound P ok (ok a) := by
  refine ⟨h, fun answer hok => ?_⟩
  cases answer with
  | ok b => exact hok b rfl
  | error e => trivial

theorem Sound.weaken {P' : A → Prop} {ok' : (a : A) → B a → Prop} (h : p.Sound P ok Q)
    (hP : ∀ a, P a → P' a) (hok : ∀ a b, ok' a b → ok a b) : p.Sound P' ok' Q := by
  induction p with
  | done a => exact h
  | fail e => trivial
  | await a next ih =>
    refine ⟨hP a h.1, fun answer hanswer => ih answer (h.2 answer fun b hb => ?_)⟩
    exact hok a b (hanswer b hb)

theorem Sound.mono {Q' : α → Prop} (h : p.Sound P ok Q) (hQ : ∀ a, Q a → Q' a) :
    p.Sound P ok Q' := by
  induction p with
  | done a => exact hQ a h
  | fail e => trivial
  | await a next ih => exact ⟨h.1, fun answer hok => ih answer (h.2 answer hok)⟩

end

/-! ## Answering an action by a process -/

/-- Go on with how `p` ended. -/
def resume : Process A B ε α → (Except ε α → Process A B ε β) → Process A B ε β
  | .done a, k => k (.ok a)
  | .fail e, k => k (.error e)
  | .await a next, k => .await a fun answer => (next answer).resume k

theorem bind_eq_resume (p : Process A B ε α) (f : α → Process A B ε β) :
    p >>= f = p.resume fun
      | .ok a => f a
      | .error e => .fail e := by
  change p.bind f = _
  induction p with
  | done a => rfl
  | fail e => rfl
  | await a next ih => exact congrArg (Process.await a) (funext ih)

theorem tryCatch_eq_resume (p : Process A B ε α) (handler : ε → Process A B ε α) :
    MonadExcept.tryCatch p handler = p.resume fun
      | .ok a => .done a
      | .error e => handler e := by
  change p.catching handler = _
  induction p with
  | done a => rfl
  | fail e => rfl
  | await a next ih => exact congrArg (Process.await a) (funext ih)

theorem resume_resume (p : Process A B ε α) (k : Except ε α → Process A B ε β)
    (k' : Except ε β → Process A B ε γ) :
    (p.resume k).resume k' = p.resume fun r => (k r).resume k' := by
  induction p with
  | done a => rfl
  | fail e => rfl
  | await a next ih => exact congrArg (Process.await a) (funext ih)

/-- Every awaited action carried out by a process of its own. -/
def interpret (h : (a : A) → Process A' B' ε (B a)) : Process A B ε α → Process A' B' ε α
  | .done a => .done a
  | .fail e => .fail e
  | .await a next => (h a).resume fun answer => (next answer).interpret h

section
variable (h : (a : A) → Process A' B' ε (B a))

theorem interpret_resume (p : Process A B ε α) (k : Except ε α → Process A B ε β) :
    (p.resume k).interpret h = (p.interpret h).resume fun r => (k r).interpret h := by
  induction p with
  | done a => rfl
  | fail e => rfl
  | await a next ih =>
    simp only [resume, interpret, resume_resume]
    exact congrArg (h a).resume (funext ih)

theorem interpret_bind (p : Process A B ε α) (f : α → Process A B ε β) :
    (p >>= f).interpret h = p.interpret h >>= fun a => (f a).interpret h := by
  rw [bind_eq_resume, interpret_resume, bind_eq_resume]
  refine congrArg (p.interpret h).resume (funext fun r => ?_)
  cases r <;> rfl

theorem interpret_tryCatch (p : Process A B ε α) (handler : ε → Process A B ε α) :
    (MonadExcept.tryCatch p handler).interpret h =
      MonadExcept.tryCatch (p.interpret h) fun e => (handler e).interpret h := by
  rw [tryCatch_eq_resume, interpret_resume, tryCatch_eq_resume]
  refine congrArg (p.interpret h).resume (funext fun r => ?_)
  cases r <;> rfl

theorem interpret_perform (a : A) : (perform a).interpret h = h a := by
  have hend : ∀ p : Process A' B' ε (B a),
      (p.resume fun answer => (ofExcept answer).interpret h) = p := by
    intro p
    induction p with
    | done b => rfl
    | fail e => rfl
    | await a' next ih => exact congrArg (Process.await a') (funext ih)
  exact hend (h a)

end

/-! ## Processes under interference -/

/-- What a process can meet: the outcome of its own steps as far as they are
permitted, and what others do to the store while it awaits an action. -/
structure Setting (S A : Type) (B : A → Type) (ε I : Type) where
  act : S → I → (a : A) → Except ε (B a) × S
  permits : S → I → A → Prop
  meanwhile : A → S → S → Prop
  refl : ∀ a s, meanwhile a s s
  trans : ∀ {a s s' s''}, meanwhile a s s' → meanwhile a s' s'' → meanwhile a s s''

/-- In the setting, the process ends with `Q` if it is at `s` now. -/
def wp (σ : Setting S A B ε I) (Q : Except ε α → S → Prop) : Process A B ε α → S → Prop
  | .done a, s => Q (.ok a) s
  | .fail e, s => Q (.error e) s
  | .await a next, s => ∀ s', σ.meanwhile a s s' → ∀ input, σ.permits s' input a →
      (next (σ.act s' input a).1).wp σ Q (σ.act s' input a).2

section
variable {σ : Setting S A B ε I} {Q Q' : Except ε α → S → Prop} {p : Process A B ε α}
  {handler : ε → Process A B ε α} {act : S → I → (a : A) → Except ε (B a) × S} {inputs : A → I}

theorem wp.mono (h : p.wp σ Q s) (hQ : ∀ r s, Q r s → Q' r s) : p.wp σ Q' s := by
  induction p generalizing s with
  | done a => exact hQ _ _ h
  | fail e => exact hQ _ _ h
  | await a next ih =>
    exact fun s' hs input hpermits => ih _ (h s' hs input hpermits)

theorem wp.resume {p : Process A B ε β} {k : Except ε β → Process A B ε α}
    (h : p.wp σ (fun r => (k r).wp σ Q) s) : (p.resume k).wp σ Q s := by
  induction p generalizing s with
  | done b => exact h
  | fail e => exact h
  | await a next ih =>
    exact fun s' hs input hpermits => ih _ (h s' hs input hpermits)

theorem wp.bind {p : Process A B ε β} {f : β → Process A B ε α} {R : Except ε β → S → Prop}
    (h : p.wp σ R s) (hok : ∀ b s, R (.ok b) s → (f b).wp σ Q s)
    (herror : ∀ e s, R (.error e) s → Q (.error e) s) : (p >>= f).wp σ Q s := by
  rw [bind_eq_resume]
  refine (h.mono fun r s hr => ?_).resume
  cases r with
  | ok b => exact hok b s hr
  | error e => exact herror e s hr

theorem wp.tryCatch (h : p.wp σ Q' s) (hok : ∀ a s, Q' (.ok a) s → Q (.ok a) s)
    (herror : ∀ e s, Q' (.error e) s → (handler e).wp σ Q s) :
    (MonadExcept.tryCatch p handler).wp σ Q s := by
  rw [tryCatch_eq_resume]
  refine (h.mono fun r s hr => ?_).resume
  cases r with
  | ok a => exact hok a s hr
  | error e => exact herror e s hr

theorem wp.perform {a : A} {Q : Except ε (B a) → S → Prop}
    (h : ∀ s', σ.meanwhile a s s' → ∀ input, σ.permits s' input a →
      Q (σ.act s' input a).1 (σ.act s' input a).2) : (Process.perform a).wp σ Q s := by
  intro s' hs input hpermits
  have hstep := h s' hs input hpermits
  generalize σ.act s' input a = outcome at hstep ⊢
  obtain ⟨answer, store⟩ := outcome
  cases answer <;> exact hstep

/-! ## A process alone -/

/-- The run of a process that nobody disturbs, when every action is answered by
`inputs`. -/
def runAlone (act : S → I → (a : A) → Except ε (B a) × S) (inputs : A → I) :
    Process A B ε α → S → Except ε α × S
  | .done a, s => (.ok a, s)
  | .fail e, s => (.error e, s)
  | .await a next, s =>
    (next (act s (inputs a) a).1).runAlone act inputs (act s (inputs a) a).2

def Setting.alone (act : S → I → (a : A) → Except ε (B a) × S) (inputs : A → I) :
    Setting S A B ε I where
  act := act
  permits _ input a := input = inputs a
  meanwhile _ s s' := s' = s
  refl _ _ := rfl
  trans h h' := h'.trans h

theorem wp.runAlone (h : p.wp (.alone act inputs) Q s) :
    Q (p.runAlone act inputs s).1 (p.runAlone act inputs s).2 := by
  induction p generalizing s with
  | done a => exact h
  | fail e => exact h
  | await a next ih => exact ih _ (h s rfl _ rfl)

theorem wp.alone {Q : Except ε (B a) → S → Prop}
    (h : Q (act s (inputs a) a).1 (act s (inputs a) a).2) :
    (Process.perform a).wp (.alone act inputs) Q s := by
  refine wp.perform ?_
  rintro s' rfl input rfl
  exact h

theorem runAlone_perform (a : A) (s : S) :
    (Process.perform a).runAlone act inputs s = act s (inputs a) a := by
  simp only [Process.perform, Process.runAlone]
  cases act s (inputs a) a with
  | mk answer s' => cases answer <;> rfl

theorem runAlone_ofExcept (r : Except ε α) (s : S) :
    (ofExcept r : Process A B ε α).runAlone act inputs s = (r, s) := by
  cases r <;> rfl

theorem runAlone_bind_ok {p : Process A B ε β} {f : β → Process A B ε α} :
    (p >>= f).runAlone act inputs s = (.ok a, s') ↔
      ∃ b s₁, p.runAlone act inputs s = (.ok b, s₁) ∧
        (f b).runAlone act inputs s₁ = (.ok a, s') := by
  change (p.bind f).runAlone act inputs s = _ ↔ _
  induction p generalizing s with
  | done b =>
    refine ⟨fun h => ⟨b, s, rfl, h⟩, ?_⟩
    rintro ⟨b, s₁, hb, h⟩
    cases hb
    exact h
  | fail e => simp [Process.bind, Process.runAlone]
  | await a next ih => exact ih _

theorem runAlone_tryCatch_ok :
    (MonadExcept.tryCatch p handler).runAlone act inputs s = (.ok a, s') ↔
      p.runAlone act inputs s = (.ok a, s') ∨ ∃ e s₁, p.runAlone act inputs s = (.error e, s₁) ∧
        (handler e).runAlone act inputs s₁ = (.ok a, s') := by
  change (p.catching handler).runAlone act inputs s = _ ↔ _
  induction p generalizing s with
  | done b => simp [Process.catching, Process.runAlone]
  | fail e =>
    constructor
    · exact fun h => .inr ⟨e, s, rfl, h⟩
    · rintro (h | ⟨e, s₁, he, h⟩)
      · cases h
      · cases he
        exact h
  | await a next ih => exact ih _

theorem Sound.runAlone {P : A → Prop} {ok : (a : A) → B a → Prop} {Q : α → Prop} {R : S → S → Prop}
    (hrefl : ∀ s, R s s) (htrans : ∀ {a b c}, R a b → R b c → R a c)
    (hP : ∀ a, P a → ∀ s, R s (act s (inputs a) a).2)
    (hok : ∀ s a b, (act s (inputs a) a).1 = .ok b → ok a b) (h : p.Sound P ok Q) (s : S) :
    R s (p.runAlone act inputs s).2 := by
  induction p generalizing s with
  | done a => exact hrefl s
  | fail e => exact hrefl s
  | await a next ih =>
    exact htrans (hP a h.1 s) (ih _ (h.2 _ fun b hb => hok s a b hb) _)

section
variable {answer : (a : A) → Process A' B' ε (B a)} {σ : Setting S A' B' ε I}

theorem wp.interpret_perform {a : A} {Q : Except ε (B a) → S → Prop}
    (h : (answer a).wp σ Q s) : ((Process.perform a).interpret answer).wp σ Q s := by
  rwa [Process.interpret_perform]

theorem wp.interpret_bind {p : Process A B ε β} {f : β → Process A B ε α}
    {Q' : Except ε β → S → Prop} (h : (p.interpret answer).wp σ Q' s)
    (hok : ∀ b s, Q' (.ok b) s → ((f b).interpret answer).wp σ Q s)
    (herror : ∀ e s, Q' (.error e) s → Q (.error e) s) :
    ((p >>= f).interpret answer).wp σ Q s := by
  rw [Process.interpret_bind]
  exact h.bind hok herror

theorem wp.interpret_tryCatch (h : (p.interpret answer).wp σ Q' s)
    (hok : ∀ a s, Q' (.ok a) s → Q (.ok a) s)
    (herror : ∀ e s, Q' (.error e) s → ((handler e).interpret answer).wp σ Q s) :
    ((MonadExcept.tryCatch p handler).interpret answer).wp σ Q s := by
  rw [Process.interpret_tryCatch]
  exact h.tryCatch hok herror

end

/-- What others do while a process waits is already accounted for. -/
theorem wp.meanwhile (h : (Process.await a next).wp σ Q s) (hs : σ.meanwhile a s s') :
    (Process.await a next).wp σ Q s' :=
  fun s'' hs' => h s'' (σ.trans hs hs')

/-- The change of the store by others is one that the process is verified for. -/
def Tolerates (σ : Setting S A B ε I) (Q : Except ε α → S → Prop) (s s' : S) :
    Process A B ε α → Prop
  | .done a => Q (.ok a) s → Q (.ok a) s'
  | .fail e => Q (.error e) s → Q (.error e) s'
  | .await a _ => σ.meanwhile a s s'

theorem wp.tolerates (h : p.wp σ Q s) (hs : p.Tolerates σ Q s s') :
    p.wp σ Q s' := by
  cases p with
  | done a => exact hs h
  | fail e => exact hs h
  | await => exact h.meanwhile hs

end

end Process

/-! ## Fleets -/

/-- `M` says what a process was spawned for, `I` is what the outside decides
about one step, `E` is what the environment does. -/
structure System (M S A : Type) (B : A → Type) (ε α I E : Type) where
  body : M → Process A B ε α
  act : S → I → (a : A) → Except ε (B a) × S
  /-- What a process that awaits `a` may do to the store meanwhile. -/
  aside : S → I → A → S
  environment : S → E → S

structure Fleet (M S A : Type) (B : A → Type) (ε α : Type) where
  store : S
  procs : Nat → Option (M × Process A B ε α) := fun _ => none

inductive Event (M I E : Type)
  | environment (e : E)
  | spawn (i : Nat) (m : M)
  | resume (i : Nat) (input : I)
  | aside (i : Nat) (input : I)

namespace Fleet

def step (sys : System M S A B ε α I E) (s : Fleet M S A B ε α) :
    Event M I E → Option (Fleet M S A B ε α)
  | .environment e => some { s with store := sys.environment s.store e }
  | .spawn i m =>
    match s.procs i with
    | none => some { s with procs := update s.procs i (some (m, sys.body m)) }
    | some _ => none
  | .resume i input =>
    match s.procs i with
    | some (m, .await a next) =>
      let (answer, store) := sys.act s.store input a
      some { store, procs := update s.procs i (some (m, next answer)) }
    | _ => none
  | .aside i input =>
    match s.procs i with
    | some (_, .await a _) => some { s with store := sys.aside s.store input a }
    | _ => none

section
variable {sys : System M S A B ε α I E} {permitted : Fleet M S A B ε α → Event M I E → Prop}
  {init s s' : Fleet M S A B ε α} {store : S}

inductive Steps (sys : System M S A B ε α I E) (s : Fleet M S A B ε α) :
    Event M I E → Fleet M S A B ε α → Prop
  | environment (e : E) :
      Steps sys s (.environment e) { s with store := sys.environment s.store e }
  | spawn (i : Nat) (m : M) : Steps sys s (.spawn i m)
      { s with procs := update s.procs i (some (m, sys.body m)) }
  | resume (i : Nat) (input : I) {m : M} {a : A} {next : Except ε (B a) → Process A B ε α}
      (hi : s.procs i = some (m, .await a next)) : Steps sys s (.resume i input)
      { store := (sys.act s.store input a).2
        procs := update s.procs i (some (m, next (sys.act s.store input a).1)) }
  | aside (i : Nat) (input : I) {m : M} {a : A} {next : Except ε (B a) → Process A B ε α}
      (hi : s.procs i = some (m, .await a next)) :
      Steps sys s (.aside i input) { s with store := sys.aside s.store input a }

theorem step_cases (hstep : step sys s e = some s') : Steps sys s e s' := by
  cases e with
  | environment e =>
    cases hstep
    exact .environment e
  | spawn i m =>
    simp only [step] at hstep
    split at hstep <;> cases hstep
    exact .spawn i m
  | resume i input =>
    simp only [step] at hstep
    split at hstep <;> cases hstep
    exact .resume i input ‹_›
  | aside i input =>
    simp only [step] at hstep
    split at hstep <;> cases hstep
    exact .aside i input ‹_›

/-- What a step makes of one process: it leaves it where it was, spawns it, or
resumes it. -/
theorem step_procs (hstep : step sys s e = some s') (hi : s'.procs i = some (m, p)) :
    ((∀ input, e ≠ .resume i input) ∧ s.procs i = some (m, p)) ∨
    (e = .spawn i m ∧ p = sys.body m ∧ s'.store = s.store) ∨
    ∃ input a next, e = .resume i input ∧ s.procs i = some (m, .await a next) ∧
      p = next (sys.act s.store input a).1 ∧ s'.store = (sys.act s.store input a).2 := by
  cases step_cases hstep with
  | environment e => exact .inl ⟨by simp, hi⟩
  | aside => exact .inl ⟨by simp, hi⟩
  | spawn j m' =>
    by_cases hij : i = j
    · subst hij
      obtain ⟨rfl, rfl⟩ : m' = m ∧ sys.body m' = p := by simpa using hi
      exact .inr (.inl ⟨rfl, rfl, rfl⟩)
    · exact .inl ⟨by simp, by simpa [hij] using hi⟩
  | @resume j input m' a next hj =>
    by_cases hij : i = j
    · subst hij
      obtain ⟨rfl, rfl⟩ : m' = m ∧ next (sys.act s.store input a).1 = p := by simpa using hi
      exact .inr (.inr ⟨input, a, next, rfl, hj, rfl, rfl⟩)
    · exact .inl ⟨by simpa using fun h => absurd h.symm hij, by simpa [hij] using hi⟩

/-- What every step preserves of the store holds in every run. -/
theorem store_invariant {J : S → Prop} (hinit : J init.store)
    (henvironment : ∀ s e, permitted s (.environment e) → J s.store → J (sys.environment s.store e))
    (hact : ∀ s i input m a next, permitted s (.resume i input) →
      s.procs i = some (m, .await a next) → J s.store → J (sys.act s.store input a).2)
    (haside : ∀ s i input m a next, permitted s (.aside i input) →
      s.procs i = some (m, .await a next) → J s.store → J (sys.aside s.store input a))
    (h : Reach (step sys) permitted init s) : J s.store := by
  induction h with
  | start => exact hinit
  | @next s s' e _ hpermitted hstep ih =>
    cases step_cases hstep with
    | environment e => exact henvironment s e hpermitted ih
    | spawn => exact ih
    | resume i input hi => exact hact s i input _ _ _ hpermitted hi ih
    | aside i input hi => exact haside s i input _ _ _ hpermitted hi ih

/-- What holds of every process at its start, and goes on to hold after every
answer, holds of every process in every run. -/
theorem hereditary {R : M → Process A B ε α → Prop} (hbody : ∀ m, R m (sys.body m))
    (hnext : ∀ m store input a next, R m (.await a next) → R m (next (sys.act store input a).1))
    (h : Reach (step sys) permitted { store } s) :
    ∀ i m p, s.procs i = some (m, p) → R m p := by
  induction h with
  | start => simp
  | @next s s' e _ _ hstep ih =>
    intro i m p hi
    obtain ⟨-, hp⟩ | ⟨-, rfl, -⟩ | ⟨input, a, next, -, hp, rfl, -⟩ := step_procs hstep hi
    · exact ih i m p hp
    · exact hbody m
    · exact hnext m s.store input a next (ih i m _ hp)

theorem sound {P : M → A → Prop} {ok : (a : A) → B a → Prop} {Q : M → α → Prop}
    (hbody : ∀ m, (sys.body m).Sound (P m) ok (Q m))
    (hact : ∀ store input a b, (sys.act store input a).1 = .ok b → ok a b)
    (h : Reach (step sys) permitted { store } s) :
    ∀ i m p, s.procs i = some (m, p) → p.Sound (P m) ok (Q m) :=
  hereditary hbody (fun _ store input a _ hsound => hsound.2 _ (hact store input a)) h

/-- A process that is verified in its setting ends as it should in every run that
the setting allows for. -/
theorem wp {σ : Process.Setting S A B ε I} (hact : σ.act = sys.act)
    {Q : M → Except ε α → S → Prop} {i : Nat}
    (hstart : ∀ m p, init.procs i = some (m, p) → p.wp σ (Q m) init.store)
    (hspawn : ∀ s m, permitted s (.spawn i m) → (sys.body m).wp σ (Q m) s.store)
    (hresume : ∀ s input m a next, permitted s (.resume i input) →
      s.procs i = some (m, .await a next) → σ.permits s.store input a)
    (hothers : ∀ s e s' m p, permitted s e → step sys s e = some s' →
      (∀ input, e ≠ .resume i input) → s.procs i = some (m, p) →
        p.Tolerates σ (Q m) s.store s'.store)
    (h : Reach (step sys) permitted init s) :
    ∀ m p, s.procs i = some (m, p) → p.wp σ (Q m) s.store := by
  induction h with
  | start => exact hstart
  | @next s s' e _ hpermitted hstep ih =>
    intro m p hi
    obtain ⟨he, hp⟩ | ⟨rfl, rfl, hstore⟩ | ⟨input, a, next, rfl, hp, rfl, hstore⟩ :=
      step_procs hstep hi
    · exact (ih m p hp).tolerates (hothers s e s' m p hpermitted hstep he hp)
    · rw [hstore]
      exact hspawn s m hpermitted
    · have hnext := ih m _ hp s.store (σ.refl a s.store) input
        (hresume s input m a next hpermitted hp)
      rw [hstore]
      rwa [hact] at hnext

end

end Fleet

end Coroutine
