import AutoSwe.Lib.Process

/-!
# What a process has done

The log of a process is the list of the steps that it made, each with the store and the input that
it met; between two steps the store can change in any way (`Traced`). `Logged` is the rule for logs:
it holds of a program by its structure, and every process of a fleet has a log that was made in the
run (`Fleet.traced`). A process that runs alone can be cut off after any number of steps (`cutOff`).
-/

namespace Coroutine

open List Fleet LabelledRun

/-- One step of a process. -/
structure Made (S I A : Type) where
  store : S
  input : I
  action : A

variable {A : Type} {B : A → Type} {ε α β M S I E : Type}
  {act : S → I → (a : A) → Except ε (B a) × S}

/-- `p` becomes the second process by the steps of the log. -/
inductive Traced (act : S → I → (a : A) → Except ε (B a) × S) (p : Process A B ε α) :
    List (Made S I A) → Process A B ε α → Prop
  | start : Traced act p [] p
  | step {log : List (Made S I A)} {a : A} {next : Except ε (B a) → Process A B ε α}
    (before : Traced act p log (.await a next)) (s : S) (input : I) :
    Traced act p (log ++ [⟨s, input, a⟩]) (next (act s input a).1)

namespace Process

/-- Every action is awaited with a log that satisfies `P`, and the process ends with one
that satisfies `Q`. -/
def Logged (act : S → I → (a : A) → Except ε (B a) × S) (P : List (Made S I A) → A → Prop)
    (Q : List (Made S I A) → Except ε α → Prop) : Process A B ε α → List (Made S I A) → Prop
  | .done a, log => Q log (.ok a)
  | .fail e, log => Q log (.error e)
  | .await a next, log => P log a ∧
      ∀ s input, (next (act s input a).1).Logged act P Q (log ++ [⟨s, input, a⟩])

section
variable {P : List (Made S I A) → A → Prop} {Q : List (Made S I A) → Except ε α → Prop}
  {log : List (Made S I A)}

theorem Logged.mono {p : Process A B ε α} {Q' : List (Made S I A) → Except ε α → Prop}
    (h : p.Logged act P Q log) (hQ : ∀ log r, Q log r → Q' log r) : p.Logged act P Q' log := by
  induction p generalizing log with
  | done a => exact hQ _ _ h
  | fail e => exact hQ _ _ h
  | await a next ih => exact ⟨h.1, fun s input => ih _ (h.2 s input)⟩

theorem Logged.bind {p : Process A B ε β} {f : β → Process A B ε α}
    {R : List (Made S I A) → Except ε β → Prop} (h : p.Logged act P R log)
    (hok : ∀ log b, R log (.ok b) → (f b).Logged act P Q log)
    (herror : ∀ log e, R log (.error e) → Q log (.error e)) : (p >>= f).Logged act P Q log := by
  change (p.bind f).Logged act P Q log
  induction p generalizing log with
  | done b => exact hok log b h
  | fail e => exact herror log e h
  | await a next ih => exact ⟨h.1, fun s input => ih _ (h.2 s input)⟩

theorem Logged.perform {a : A} {Q : List (Made S I A) → Except ε (B a) → Prop} (hP : P log a)
    (hQ : ∀ s input, Q (log ++ [⟨s, input, a⟩]) (act s input a).1) :
    (Process.perform a : Process A B ε (B a)).Logged act P Q log := by
  refine ⟨hP, fun s input => ?_⟩
  have hanswer := hQ s input
  cases hact : (act s input a).1 with
  | ok b =>
    rw [hact] at hanswer
    exact hanswer
  | error e =>
    rw [hact] at hanswer
    exact hanswer

theorem Sound.logged {J : List (Made S I A) → Prop} {allowed : A → Prop} {Q : α → Prop}
    (hP : ∀ log a, J log → allowed a → P log a)
    (hJ : ∀ log s input a, J log → allowed a → J (log ++ [⟨s, input, a⟩]))
    {p : Process A B ε α} (h : p.Sound allowed (fun _ _ => True) Q) (hlog : J log) :
    p.Logged act P (fun log _ => J log) log := by
  induction p generalizing log with
  | done a => exact hlog
  | fail e => exact hlog
  | await a next ih =>
    refine ⟨hP log a hlog h.1, fun s input => ?_⟩
    exact ih _ (h.2 _ fun _ _ => trivial) (hJ log s input a hlog h.1)

/-- What the rule says of the awaited actions, it says of the steps of every log. -/
theorem Logged.traced (h : p.Logged act P Q [])
    (htraced : Traced act p log q) : q.Logged act P Q log ∧
      ∀ before made after, log = before ++ made :: after → P before made.action := by
  induction htraced with
  | start => exact ⟨h, by simp⟩
  | @step log a next _ s input ih =>
    obtain ⟨hlogged, hmade⟩ := ih
    refine ⟨hlogged.2 s input, fun before made after hsplit => ?_⟩
    rcases eq_nil_or_concat after with rfl | ⟨after, last, rfl⟩
    · obtain ⟨rfl, hlast⟩ := append_inj' hsplit rfl
      cases hlast
      exact hlogged.1
    · rw [concat_eq_append, ← cons_append, ← append_assoc] at hsplit
      exact hmade before made after (append_inj' hsplit rfl).1

end

/-! ## A process that is cut off -/

/-- What a process that ran alone leaves when it is cut off after `n` steps. -/
def cutOff (act : S → I → (a : A) → Except ε (B a) × S) (inputs : A → I) :
    Nat → Process A B ε α → S → S
  | n + 1, .await a next, s =>
    (next (act s (inputs a) a).1).cutOff act inputs n (act s (inputs a) a).2
  | _, _, s => s

/-- The first `n` steps of the process, run alone, are `R` steps. -/
def Along (R : S → S → Prop) (act : S → I → (a : A) → Except ε (B a) × S) (inputs : A → I) :
    Nat → Process A B ε α → S → Prop
  | n + 1, .await a next, s => R s (act s (inputs a) a).2 ∧
      (next (act s (inputs a) a).1).Along R act inputs n (act s (inputs a) a).2
  | _, _, _ => True

section
variable {inputs : A → I} {R : S → S → Prop} {a : A} {b : B a} {f : B a → Process A B ε α}
  {s s' : S}

theorem cutOff_ok (h : act s (inputs a) a = (.ok b, s')) (n : Nat) :
    (perform a >>= f).cutOff act inputs (n + 1) s = (f b).cutOff act inputs n s' := by
  change ((ofExcept (act s (inputs a) a).1).bind f).cutOff act inputs n (act s (inputs a) a).2 = _
  rw [h]
  rfl

theorem cutOff_last (n : Nat) (c : α) :
    (perform a >>= fun _ => pure c : Process A B ε α).cutOff act inputs (n + 1) s =
      (act s (inputs a) a).2 := by
  change ((ofExcept (act s (inputs a) a).1).bind fun _ => pure c).cutOff act inputs n _ = _
  cases n <;> cases (act s (inputs a) a).1 <;> rfl

theorem along_ok (h : act s (inputs a) a = (.ok b, s')) (n : Nat) :
    (perform a >>= f).Along R act inputs (n + 1) s ↔
      R s s' ∧ (f b).Along R act inputs n s' := by
  change R s (act s (inputs a) a).2 ∧ ((ofExcept (act s (inputs a) a).1).bind f).Along R act inputs
    n (act s (inputs a) a).2 ↔ _
  rw [h]
  rfl

theorem along_last (n : Nat) (c : α) :
    (perform a >>= fun _ => pure c : Process A B ε α).Along R act inputs (n + 1) s ↔
      R s (act s (inputs a) a).2 := by
  change _ ∧ ((ofExcept (act s (inputs a) a).1).bind fun _ => pure c).Along R act inputs n _ ↔ _
  cases n <;> cases (act s (inputs a) a).1 <;> exact and_iff_left trivial

theorem Along.cutOff (hrefl : ∀ s, R s s) (htrans : ∀ {a b c}, R a b → R b c → R a c) :
    ∀ {n : Nat} {p : Process A B ε α} {s : S}, p.Along R act inputs n s →
      R s (p.cutOff act inputs n s)
  | 0, _, s, _ => hrefl s
  | _ + 1, .done _, s, _ => hrefl s
  | _ + 1, .fail _, s, _ => hrefl s
  | _ + 1, .await _ _, _, ⟨hstep, hrest⟩ => htrans hstep (Along.cutOff hrefl htrans hrest)

theorem runAlone_ok (h : act s (inputs a) a = (.ok b, s')) :
    (perform a >>= f).runAlone act inputs s = (f b).runAlone act inputs s' := by
  change ((ofExcept (act s (inputs a) a).1).bind f).runAlone act inputs (act s (inputs a) a).2 = _
  rw [h]
  rfl

theorem runAlone_error (h : act s (inputs a) a = (.error e, s')) :
    (perform a >>= f).runAlone act inputs s = (.error e, s') := by
  change ((ofExcept (act s (inputs a) a).1).bind f).runAlone act inputs (act s (inputs a) a).2 = _
  rw [h]
  rfl

end

end Process

/-- The steps were made in states of the run that ends in `s`. -/
def MadeIn (sys : System M S A B ε α I E)
    (permitted : Fleet M S A B ε α → Event M I E → Prop) (init s : Fleet M S A B ε α)
    (log : List (Made S I A)) : Prop :=
  ∀ made ∈ log, ∃ s₀, Reach (step sys) permitted init s₀ ∧
    Reach (step sys) permitted s₀ s ∧ s₀.store = made.store

/-- Every process of a fleet has a log that it made in the run. -/
theorem Fleet.traced {store : S} (h : Reach (step sys) permitted { store } s) :
    ∀ i m p, s.procs i = some (m, p) → ∃ log, Traced sys.act (sys.body m) log p ∧
      MadeIn sys permitted { store } s log := by
  induction h with
  | start => simp
  | @next s s' e hreach hpermitted hstep ih =>
    intro i m p hi
    have hlater : ∀ log, MadeIn sys permitted { store } s log →
        MadeIn sys permitted { store } s' log := by
      intro log hmade made hmem
      obtain ⟨s₀, hbefore, hafter, hstore⟩ := hmade made hmem
      exact ⟨s₀, hbefore, .next hafter hpermitted hstep, hstore⟩
    obtain ⟨-, hp⟩ | ⟨-, rfl, -⟩ | ⟨input, a, next, -, hp, rfl, -⟩ := step_procs hstep hi
    · obtain ⟨log, htraced, hmade⟩ := ih i m p hp
      exact ⟨log, htraced, hlater log hmade⟩
    · exact ⟨[], .start, by simp [MadeIn]⟩
    · obtain ⟨log, htraced, hmade⟩ := ih i m _ hp
      refine ⟨log ++ [⟨s.store, input, a⟩], htraced.step s.store input, ?_⟩
      intro made hmem
      rcases mem_append.mp hmem with hold | hnew
      · exact hlater log hmade made hold
      · cases mem_singleton.mp hnew
        exact ⟨s, hreach, .next .start hpermitted hstep, rfl⟩

end Coroutine
