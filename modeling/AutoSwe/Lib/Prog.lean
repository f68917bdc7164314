import Mathlib

/-!
# Transaction programs

A transaction is the tree of statements it may issue. A statement sees the current view `D` of its
transaction, adds a write and continues with what it read; a locking read waits for a lock `L`; a
`SKIP LOCKED` read takes rows that nobody else has locked. A write is a function of the view it was
issued under and of the state it is applied to, so that it can be replayed over what others commit.

`run` is the meaning of a transaction that runs alone; with `commit`, an error rolls back.
-/

namespace Transaction

open List

inductive Prog (D L ε α : Type)
  | done (value : α)
  | raise (error : ε)
  | stmt (write : D → D → D) (next : D → Prog D L ε α)
  | lock (want : D → Option L) (next : D → Prog D L ε α)
  | skipLocked (rows : D → List L) (limit : Nat) (next : D → List L → Prog D L ε α)

variable {D L ε α β γ : Type}

namespace Prog

def bind : Prog D L ε α → (α → Prog D L ε β) → Prog D L ε β
  | .done a, f => f a
  | .raise e, _ => .raise e
  | .stmt write next, f => .stmt write fun d => (next d).bind f
  | .lock want next, f => .lock want fun d => (next d).bind f
  | .skipLocked rows limit next, f => .skipLocked rows limit fun d taken => (next d taken).bind f

instance : Monad (Prog D L ε) where
  pure := .done
  bind := .bind

/-! ## Statements -/

def query (read : D → α) : Prog D L ε α :=
  .stmt (fun _ d => d) fun d => .done (read d)

def execute (write : D → D) : Prog D L ε Unit :=
  .stmt (fun _ d => write d) fun _ => .done ()

/-- A write to the rows that its statement sees. -/
def executeSeen (write : D → D → D) : Prog D L ε Unit :=
  .stmt write fun _ => .done ()

/-- A write that the database checks against the view of its statement: it
either refuses the statement with an error or applies the write. -/
def checked (write : D → Except ε (D → D)) : Prog D L ε Unit :=
  .stmt (fun view d => match write view with | .ok w => w d | .error _ => d) fun view =>
    match write view with
    | .ok _ => .done ()
    | .error e => .raise e

/-- `INSERT … SELECT … WHERE guard RETURNING …`: whether the row went in. -/
def executeIf (guard : D → Bool) (write : D → D) : Prog D L ε Bool :=
  .stmt (fun view d => if guard view then write d else d) fun view => .done (guard view)

/-- A locking read of at most one row. -/
def queryForUpdate (want : D → Option L) (read : D → α) : Prog D L ε α :=
  .lock want fun d => .done (read d)

def advisory (l : L) : Prog D L ε Unit :=
  .lock (fun _ => some l) fun _ => .done ()

/-- `SELECT … LIMIT … FOR UPDATE SKIP LOCKED` over rows in their order. -/
def selectSkipLocked (rows : D → List β) (lockOf : β → L) [DecidableEq L] (limit : Nat) :
    Prog D L ε (List β) :=
  .skipLocked (fun d => (rows d).map lockOf) limit fun d taken =>
    .done ((rows d).filter fun row => lockOf row ∈ taken)

def each (body : β → Prog D L ε Unit) : List β → Prog D L ε Unit
  | [] => pure ()
  | b :: bs => do
    body b
    each body bs

/-- The loop that appends what its body yields. -/
def collect (body : β → Prog D L ε (List γ)) : List β → Prog D L ε (List γ)
  | [] => pure []
  | b :: bs => do
    let found ← body b
    let rest ← collect body bs
    pure (found ++ rest)

def discard (p : Prog D L ε α) : Prog D L ε Unit := do
  let _ ← p
  pure ()

/-! ## Running alone -/

def run : Prog D L ε α → D → Except ε (α × D)
  | .done a, d => .ok (a, d)
  | .raise e, _ => .error e
  | .stmt write next, d => (next d).run (write d d)
  | .lock _ next, d => (next d).run d
  | .skipLocked rows limit next, d => (next d ((rows d).take limit)).run d

def commit (p : Prog D L ε α) (d : D) : Except ε α × D :=
  match p.run d with
  | .ok (a, d') => (.ok a, d')
  | .error e => (.error e, d)

@[simp] theorem run_pure : (pure a : Prog D L ε α).run d = .ok (a, d) := rfl

@[simp] theorem run_done : (done a : Prog D L ε α).run d = .ok (a, d) := rfl

@[simp] theorem run_raise : (raise e : Prog D L ε α).run d = .error e := rfl

@[simp] theorem run_query (read : D → α) (d : D) :
    (query read : Prog D L ε α).run d = .ok (read d, d) := rfl

@[simp] theorem run_execute (write : D → D) (d : D) :
    (execute write : Prog D L ε Unit).run d = .ok ((), write d) := rfl

@[simp] theorem run_executeSeen (write : D → D → D) (d : D) :
    (executeSeen write : Prog D L ε Unit).run d = .ok ((), write d d) := rfl

@[simp] theorem run_executeIf {guard : D → Bool} {write : D → D} {d : D} :
    (executeIf guard write : Prog D L ε Bool).run d =
      .ok (guard d, if guard d then write d else d) := rfl

@[simp] theorem run_queryForUpdate {want : D → Option L} {read : D → α} {d : D} :
    (queryForUpdate want read : Prog D L ε α).run d = .ok (read d, d) := rfl

@[simp] theorem run_advisory :
    (advisory l : Prog D L ε Unit).run d = .ok ((), d) := rfl

theorem run_checked (write : D → Except ε (D → D)) (d : D) :
    (checked write : Prog D L ε Unit).run d =
      match write d with
      | .ok w => .ok ((), w d)
      | .error e => .error e := by
  cases h : write d <;> simp [checked, run, h]

@[simp] theorem run_bind (p : Prog D L ε α) (f : α → Prog D L ε β) (d : D) :
    (p >>= f).run d =
      match p.run d with
      | .ok (a, d') => (f a).run d'
      | .error e => .error e := by
  change (p.bind f).run d = _
  induction p generalizing d with
  | done a => rfl
  | raise e => rfl
  | stmt write next ih => exact ih d _
  | lock want next ih => exact ih d d
  | skipLocked rows limit next ih => exact ih d _ d

variable {p : Prog D L ε α} {f : α → Prog D L ε β}

theorem bind_ok {d d' : D} {b : β} :
    (p >>= f).run d = .ok (b, d') ↔
      ∃ a d₁, p.run d = .ok (a, d₁) ∧ (f a).run d₁ = .ok (b, d') := by
  rw [run_bind]
  rcases p.run d with e | ⟨a, d₁⟩
  · simp
  · refine ⟨fun h => ⟨a, d₁, rfl, h⟩, ?_⟩
    rintro ⟨_, _, ⟨rfl, rfl⟩, h⟩
    exact h

/-- What a transaction goes on with after a statement that did not fail. -/
theorem after (h : (p >>= f).run d = r)
    (hp : p.run d = .ok (a, d₁)) : (f a).run d₁ = r := by
  rwa [run_bind, hp] at h

theorem checked_ok :
    (checked write : Prog D L ε Unit).run d = .ok (u, d') ↔ ∃ w, write d = .ok w ∧ d' = w d := by
  rw [run_checked]
  cases write d <;> simp [eq_comm]

theorem selectSkipLocked_ok [DecidableEq L]
    (h : (selectSkipLocked rows lockOf limit : Prog D L ε (List β)).run d = .ok (found, d')) :
    found.Sublist (rows d) ∧ d = d' := by
  cases h
  exact ⟨filter_sublist, rfl⟩

theorem filter_mem_take [DecidableEq L] {lockOf : β → L} : ∀ {rows : List β} (limit : Nat),
    (rows.map lockOf).Nodup →
      rows.filter (fun row => lockOf row ∈ (rows.map lockOf).take limit) = rows.take limit
  | [], _, _ => by simp
  | row :: rows, 0, _ => by simp
  | row :: rows, limit + 1, h => by
    obtain ⟨hnew, hrows⟩ := nodup_cons.mp h
    rw [map_cons, take_succ_cons, take_succ_cons,
      filter_cons_of_pos (by simp), ← filter_mem_take limit hrows]
    refine congrArg _ (filter_congr fun other hother => ?_)
    have hne : lockOf other ≠ lockOf row := fun h => hnew (h ▸ mem_map_of_mem hother)
    simp only [mem_cons, hne, false_or]

/-- Alone, rows with locks of their own are taken from the front. -/
theorem run_selectSkipLocked [DecidableEq L] {rows : D → List β} {lockOf : β → L}
    (h : ((rows d).map lockOf).Nodup) :
    (selectSkipLocked rows lockOf limit : Prog D L ε (List β)).run d =
      .ok ((rows d).take limit, d) :=
  congrArg (fun found => Except.ok (found, d)) (filter_mem_take limit h)

theorem commit_of_ok (h : p.run d = .ok (a, d')) :
    p.commit d = (.ok a, d') := by
  simp [commit, h]

theorem commit_of_error (h : p.run d = .error e) :
    p.commit d = (.error e, d) := by
  simp [commit, h]

/-- A transaction commits what it did, or nothing. -/
@[elab_as_elim]
theorem commit_cases {motive : D → Prop} (p : Prog D L ε α) (d : D) (rolledBack : motive d)
    (committed : ∀ a d', p.run d = .ok (a, d') → motive d') : motive (p.commit d).2 := by
  cases hrun : p.run d with
  | error e =>
    rw [commit_of_error hrun]
    exact rolledBack
  | ok result =>
    rw [commit_of_ok hrun]
    exact committed result.1 result.2 hrun

theorem commit_discard (p : Prog D L ε α) (d : D) : (p.discard.commit d).2 = (p.commit d).2 := by
  simp only [discard, commit, run_bind]
  cases p.run d <;> rfl

/-! ## Writes -/

/-- Every write of the program, whatever its statements see, satisfies `P`. -/
def Writes (P : (D → D) → Prop) : Prog D L ε α → Prop
  | .done _ => True
  | .raise _ => True
  | .stmt write next => ∀ view, P (write view) ∧ (next view).Writes P
  | .lock _ next => ∀ view, (next view).Writes P
  | .skipLocked _ _ next => ∀ view taken, (next view taken).Writes P

section Writes
variable {P : (D → D) → Prop}

theorem Writes.bind (hp : p.Writes P)
    (hf : ∀ a, (f a).Writes P) : (p >>= f).Writes P := by
  change (p.bind f).Writes P
  induction p with
  | done a => exact hf a
  | raise e => trivial
  | stmt write next ih => exact fun view => ⟨(hp view).1, ih view (hp view).2⟩
  | lock want next ih => exact fun view => ih view (hp view)
  | skipLocked rows limit next ih => exact fun view taken => ih view taken (hp view taken)

theorem Writes.mono (h : p.Writes P) (hP : ∀ write, P write → P' write) :
    p.Writes P' := by
  induction p with
  | done a => trivial
  | raise e => trivial
  | stmt write next ih => exact fun view => ⟨hP _ (h view).1, ih view (h view).2⟩
  | lock want next ih => exact fun view => ih view (h view)
  | skipLocked rows limit next ih => exact fun view taken => ih view taken (h view taken)

theorem Writes.ite {p q : Prog D L ε α} [Decidable c] (hp : p.Writes P) (hq : q.Writes P) :
    (if c then p else q).Writes P := by
  split
  · exact hp
  · exact hq

/-- What follows a read of at most one row. -/
theorem Writes.option {f : Option β → Prog D L ε α} (hnone : (f none).Writes P)
    (hsome : ∀ b, (f (some b)).Writes P) : ∀ found, (f found).Writes P
  | none => hnone
  | some b => hsome b

theorem Writes.query (hid : P id) (read : D → α) : (query read : Prog D L ε α).Writes P :=
  fun _ => ⟨hid, trivial⟩

theorem Writes.execute (h : P write) : (execute write : Prog D L ε Unit).Writes P :=
  fun _ => ⟨h, trivial⟩

theorem Writes.executeSeen (h : ∀ view, P (write view)) :
    (executeSeen write : Prog D L ε Unit).Writes P :=
  fun view => ⟨h view, trivial⟩

theorem Writes.checked (hid : P id)
    (h : ∀ view w, write view = .ok w → P w) : (checked write : Prog D L ε Unit).Writes P := by
  intro view
  dsimp only
  cases hview : write view with
  | ok w => exact ⟨h view w hview, trivial⟩
  | error e => exact ⟨hid, trivial⟩

theorem Writes.queryForUpdate (want : D → Option L) (read : D → α) :
    (queryForUpdate want read : Prog D L ε α).Writes P :=
  fun _ => trivial

theorem Writes.selectSkipLocked [DecidableEq L] (rows : D → List β) (lockOf : β → L) (limit : Nat) :
    (selectSkipLocked rows lockOf limit : Prog D L ε (List β)).Writes P :=
  fun _ _ => trivial

theorem Writes.each {body : β → Prog D L ε Unit} (hbody : ∀ b, (body b).Writes P) :
    ∀ bs, (each body bs).Writes P
  | [] => trivial
  | b :: bs => (hbody b).bind fun _ => Writes.each hbody bs

theorem Writes.discard (h : p.Writes P) : p.discard.Writes P :=
  h.bind fun _ => trivial

end Writes

/-! ## Refinement: what a run can do to the state, whatever it returns -/

/-- Every completed run of `p` from a state in `P` is an `R` step. -/
def Refines (P : D → Prop) (R : D → D → Prop) (p : Prog D L ε α) : Prop :=
  ∀ ⦃d a d'⦄, P d → p.run d = .ok (a, d') → R d d'

/-- A committed transaction is an `R` step, or nothing when it rolled back. -/
theorem Refines.commit (h : p.Refines P R) (hr : ∀ d, R d d) (hp : P d) :
    R d (p.commit d).2 :=
  p.commit_cases d (hr d) fun _ _ hrun => h hp hrun

theorem Refines.discard (h : p.Refines P R) : p.discard.Refines P R := by
  intro d u d' hd hrun
  obtain ⟨a, d₁, hp, hpure⟩ := bind_ok.mp hrun
  cases hpure
  exact h hd hp

theorem Refines.mono (h : p.Refines P R) (hp : ∀ d, P' d → P d)
    (hr : ∀ d d', R d d' → R' d d') : p.Refines P' R' :=
  fun _ _ _ hpre hrun => hr _ _ (h (hp _ hpre) hrun)

theorem Writes.refines {R : D → D → Prop} (hrefl : ∀ d, R d d)
    (htrans : ∀ {a b c}, R a b → R b c → R a c) {p : Prog D L ε α}
    (h : p.Writes fun write => ∀ d, R d (write d)) : p.Refines (fun _ => True) R := by
  intro d a d' _ hrun
  induction p generalizing d with
  | done =>
    cases hrun
    exact hrefl _
  | raise => cases hrun
  | stmt write next ih => exact htrans ((h d).1 d) (ih d (h d).2 hrun)
  | lock want next ih => exact ih d (h d) hrun
  | skipLocked rows limit next ih => exact ih d _ (h d _) hrun

/-- The loop rule: with `I` of the elements still to come, the body is an `R`
step that leaves `I` of the rest. -/
theorem Refines.each {R : D → D → Prop} {I : List β → D → Prop} {body : β → Prog D L ε Unit}
    (hrefl : ∀ d, R d d) (htrans : ∀ {a b c}, R a b → R b c → R a c)
    (hbody : ∀ b bs, (body b).Refines (I (b :: bs)) fun d d' => R d d' ∧ I bs d') :
    ∀ bs, (each body bs).Refines (I bs) R
  | [], d, _, _, _, h => by
    cases h
    exact hrefl d
  | b :: bs, d, _, _, hI, h => by
    obtain ⟨_, d₁, hb, hbs⟩ := bind_ok.mp h
    obtain ⟨hstep, hrest⟩ := hbody b bs hI hb
    exact htrans hstep (Refines.each hrefl htrans hbody bs hrest hbs)

theorem Refines.collect {R : D → D → Prop} {I : List β → D → Prop}
    {body : β → Prog D L ε (List γ)}
    (hrefl : ∀ d, R d d) (htrans : ∀ {a b c}, R a b → R b c → R a c)
    (hbody : ∀ b bs, (body b).Refines (I (b :: bs)) fun d d' => R d d' ∧ I bs d') :
    ∀ bs, (collect body bs).Refines (I bs) R
  | [], d, _, _, _, h => by
    cases h
    exact hrefl d
  | b :: bs, d, _, _, hI, h => by
    obtain ⟨_, d₁, hb, hrest⟩ := bind_ok.mp h
    obtain ⟨_, d₂, hbs, hlast⟩ := bind_ok.mp hrest
    cases hlast
    obtain ⟨hstep, hI'⟩ := hbody b bs hI hb
    exact htrans hstep (Refines.collect hrefl htrans hbody bs hI' hbs)

end Prog

/-! ## Calls that commit several transactions -/

/-- A call: what it returns or raises, and what it has committed by then. -/
def Service (D ε α : Type) := D → Except ε α × D

namespace Service

instance : Monad (Service D ε) where
  pure a := fun d => (.ok a, d)
  bind m f := fun d =>
    match m d with
    | (.ok a, d') => f a d'
    | (.error e, d') => (.error e, d')

def transact (p : Prog D L ε α) : Service D ε α := p.commit

def raise (e : ε) : Service D ε α := fun d => (.error e, d)

/-- `try … except`: the handler runs over what was committed before the error. -/
def rescue (m : Service D ε α) (handler : ε → Service D ε α) : Service D ε α := fun d =>
  match m d with
  | (.ok a, d') => (.ok a, d')
  | (.error e, d') => handler e d'

def each (body : β → Service D ε Unit) : List β → Service D ε Unit
  | [] => pure ()
  | b :: bs => do
    body b
    each body bs

def collect (body : β → Service D ε (List γ)) : List β → Service D ε (List γ)
  | [] => pure []
  | b :: bs => do
    let found ← body b
    let rest ← collect body bs
    pure (found ++ rest)

/-- `try … except` around one call: what it raises is part of the result. -/
def attempt (m : Service D ε α) : Service D ε (Except ε α) := fun d => (.ok (m d).1, (m d).2)

/-- From `d` the call returns with `Q` or raises with `E`. -/
def Triple (m : Service D ε α) (d : D) (Q : α → D → Prop) (E : ε → D → Prop) : Prop :=
  match m d with
  | (.ok a, d') => Q a d'
  | (.error e, d') => E e d'

section Triple
variable {E : ε → D → Prop}

theorem Triple.mono {m : Service D ε α} {Q Q' : α → D → Prop} {E' : ε → D → Prop}
    (h : m.Triple d Q E) (hQ : ∀ a d, Q a d → Q' a d) (hE : ∀ e d, E e d → E' e d) :
    m.Triple d Q' E' := by
  unfold Triple at h ⊢
  generalize m d = result at h ⊢
  rcases result with ⟨e | a, d'⟩
  · exact hE e d' h
  · exact hQ a d' h

theorem Triple.bind {m : Service D ε α} {f : α → Service D ε β} {R : α → D → Prop}
    {Q : β → D → Prop} (hm : m.Triple d R E) (hf : ∀ a d, R a d → (f a).Triple d Q E) :
    (m >>= f).Triple d Q E := by
  unfold Triple at hm ⊢
  simp only [Bind.bind]
  generalize m d = result at hm ⊢
  rcases result with ⟨e | a, d'⟩
  · exact hm
  · exact hf a d' hm

theorem Triple.attempt {m : Service D ε α} {Q : Except ε α → D → Prop}
    (hm : m.Triple d (fun a => Q (.ok a)) fun e => Q (.error e)) :
    m.attempt.Triple d Q E := by
  unfold Triple at hm
  change Q (m d).1 (m d).2
  generalize m d = result at hm ⊢
  rcases result with ⟨e | a, d'⟩ <;> exact hm

/-- The loop rule, with an invariant of what is collected so far. -/
theorem Triple.collect {J : List γ → D → Prop} {body : β → Service D ε (List γ)}
    (hbody : ∀ b found d, J found d → (body b).Triple d (fun more d => J (found ++ more) d) E) :
    ∀ bs found d, J found d → (collect body bs).Triple d (fun more d => J (found ++ more) d) E
  | [], found, d, hJ => by
    change J (found ++ []) d
    rwa [append_nil]
  | b :: bs, found, d, hJ => by
    refine (hbody b found d hJ).bind fun more d hmore => ?_
    refine (Triple.collect hbody bs (found ++ more) d hmore).bind fun rest d hrest => ?_
    change J (found ++ (more ++ rest)) d
    rwa [← append_assoc]

end Triple

/-- Whatever the call returns or raises, it moves the state along `R`. -/
def Moves (R : D → D → Prop) (m : Service D ε α) : Prop := ∀ d, R d (m d).2

section Moves
variable {R : D → D → Prop}

theorem Moves.pure (hrefl : ∀ d, R d d) (a : α) : Moves R (pure a : Service D ε α) := hrefl

theorem Moves.raise (hrefl : ∀ d, R d d) (e : ε) : Moves R (raise e : Service D ε α) := hrefl

theorem Moves.transact (hrefl : ∀ d, R d d) (h : p.Refines (fun _ => True) R) :
    Moves R (transact p) :=
  fun _ => h.commit hrefl trivial

theorem Moves.bind
    (htrans : ∀ {a b c}, R a b → R b c → R a c) (hm : Moves R m) (hf : ∀ a, Moves R (f a)) :
    Moves R (m >>= f) := by
  intro d
  have hstep := hm d
  simp only [Bind.bind]
  generalize m d = result at hstep ⊢
  rcases result with ⟨e | a, d'⟩
  · exact hstep
  · exact htrans hstep (hf a d')

theorem Moves.rescue
    (htrans : ∀ {a b c}, R a b → R b c → R a c) (hm : Moves R m) (hh : ∀ e, Moves R (handler e)) :
    Moves R (rescue m handler) := by
  intro d
  have hstep := hm d
  simp only [Service.rescue]
  generalize m d = result at hstep ⊢
  rcases result with ⟨e | a, d'⟩
  · exact htrans hstep (hh e d')
  · exact hstep

theorem Moves.each (hrefl : ∀ d, R d d) (htrans : ∀ {a b c}, R a b → R b c → R a c) :
    ∀ bs, (∀ b ∈ bs, Moves R (body b)) → Moves R (each body bs)
  | [], _ => hrefl
  | b :: bs, hbody => (hbody b mem_cons_self).bind htrans fun _ =>
      each hrefl htrans bs fun b' hb' => hbody b' (mem_cons_of_mem b hb')

theorem Moves.collect (hrefl : ∀ d, R d d)
    (htrans : ∀ {a b c}, R a b → R b c → R a c) (hbody : ∀ b, Moves R (body b)) :
    ∀ bs, Moves R (collect body bs)
  | [] => hrefl
  | b :: bs => (hbody b).bind htrans fun _ =>
      (collect hrefl htrans hbody bs).bind htrans fun _ => Moves.pure hrefl _

end Moves

end Service

end Transaction
