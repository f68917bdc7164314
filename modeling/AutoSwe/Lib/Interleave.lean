import AutoSwe.Lib.Prog
import AutoSwe.Lib.Run

/-!
# Interleaved transactions

Any number of transactions over one committed state, one statement at a time. A statement sees the
committed state of the moment under the writes of its own transaction; locks are exclusive and held
to the end of the transaction, which commits, raises or is aborted.

`wp` is a program logic for one transaction among the others. `rely` says what the others may commit
while it holds its locks, `may` which locks it may ask for next; `Verified.sound` is its adequacy.
-/

namespace Transaction

open List Option Function LabelledRun

variable {C D L ε α β γ : Type}

/-! ## The system -/

/-- A transaction in flight: the rest of its program, its writes so far and the
views of the statements it has executed, the first one first. -/
structure Tx (C D L ε : Type) where
  call : C
  prog : Prog D L ε Unit
  own : D → D := id
  seen : List D := []

structure Sys (C D L ε : Type) where
  db : D
  owner : L → Option Nat := fun _ => none
  txs : Nat → Option (Tx C D L ε) := fun _ => none

inductive Event (C : Type)
  | start (i : Nat) (call : C)
  | exec (i : Nat)
  | finish (i : Nat)
  | abort (i : Nat)

section
variable [DecidableEq L]

/-- The next statement of a transaction, and the locks it takes; `none` when
there is none or when it has to wait. -/
def Tx.advance (free : L → Bool) (db : D) (tx : Tx C D L ε) : Option (Tx C D L ε × List L) :=
  let view := tx.own db
  let seen := tx.seen ++ [view]
  match tx.prog with
  | .done _ => none
  | .raise _ => none
  | .stmt write next =>
    some ({ tx with prog := next view, own := fun d => write view (tx.own d), seen }, [])
  | .lock want next =>
    match want view with
    | none => some ({ tx with prog := next view, seen }, [])
    | some l => if free l then some ({ tx with prog := next view, seen }, [l]) else none
  | .skipLocked rows limit next =>
    let taken := ((rows view).filter free).take limit
    some ({ tx with prog := next view taken, seen }, taken)

namespace Sys

def free (s : Sys C D L ε) (i : Nat) (l : L) : Bool := s.owner l = none || s.owner l = some i

/-- The transaction is now `tx`, with the locks it has just taken. -/
def put (s : Sys C D L ε) (i : Nat) (tx : Tx C D L ε) (taken : List L) : Sys C D L ε :=
  { s with
    owner := fun l => if l ∈ taken then some i else s.owner l
    txs := update s.txs i (some tx) }

/-- The transaction is gone, with its locks. -/
def drop (s : Sys C D L ε) (i : Nat) : Sys C D L ε :=
  { s with
    owner := fun l => if s.owner l = some i then none else s.owner l
    txs := update s.txs i none }

def step (body : C → Prog D L ε Unit) (s : Sys C D L ε) : Event C → Option (Sys C D L ε)
  | .start i call =>
    match s.txs i with
    | none => some (s.put i { call, prog := body call } [])
    | some _ => none
  | .exec i =>
    (s.txs i).bind fun tx => (tx.advance (s.free i) s.db).map fun (tx', taken) => s.put i tx' taken
  | .finish i =>
    match s.txs i with
    | some tx =>
      match tx.prog with
      | .done _ => some { s.drop i with db := tx.own s.db }
      | .raise _ => some (s.drop i)
      | _ => none
    | none => none
  | .abort i => (s.txs i).map fun _ => s.drop i

/-- The lock that the next statement of a transaction asks for. -/
def request (s : Sys C D L ε) (i : Nat) : Option L :=
  match s.txs i with
  | some tx =>
    match tx.prog with
    | .lock want _ => want (tx.own s.db)
    | _ => none
  | none => none

/-- The transaction that `i` waits for. -/
def waits (s : Sys C D L ε) (i : Nat) : Option Nat :=
  (s.request i).bind fun l => (s.owner l).filter (· ≠ i)

/-- A cycle of the waits-for graph. -/
def Deadlock (s : Sys C D L ε) : Prop :=
  ∃ i, Relation.TransGen (fun i j => s.waits i = some j) i i

end Sys

end

/-! ## The logic of one transaction -/

/-- What a transaction has, knows and is about to write. -/
structure Local (D L : Type) where
  held : Set L := ∅
  own : D → D := id
  seen : List D := []

namespace Local

variable (σ : Local D L)

def saw (view : D) : Local D L := { σ with seen := σ.seen ++ [view] }

def wrote (write : D → D → D) (view : D) : Local D L :=
  { σ with own := fun d => write view (σ.own d), seen := σ.seen ++ [view] }

def took (taken : List L) : Local D L :=
  { σ with held := σ.held ∪ {l | l ∈ taken} }

@[simp] theorem saw_held : (σ.saw view).held = σ.held := rfl

@[simp] theorem saw_own : (σ.saw view).own = σ.own := rfl

@[simp] theorem wrote_held : (σ.wrote write view).held = σ.held := rfl

@[simp] theorem took_own : (σ.took taken).own = σ.own := rfl

@[simp] theorem took_nil : σ.took [] = σ := by
  simp [took]

theorem mem_took {σ : Local D L} : l ∈ (σ.took taken).held ↔ l ∈ σ.held ∨ l ∈ taken := Iff.rfl

end Local

/-- What the other transactions may commit while one holds a set of locks. -/
structure Rely (D L : Type) where
  rel : Set L → D → D → Prop
  refl : ∀ held d, rel held d d
  trans : ∀ {held a b c}, rel held a b → rel held b c → rel held a c

/-- Nothing is known about what the others commit. -/
def Rely.any : Rely D L where
  rel _ _ _ := True
  refl _ _ := trivial
  trans _ _ := trivial

namespace Prog

/-- From local state `σ` over the committed state `db`, and whatever the others
commit between its statements, `p` asks only for locks it may ask for, and `Q`
holds when it is ready to commit. -/
def wp (R : Rely D L) (may : Local D L → L → Prop) (Q : α → Local D L → D → Prop) :
    Prog D L ε α → Local D L → D → Prop
  | .done a, σ, db => ∀ db', R.rel σ.held db db' → Q a σ db'
  | .raise _, _, _ => True
  | .stmt write next, σ, db => ∀ db', R.rel σ.held db db' →
      (next (σ.own db')).wp R may Q (σ.wrote write (σ.own db')) db'
  | .lock want next, σ, db => ∀ db', R.rel σ.held db db' →
      (∀ l ∈ want (σ.own db'), may σ l) ∧
        (next (σ.own db')).wp R may Q ((σ.saw (σ.own db')).took (want (σ.own db')).toList) db'
  | .skipLocked rows limit next, σ, db => ∀ db', R.rel σ.held db db' →
      ∀ taken, taken.Sublist (rows (σ.own db')) ∧ taken.length ≤ limit →
        (next (σ.own db') taken).wp R may Q ((σ.saw (σ.own db')).took taken) db'

section
variable {R : Rely D L} {may : Local D L → L → Prop} {Q : α → Local D L → D → Prop}
  {σ : Local D L} {db : D} {p : Prog D L ε α} {f : α → Prog D L ε β}

/-- The others may commit before the next statement. -/
theorem wp.rely (h : p.wp R may Q σ db) (hr : R.rel σ.held db db') :
    p.wp R may Q σ db' := by
  cases p with
  | done a => exact fun db'' hr' => h db'' (R.trans hr hr')
  | raise e => trivial
  | stmt => exact fun db'' hr' => h db'' (R.trans hr hr')
  | lock => exact fun db'' hr' => h db'' (R.trans hr hr')
  | skipLocked => exact fun db'' hr' => h db'' (R.trans hr hr')

/-- What holds at the end holds whatever the others have committed by then. -/
theorem wp.settle (h : p.wp R may Q σ db)
    (hq : ∀ a σ db, (∀ db', R.rel σ.held db db' → Q a σ db') → Q' a σ db) :
    p.wp R may Q' σ db := by
  induction p generalizing σ db with
  | done a => exact fun db' hr => hq a σ db' fun db'' hr' => h db'' (R.trans hr hr')
  | raise e => trivial
  | stmt write next ih => exact fun db' hr => ih _ (h db' hr)
  | lock want next ih => exact fun db' hr => ⟨(h db' hr).1, ih _ (h db' hr).2⟩
  | skipLocked rows limit next ih =>
    exact fun db' hr taken htaken => ih _ _ (h db' hr taken htaken)

theorem wp.mono (h : p.wp R may Q σ db) (hq : ∀ a σ db, Q a σ db → Q' a σ db) :
    p.wp R may Q' σ db :=
  h.settle fun a σ db h => hq a σ db (h db (R.refl _ _))

theorem wp.bind {Q : β → Local D L → D → Prop}
    (h : p.wp R may (fun a σ db => (f a).wp R may Q σ db) σ db) :
    (p >>= f).wp R may Q σ db := by
  change (p.bind f).wp R may Q σ db
  induction p generalizing σ db with
  | done a => exact h db (R.refl _ _)
  | raise e => trivial
  | stmt write next ih => exact fun db' hr => ih _ (h db' hr)
  | lock want next ih => exact fun db' hr => ⟨(h db' hr).1, ih _ (h db' hr).2⟩
  | skipLocked rows limit next ih =>
    exact fun db' hr taken htaken => ih _ _ (h db' hr taken htaken)

theorem wp.discard {Q : Local D L → D → Prop} (h : p.wp R may (fun _ => Q) σ db) :
    p.discard.wp R may (fun _ => Q) σ db :=
  wp.bind (h.settle fun _ _ _ => id)

theorem wp.pure (a : α) (h : ∀ db', R.rel σ.held db db' → Q a σ db') :
    (pure a : Prog D L ε α).wp R may Q σ db := h

theorem wp.advisory_bind {f : Unit → Prog D L ε α} (hmay : may σ l)
    (h : ∀ db', R.rel σ.held db db' →
      (f ()).wp R may Q ((σ.saw (σ.own db')).took [l]) db') :
    (advisory l >>= f).wp R may Q σ db :=
  fun db' hr => ⟨fun _ hl => some.inj hl ▸ hmay, h db' hr⟩

theorem wp.query_bind {read : D → β} {f : β → Prog D L ε α}
    (h : ∀ db', R.rel σ.held db db' →
      (f (read (σ.own db'))).wp R may Q (σ.saw (σ.own db')) db') :
    (query read >>= f).wp R may Q σ db := h

/-- Running alone is one way to run among others. -/
theorem wp.run (h : p.wp R may Q σ db)
    (hrun : p.run (σ.own db) = .ok (a, d)) : ∃ σ', d = σ'.own db ∧ Q a σ' db := by
  induction p generalizing σ with
  | done a =>
    cases hrun
    exact ⟨σ, rfl, h db (R.refl _ _)⟩
  | raise e => cases hrun
  | stmt write next ih => exact ih _ (h db (R.refl _ _)) hrun
  | lock want next ih => exact ih _ (h db (R.refl _ _)).2 hrun
  | skipLocked rows limit next ih =>
    exact ih _ _ (h db (R.refl _ _) _ ⟨take_sublist _ _, length_take_le _ _⟩) hrun

theorem wp.held {start : Set L} (h : p.wp R may Q σ db)
    (hstart : start ⊆ σ.held) :
    p.wp R may (fun a σ' db' => start ⊆ σ'.held ∧ Q a σ' db') σ db := by
  induction p generalizing σ db with
  | done a => exact fun db' hr => ⟨hstart, h db' hr⟩
  | raise e => trivial
  | stmt write next ih => exact fun db' hr => ih _ (h db' hr) hstart
  | lock want next ih =>
    exact fun db' hr => ⟨(h db' hr).1, ih _ (h db' hr).2 fun l hl => .inl (hstart hl)⟩
  | skipLocked rows limit next ih =>
    exact fun db' hr taken htaken => ih _ _ (h db' hr taken htaken) fun l hl => .inl (hstart hl)

/-- Every lock that the program waits for, whatever it sees, satisfies `P`, and
it takes none without waiting. -/
def Requests (P : L → Prop) : Prog D L ε α → Prop
  | .done _ => True
  | .raise _ => True
  | .stmt _ next => ∀ view, (next view).Requests P
  | .lock want next => ∀ view, (∀ l ∈ want view, P l) ∧ (next view).Requests P
  | .skipLocked _ _ _ => False

theorem Requests.bind {P : L → Prop} (hp : p.Requests P)
    (hf : ∀ a, (f a).Requests P) : (p >>= f).Requests P := by
  change (p.bind f).Requests P
  induction p with
  | done a => exact hf a
  | raise e => trivial
  | stmt write next ih => exact fun view => ih view (hp view)
  | lock want next ih => exact fun view => ⟨(hp view).1, ih view (hp view).2⟩
  | skipLocked => exact hp

section Requests
variable {P : L → Prop}

theorem Requests.query (read : D → α) : (query read : Prog D L ε α).Requests P := fun _ => trivial

theorem Requests.execute (write : D → D) : (execute write : Prog D L ε Unit).Requests P :=
  fun _ => trivial

theorem Requests.executeSeen (write : D → D → D) :
    (executeSeen write : Prog D L ε Unit).Requests P :=
  fun _ => trivial

theorem Requests.executeIf (guard : D → Bool) (write : D → D) :
    (executeIf guard write : Prog D L ε Bool).Requests P :=
  fun _ => trivial

theorem Requests.checked (write : D → Except ε (D → D)) :
    (checked write : Prog D L ε Unit).Requests P := by
  intro view
  dsimp only
  cases write view <;> exact trivial

theorem Requests.advisory (h : P l) : (advisory l : Prog D L ε Unit).Requests P :=
  fun _ => ⟨fun _ hl => some.inj hl ▸ h, trivial⟩

theorem Requests.queryForUpdate {want : D → Option L} {read : D → α}
    (h : ∀ view, ∀ l ∈ want view, P l) : (queryForUpdate want read : Prog D L ε α).Requests P :=
  fun view => ⟨h view, trivial⟩

end Requests

/-- An invariant of what is held and what was seen, kept by every request. -/
theorem wp.requests {P : L → Prop} {J : Set L → List D → Prop}
    (hp : p.Requests P) (h : J σ.held σ.seen)
    (hmay : ∀ σ l, J σ.held σ.seen → P l → may σ l)
    (hseen : ∀ held seen view, J held seen → J held (seen ++ [view]))
    (hkeep : ∀ held seen l, J held seen → P l → J (held ∪ {l}) seen) :
    p.wp R may (fun _ σ' _ => J σ'.held σ'.seen) σ db := by
  induction p generalizing σ db with
  | done a => exact fun db' _ => h
  | raise e => trivial
  | stmt write next ih => exact fun db' _ => ih _ (hp _) (hseen _ _ _ h)
  | lock want next ih =>
    intro db' _
    obtain ⟨hwant, hnext⟩ := hp (σ.own db')
    refine ⟨fun l hl => hmay σ l h (hwant l hl), ih _ hnext ?_⟩
    have h' := hseen _ _ (σ.own db') h
    cases hl : want (σ.own db') with
    | none => simpa [Local.took, Local.saw] using h'
    | some l => simpa [Local.took, Local.saw] using hkeep _ _ l h' (hwant l hl)
  | skipLocked => exact hp.elim

/-- The loop rule, with `J` of the elements still to come. -/
theorem wp.each {J : List β → Local D L → D → Prop} {body : β → Prog D L ε Unit}
    (hstable : ∀ σ db db', J [] σ db → R.rel σ.held db db' → J [] σ db')
    (hbody : ∀ b bs σ db, J (b :: bs) σ db → (body b).wp R may (fun _ => J bs) σ db)
    (bs : List β) (h : J bs σ db) : (each body bs).wp R may (fun _ => J []) σ db := by
  induction bs generalizing σ db with
  | nil => exact wp.pure _ fun db' hr => hstable σ db db' h hr
  | cons b bs ih => exact wp.bind ((hbody b bs σ db h).mono fun _ σ' db' h' => ih h')

theorem wp.collect {J : List β → Local D L → D → Prop} {body : β → Prog D L ε (List γ)}
    (hstable : ∀ σ db db', J [] σ db → R.rel σ.held db db' → J [] σ db')
    (hbody : ∀ b bs σ db, J (b :: bs) σ db → (body b).wp R may (fun _ => J bs) σ db)
    (bs : List β) (h : J bs σ db) : (collect body bs).wp R may (fun _ => J []) σ db := by
  induction bs generalizing σ db with
  | nil => exact wp.pure _ fun db' hr => hstable σ db db' h hr
  | cons b bs ih =>
    refine wp.bind ((hbody b bs σ db h).mono fun _ σ' db' h' => wp.bind ((ih h').mono ?_))
    exact fun _ σ'' db'' h'' => wp.pure _ fun db''' hr => hstable _ _ _ h'' hr

end

end Prog

/-! ## Adequacy -/

/-- What a transaction owes when it commits: the invariant of the committed
state, and what the holders of other locks rely on. -/
def Owes (R : Rely D L) (I : D → Prop) (σ : Local D L) (db : D) : Prop :=
  I (σ.own db) ∧ ∀ held, Disjoint held σ.held → R.rel held db (σ.own db)

/-- Every allowed transaction, started over any state with the invariant, asks
only for locks it may ask for and commits only what it owes. -/
def Verified (R : Rely D L) (I : D → Prop) (allowed : C → Prop) (may : C → Local D L → L → Prop)
    (body : C → Prog D L ε Unit) : Prop :=
  ∀ call db, allowed call → I db → (body call).wp R (may call) (fun _ => Owes R I) {} db

def Sys.localState (s : Sys C D L ε) (i : Nat) (tx : Tx C D L ε) : Local D L where
  held := {l | s.owner l = some i}
  own := tx.own
  seen := tx.seen

/-- The invariant of a system whose transactions commit only under `Q`. -/
structure Sys.Meets (R : Rely D L) (I : D → Prop) (allowed : C → Prop)
    (may : C → Local D L → L → Prop) (Q : C → Local D L → D → Prop) (s : Sys C D L ε) : Prop where
  committed : I s.db
  owned : ∀ l i, s.owner l = some i → s.txs i ≠ none
  each : ∀ i tx, s.txs i = some tx → allowed tx.call ∧
    tx.prog.wp R (may tx.call) (fun _ => Q tx.call) (s.localState i tx) s.db

abbrev Sys.Sound (R : Rely D L) (I : D → Prop) (allowed : C → Prop)
    (may : C → Local D L → L → Prop) (s : Sys C D L ε) : Prop :=
  s.Meets R I allowed may fun _ => Owes R I

theorem Tx.advance_wp {tx tx' : Tx C D L ε} {free : L → Bool}
    (h : tx.prog.wp R may Q ⟨held, tx.own, tx.seen⟩ db)
    (hstep : tx.advance free db = some (tx', taken)) :
    tx'.call = tx.call ∧ (∀ l ∈ taken, free l) ∧
      tx'.prog.wp R may Q ⟨held ∪ {l | l ∈ taken}, tx'.own, tx'.seen⟩ db := by
  obtain ⟨call, prog, own, seen⟩ := tx
  cases prog with
  | done u => cases hstep
  | raise e => cases hstep
  | stmt =>
    cases hstep
    have hnext := h db (R.refl _ _)
    exact ⟨rfl, by simp, by simpa [Local.wrote] using hnext⟩
  | lock =>
    have hnext := (h db (R.refl _ _)).2
    simp only [advance] at hstep
    split at hstep
    · rename_i hwant
      cases hstep
      refine ⟨rfl, by simp, ?_⟩
      simpa [hwant, Local.saw, Local.took] using hnext
    · rename_i l hwant
      split at hstep <;> cases hstep
      rename_i hfree
      refine ⟨rfl, by simpa using hfree, ?_⟩
      simpa [hwant, Local.saw, Local.took] using hnext
  | skipLocked rows limit next =>
    cases hstep
    have hsub : (((rows (own db)).filter free).take limit).Sublist (rows (own db)) :=
      (take_sublist _ _).trans filter_sublist
    refine ⟨rfl, fun l hl => ?_, h db (R.refl _ _) _ ⟨hsub, length_take_le _ _⟩⟩
    exact (mem_filter.mp (mem_of_mem_take hl)).2

variable {s s' : Sys C D L ε} {body : C → Prog D L ε Unit} {e : Event C}

theorem Sys.Meets.drop (h : s.Meets R I allowed may Q) (i : Nat) {db' : D}
    (hI : I db')
    (hothers : ∀ held, Disjoint held {l | s.owner l = some i} → R.rel held s.db db') :
    Sys.Meets R I allowed may Q { s.drop i with db := db' } := by
  refine ⟨hI, fun l j hl => ?_, fun j tx htx => ?_⟩
  · simp only [Sys.drop] at hl ⊢
    split at hl
    · cases hl
    · rename_i hne
      have hj : j ≠ i := by
        rintro rfl
        exact hne hl
      rw [update_of_ne hj]
      exact h.owned l j hl
  · simp only [Sys.drop] at htx
    have hj : j ≠ i := by
      rintro rfl
      simp at htx
    rw [update_of_ne hj] at htx
    -- the locks of the others are the ones they had
    have hheld : {l | (if s.owner l = some i then none else s.owner l) = some j} =
        {l | s.owner l = some j} := by
      ext l
      by_cases hl : s.owner l = some i
      · simp [hl, Ne.symm hj]
      · simp [hl]
    have hdisjoint : Disjoint {l | s.owner l = some j} {l | s.owner l = some i} := by
      refine Set.disjoint_left.mpr fun l hlj hli => hj ?_
      exact some.inj (hlj.symm.trans hli)
    simp only [Sys.localState, Sys.drop, hheld]
    exact ⟨(h.each j tx htx).1, (h.each j tx htx).2.rely (hothers _ hdisjoint)⟩

variable [DecidableEq L]

theorem Sys.Meets.put {tx : Tx C D L ε} (h : s.Meets R I allowed may Q)
    (hfree : ∀ l ∈ taken, s.free i l) (hallowed : allowed tx.call)
    (hwp : tx.prog.wp R (may tx.call) (fun _ => Q tx.call)
      ⟨{l | s.owner l = some i} ∪ {l | l ∈ taken}, tx.own, tx.seen⟩ s.db) :
    (s.put i tx taken).Meets R I allowed may Q := by
  refine ⟨h.committed, fun l j hl => ?_, fun j tx' htx' => ?_⟩ <;> by_cases hj : j = i
  · simp [Sys.put, hj]
  · simp only [Sys.put] at hl ⊢
    rw [update_of_ne hj]
    split at hl
    · exact absurd (some.inj hl).symm hj
    · exact h.owned l j hl
  · subst hj
    obtain rfl : tx = tx' := by simpa [Sys.put] using htx'
    have hheld : {l | (if l ∈ taken then some j else s.owner l) = some j} =
        {l | s.owner l = some j} ∪ {l | l ∈ taken} := by
      ext l
      by_cases hl : l ∈ taken <;> simp [hl]
    simp only [Sys.localState, Sys.put, hheld]
    exact ⟨hallowed, hwp⟩
  · simp only [Sys.put, update_of_ne hj] at htx'
    -- what was taken was free, so no other transaction had it
    have hheld : {l | (if l ∈ taken then some i else s.owner l) = some j} =
        {l | s.owner l = some j} := by
      ext l
      by_cases hl : l ∈ taken
      · have hl' := hfree l hl
        simp only [Sys.free, Bool.or_eq_true, decide_eq_true_eq] at hl'
        rcases hl' with hl' | hl' <;> simp [hl, hl', Ne.symm hj]
      · simp [hl]
    simp only [Sys.localState, Sys.put, hheld]
    exact h.each j tx' htx'

/-- What the steps of a system do. -/
inductive Sys.Steps (body : C → Prog D L ε Unit) (s : Sys C D L ε) : Event C → Sys C D L ε → Prop
  | start (htx : s.txs i = none) :
    Steps body s (.start i call) (s.put i { call, prog := body call } [])
  | exec (htx : s.txs i = some tx) (hnext : tx.advance (s.free i) s.db = some (tx', taken)) :
    Steps body s (.exec i) (s.put i tx' taken)
  | commit (htx : s.txs i = some tx) (hdone : tx.prog = .done u) :
    Steps body s (.finish i) { s.drop i with db := tx.own s.db }
  | rollback (htx : s.txs i = some tx) (hraise : tx.prog = .raise error) :
    Steps body s (.finish i) (s.drop i)
  | abort (htx : s.txs i = some tx) : Steps body s (.abort i) (s.drop i)

theorem Sys.step_cases (hstep : s.step body e = some s') : s.Steps body e s' := by
  cases e with
  | start i call =>
    simp only [Sys.step] at hstep
    split at hstep <;> cases hstep
    exact .start ‹_›
  | exec i =>
    simp only [Sys.step, bind_eq_some_iff, map_eq_some_iff] at hstep
    obtain ⟨tx, htx, ⟨tx', taken⟩, hnext, rfl⟩ := hstep
    exact .exec htx hnext
  | finish i =>
    simp only [Sys.step] at hstep
    split at hstep
    · rename_i tx htx
      split at hstep <;> cases hstep
      · exact .commit htx ‹_›
      · exact .rollback htx ‹_›
    · cases hstep
  | abort i =>
    simp only [Sys.step, map_eq_some_iff] at hstep
    obtain ⟨tx, htx, rfl⟩ := hstep
    exact .abort htx

theorem Sys.Meets.step (hbody : ∀ call db, allowed call → I db →
      (body call).wp R (may call) (fun _ => Q call) {} db)
    (howes : ∀ call σ db, Q call σ db → Owes R I σ db) (h : s.Meets R I allowed may Q)
    (hok : ∀ i call, e = .start i call → allowed call) (hstep : s.step body e = some s') :
    s'.Meets R I allowed may Q := by
  cases Sys.step_cases hstep with
  | @start i call hnone =>
    have hempty : {l | s.owner l = some i} = ∅ :=
      Set.eq_empty_iff_forall_notMem.mpr fun l hl => h.owned l i hl hnone
    refine h.put (by simp) (hok i call rfl) ?_
    simpa [hempty] using hbody call s.db (hok i call rfl) h.committed
  | exec htx hnext =>
    obtain ⟨hcall, hfree, hwp⟩ := Tx.advance_wp (h.each _ _ htx).2 hnext
    exact h.put hfree (hcall ▸ (h.each _ _ htx).1) (hcall ▸ hwp)
  | commit htx hdone =>
    have hwp := (h.each _ _ htx).2
    rw [hdone] at hwp
    obtain ⟨hI, hothers⟩ := howes _ _ _ (hwp s.db (R.refl _ _))
    exact h.drop _ hI hothers
  | rollback => exact h.drop _ h.committed fun held _ => R.refl held s.db
  | abort => exact h.drop _ h.committed fun held _ => R.refl held s.db

/-- Adequacy: verified transactions are sound in every interleaving. -/
theorem Verified.sound (hbody : Verified R I allowed may body)
    (db : D) (hI : I db) {ok : Sys C D L ε → Event C → Prop}
    (hok : ∀ s i call, ok s (.start i call) → allowed call)
    (h : Reach (Sys.step body) ok { db } s) : s.Sound R I allowed may := by
  refine Reach.invariant (I := Sys.Sound R I allowed may) ?_ ?_ h
  · exact ⟨hI, by simp, by simp⟩
  · rintro s s' e hs hpermitted hstep
    refine hs.step hbody (fun _ _ _ => id) ?_ hstep
    rintro i call rfl
    exact hok s i call hpermitted

/-! ## Waiting -/

omit [DecidableEq L] in
theorem Sys.Meets.may_of_request (h : s.Meets R I allowed may Q)
    (hrequest : s.request i = some l) :
    ∃ tx, s.txs i = some tx ∧ allowed tx.call ∧ may tx.call (s.localState i tx) l := by
  simp only [Sys.request] at hrequest
  split at hrequest
  · rename_i tx htx
    refine ⟨tx, htx, (h.each i tx htx).1, ?_⟩
    have hwp := (h.each i tx htx).2
    split at hrequest
    · rename_i want next hlock
      rw [hlock] at hwp
      exact (hwp s.db (R.refl _ _)).1 l hrequest
    · cases hrequest
  · cases hrequest

omit [DecidableEq L] in
theorem Sys.waits_eq_some :
    s.waits i = some j ↔ ∃ l, s.request i = some l ∧ s.owner l = some j ∧ j ≠ i := by
  simp [Sys.waits, bind_eq_some_iff, filter_eq_some_iff]

omit [DecidableEq L] in
/-- Locks that everyone who waits asks for in the order of a rank cannot form a
cycle of waits. All three transactions of the premise wait. -/
theorem Sys.not_deadlock [Preorder β] (rank : L → β)
    (h : ∀ i j k l l', s.request i = some l → s.owner l = some j → j ≠ i →
      s.request j = some l' → s.owner l' = some k → k ≠ j → s.waits k ≠ none →
        rank l < rank l') :
    ¬ s.Deadlock := by
  -- along a path of waits that goes on, the rank of the requested lock grows
  have hpath : ∀ i j, Relation.TransGen (fun i j => s.waits i = some j) i j →
      ∀ k, s.waits j = some k → s.waits k ≠ none →
        ∃ l l', s.request i = some l ∧ s.request j = some l' ∧ rank l < rank l' := by
    intro i j hij
    induction hij with
    | single hfirst =>
      intro k hk hlast
      obtain ⟨l, hl, hown, hne⟩ := Sys.waits_eq_some.mp hfirst
      obtain ⟨l', hl', hown', hne'⟩ := Sys.waits_eq_some.mp hk
      exact ⟨l, l', hl, hl', h _ _ _ _ _ hl hown hne hl' hown' hne' hlast⟩
    | tail _ hstep ih =>
      intro k hk hlast
      obtain ⟨l, l₁, hl, hl₁, hlt⟩ := ih _ hstep (by simp [hk])
      obtain ⟨l₂, hl₂, hown, hne⟩ := Sys.waits_eq_some.mp hstep
      obtain ⟨l', hl', hown', hne'⟩ := Sys.waits_eq_some.mp hk
      obtain rfl : l₁ = l₂ := some.inj (hl₁.symm.trans hl₂)
      exact ⟨l, l', hl, hl', hlt.trans (h _ _ _ _ _ hl₂ hown hne hl' hown' hne' hlast)⟩
  rintro ⟨i, hcycle⟩
  obtain ⟨j, hfirst, hback⟩ := Relation.TransGen.head'_iff.mp hcycle
  have hj : s.waits j ≠ none := by
    rcases Relation.ReflTransGen.cases_head hback with rfl | ⟨k, hk, -⟩
    · simp [hfirst]
    · simp [hk]
  obtain ⟨l, l', hl, hl', hlt⟩ := hpath i i hcycle j hfirst hj
  obtain rfl : l = l' := some.inj (hl.symm.trans hl')
  exact lt_irrefl _ hlt

end Transaction
