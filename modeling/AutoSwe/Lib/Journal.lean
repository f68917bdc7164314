import AutoSwe.Lib.Interleave

/-!
# The commits of an interleaving

A journal runs a system and records every commit: the call, the locks that the
transaction held at its end, and the committed state before and after. The
record is a history from the first state to the present one, and what is
verified of every transaction on its own holds of each of its entries.
-/

namespace Transaction

open List LabelledRun

variable {C D L ε : Type}

structure Commit (C D L : Type) where
  call : C
  held : Set L
  before : D
  after : D

/-- Commits one after the other lead from `init` to the given state. -/
inductive History (init : D) : List (Commit C D L) → D → Prop
  | nil : History init [] init
  | snoc (log : List (Commit C D L)) (c : Commit C D L) (earlier : History init log c.before) :
      History init (log ++ [c]) c.after

theorem History.invariant {I : List (Commit C D L) → D → Prop} {P : Commit C D L → Prop}
    (hinit : I [] init) (hstep : ∀ log c, P c → I log c.before → I (log ++ [c]) c.after)
    (h : History init log d) (hP : ∀ c ∈ log, P c) : I log d := by
  induction h with
  | nil => exact hinit
  | snoc log c _ ih =>
    exact hstep log c (hP c (by simp)) (ih fun c' hc' => hP c' (by simp [hc']))

theorem History.persists {K : D → Prop} {P : Commit C D L → Prop}
    (hkeep : ∀ c, P c → K c.before → K c.after) {c : Commit C D L} (h : History init log d)
    (hP : ∀ c ∈ log, P c) (hc : c ∈ log) (hK : K c.after) : K d := by
  refine History.invariant (I := fun log d => c ∈ log → K d) (by simp) ?_ h hP hc
  intro log c' hc' ih hmem
  rcases mem_append.mp hmem with hmem | hmem
  · exact hkeep c' hc' (ih hmem)
  · exact mem_singleton.mp hmem ▸ hK

/-- The history up to an entry, and the state that the entry was committed over. -/
theorem History.split (h : History init log d) (hlog : log = earlier ++ c :: later) :
    History init earlier c.before := by
  induction h generalizing later with
  | nil => simp at hlog
  | snoc log c' hbefore ih =>
    rcases eq_nil_or_concat later with rfl | ⟨later, last, rfl⟩
    · obtain ⟨rfl, hc⟩ := append_inj' hlog rfl
      obtain rfl : c' = c := by simpa using hc
      exact hbefore
    · have hlast : log ++ [c'] = (earlier ++ c :: later) ++ [last] := by simpa using hlog
      exact ih (append_inj' hlast rfl).1

structure Journal (C D L ε : Type) where
  sys : Sys C D L ε
  log : List (Commit C D L) := []

section
variable [DecidableEq L] {s s' : Sys C D L ε} {body : C → Prog D L ε Unit}

def Sys.commits (s : Sys C D L ε) : Event C → List (Commit C D L)
  | .finish i =>
    match s.txs i with
    | some tx =>
      match tx.prog with
      | .done _ => [⟨tx.call, {l | s.owner l = some i}, s.db, tx.own s.db⟩]
      | _ => []
    | none => []
  | _ => []

def Journal.step (body : C → Prog D L ε Unit) (j : Journal C D L ε) (e : Event C) :
    Option (Journal C D L ε) :=
  (j.sys.step body e).map fun sys => { sys, log := j.log ++ j.sys.commits e }

/-- An event commits nothing and leaves the committed state, or it commits one
transaction that is ready to commit. -/
theorem Sys.step_commits (h : s.step body e = some s') :
    (s.commits e = [] ∧ s'.db = s.db) ∨
      ∃ i tx u, s.txs i = some tx ∧ tx.prog = .done u ∧ s'.db = tx.own s.db ∧
        s.commits e = [⟨tx.call, {l | s.owner l = some i}, s.db, tx.own s.db⟩] := by
  cases Sys.step_cases h with
  | commit htx hdone =>
    exact .inr ⟨_, _, _, htx, hdone, rfl, by simp [Sys.commits, htx, hdone]⟩
  | rollback htx hraise => exact .inl ⟨by simp [Sys.commits, htx, hraise], rfl⟩
  | start => exact .inl ⟨rfl, rfl⟩
  | exec => exact .inl ⟨rfl, rfl⟩
  | abort => exact .inl ⟨rfl, rfl⟩

/-- Adequacy: what every transaction establishes of its commit holds of every
entry of every journal. -/
theorem Journal.sound {R : Rely D L} {I : D → Prop} {may : C → Local D L → L → Prop}
    {P : Commit C D L → Prop} (hbody : ∀ call db, I db → (body call).wp R (may call)
      (fun _ σ db => Owes R I σ db ∧ P ⟨call, σ.held, db, σ.own db⟩) {} db)
    (db : D) (hI : I db) {ok : Journal C D L ε → Event C → Prop}
    (h : Reach (Journal.step body) ok { sys := { db } } j) :
    (∀ c ∈ j.log, P c) ∧ History db j.log j.sys.db := by
  have hsound := Reach.invariant
    (I := fun j : Journal C D L ε =>
      j.sys.Meets R I (fun _ => True) may
        (fun call σ db => Owes R I σ db ∧ P ⟨call, σ.held, db, σ.own db⟩) ∧
      (∀ c ∈ j.log, P c) ∧ History db j.log j.sys.db) ?_ ?_ h
  · exact hsound.2
  · exact ⟨⟨hI, by simp, by simp⟩, by simp, .nil⟩
  · rintro j j' e ⟨hmeets, hlog, hhistory⟩ hpermitted hstep
    obtain ⟨s', hs, rfl⟩ := Option.map_eq_some_iff.mp hstep
    refine ⟨hmeets.step (fun call db _ => hbody call db) (fun _ _ _ hq => hq.1)
      (fun _ _ _ => trivial) hs, ?_⟩
    rcases Sys.step_commits hs with ⟨hnone, hdb⟩ | ⟨i, tx, u, htx, hdone, hdb, hone⟩
    · simpa [hnone, hdb] using ⟨hlog, hhistory⟩
    · have hwp := (hmeets.each i tx htx).2
      rw [hdone] at hwp
      obtain ⟨-, hcommit⟩ := hwp j.sys.db (R.refl _ _)
      rw [hone, hdb]
      refine ⟨fun c hc => ?_, .snoc j.log _ hhistory⟩
      rcases mem_append.mp hc with hc | hc
      · exact hlog c hc
      · obtain rfl := mem_singleton.mp hc
        exact hcommit

/-! ## Running alone is one of the interleavings -/

/-- The locks that a transaction takes when it runs alone. -/
def Prog.taken : Prog D L ε α → D → List L
  | .done _, _ => []
  | .raise _, _ => []
  | .stmt write next, d => (next d).taken (write d d)
  | .lock want next, d => (want d).toList ++ (next d).taken d
  | .skipLocked rows limit next, d =>
    (rows d).take limit ++ (next d ((rows d).take limit)).taken d

structure Sys.Idle (s : Sys C D L ε) : Prop where
  txs : ∀ i, s.txs i = none
  owner : ∀ l, s.owner l = none

structure Sys.Alone (s : Sys C D L ε) : Prop where
  txs : ∀ i, i ≠ 0 → s.txs i = none
  owner : ∀ l, s.owner l = none ∨ s.owner l = some 0

omit [DecidableEq L] in
theorem Sys.Alone.free (h : s.Alone) : s.free 0 = fun _ => true := by
  funext l
  rcases h.owner l with hl | hl <;> simp [Sys.free, hl]

omit [DecidableEq L] in
theorem Sys.Alone.drop (h : s.Alone) : (s.drop 0).Idle := by
  refine ⟨fun j => ?_, fun l => ?_⟩
  · by_cases hj : j = 0 <;> simp [Sys.drop, hj, h.txs]
  · rcases h.owner l with hl | hl <;> simp [Sys.drop, hl]

theorem Sys.Alone.put (h : s.Alone) (tx : Tx C D L ε) (taken : List L) :
    (s.put 0 tx taken).Alone := by
  refine ⟨fun j hj => by simp [Sys.put, hj, h.txs], fun l => ?_⟩
  by_cases hl : l ∈ taken
  · simp [Sys.put, hl]
  · simpa [Sys.put, hl] using h.owner l

theorem Sys.put_self (s : Sys C D L ε) (tx : Tx C D L ε) (taken : List L) :
    (s.put i tx taken).txs i = some tx := by
  simp [Sys.put]

theorem Sys.put_owned :
    {l | (s.put i tx taken).owner l = some i ∨ l ∈ rest} =
      {l | s.owner l = some i ∨ l ∈ taken ++ rest} := by
  ext l
  by_cases hl : l ∈ taken <;> simp [Sys.put, hl]

section
variable {init j : Journal C D L ε}

theorem Journal.step_exec (h : j.sys.step body (.exec i) = some s) :
    Journal.step body j (.exec i) = some { sys := s, log := j.log } := by
  simp [Journal.step, h, Sys.commits]

/-- A transaction that is alone runs to its end as `run` says. -/
theorem Sys.Alone.run (h : Reach (Journal.step body) (fun _ _ => True) init j)
    (halone : j.sys.Alone) (htx : j.sys.txs 0 = some ⟨call, p, own, seen⟩) :
    ∃ j', Reach (Journal.step body) (fun _ _ => True) init j' ∧ j'.sys.Idle ∧
      match p.run (own j.sys.db) with
      | .ok (_, d) => j'.sys.db = d ∧ j'.log = j.log ++
          [⟨call, {l | j.sys.owner l = some 0 ∨ l ∈ p.taken (own j.sys.db)}, j.sys.db, d⟩]
      | .error _ => j'.sys.db = j.sys.db := by
  induction p generalizing j own seen with
  | done u =>
    have hstep : Journal.step body j (.finish 0) = some
        { sys := { j.sys.drop 0 with db := own j.sys.db }
          log := j.log ++ [⟨call, {l | j.sys.owner l = some 0}, j.sys.db, own j.sys.db⟩] } := by
      simp [Journal.step, Sys.step, Sys.commits, htx]
    refine ⟨_, .next h trivial hstep, ⟨halone.drop.txs, halone.drop.owner⟩, rfl, ?_⟩
    simp [Prog.taken]
  | raise e =>
    have hstep : Journal.step body j (.finish 0) = some { sys := j.sys.drop 0, log := j.log } := by
      simp [Journal.step, Sys.step, Sys.commits, htx]
    exact ⟨_, .next h trivial hstep, halone.drop, rfl⟩
  | stmt write next ih =>
    have hstep : j.sys.step body (.exec 0) = some (j.sys.put 0 ⟨call, next (own j.sys.db),
        fun d => write (own j.sys.db) (own d), seen ++ [own j.sys.db]⟩ []) := by
      simp [Sys.step, htx, Tx.advance]
    have hrest := ih (own j.sys.db) (.next h trivial (Journal.step_exec hstep))
      (halone.put _ _) (Sys.put_self _ _ _)
    rw [Sys.put_owned] at hrest
    exact hrest
  | lock want next ih =>
    have hstep : j.sys.step body (.exec 0) = some (j.sys.put 0 ⟨call, next (own j.sys.db), own,
        seen ++ [own j.sys.db]⟩ (want (own j.sys.db)).toList) := by
      cases hwant : want (own j.sys.db) <;> simp [Sys.step, htx, Tx.advance, hwant, halone.free]
    have hrest := ih (own j.sys.db) (.next h trivial (Journal.step_exec hstep))
      (halone.put _ _) (Sys.put_self _ _ _)
    rw [Sys.put_owned] at hrest
    exact hrest
  | skipLocked rows limit next ih =>
    let taken := (rows (own j.sys.db)).take limit
    have hstep : j.sys.step body (.exec 0) = some (j.sys.put 0 ⟨call, next (own j.sys.db) taken,
        own, seen ++ [own j.sys.db]⟩ taken) := by
      simp [Sys.step, htx, Tx.advance, halone.free, taken]
    have hrest := ih (own j.sys.db) taken (.next h trivial (Journal.step_exec hstep))
      (halone.put _ _) (Sys.put_self _ _ _)
    rw [Sys.put_owned] at hrest
    exact hrest

/-- From an idle system, a transaction that runs alone commits what `commit`
says, and its commit is recorded. -/
theorem Sys.Idle.commit (h : Reach (Journal.step body) (fun _ _ => True) init j)
    (hidle : j.sys.Idle) (call : C) :
    ∃ j', Reach (Journal.step body) (fun _ _ => True) init j' ∧ j'.sys.Idle ∧
      j'.sys.db = ((body call).commit j.sys.db).2 ∧
      ∀ d, (body call).run j.sys.db = .ok ((), d) →
        j'.log = j.log ++ [⟨call, {l | l ∈ (body call).taken j.sys.db}, j.sys.db, d⟩] := by
  have hstep : Journal.step body j (.start 0 call) =
      some { sys := j.sys.put 0 ⟨call, body call, id, []⟩ [], log := j.log } := by
    simp [Journal.step, Sys.step, hidle.txs, Sys.commits]
  have halone : (j.sys.put 0 ⟨call, body call, id, []⟩ []).Alone :=
    Sys.Alone.put ⟨fun i _ => hidle.txs i, fun l => .inl (hidle.owner l)⟩ _ _
  obtain ⟨j', hreach, hidle', hend⟩ :=
    Sys.Alone.run (.next h trivial hstep) halone (Sys.put_self _ _ _)
  refine ⟨j', hreach, hidle', ?_⟩
  cases hrun : (body call).run j.sys.db with
  | ok result =>
    simp only [Sys.put, id_eq, hrun] at hend
    refine ⟨by simp [Prog.commit, hrun, hend.1], fun d hd => ?_⟩
    cases hd
    simpa [hidle.owner] using hend.2
  | error e =>
    simp only [Sys.put, id_eq, hrun] at hend
    exact ⟨by simp [Prog.commit, hrun, hend], by simp⟩

theorem Journal.reach_sys (h : Reach (Journal.step body) (fun _ _ => True) init j) :
    Reach (Sys.step body) (fun _ _ => True) init.sys j.sys := by
  induction h with
  | start => exact .start
  | next _ _ hstep ih =>
    obtain ⟨s', hs, rfl⟩ := Option.map_eq_some_iff.mp hstep
    exact .next ih trivial hs

end

end

end Transaction
