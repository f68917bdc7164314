import AutoSwe.Lib.Table

/-!
# The rate limiter

The middleware keeps the times of the requests it let through for each client
and credential. It forgets old times only when the client comes again, and
idle clients only when its table is full. It is a sliding window all the same:
whatever the clients send, no key has more than the limit of accepted requests
in any sixty seconds.
-/

namespace AutoSwe.Api

open List

open Relational (Table)

/-- `RateLimitMiddleware._requests`: a deque of times, in seconds, for each key. -/
abbrev Tracked := Table String (String × List ℚ) Prod.fst

structure ApiRequest where
  /-- Its method is `OPTIONS` or its path is under `/health/`. -/
  exempt : Bool
  key : String
  now : ℚ

inductive RateDecision
  | exempt
  | atCapacity
  | limitExceeded
  | accepted
  deriving DecidableEq

structure RateLimitMiddleware where
  limit : Nat
  maxTrackedKeys : Nat

/-- `self._requests.get(key)`, with the new deque where there is none. -/
def Tracked.entries (requests : Tracked) (key : String) : List ℚ :=
  ((requests.get? key).map Prod.snd).getD []

/-- `not timestamps or timestamps[-1] <= now - 60` -/
def expired (now : ℚ) (item : String × List ℚ) : Bool :=
  item.2.getLast?.all (· ≤ now - 60)

namespace RateLimitMiddleware

def dispatch (m : RateLimitMiddleware) (requests : Tracked) (request : ApiRequest) :
    RateDecision × Tracked :=
  if request.exempt then (.exempt, requests) else
  let kept := if m.maxTrackedKeys ≤ requests.rows.length
    then requests.deleteWhere (expired request.now) else requests
  if m.maxTrackedKeys ≤ kept.rows.length then (.atCapacity, kept) else
  let entries := (Tracked.entries kept request.key).dropWhile (· ≤ request.now - 60)
  if m.limit ≤ entries.length then (.limitExceeded, kept.put (request.key, entries))
  else (.accepted, kept.put (request.key, entries ++ [request.now]))

/-- The requests accepted so far, oldest first, with the table. -/
def step (m : RateLimitMiddleware) (s : List ApiRequest × Tracked) (request : ApiRequest) :
    List ApiRequest × Tracked :=
  let answer := m.dispatch s.2 request
  (if answer.1 = .accepted then s.1 ++ [request] else s.1, answer.2)

def accepted (m : RateLimitMiddleware) (requests : List ApiRequest) : List ApiRequest :=
  (requests.foldl m.step ([], ∅)).1

end RateLimitMiddleware

/-- The times of the accepted requests of a key. -/
def times (done : List ApiRequest) (key : String) : List ℚ :=
  (done.filter (·.key = key)).map (·.now)

/-- What holds of a key at a time: its deque lacks only accepted requests that
no window from now on can see. -/
structure Windowed (limit : Nat) (done entries : List ℚ) (now : ℚ) : Prop where
  sorted : done.Pairwise (· ≤ ·)
  past : ∀ x ∈ done, x ≤ now
  kept : ∃ old, done = old ++ entries ∧ ∀ x ∈ old, x ≤ now - 60
  limited : ∀ t, done.countP (fun x => t - 60 < x ∧ x ≤ t) ≤ limit

variable {m : RateLimitMiddleware} {limit : Nat} {key : String} {done entries gone : List ℚ}
  {now now' : ℚ}

theorem Windowed.later (h : Windowed limit done entries now) (hle : now ≤ now') :
    Windowed limit done entries now' := by
  obtain ⟨old, rfl, hold⟩ := h.kept
  exact ⟨h.sorted, fun x hx => (h.past x hx).trans hle,
    ⟨old, rfl, fun x hx => (hold x hx).trans (sub_le_sub_right hle 60)⟩, h.limited⟩

theorem Windowed.drop (h : Windowed limit done (gone ++ entries) now)
    (hgone : ∀ x ∈ gone, x ≤ now - 60) : Windowed limit done entries now := by
  obtain ⟨old, hdone, hold⟩ := h.kept
  refine ⟨h.sorted, h.past, ⟨old ++ gone, by simpa using hdone, fun x hx => ?_⟩, h.limited⟩
  exact (mem_append.mp hx).elim (hold x) (hgone x)

/-- `while entries and entries[0] <= now - 60: entries.popleft()` -/
theorem Windowed.popleft (h : Windowed limit done entries now) :
    Windowed limit done (entries.dropWhile (· ≤ now - 60)) now := by
  rw [← takeWhile_append_dropWhile (l := entries) (p := (· ≤ now - 60))] at h
  exact h.drop fun x hx => of_decide_eq_true (all_eq_true.mp all_takeWhile x hx)

theorem Windowed.delete (h : Windowed limit done entries now) (hexp : expired now (key, entries)) :
    Windowed limit done [] now := by
  obtain ⟨old, hdone, -⟩ := h.kept
  refine Windowed.drop (by simpa using h) fun x hx => ?_
  obtain ⟨front, y, rfl⟩ := (eq_nil_or_concat' entries).resolve_left (ne_nil_of_mem hx)
  have hlast : y ≤ now - 60 := by simpa [expired] using hexp
  have hsorted := (pairwise_append.mp (hdone ▸ h.sorted)).2.1
  rcases mem_append.mp hx with hx | hx
  · exact ((pairwise_append.mp hsorted).2.2 x hx y (by simp)).trans hlast
  · exact (mem_singleton.mp hx).trans_le hlast

theorem Windowed.append (h : Windowed limit done entries now) (hroom : entries.length < limit) :
    Windowed limit (done ++ [now]) (entries ++ [now]) now := by
  obtain ⟨old, hdone, hold⟩ := h.kept
  refine ⟨?_, ?_, ⟨old, by simp [hdone], hold⟩, fun t => ?_⟩
  · exact pairwise_append.mpr ⟨h.sorted, by simp, by simpa using h.past⟩
  · simpa [or_imp, forall_and] using h.past
  · by_cases ht : now ≤ t
    · -- A window that ends now or later sees at most the deque.
      have hnone : old.countP (fun x => t - 60 < x ∧ x ≤ t) = 0 := by
        refine countP_eq_zero.mpr fun x hx hin => (of_decide_eq_true hin).1.not_ge ?_
        exact (hold x hx).trans (sub_le_sub_right ht 60)
      have hall := countP_le_length (p := fun x => t - 60 < x ∧ x ≤ t) (l := entries ++ [now])
      rw [hdone, append_assoc, countP_append, hnone, zero_add]
      exact hall.trans (by simpa [Nat.succ_le_iff] using hroom)
    · rw [countP_append, countP_singleton]
      simpa [ht] using h.limited t

theorem entries_put (requests : Tracked) (key key' : String) (q : List ℚ) :
    Tracked.entries (requests.put (key, q)) key' =
      if key' = key then q else Tracked.entries requests key' := by
  simp only [Tracked.entries, Table.get?_put]
  split <;> simp

theorem Windowed.sweep {requests : Tracked}
    (h : Windowed limit done (Tracked.entries requests key) now) :
    Windowed limit done (Tracked.entries (requests.deleteWhere (expired now)) key) now := by
  simp only [Tracked.entries, Table.get?_deleteWhere] at h ⊢
  cases hrow : requests.get? key with
  | none => simpa [hrow] using h
  | some item =>
    rw [hrow] at h
    cases hexp : expired now item with
    | false => simpa [Option.filter, hexp] using h
    | true => simpa [Option.filter, hexp] using h.delete hexp

theorem Windowed.step {s : List ApiRequest × Tracked}
    (h : Windowed m.limit (times s.1 key) (Tracked.entries s.2 key) now)
    {request : ApiRequest} (hle : now ≤ request.now) :
    Windowed m.limit (times (m.step s request).1 key) (Tracked.entries (m.step s request).2 key)
      request.now := by
  replace h := h.later hle
  rw [RateLimitMiddleware.step, RateLimitMiddleware.dispatch]
  split
  · exact h
  · obtain ⟨kept, hkept⟩ : ∃ kept, (if m.maxTrackedKeys ≤ s.2.rows.length
        then s.2.deleteWhere (expired request.now) else s.2) = kept := ⟨_, rfl⟩
    have hswept : Windowed m.limit (times s.1 key) (Tracked.entries kept key) request.now := by
      rw [← hkept]
      split
      · exact h.sweep
      · exact h
    simp only [hkept]
    by_cases hkey : key = request.key
    · subst hkey
      split
      · exact hswept
      · split
        · simpa [entries_put] using hswept.popleft
        · rename_i hroom
          simpa [entries_put, times] using hswept.popleft.append (not_le.mp hroom)
    · split
      · exact hswept
      · split <;> simpa [entries_put, hkey, Ne.symm hkey, times] using hswept

theorem Windowed.run {s : List ApiRequest × Tracked}
    (h : Windowed m.limit (times s.1 key) (Tracked.entries s.2 key) now) {rs : List ApiRequest}
    (hle : ∀ r ∈ rs, now ≤ r.now) (hmono : rs.Pairwise fun a b => a.now ≤ b.now) (t : ℚ) :
    (times (rs.foldl m.step s).1 key).countP (fun x => t - 60 < x ∧ x ≤ t) ≤ m.limit := by
  induction rs generalizing s now with
  | nil => exact h.limited t
  | cons r rs ih =>
    obtain ⟨hr, hmono⟩ := pairwise_cons.mp hmono
    exact ih (h.step (hle r (by simp))) hr hmono

/-- Of the requests of a key, at most `limit` are accepted in any sixty seconds. -/
theorem accepted_within_limit (m : RateLimitMiddleware) (rs : List ApiRequest)
    (hmono : rs.Pairwise fun a b => a.now ≤ b.now) (key : String) (t : ℚ) :
    (m.accepted rs).countP (fun r => r.key = key ∧ t - 60 < r.now ∧ r.now ≤ t) ≤ m.limit := by
  obtain ⟨now, hnow⟩ : ∃ now, ∀ r ∈ rs, now ≤ r.now := by
    cases rs with
    | nil => exact ⟨0, by simp⟩
    | cons r rs => exact ⟨r.now, by simpa using (pairwise_cons.mp hmono).1⟩
  have hstart : Windowed m.limit (times [] key) (Tracked.entries ∅ key) now := by
    constructor <;> simp [Tracked.entries, times]
  have hwindow := hstart.run (s := ([], ∅)) hnow hmono t
  rw [times, countP_map, countP_filter] at hwindow
  simpa [Function.comp_def, Bool.and_comm, RateLimitMiddleware.accepted] using hwindow

theorem accepted_within_limit_two :
    let rs := [0, 10, 20, 60].map (ApiRequest.mk false "a")
    (RateLimitMiddleware.accepted ⟨2, 9⟩ rs).map (·.now) = [0, 10, 60] ∧
      (RateLimitMiddleware.accepted ⟨2, 9⟩ rs).countP
        (fun r => r.key = "a" ∧ (60 : ℚ) - 60 < r.now ∧ r.now ≤ 60) ≤ 2 :=
  ⟨by decide +kernel, accepted_within_limit ⟨2, 9⟩ _ (by decide +kernel) "a" 60⟩

/-! ## One client beside the others -/

open RateLimitMiddleware

variable (m) {rs : List ApiRequest} {requests : Tracked} {request : ApiRequest} {t : ℚ}

theorem Windowed.reach (hmono : rs.Pairwise fun a b => a.now ≤ b.now) (ht : ∀ r ∈ rs, r.now ≤ t) :
    Windowed m.limit (times (m.accepted rs) key)
      (Tracked.entries (rs.foldl m.step ([], ∅)).2 key) t := by
  induction rs using reverseRecOn generalizing t with
  | nil => constructor <;> simp [Tracked.entries, times, accepted]
  | append_singleton rs r ih =>
    obtain ⟨hmono, -, hlast⟩ := pairwise_append.mp hmono
    have hbefore := ih hmono fun r' hr' => hlast r' hr' r (by simp)
    rw [accepted, foldl_append]
    exact (hbefore.step le_rfl).later (ht r (by simp))

/-- What is left of the deque is what a window that ends now sees. -/
theorem Windowed.unexpired (h : Windowed limit done entries now) :
    done.filter (now - 60 < ·) = entries.dropWhile (· ≤ now - 60) := by
  obtain ⟨old, rfl, hold⟩ := h.kept
  have hsorted := (pairwise_append.mp h.sorted).2.1
  rw [filter_append, filter_eq_nil_iff.mpr (by simpa using hold), nil_append]
  clear h
  induction entries with
  | nil => rfl
  | cons x rest ih =>
    obtain ⟨hx, hsorted⟩ := pairwise_cons.mp hsorted
    by_cases hgone : x ≤ now - 60
    · simpa [hgone] using ih hsorted
    · have hlater := not_le.mp hgone
      simpa [hgone, hlater] using fun y hy => hlater.trans_le (hx y hy)

/-- A full table has room once its idle keys are forgotten. -/
abbrev RateLimitMiddleware.HasRoom (requests : Tracked) (now : ℚ) : Prop :=
  (requests.deleteWhere (expired now)).rows.length < m.maxTrackedKeys

theorem dispatch_accepted
    (h : Windowed m.limit done (Tracked.entries requests request.key) request.now)
    (htracked : request.exempt = false) :
    (m.dispatch requests request).1 = .accepted ↔ m.HasRoom requests request.now ∧
      (done.filter (request.now - 60 < ·)).length < m.limit := by
  have hfewer : (requests.deleteWhere (expired request.now)).rows.length ≤ requests.rows.length :=
    length_filter_le ..
  rw [dispatch, htracked]
  by_cases hfull : m.maxTrackedKeys ≤ requests.rows.length
  · simp only [hfull, if_true, h.sweep.unexpired]
    grind
  · simp only [hfull, if_false, h.unexpired]
    grind

/-- The other clients matter to a request only if they leave no room: then it is
refused, and else its client's own accepted requests decide. -/
theorem admission_own (hmono : (rs ++ [request]).Pairwise fun a b => a.now ≤ b.now)
    (htracked : request.exempt = false) :
    (m.dispatch (rs.foldl m.step ([], ∅)).2 request).1 = .accepted ↔
      m.HasRoom (rs.foldl m.step ([], ∅)).2 request.now ∧
        ((times (m.accepted rs) request.key).filter (request.now - 60 < ·)).length < m.limit := by
  obtain ⟨hmono, -, hlast⟩ := pairwise_append.mp hmono
  exact dispatch_accepted m (.reach m hmono fun r hr => hlast r hr request (by simp)) htracked

theorem admission_own_two :
    let m : RateLimitMiddleware := ⟨2, 3⟩
    let rs := [ApiRequest.mk false "b" 0, ⟨false, "a", 5⟩]
    (m.dispatch (rs.foldl m.step ([], ∅)).2 ⟨false, "a", 10⟩).1 = .accepted :=
  (admission_own ⟨2, 3⟩ (by decide +kernel) rfl).mpr (by decide +kernel)

/-- Another key fills the table, and a client whose request was accepted a second
ago is refused its next one. -/
theorem client_locked_out :
    let m : RateLimitMiddleware := ⟨2, 2⟩
    let own : ApiRequest := ⟨false, "a", 0⟩
    let alone := [own].foldl m.step ([], ∅)
    let beside := [own, ⟨false, "b", 0⟩].foldl m.step ([], ∅)
    times alone.1 "a" = [0] ∧ times beside.1 "a" = [0] ∧
      (m.dispatch alone.2 ⟨false, "a", 1⟩).1 = .accepted ∧
      (m.dispatch beside.2 ⟨false, "a", 1⟩).1 = .atCapacity := by
  decide +kernel

/-- However many keys come, none loses a time of the last sixty seconds. -/
theorem budget_kept (hmono : rs.Pairwise fun a b => a.now ≤ b.now) (ht : ∀ r ∈ rs, r.now ≤ t)
    (key : String) :
    (Tracked.entries (rs.foldl m.step ([], ∅)).2 key).dropWhile (· ≤ t - 60) =
      (times (m.accepted rs) key).filter (t - 60 < ·) :=
  (Windowed.reach m hmono ht).unexpired.symm

theorem budget_kept_two :
    let m : RateLimitMiddleware := ⟨2, 1⟩
    let rs := [ApiRequest.mk false "a" 0, ⟨false, "b", 0⟩]
    (Tracked.entries (rs.foldl m.step ([], ∅)).2 "a").dropWhile (· ≤ (0 : ℚ) - 60) = [0] :=
  (budget_kept ⟨2, 1⟩ (by decide +kernel) (by decide +kernel) "a").trans (by decide +kernel)

theorem length_put_le (item : String × List ℚ) :
    (requests.put item).rows.length ≤ requests.rows.length + 1 := by
  cases h : requests.get? item.1 with
  | none => simp [Table.put_of_none h, Table.rows_insert h]
  | some _ => simp [Table.put_of_some h, Table.set]

/-- However many keys come, the table stays within its bound. -/
theorem tracked_bounded (rs : List ApiRequest) :
    (rs.foldl m.step ([], ∅)).2.rows.length ≤ m.maxTrackedKeys := by
  induction rs using reverseRecOn with
  | nil => exact Nat.zero_le _
  | append_singleton rs r ih =>
    rw [foldl_append, foldl_cons, foldl_nil, step, dispatch]
    grind [length_put_le, Table.deleteWhere]

end AutoSwe.Api
