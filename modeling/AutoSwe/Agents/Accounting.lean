import AutoSwe.Scheduler.Claims
import AutoSwe.Worker.Nodes

/-!
# Accounting of model requests

A request of an agent is to be one row of `model_calls`, under the trace of the
invocation and the number of the request in it. A row that is there already is left
alone, and every invocation counts from one again. So what an agent spends when it
is invoked once more under its trace goes unrecorded.
-/

namespace AutoSwe

open List Function

/-! ## The record of a request -/

namespace AgentRuntime

variable {Output D A : Type} (rt : AgentRuntime Output D A)

/-- The errors that a reply is recorded with. -/
def rejectedWith (s : AgentState D) (response : ModelResponse Output) : List String :=
  if response.toolCalls ≠ [] then []
  else
    match rt.validated s response with
    | .error errors => errors
    | .ok _ => []

/-- What the loop records of an exchange. An invocation that ended before it could
(its time ran out, it was cancelled, the worker died) records nothing. -/
def recordOf (s : AgentState D) (request : ModelRequest) :
    Exchange Output A → Option AgentAttemptRecord
  | .failure failureClass => some
    { turn := s.requestNumber + 1, model := request.model
      usage := if failureClass.billedOnFailure then rt.estimate else {}, failureClass }
  | .expired => none
  | .response response _ => some
    (attempt { s with requestNumber := s.requestNumber + 1 } response (rt.rejectedWith s response))

/-- A call that is not granted is answered without the dispatcher. -/
def resultOf (dispatcher : D) (call : ToolCall) (answer : A) : Except Raised (Json × D) :=
  if call.name ∉ rt.spec.toolGrants then pure (rt.notGranted call, dispatcher)
  else rt.dispatch dispatcher call answer

def dispatches (answers : Nat → A) : List (ToolCall × Nat) → D → List (ToolCall × Json)
  | [], _ => []
  | (call, i) :: rest, dispatcher =>
    match rt.resultOf dispatcher call (answers i) with
    | .ok (result, dispatcher) => (call, result) :: dispatches answers rest dispatcher
    | .error _ => []

def successes (log : List (ToolCall × Json)) : List String :=
  (log.filter fun entry => succeeded entry.2).map fun entry => entry.1.callId

theorem successes_append (log log' : List (ToolCall × Json)) :
    successes (log ++ log') = successes log ++ successes log' := by
  simp [successes]

theorem dispatchTool_ok (h : rt.dispatchTool s call answer = .ok s') :
    ∃ result dispatcher, rt.resultOf s.dispatcher call answer = .ok (result, dispatcher) ∧
      s' = { s with
        dispatcher, allCalls := s.allCalls ++ [call]
        successfulCalls := s.successfulCalls ++ successes [(call, result)] } := by
  unfold dispatchTool at h
  unfold resultOf
  split at h
  · cases h
    rw [if_pos ‹_›]
    exact ⟨_, _, rfl, by simp [successes, succeeded, notGranted, Json.get?]⟩
  · obtain ⟨⟨result, dispatcher⟩, hresult, hnext⟩ := except_bind_ok.mp h
    cases hnext
    rw [if_neg ‹_›]
    refine ⟨result, dispatcher, hresult, ?_⟩
    cases hsucceeded : succeeded result <;> simp [successes, hsucceeded]

theorem dispatchTools_ok (h : rt.dispatchTools answers calls s = .ok s') :
    s' = { s with
      dispatcher := s'.dispatcher
      allCalls := s.allCalls ++ (rt.dispatches answers calls s.dispatcher).map Prod.fst
      successfulCalls :=
        s.successfulCalls ++ successes (rt.dispatches answers calls s.dispatcher) } := by
  induction calls generalizing s with
  | nil =>
    cases h
    simp [dispatches, successes]
  | cons call rest ih =>
    obtain ⟨next, hcall, hrest⟩ := except_bind_ok.mp h
    obtain ⟨result, dispatcher, hresult, rfl⟩ := rt.dispatchTool_ok hcall
    have hlog : rt.dispatches answers (call :: rest) s.dispatcher =
        [(call.1, result)] ++ rt.dispatches answers rest dispatcher := by
      simp [dispatches, hresult]
    rw [ih hrest, hlog, successes_append]
    simp

theorem step_continued (h : rt.step s exchange = .continued s') :
    s'.requestNumber = s.requestNumber + 1 := by
  have hcases := rt.step_cases s exchange
  rw [h] at hcases
  cases hcases with
  | dispatched _ _ _ hdispatched =>
    rw [rt.dispatchTools_ok hdispatched]
    rfl
  | _ => rfl

end AgentRuntime

/-! ## Traces -/

/-- Where the platform invokes an agent. -/
inductive AgentSite
  | node (taskId attemptId : UUID) (stage : Node)
  | architect (attempt : Nat)
  | finalReview (planRevision : Nat)
  | debugger (revision : Nat)
deriving DecidableEq

namespace AgentSite

def traceId (runId : UUID) : AgentSite → String
  | .node taskId attemptId stage =>
    "task:" ++ taskId.str ++ ":attempt:" ++ attemptId.str ++ ":node:" ++ stage.name
  | .architect attempt => "run:" ++ runId.str ++ ":stage:architect:attempt:" ++ attempt.repr
  | .finalReview planRevision =>
    "run:" ++ runId.str ++ ":stage:" ++ ("final-review:" ++ planRevision.repr)
  | .debugger revision => "run:" ++ runId.str ++ ":stage:" ++ ("debugger:" ++ revision.repr)

def recordName (runId : UUID) (turn : Nat) (site : AgentSite) : String :=
  match site with
  | .node _ attemptId _ =>
    "model-call:" ++ attemptId.str ++ ":" ++ site.traceId runId ++ ":" ++ turn.repr
  | _ => "run-model-call:" ++ runId.str ++ ":" ++ site.traceId runId ++ ":" ++ turn.repr

theorem length_hex : (hex width n).length = width := by
  induction width generalizing n with
  | zero => rfl
  | succ width ih => simp [hex, ih]

theorem length_str {id : UUID} : id.str.toList.length = 36 := by
  simp [UUID.str, UUID.digits, length_hex]

theorem name_injective : Injective Node.name := by
  intro m n h
  cases m <;> cases n <;> first | rfl | exact absurd h (by decide)

theorem repr_injective : Injective Nat.repr := by
  intro m n h
  exact Json.toDigits_injective (String.ofList_injective h)

/-- A text that starts with an id tells the id and the rest. -/
theorem str_append_inj {id id' : UUID}
    (h : id.str.toList ++ rest = id'.str.toList ++ rest') : id = id' ∧ rest = rest' := by
  obtain ⟨hid, hrest⟩ := append_inj h (by rw [length_str, length_str])
  exact ⟨UUID.str_injective (String.toList_injective hid), hrest⟩

theorem traceId_injective : Injective (traceId runId) := by
  intro a b h
  have hlist := congrArg String.toList h
  cases a with
  | node =>
    cases b with
    | node =>
      simp only [traceId, String.toList_append, append_assoc, append_right_inj] at hlist
      obtain ⟨htask, hlist⟩ := str_append_inj hlist
      rw [append_right_inj] at hlist
      obtain ⟨hattempt, hlist⟩ := str_append_inj hlist
      rw [append_right_inj] at hlist
      rw [htask, hattempt, name_injective (String.toList_injective hlist)]
    | _ => simp [traceId, String.toList_append] at hlist
  | architect attempt =>
    cases b with
    | architect attempt' =>
      simp only [traceId, String.toList_append, append_right_inj] at hlist
      rw [repr_injective (String.toList_injective hlist)]
    | _ => simp [traceId, String.toList_append] at hlist
  | finalReview planRevision =>
    cases b with
    | finalReview planRevision' =>
      simp only [traceId, String.toList_append, append_right_inj] at hlist
      rw [repr_injective (String.toList_injective hlist)]
    | _ => simp [traceId, String.toList_append] at hlist
  | debugger revision =>
    cases b with
    | debugger revision' =>
      simp only [traceId, String.toList_append, append_right_inj] at hlist
      rw [repr_injective (String.toList_injective hlist)]
    | _ => simp [traceId, String.toList_append] at hlist

end AgentSite

/-! ## The rows -/

structure UsageRow extends ModelCallRow where
  traceId : String
  turn : Nat

namespace UsageRow

/-- `uq_model_call_invocation_turn`. -/
def key (row : UsageRow) : UUID × String × Nat := (row.runId, row.traceId, row.turn)

/-- `record` of the recorders of workers and of stages. The conflict clause names the
key, so that a row of another key under the same id is an error. -/
def record (row : UsageRow) (rows : List UsageRow) : Except Raised (List UsageRow) :=
  if row.key ∈ rows.map key then .ok rows
  else if row.id ∈ rows.map fun other => other.id then .error ⟨.integrityError, "model_calls_pkey"⟩
  else .ok (rows ++ [row])

end UsageRow

/-! ## Invocations side by side -/

namespace Accounting

/-- An agent with the types of its output, of its dispatcher and of the answers. -/
structure Agent where
  Output : Type
  D : Type
  A : Type
  runtime : AgentRuntime Output D A

structure Invocation where
  runId : UUID
  site : AgentSite
  agent : Agent
  state : AgentState agent.D

/-- A request that was sent. `cut` says that its invocation ended before the request
could be recorded. -/
structure Issued where
  invocation : Nat
  runId : UUID
  site : AgentSite
  turn : Nat
  cost : Rat
  cut : Bool

def Issued.row (uuid5 : UUID → String → UUID) (e : Issued) : UsageRow where
  id := uuid5 namespaceUrl (e.site.recordName e.runId e.turn)
  runId := e.runId
  costUsd := e.cost
  traceId := e.site.traceId e.runId
  turn := e.turn

def Invocation.sends (inv : Invocation) (i : Nat) (cost : Rat) (cut : Bool) : Issued :=
  ⟨i, inv.runId, inv.site, inv.state.requestNumber + 1, cost, cut⟩

/-- Invocations are numbered as they start. -/
structure Ledger where
  rows : List UsageRow := []
  issued : List Issued := []
  active : Nat → Option Invocation := fun _ => none
  started : Nat := 0

/-- Dollars, of units of 10⁻⁸. -/
def usd (cost : Nat) : Rat := cost / 100000000

namespace Ledger

def stop (s : Ledger) (i : Nat) : Ledger := { s with active := update s.active i none }

def invoke (s : Ledger) (runId : UUID) (site : AgentSite) (agent : Agent) (dispatcher : agent.D) :
    Ledger :=
  { s with
    active := update s.active s.started (some ⟨runId, site, agent, { dispatcher }⟩)
    started := s.started + 1 }

/-- One request of an invocation and what came of it. `unseen` is the cost of a request
of which nothing was heard any more. -/
def exchange (uuid5 : UUID → String → UUID) (s : Ledger) (i : Nat) (inv : Invocation)
    (exchange : Exchange inv.agent.Output inv.agent.A) (unseen : Rat) : Ledger :=
  match inv.agent.runtime.request inv.state with
  | .error _ => s.stop i
  | .ok request =>
    match inv.agent.runtime.recordOf inv.state request exchange with
    | none => { s.stop i with issued := s.issued ++ [inv.sends i unseen true] }
    | some record =>
      let e := inv.sends i (usd record.usage.cost) false
      match (e.row uuid5).record s.rows with
      | .error _ => { s.stop i with issued := s.issued ++ [e] }
      | .ok rows =>
        let next := inv.agent.runtime.next inv.state exchange
        { s with
          rows, issued := s.issued ++ [e]
          active := update s.active i (next.map fun state => { inv with state }) }

/-- An invocation starts, exchanges a request with its model, or is gone. -/
inductive Step (uuid5 : UUID → String → UUID) (s : Ledger) : Ledger → Prop
  | invoke (runId : UUID) (site : AgentSite) (agent : Agent) (dispatcher : agent.D) :
      Step uuid5 s (s.invoke runId site agent dispatcher)
  | exchange {i : Nat} {inv : Invocation} (hactive : s.active i = some inv)
      (exchange : Exchange inv.agent.Output inv.agent.A) (unseen : Rat) :
      Step uuid5 s (s.exchange uuid5 i inv exchange unseen)
  | stop (i : Nat) : Step uuid5 s (s.stop i)

structure Sent (uuid5 : UUID → String → UUID) (i : Nat) (inv : Invocation) (e : Issued)
    (s s' : Ledger) : Prop where
  sends : e = inv.sends i e.cost e.cut
  issued : s'.issued = s.issued ++ [e]
  started : s'.started = s.started
  rows : s'.rows = if e.cut then s.rows else ((e.row uuid5).record s.rows).toOption.getD s.rows
  others : ∀ j, j ≠ i → s'.active j = s.active j
  next : ∀ inv', s'.active i = some inv' → inv'.runId = inv.runId ∧ inv'.site = inv.site ∧
    inv'.state.requestNumber = inv.state.requestNumber + 1

variable {uuid5 : UUID → String → UUID} {s s' : Ledger} {i : Nat} {inv : Invocation}

/-- The request is recorded, or the recorder raises and the invocation ends. -/
theorem exchange_recorded {unseen}
    (hrequest : inv.agent.runtime.request inv.state = .ok request)
    (hrecord : inv.agent.runtime.recordOf inv.state request x = some record) :
    Sent uuid5 i inv (inv.sends i (usd record.usage.cost) false) s
      (s.exchange uuid5 i inv x unseen) := by
  unfold Ledger.exchange
  simp only [hrequest, hrecord]
  cases hrows : ((inv.sends i (usd record.usage.cost) false).row uuid5).record s.rows with
  | error raised =>
    refine ⟨rfl, rfl, rfl, ?_, fun j hj => update_of_ne hj _ _, ?_⟩
    · rw [hrows]
      rfl
    · intro inv' hinv'
      simp [stop] at hinv'
  | ok rows =>
    refine ⟨rfl, rfl, rfl, ?_, fun j hj => update_of_ne hj _ _, ?_⟩
    · rw [hrows]
      rfl
    · intro inv' hinv'
      simp only [update_self, Option.map_eq_some_iff] at hinv'
      obtain ⟨state, hstate, rfl⟩ := hinv'
      refine ⟨rfl, rfl, ?_⟩
      unfold AgentRuntime.next at hstate
      split at hstate <;> cases hstate
      rename_i hstep
      exact inv.agent.runtime.step_continued hstep

theorem exchange_cases (uuid5 : UUID → String → UUID) (s : Ledger) (i : Nat) (inv : Invocation)
    (x : Exchange inv.agent.Output inv.agent.A) (unseen : Rat) :
    s.exchange uuid5 i inv x unseen = s.stop i ∨
      ∃ e, Sent uuid5 i inv e s (s.exchange uuid5 i inv x unseen) := by
  cases hrequest : inv.agent.runtime.request inv.state with
  | error raised =>
    unfold Ledger.exchange
    rw [hrequest]
    exact .inl rfl
  | ok request =>
    refine .inr ?_
    cases hrecord : inv.agent.runtime.recordOf inv.state request x with
    | none =>
      refine ⟨inv.sends i unseen true, ?_⟩
      unfold Ledger.exchange
      simp only [hrequest, hrecord]
      refine ⟨rfl, rfl, rfl, rfl, fun j hj => update_of_ne hj _ _, ?_⟩
      intro inv' hinv'
      simp [stop] at hinv'
    | some record => exact ⟨_, exchange_recorded hrequest hrecord⟩

/-! ## What every ledger is like -/

structure Sound (uuid5 : UUID → String → UUID) (s : Ledger) : Prop where
  old : ∀ e ∈ s.issued, e.invocation < s.started
  known : ∀ i inv, s.active i = some inv → i < s.started
  numbered : ∀ i inv, s.active i = some inv → ∀ e ∈ s.issued, e.invocation = i →
    e.turn ≤ inv.state.requestNumber
  begun : ∀ i inv, s.active i = some inv → inv.state.requestNumber = 0 ∨
    ∃ f ∈ s.issued, f.invocation = i ∧ f.runId = inv.runId ∧ f.site = inv.site ∧ f.turn = 1
  first : ∀ e ∈ s.issued, ∃ f ∈ s.issued, f.invocation = e.invocation ∧ f.runId = e.runId ∧
    f.site = e.site ∧ f.turn = 1
  keys : (s.rows.map UsageRow.key).Nodup
  stored : s.rows.Sublist ((s.issued.filter fun e => !e.cut).map (Issued.row uuid5))

namespace Sound

theorem empty : Sound uuid5 {} where
  old := by simp
  known := by simp
  numbered := by simp
  begun := by simp
  first := by simp
  keys := by simp
  stored := by simp

theorem invoke (h : Sound uuid5 s) (runId : UUID) (site : AgentSite) (agent : Agent)
    (dispatcher : agent.D) : Sound uuid5 (s.invoke runId site agent dispatcher) where
  old := fun e he => Nat.lt_succ_of_lt (h.old e he)
  known := by
    intro i inv hactive
    by_cases hi : i = s.started
    · exact hi ▸ Nat.lt_succ_self _
    · simp only [Ledger.invoke, update_of_ne hi] at hactive
      exact Nat.lt_succ_of_lt (h.known i inv hactive)
  numbered := by
    intro i inv hactive e he hinvocation
    by_cases hi : i = s.started
    · have := h.old e he
      omega
    · simp only [Ledger.invoke, update_of_ne hi] at hactive
      exact h.numbered i inv hactive e he hinvocation
  begun := by
    intro i inv hactive
    by_cases hi : i = s.started
    · subst hi
      simp only [Ledger.invoke, update_self, Option.some.injEq] at hactive
      subst hactive
      exact .inl rfl
    · simp only [Ledger.invoke, update_of_ne hi] at hactive
      exact h.begun i inv hactive
  first := h.first
  keys := h.keys
  stored := h.stored

theorem active_stop (h : (s.stop i).active j = some inv) : s.active j = some inv := by
  by_cases hj : j = i
  · subst hj
    simp [Ledger.stop] at h
  · simpa [Ledger.stop, update_of_ne hj] using h

theorem stop (h : Sound uuid5 s) (i : Nat) : Sound uuid5 (s.stop i) where
  old := h.old
  known := fun j inv hactive => h.known j inv (active_stop hactive)
  numbered := fun j inv hactive => h.numbered j inv (active_stop hactive)
  begun := fun j inv hactive => h.begun j inv (active_stop hactive)
  first := h.first
  keys := h.keys
  stored := h.stored

/-- A recorder leaves the rows alone or appends the row under a new key. -/
theorem record_cases (row : UsageRow) (rows : List UsageRow) :
    (row.record rows).toOption.getD rows = rows ∨
      row.key ∉ rows.map UsageRow.key ∧ (row.record rows).toOption.getD rows = rows ++ [row] := by
  unfold UsageRow.record
  split
  · exact .inl rfl
  · rename_i hkey
    split
    · exact .inl rfl
    · exact .inr ⟨hkey, rfl⟩

theorem rows_cases (hsent : Sent uuid5 i inv e s s') :
    s'.rows = s.rows ∨ e.cut = false ∧ (e.row uuid5).key ∉ s.rows.map UsageRow.key ∧
      s'.rows = s.rows ++ [e.row uuid5] := by
  have hrows := hsent.rows
  split at hrows
  · exact .inl hrows
  · rename_i hcut
    rw [hrows]
    rcases record_cases (e.row uuid5) s.rows with hsame | ⟨hkey, hnew⟩
    · exact .inl hsame
    · exact .inr ⟨by simpa using hcut, hkey, hnew⟩

theorem sent (h : Sound uuid5 s)
    (hactive : s.active i = some inv) (hsent : Sent uuid5 i inv e s s') : Sound uuid5 s' := by
  obtain ⟨hinvocation, hrunId, hsite, hturn⟩ : e.invocation = i ∧ e.runId = inv.runId ∧
      e.site = inv.site ∧ e.turn = inv.state.requestNumber + 1 := by
    rw [hsent.sends]
    exact ⟨rfl, rfl, rfl, rfl⟩
  -- the invocation has sent its first request now
  have hfirst : ∃ f ∈ s'.issued, f.invocation = i ∧ f.runId = inv.runId ∧ f.site = inv.site ∧
      f.turn = 1 := by
    rw [hsent.issued]
    rcases h.begun i inv hactive with hzero | ⟨f, hf, hfacts⟩
    · exact ⟨e, by simp, hinvocation, hrunId, hsite, by omega⟩
    · exact ⟨f, mem_append_left _ hf, hfacts⟩
  have hother {j : Nat} {inv' : Invocation} (hj : j ≠ i) (h' : s'.active j = some inv') :
      s.active j = some inv' := (hsent.others j hj).symm.trans h'
  have hmem {f : Issued} (hf : f ∈ s'.issued) : f ∈ s.issued ∨ f = e := by
    rw [hsent.issued] at hf
    simpa using hf
  constructor
  case old =>
    intro f hf
    rw [hsent.started]
    rcases hmem hf with hf | rfl
    · exact h.old f hf
    · exact hinvocation ▸ h.known i inv hactive
  case known =>
    intro j inv' h'
    rw [hsent.started]
    by_cases hj : j = i
    · exact hj ▸ h.known i inv hactive
    · exact h.known j inv' (hother hj h')
  case numbered =>
    intro j inv' h' f hf hfj
    by_cases hj : j = i
    · subst hj
      obtain ⟨-, -, hnumber⟩ := hsent.next inv' h'
      rcases hmem hf with hf | rfl
      · have := h.numbered _ inv hactive f hf hfj
        omega
      · omega
    · rcases hmem hf with hf | rfl
      · exact h.numbered j inv' (hother hj h') f hf hfj
      · exact absurd (hfj.symm.trans hinvocation) hj
  case begun =>
    intro j inv' h'
    by_cases hj : j = i
    · subst hj
      obtain ⟨hrun, hplace, -⟩ := hsent.next inv' h'
      rw [hrun, hplace]
      exact .inr hfirst
    · rcases h.begun j inv' (hother hj h') with hzero | ⟨f, hf, hfacts⟩
      · exact .inl hzero
      · rw [hsent.issued]
        exact .inr ⟨f, mem_append_left _ hf, hfacts⟩
  case first =>
    intro f hf
    rcases hmem hf with hf | rfl
    · obtain ⟨g, hg, hfacts⟩ := h.first f hf
      rw [hsent.issued]
      exact ⟨g, mem_append_left _ hg, hfacts⟩
    · rw [hinvocation, hrunId, hsite]
      exact hfirst
  case keys =>
    rcases rows_cases hsent with hrows | ⟨-, hkey, hrows⟩
    · rw [hrows]
      exact h.keys
    · rw [hrows, map_append, map_singleton]
      exact nodup_append.mpr ⟨h.keys, nodup_singleton _, by
        rintro key hkey' _ hsame rfl
        exact hkey (mem_singleton.mp hsame ▸ hkey')⟩
  case stored =>
    rw [hsent.issued, filter_append, map_append]
    rcases rows_cases hsent with hrows | ⟨hcut, -, hrows⟩
    · rw [hrows]
      exact h.stored.trans (sublist_append_left _ _)
    · rw [hrows]
      refine h.stored.append ?_
      simp [hcut]

theorem step (h : Sound uuid5 s) (hstep : Step uuid5 s s') : Sound uuid5 s' := by
  cases hstep with
  | invoke runId site agent dispatcher => exact h.invoke runId site agent dispatcher
  | @exchange i inv hactive x unseen =>
    rcases exchange_cases uuid5 s i inv x unseen with hstopped | ⟨e, hsent⟩
    · rw [hstopped]
      exact h.stop i
    · exact h.sent hactive hsent
  | stop i => exact h.stop i

end Sound

/-! ## Losslessness -/

def Reached (uuid5 : UUID → String → UUID) : Ledger → Prop :=
  Relation.ReflTransGen (Step uuid5) {}

variable {r : UUID}

theorem Reached.sound (h : Reached uuid5 s) : Sound uuid5 s := by
  induction h with
  | refl => exact .empty
  | tail _ hstep ih => exact ih.step hstep

def issuedOf (s : Ledger) (r : UUID) : List Issued := s.issued.filter fun e => e.runId = r

def rowsOf (s : Ledger) (r : UUID) : List UsageRow := s.rows.filter fun row => row.runId = r

/-- `model_calls` as the cost ceiling reads it. -/
def database (s : Ledger) : Database := { modelCalls := s.rows.map UsageRow.toModelCallRow }

/-- Each request has its row, and what is summed up is what the requests cost. -/
structure Lossless (uuid5 : UUID → String → UUID) (s : Ledger) (r : UUID) : Prop where
  rows : s.rowsOf r = (s.issuedOf r).map (Issued.row uuid5)
  spent : s.database.spent r = ((s.issuedOf r).map Issued.cost).sum

/-- No request is cut off, and no site sends requests from two invocations. -/
structure Undisturbed (s : Ledger) (r : UUID) : Prop where
  uncut : ∀ e ∈ s.issuedOf r, e.cut = false
  once : ∀ a ∈ s.issuedOf r, ∀ b ∈ s.issuedOf r, a.site = b.site → a.invocation = b.invocation

/-- Rows of different keys have different ids, as those of a hash of the key. -/
def Collisionless (uuid5 : UUID → String → UUID) (s : Ledger) : Prop :=
  ∀ a ∈ s.issued, ∀ b ∈ s.issued, (a.row uuid5).id = (b.row uuid5).id →
    (a.row uuid5).key = (b.row uuid5).key

theorem spent_of_rows (h : s.rowsOf r = (s.issuedOf r).map (Issued.row uuid5)) :
    s.database.spent r = ((s.issuedOf r).map Issued.cost).sum := by
  have hfilter : (s.rows.map UsageRow.toModelCallRow).filter (fun call => call.runId = r) =
      (s.rowsOf r).map UsageRow.toModelCallRow := filter_map ..
  rw [Database.spent, database, hfilter, h]
  simp only [map_map]
  rfl

theorem Lossless.undisturbed (hs : Sound uuid5 s) (h : s.Lossless uuid5 r) : s.Undisturbed r where
  uncut := by
    have hstored : (s.rowsOf r).Sublist
        (((s.issuedOf r).filter fun e => !e.cut).map (Issued.row uuid5)) := by
      have hsame : ((s.issued.filter fun e => !e.cut).map (Issued.row uuid5)).filter
            (fun row => row.runId = r) =
          ((s.issuedOf r).filter fun e => !e.cut).map (Issued.row uuid5) := by
        rw [filter_map, issuedOf, filter_filter, filter_filter]
        exact congrArg _ (filter_congr fun e _ => Bool.and_comm _ _)
      exact hsame ▸ hs.stored.filter _
    have hlength := hstored.length_le
    rw [h.rows, length_map, length_map] at hlength
    have hall := length_filter_eq_length_iff.mp
      (Nat.le_antisymm (length_filter_le _ _) hlength)
    intro e he
    simpa using hall e he
  once := by
    intro a ha b hb hsite
    have hrun {e : Issued} (he : e ∈ s.issuedOf r) : e ∈ s.issued ∧ e.runId = r := by
      simpa [issuedOf] using he
    have hnodup : ((s.issuedOf r).map fun e => (e.row uuid5).key).Nodup := by
      have hkeys := hs.keys.sublist ((filter_sublist (p := fun row => row.runId = r)).map _)
      rw [show s.rows.filter (fun row => row.runId = r) = s.rowsOf r from rfl, h.rows,
        map_map] at hkeys
      exact hkeys
    -- the first requests of both have one key
    obtain ⟨f, hf, hfa, hfrun, hfsite, hfturn⟩ := hs.first a (hrun ha).1
    obtain ⟨g, hg, hgb, hgrun, hgsite, hgturn⟩ := hs.first b (hrun hb).1
    have hfr : f ∈ s.issuedOf r := by simp [issuedOf, hf, hfrun, (hrun ha).2]
    have hgr : g ∈ s.issuedOf r := by simp [issuedOf, hg, hgrun, (hrun hb).2]
    have hkey : (f.row uuid5).key = (g.row uuid5).key := by
      simp [Issued.row, UsageRow.key, hfrun, hgrun, (hrun ha).2, (hrun hb).2, hfsite, hgsite, hsite,
        hfturn, hgturn]
    have hsame : f = g := inj_on_of_nodup_map hnodup hfr hgr hkey
    rw [← hfa, ← hgb, hsame]

theorem record_of_undisturbed (hs : Sound uuid5 s)
    (hactive : s.active i = some inv) (hsent : Sent uuid5 i inv e s s')
    (h : s'.Undisturbed r) (hids : s'.Collisionless uuid5) (hrun : e.runId = r) :
    s'.rows = s.rows ++ [e.row uuid5] := by
  have hfacts : e.invocation = i ∧ e.turn = inv.state.requestNumber + 1 := by
    rw [hsent.sends]
    exact ⟨rfl, rfl⟩
  have he : e ∈ s'.issued := by simp [hsent.issued]
  have hecut : e.cut = false := h.uncut e (by simp [issuedOf, he, hrun])
  -- every row is of a request, and none of them has the key
  have hkey : ∀ row ∈ s.rows, row.key ≠ (e.row uuid5).key := by
    intro row hrow hsame
    obtain ⟨f, hf, rfl⟩ := mem_map.mp (hs.stored.subset hrow)
    have hf := (mem_filter.mp hf).1
    have hf' : f ∈ s'.issued := by simp [hsent.issued, hf]
    simp only [Issued.row, UsageRow.key, Prod.mk.injEq] at hsame
    obtain ⟨hfrun, htrace, hturn⟩ := hsame
    rw [hfrun] at htrace
    have hsite := AgentSite.traceId_injective htrace
    have hinvocation := h.once f (by simp [issuedOf, hf', hfrun, hrun]) e
      (by simp [issuedOf, he, hrun]) hsite
    have := hs.numbered i inv hactive f hf (hinvocation.trans hfacts.1)
    omega
  have hid : ∀ row ∈ s.rows, row.id ≠ (e.row uuid5).id := by
    intro row hrow hsame
    obtain ⟨f, hf, rfl⟩ := mem_map.mp (hs.stored.subset hrow)
    have hf' : f ∈ s'.issued := by simp [hsent.issued, (mem_filter.mp hf).1]
    exact hkey _ hrow (hids f hf' e he hsame)
  have hnokey : (e.row uuid5).key ∉ s.rows.map UsageRow.key := by
    simpa using hkey
  have hnoid : (e.row uuid5).id ∉ s.rows.map fun row => row.id := by
    simpa using hid
  rw [hsent.rows, hecut, UsageRow.record, if_neg hnokey, if_neg hnoid]
  rfl

theorem issued_step (h : Step uuid5 s s') : ∃ sent, s'.issued = s.issued ++ sent := by
  cases h with
  | invoke | stop => exact ⟨[], (append_nil _).symm⟩
  | @exchange i inv hactive x unseen =>
    rcases exchange_cases uuid5 s i inv x unseen with hstopped | ⟨e, hsent⟩
    · rw [hstopped]
      exact ⟨[], (append_nil _).symm⟩
    · exact ⟨[e], hsent.issued⟩

theorem rows_of_undisturbed (h : Reached uuid5 s) (hs : s.Undisturbed r)
    (hids : s.Collisionless uuid5) : s.rowsOf r = (s.issuedOf r).map (Issued.row uuid5) := by
  induction h with
  | refl => rfl
  | @tail s s' hbefore hstep ih =>
    obtain ⟨sent, hissued⟩ := issued_step hstep
    have hmem {e : Issued} (he : e ∈ s.issued) : e ∈ s'.issued := by simp [hissued, he]
    have hmemOf {e : Issued} (he : e ∈ s.issuedOf r) : e ∈ s'.issuedOf r := by
      simp only [issuedOf, mem_filter] at he ⊢
      exact ⟨hmem he.1, he.2⟩
    have hold : s.rowsOf r = (s.issuedOf r).map (Issued.row uuid5) :=
      ih ⟨fun e he => hs.uncut e (hmemOf he),
        fun a ha b hb => hs.once a (hmemOf ha) b (hmemOf hb)⟩
        fun a ha b hb => hids a (hmem ha) b (hmem hb)
    cases hstep with
    | invoke | stop => exact hold
    | @exchange i inv hactive x unseen =>
      rcases exchange_cases uuid5 s i inv x unseen with hstopped | ⟨e, hsent⟩
      · rw [hstopped]
        exact hold
      · have hissuedOf : (s.exchange uuid5 i inv x unseen).issuedOf r =
            s.issuedOf r ++ [e].filter fun e => e.runId = r := by
          rw [issuedOf, hsent.issued, filter_append]
          rfl
        by_cases hrun : e.runId = r
        · rw [hissuedOf, rowsOf,
            record_of_undisturbed (Reached.sound hbefore) hactive hsent hs hids hrun,
            filter_append, map_append, ← hold]
          simp [rowsOf, hrun, Issued.row]
        · have hrows : (s.exchange uuid5 i inv x unseen).rowsOf r = s.rowsOf r := by
            rcases Sound.rows_cases hsent with hrows | ⟨-, -, hrows⟩
            · rw [rowsOf, hrows]
              rfl
            · rw [rowsOf, hrows, filter_append]
              simp [rowsOf, Issued.row, hrun]
          rw [hissuedOf, hrows, hold]
          simp [hrun]

/-- Spending is recorded without loss for the histories in which no request of the run
is cut off and no site is invoked twice with requests of both invocations. -/
theorem lossless_iff_undisturbed (h : Reached uuid5 s) (hids : s.Collisionless uuid5) (r : UUID) :
    s.Lossless uuid5 r ↔ s.Undisturbed r := by
  constructor
  · exact Lossless.undisturbed (Reached.sound h)
  · intro hs
    have hrows := rows_of_undisturbed h hs hids
    exact ⟨hrows, spent_of_rows hrows⟩

def sampleRuntime : AgentRuntime Unit Unit Unit where
  spec :=
    { role := "coder", primaryModel := "model", fallbackModels := [], toolGrants := []
      tokenBudget := 1000, costBudget := 1000000000, turnBudget := 8, turnBudget_pos := by decide }
  toolDefinitions := []
  maxSchemaRepairs := 1
  estimate := {}
  outputValidator := fun _ _ => .ok ()
  dispatch := fun dispatcher _ _ => .ok (.null, dispatcher)

def sampleSite : AgentSite := .node 1 50 .implement

def sampleInvocation : Invocation where
  runId := 40
  site := sampleSite
  agent := ⟨Unit, Unit, Unit, sampleRuntime⟩
  state := { dispatcher := () }

def sampleReply : Exchange Unit Unit :=
  .response { model := "model", parsed := .ok (), usage := { cost := 300000000 } } fun _ => ()

def sampleId (space : UUID) (_ : String) : UUID := space

def sampleExecuted (s : Ledger) : Ledger :=
  (s.invoke 40 sampleSite sampleInvocation.agent ()).exchange sampleId s.started sampleInvocation
    sampleReply 0

theorem sampleExecuted_reached (h : Reached sampleId s) : Reached sampleId (sampleExecuted s) := by
  have hactive : (s.invoke 40 sampleSite sampleInvocation.agent ()).active s.started =
      some sampleInvocation := update_self ..
  exact (h.tail (.invoke 40 sampleSite sampleInvocation.agent ())).tail
    (.exchange hactive sampleReply 0)

/-- The request of the execution that starts next. -/
def sampleIssued (s : Ledger) : Issued := sampleInvocation.sends s.started (usd 300000000) false

theorem sampleExecuted_sent (s : Ledger) :
    Sent sampleId s.started sampleInvocation (sampleIssued s)
      (s.invoke 40 sampleSite sampleInvocation.agent ()) (sampleExecuted s) := by
  have hrequest : sampleInvocation.agent.runtime.request sampleInvocation.state =
      .ok ⟨"model", [], 256⟩ := rfl
  have hrecord : sampleInvocation.agent.runtime.recordOf sampleInvocation.state
      ⟨"model", [], 256⟩ sampleReply =
      some { turn := 1, model := "model", usage := { cost := 300000000 } } := rfl
  exact exchange_recorded hrequest hrecord

theorem usd_sample : usd 300000000 = 3 := by
  norm_num [usd]

theorem sampleExecuted_rows : (sampleExecuted {}).rows = [(sampleIssued {}).row sampleId] := by
  rw [(sampleExecuted_sent {}).rows]
  rfl

theorem lossless_iff_undisturbed_sample :
    (sampleExecuted {}).Lossless sampleId 40 ∧ (sampleExecuted {}).database.spent 40 = 3 := by
  have hissued : (sampleExecuted {}).issued = [sampleIssued {}] := (sampleExecuted_sent {}).issued
  have hids : (sampleExecuted {}).Collisionless sampleId := by
    simp [Collisionless, hissued]
  have hlossless := (lossless_iff_undisturbed (sampleExecuted_reached .refl) hids 40).mpr
    ⟨by simp [issuedOf, hissued, sampleIssued, Invocation.sends],
      by simp [issuedOf, hissued]⟩
  refine ⟨hlossless, hlossless.spent.trans ?_⟩
  simp [issuedOf, hissued, sampleIssued, Invocation.sends, sampleInvocation, usd_sample]

/-- A node that is executed again in its attempt pays for what is not recorded. -/
theorem second_execution_unrecorded :
    ∃ s, Reached sampleId s ∧ s.Collisionless sampleId ∧
      (s.issuedOf 40).map Issued.cost = [3, 3] ∧ s.database.spent 40 = 3 ∧
      ¬ s.Lossless sampleId 40 := by
  have hfirst : (sampleExecuted {}).issued = [sampleIssued {}] := (sampleExecuted_sent {}).issued
  have hissued : (sampleExecuted (sampleExecuted {})).issued =
      [sampleIssued {}, sampleIssued (sampleExecuted {})] := by
    rw [(sampleExecuted_sent (sampleExecuted {})).issued]
    exact congrArg (· ++ _) hfirst
  have hrows : (sampleExecuted (sampleExecuted {})).rows = [(sampleIssued {}).row sampleId] := by
    have hrecorded := (sampleExecuted_sent (sampleExecuted {})).rows
    rw [show ((sampleExecuted {}).invoke 40 sampleSite sampleInvocation.agent ()).rows =
      [(sampleIssued {}).row sampleId] from sampleExecuted_rows] at hrecorded
    rw [hrecorded]
    simp [UsageRow.record, sampleIssued, Invocation.sends, Issued.row, UsageRow.key]
    rfl
  have hcosts : ((sampleExecuted (sampleExecuted {})).issuedOf 40).map Issued.cost = [3, 3] := by
    simp [issuedOf, hissued, sampleIssued, Invocation.sends, sampleInvocation, usd_sample]
  have hspent : (sampleExecuted (sampleExecuted {})).database.spent 40 = 3 := by
    simp [Database.spent, database, hrows, sampleIssued, Invocation.sends, sampleInvocation,
      Issued.row, usd_sample]
  refine ⟨_, sampleExecuted_reached (sampleExecuted_reached .refl), ?_, hcosts, hspent, ?_⟩
  · simp [Collisionless, hissued, sampleIssued, Invocation.sends, Issued.row, UsageRow.key]
  · intro hlossless
    have hsum := hlossless.spent
    rw [hspent, hcosts] at hsum
    norm_num at hsum

end Ledger

end Accounting

end AutoSwe
