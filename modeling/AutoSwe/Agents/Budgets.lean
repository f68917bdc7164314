import AutoSwe.Agents.Accounting

/-!
# The budgets of an agent

A reply takes a turn, and a failed request takes one of the four tries of a model, so
the loop sends a bounded number of requests. Each of them is recorded under the next
number. Cost and tokens are bounded only as far as the loop looks at them before a request.
-/

namespace AutoSwe

open List

def ModelUsage.sum (usages : List ModelUsage) : ModelUsage := usages.foldr ModelUsage.add {}

namespace AgentRuntime

variable {Output D A : Type} (rt : AgentRuntime Output D A)

/-! ## Runs -/

/-- The requests of a run, each with what is recorded of it, and how the run ends if it
does. -/
def run : AgentState D → List (Exchange Output A) →
    List (ModelRequest × Option AgentAttemptRecord) ×
      Option (Except AgentError (AgentRunResult Output D))
  | _, [] => ([], none)
  | s, x :: rest =>
    match rt.request s with
    | .error error => ([], some (.error error))
    | .ok request =>
      match rt.step s x with
      | .continued s' =>
        let (issued, ending) := run s' rest
        ((request, rt.recordOf s request x) :: issued, ending)
      | .raised error => ([(request, rt.recordOf s request x)], some (.error error))
      | .returned result => ([(request, rt.recordOf s request x)], some (.ok result))

section
variable {s s' : AgentState D} {asked : ModelRequest} {x : Exchange Output A}

/-- What a run has recorded of its requests, `n` being the number of the last one before. -/
structure Accounts (n : Nat) (issued : List (ModelRequest × Option AgentAttemptRecord))
    (records : List AgentAttemptRecord) : Prop where
  each : issued.map Prod.snd = records.map some
  numbered : records.map (·.turn) = range' (n + 1) issued.length

theorem Accounts.cons (hrecord : record.turn = n + 1) (h : Accounts (n + 1) issued records) :
    Accounts n ((asked, some record) :: issued) (record :: records) where
  each := by simp [h.each]
  numbered := by simp [h.numbered, hrecord, range'_succ]

end

/-- The state at the head of the loop after some exchanges. -/
def after (exchanges : List (Exchange Output A)) (s : AgentState D) : Option (AgentState D) :=
  exchanges.foldlM rt.next s

/-- The request costs nothing that is not left. -/
def Affords (s : AgentState D) (asked : ModelRequest) : Prop :=
  s.usage.cost ≤ rt.spec.costBudget ∧ asked.maxOutputTokens + s.usage.total ≤ rt.spec.tokenBudget

/-- The least number of tokens to ask for is left, and the charge for a request that failed just
before was within the budget. -/
def Covers (init : AgentState D) (exchanges : List (Exchange Output A)) (s : AgentState D) : Prop :=
  minOutputTokens + s.usage.total ≤ rt.spec.tokenBudget ∧
    ∀ before c s₀, exchanges = before ++ [.failure c] → rt.after before init = some s₀ →
      c.billedOnFailure → s₀.usage.cost + rt.estimate.cost ≤ rt.spec.costBudget

theorem step_of_next (h : rt.next s x = some s') : rt.step s x = .continued s' := by
  unfold next at h
  split at h <;> cases h
  assumption

theorem after_append_singleton (h : rt.after (before ++ [x]) init = some s) :
    ∃ s₀, rt.after before init = some s₀ ∧ rt.step s₀ x = .continued s := by
  unfold after at h
  rw [foldlM_append] at h
  obtain ⟨s₀, hbefore, hlast⟩ := Option.bind_eq_some_iff.mp h
  exact ⟨s₀, hbefore, rt.step_of_next (by simpa using hlast)⟩

theorem maxOutputTokens_le_iff (h : rt.request s = .ok asked) :
    asked.maxOutputTokens + s.usage.total ≤ rt.spec.tokenBudget ↔
      minOutputTokens + s.usage.total ≤ rt.spec.tokenBudget := by
  unfold request at h
  split at h
  · cases h
  · split at h <;> cases h
    simp only [minOutputTokens, AutoSwe.maxOutputTokens]
    omega

theorem failure_cost (h : rt.step s (.failure c) = .continued s') :
    (∃ asked, rt.request s = .ok asked) ∧ s'.usage.cost = s.usage.cost + (rt.charge c).cost := by
  have hcases := rt.step_cases s (.failure c)
  rw [h] at hcases
  cases hcases with
  | retried hrequest | fellBack hrequest => exact ⟨⟨_, hrequest⟩, rfl⟩

theorem response_cost (h : rt.step s (.response response answers) = .continued s') :
    s'.usage.cost ≤ rt.spec.costBudget := by
  have hchecked : ∀ usage, rt.checkBudget usage = .ok () → usage.cost ≤ rt.spec.costBudget := by
    intro usage hbudget
    unfold checkBudget at hbudget
    split at hbudget
    · cases hbudget
    · split at hbudget <;> cases hbudget
      omega
  have hcases := rt.step_cases s (.response response answers)
  rw [h] at hcases
  cases hcases with
  | dispatched _ _ hbudget hdispatched =>
    rw [rt.dispatchTools_ok hdispatched]
    exact hchecked _ hbudget
  | rejected _ _ _ hbudget => exact hchecked _ hbudget

theorem cost_le_of_covers (hinit : init.usage.cost ≤ rt.spec.costBudget)
    (h : ∀ done, done <+: exchanges → ∀ s asked, rt.after done init = some s →
      rt.request s = .ok asked → rt.Covers init done s)
    (hs : rt.after exchanges init = some s) (hrequest : rt.request s = .ok asked) :
    s.usage.cost ≤ rt.spec.costBudget := by
  induction exchanges using reverseRecOn generalizing s asked with
  | nil =>
    cases hs
    exact hinit
  | append_singleton before x ih =>
    obtain ⟨s₀, hbefore, hstep⟩ := rt.after_append_singleton hs
    cases x with
    | expired =>
      have hcases := rt.step_cases s₀ .expired
      rw [hstep] at hcases
      cases hcases
    | response response answers => exact rt.response_cost hstep
    | failure c =>
      obtain ⟨⟨asked₀, hrequest₀⟩, hcost⟩ := rt.failure_cost hstep
      rw [hcost]
      unfold charge
      split
      · rename_i hbilled
        exact (h _ prefix_rfl s asked hs hrequest).2 before c s₀ rfl hbefore hbilled
      · exact ih (fun done hdone => h done (hdone.trans (prefix_append _ _))) hbefore hrequest₀

/-- No request of a run overdraws a budget if and only if every one of them is covered. -/
theorem requests_afforded_iff (dispatcher : D) (exchanges : List (Exchange Output A)) :
    (∀ done, done <+: exchanges → ∀ s asked, rt.after done { dispatcher } = some s →
      rt.request s = .ok asked → rt.Affords s asked) ↔
      ∀ done, done <+: exchanges → ∀ s asked, rt.after done { dispatcher } = some s →
        rt.request s = .ok asked → rt.Covers { dispatcher } done s := by
  constructor
  · intro h done hdone s asked hs hrequest
    obtain ⟨hcost, htokens⟩ := h done hdone s asked hs hrequest
    refine ⟨(rt.maxOutputTokens_le_iff hrequest).mp htokens, ?_⟩
    rintro before c s₀ rfl hbefore hbilled
    obtain ⟨s₁, hbefore', hstep⟩ := rt.after_append_singleton hs
    obtain rfl := Option.some.inj (hbefore.symm.trans hbefore')
    rw [(rt.failure_cost hstep).2, charge, if_pos hbilled] at hcost
    exact hcost
  · intro h done hdone s asked hs hrequest
    refine ⟨rt.cost_le_of_covers (Nat.zero_le _)
      (fun earlier hearlier => h earlier (hearlier.trans hdone)) hs hrequest, ?_⟩
    exact (rt.maxOutputTokens_le_iff hrequest).mpr (h done hdone s asked hs hrequest).1

end AgentRuntime

/-- An agent for one dollar that may run the tests; the gateway answers for the dispatcher. -/
def sampleTester : AgentRuntime Unit Unit Json where
  spec :=
    { role := "coder", primaryModel := "model", fallbackModels := [], tokenBudget := 1000
      toolGrants := ["read_file", "apply_patch", "run_tests"], costBudget := 100000000
      turnBudget := 8, turnBudget_pos := Nat.succ_pos 7 }
  toolDefinitions := ["read_file", "apply_patch", "run_tests"]
  maxSchemaRepairs := 1
  estimate := { inputTokens := 10, cost := 60000000 }
  outputValidator := fun _ _ => .ok ()
  dispatch := fun dispatcher _ answer => .ok (answer, dispatcher)

def sampleUse (callId name : String) (result : Json) (usage : ModelUsage := {}) :
    Exchange Unit Json :=
  .response { model := "model", toolCalls := [⟨callId, name, .obj []⟩], parsed := .ok (), usage }
    fun _ => result

/-- After two timeouts of sixty cents, a third request is sent. With a hundred tokens left, a
request asks for 256. -/
theorem requests_overdraw :
    ((sampleTester.after [.failure .TIMEOUT, .failure .TIMEOUT] { dispatcher := () }).map fun s =>
      (s.usage.cost, (sampleTester.request s).isOk)) = some (120000000, true) ∧
    ((sampleTester.after [sampleUse "a" "read_file" (.obj []) { inputTokens := 900 }]
      { dispatcher := () }).map fun s => (sampleTester.spec.tokenBudget - s.usage.total,
        (sampleTester.request s).toOption.map (·.maxOutputTokens))) = some (100, some 256) := by
  decide +kernel

end AutoSwe
