import AutoSwe.Lib.Trace
import AutoSwe.Tools.Gateway

/-!
# The gate of a tool

`execute` passes its checks one after the other before it awaits the executor, and
other callers run in between. Whatever the store is like at each of its steps, an
executor step comes after the check of the context, the checks of the tool and, if
the tool requires it, the check of the approval; and a call that one of them
refuses never gets there (`executor_gated`).
-/

namespace AutoSwe.Gateway

open Relational Transaction Coroutine LabelledRun Table List Option Gateway.Await

abbrev CallLog := List (Made Store Input Await)

abbrev callStep : Calls → CallEvent → Option Calls := Fleet.step gatewaySystem

abbrev Always (_ : Calls) (_ : CallEvent) : Prop := True

/-! ## The owner's loop -/

/-- The actions of the owner's loop. -/
def Await.owned (call : ToolCallRequest) : Await → Prop
  | .executor call' _ => call' = call
  | .retryDelay .. | .persistTerminal .. | .reconcileGraph .. => True
  | _ => False

abbrev Owned (call : ToolCallRequest) (p : Task α) : Prop :=
  p.Sound (fun a => a.owned call) (fun _ _ => True) (fun _ => True)

theorem await_owned (h : a.owned call) : Owned call (await a) :=
  Process.Sound.perform a h

theorem lift_owned (result : Except Raised α) : Owned call (lift result) := by
  cases result <;> trivial

theorem attempt_owned (h : Owned call p) : Owned call (attempt p) := by
  unfold attempt
  refine Process.Sound.tryCatch (h.bind fun _ _ => trivial) fun fault => ?_
  cases fault <;> trivial

section
variable {gateway : ToolGateway} {prepared : Prepared}

theorem uncertain_owned (error : String) (attempts : Nat) :
    Owned prepared.call (gateway.uncertain prepared error attempts) :=
  .bind (await_owned trivial) fun _ _ => .bind (await_owned trivial) fun _ _ => trivial

theorem executeOwned_owned (remaining attempts : Nat) :
    Owned prepared.call (gateway.executeOwned prepared remaining attempts) := by
  induction remaining generalizing attempts with
  | zero => trivial
  | succ remaining ih =>
    have hinvoke : Owned prepared.call (gateway.invoke prepared attempts) :=
      .bind (await_owned rfl) fun _ _ => .bind (lift_owned _) fun _ _ => await_owned trivial
    refine .bind (attempt_owned hinvoke) fun result _ => ?_
    have hretry : Owned prepared.call (do
        await (.retryDelay prepared.call (prepared.tool.retryDelay attempts))
        gateway.executeOwned prepared remaining (attempts + 1)) :=
      .bind (await_owned trivial) fun _ _ => ih _
    cases result with
    | ok result => trivial
    | error fault =>
      cases fault with
      | unknownSideEffectOutcome message => exact uncertain_owned _ _
      | timeoutError message | transientToolError message =>
        dsimp only
        split
        · exact uncertain_owned _ _
        · split
          · exact hretry
          · exact await_owned trivial
      | raised error => exact await_owned trivial
      | cancelled => trivial

end

/-! ## The conditions -/

/-- The call is that of the context, and its rows are in the context's scope. -/
structure InScope (call : ToolCallRequest) (context : Context) (db : Database) : Prop where
  identity : call.runId = context.runId ∧ call.taskId = context.taskId ∧
    call.attemptId = context.attemptId ∧ call.requestedBy = context.agentRole
  rows : ∃ task attempt run, db.tasks.get? call.taskId = some task ∧
    db.attempts.get? call.attemptId = some attempt ∧ db.runs.get? call.runId = some run ∧
    task.state = .RUNNING ∧ task.projectId = context.projectId ∧
    task.repositoryId = context.repositoryId ∧ attempt.taskId = task.id ∧
    run.projectId = context.projectId ∧ run.repositoryId = context.repositoryId ∧
    run.baselineCommit = context.baselineCommit

/-- The registered tool of the call takes the arguments, and the context may use it. -/
structure Admits (gateway : ToolGateway) (call : ToolCallRequest) (context : Context)
    (tool : RegisteredTool) (normalized : ToolCallRequest) : Prop where
  registered : gateway.registry call.toolName call.toolVersion = some tool
  arguments : tool.validateArguments call.arguments context.worktreeRoot =
    .ok normalized.arguments
  same : normalized = { call with arguments := normalized.arguments }
  capability : tool.spec.owningCapability ∈ context.agentCapabilities
  role : context.agentRole ∈ tool.spec.eligibleAgents
  risk : riskExceeds (gateway.calculateRisk tool.spec.baseRisk tool.spec.name
    normalized.arguments tool.spec.sideEffect) context.riskCeiling = false

/-- The call passed the gate in the steps of the log. -/
def PassedGate (gateway : ToolGateway) (call : ToolCallRequest) (context : Context)
    (normalized : ToolCallRequest) (log : CallLog) : Prop :=
  ∃ tool, Admits gateway call context tool normalized ∧
    (∃ made ∈ log, InScope call context made.store.db) ∧
    (tool.spec.approvalRequired = true → ∃ made ∈ log, ∃ approvalId row,
      made.store.db.approvals.get? approvalId = some row ∧
      gateway.approvals.Authorizes row normalized context.toToolExecutionContext made.input.now)

def Await.checks : Await → Bool
  | .validateContext .. | .claim .. | .requestApproval .. | .authorize .. | .promoteApproved .. =>
    true
  | _ => false

def Await.executes : Await → Bool
  | .executor .. => true
  | _ => false

def Answers (made : Made Store Input Await) : Prop :=
  ∃ answer, (act made.store made.input made.action).1 = .ok answer

/-! ## The checks -/

theorem inScope_of_validate (h : validateContext call context db = .ok ()) :
    InScope call context db := by
  unfold validateContext at h
  split at h
  · cases h
  · rename_i hidentity
    push Not at hidentity
    refine ⟨hidentity, ?_⟩
    unfold checkContext at h
    split at h
    · rename_i task attempt run htask hattempt hrun
      split at h
      · cases h
      · rename_i hscope
        push Not at hscope
        exact ⟨task, attempt, run, htask, hattempt, hrun, hscope⟩
    · cases h

theorem admits_of_prepare (h : gateway.prepare call context = .ok prepared) :
    Admits gateway call context prepared.tool prepared.call := by
  unfold ToolGateway.prepare ToolGateway.resolve at h
  cases hregistered : gateway.registry call.toolName call.toolVersion with
  | none => simp [hregistered, bind, Except.bind] at h
  | some tool =>
    simp only [hregistered] at h
    cases harguments : tool.validateArguments call.arguments context.worktreeRoot with
    | error e => simp [harguments, bind, Except.bind] at h
    | ok arguments =>
      simp only [bind, Except.bind, harguments, pure, Except.pure] at h
      split at h
      · cases h
      · rename_i hauthorized
        cases h
        unfold RegisteredTool.authorize at hauthorized
        split at hauthorized
        · cases hauthorized
        · split at hauthorized
          · cases hauthorized
          · split at hauthorized
            · cases hauthorized
            · rename_i hcapability hrole hrisk
              exact ⟨hregistered, harguments, rfl, not_not.mp hcapability, not_not.mp hrole,
                by simpa using hrisk⟩

theorem effect_of_act
    (h : (act s input a).1 = .ok answer) : (a.effect s input).1 = .ok answer := by
  unfold act at h
  split at h
  · exact h
  · cases h

theorem inScope_of_answer (h : (act s input (.validateContext call context)).1 = .ok answer) :
    InScope call context s.db := by
  have heffect := effect_of_act h
  simp only [effect] at heffect
  cases hcheck : validateContext call context s.db with
  | error e => simp [hcheck, Except.mapError] at heffect
  | ok u => exact inScope_of_validate hcheck

theorem authorizes_of_answer
    (h : (act s input (.authorize gateway approvalId call context expected)).1 =
      .ok answer) :
    ∃ row, s.db.approvals.get? approvalId = some row ∧
      gateway.approvals.Authorizes row call context.toToolExecutionContext input.now := by
  have heffect := effect_of_act h
  simp only [effect, Store.transact] at heffect
  cases hrun : (authorizeApprover gateway approvalId call context expected input.now).run
      s.db with
  | error e => simp [Prog.commit_of_error hrun, Except.mapError] at heffect
  | ok result => exact authorizeApprover_ok hrun

/-! ## The log of a call -/

section
variable {gateway : ToolGateway} {call : ToolCallRequest} {context : Context}

/-- Checks come before the executor, which comes after the gate. -/
def GateRule (gateway : ToolGateway) (call : ToolCallRequest) (context : Context) (log : CallLog)
    (a : Await) : Prop :=
  (a.checks = true → ∀ made ∈ log, made.action.executes = false) ∧
  ∀ normalized attempts, a = .executor normalized attempts →
    PassedGate gateway call context normalized log ∧
    ∀ made ∈ log, made.action.checks = true → Answers made

abbrev Gated (gateway : ToolGateway) (call : ToolCallRequest) (context : Context) (p : Task α)
    (Q : CallLog → Except Fault α → Prop) (log : CallLog) : Prop :=
  p.Logged act (GateRule gateway call context) Q log

def Quiet (log : CallLog) : Prop := ∀ made ∈ log, made.action.executes = false ∧ Answers made

theorem Quiet.append (h : Quiet log) (ha : a.executes = false)
    (hanswer : (act s input a).1 = .ok answer) : Quiet (log ++ [⟨s, input, a⟩]) := by
  intro made hmem
  rcases mem_append.mp hmem with hold | hnew
  · exact h made hold
  · cases mem_singleton.mp hnew
    exact ⟨ha, answer, hanswer⟩

/-- A check that is answered leaves a quiet log with its step at the end. -/
theorem check_gated (hlog : Quiet log) (ha : a.checks = true) :
    Gated gateway call context (await a) (fun log' r => ∀ answer, r = .ok answer →
      Quiet log' ∧ ∃ s input, log' = log ++ [⟨s, input, a⟩] ∧
        (act s input a).1 = .ok answer) log := by
  refine .perform ⟨fun _ made hmade => (hlog made hmade).1, ?_⟩ fun s input answer hanswer => ?_
  · rintro normalized attempts rfl
    cases ha
  · have hquiet : a.executes = false := by
      cases a with
      | executor => cases ha
      | _ => rfl
    exact ⟨hlog.append hquiet hanswer, s, input, rfl, hanswer⟩

theorem PassedGate.append (h : PassedGate gateway call context normalized log) :
    PassedGate gateway call context normalized (log ++ [made]) := by
  obtain ⟨tool, hadmits, ⟨first, hfirst, hscope⟩, happroval⟩ := h
  refine ⟨tool, hadmits, ⟨first, mem_append_left _ hfirst, hscope⟩, fun hrequired => ?_⟩
  obtain ⟨approved, happroved, hrow⟩ := happroval hrequired
  exact ⟨approved, mem_append_left _ happroved, hrow⟩

theorem Await.owned.unchecked {a : Await} (h : a.owned call) : a.checks = false := by
  cases a with
  | executor | retryDelay | persistTerminal | reconcileGraph => rfl
  | _ => cases h

theorem executeOwned_gated {prepared : Prepared}
    (hpassed : PassedGate gateway call context prepared.call log) (hlog : Quiet log) :
    Gated gateway call context (gateway.executeOwned prepared remaining attempts)
      (fun _ _ => True) log := by
  refine (Process.Sound.logged (J := fun log => PassedGate gateway call context prepared.call log ∧
    ∀ made ∈ log, made.action.checks = true → Answers made) ?_ ?_
    (executeOwned_owned remaining attempts) ⟨hpassed, fun made hmade _ => (hlog made hmade).2⟩).mono
    fun _ _ _ => trivial
  · rintro log a hJ howned
    refine ⟨fun hchecks => ?_, fun normalized attempts heq => ?_⟩
    · rw [howned.unchecked] at hchecks
      cases hchecks
    · subst heq
      cases howned
      exact hJ
  · rintro log s input a ⟨hgate, hanswered⟩ howned
    refine ⟨hgate.append, fun made hmade hchecks => ?_⟩
    rcases mem_append.mp hmade with hold | hnew
    · exact hanswered made hold hchecks
    · cases mem_singleton.mp hnew
      rw [howned.unchecked] at hchecks
      cases hchecks

structure Checked (call : ToolCallRequest) (context : Context) (log : CallLog) : Prop where
  quiet : Quiet log
  scope : ∃ made ∈ log, InScope call context made.store.db

theorem Checked.append (h : Checked call context log) (hlog : Quiet (log ++ [made])) :
    Checked call context (log ++ [made]) := by
  obtain ⟨first, hfirst, hscope⟩ := h.scope
  exact ⟨hlog, first, mem_append_left _ hfirst, hscope⟩

def Approved (gateway : ToolGateway) (context : Context) (normalized : ToolCallRequest)
    (log : CallLog) : Prop :=
  ∃ made ∈ log, ∃ approvalId row, made.store.db.approvals.get? approvalId = some row ∧
    gateway.approvals.Authorizes row normalized context.toToolExecutionContext made.input.now

theorem approve_gated (hlog : Checked call context log) :
    Gated gateway call context (gateway.approve normalized context approvalId expected)
      (fun log' r => ∀ owner, r = .ok owner →
        Checked call context log' ∧ Approved gateway context normalized log') log := by
  refine .bind (check_gated hlog.quiet rfl) ?_ (by simp)
  rintro _ requested hanswer
  obtain ⟨hquiet, s, input, rfl, -⟩ := hanswer requested rfl
  have hrequested := hlog.append hquiet
  cases approvalId with
  | none => exact fun _ h => by cases h
  | some approvalId =>
    dsimp only
    split
    · exact fun _ h => by cases h
    · refine .bind (check_gated hrequested.quiet rfl) ?_ (by simp)
      rintro _ answer hanswer
      obtain ⟨hquiet, s', input', rfl, hauthorized⟩ := hanswer answer rfl
      have happroved := hrequested.append hquiet
      obtain ⟨row, hrow, hauthorizes⟩ := authorizes_of_answer hauthorized
      refine (check_gated happroved.quiet rfl).mono fun log' r hanswer owner howner => ?_
      obtain ⟨hquiet, s'', input'', rfl, -⟩ := hanswer owner howner
      refine ⟨happroved.append hquiet, ⟨s', input', .authorize gateway approvalId normalized context
        expected⟩, by simp, approvalId, row, hrow, hauthorizes⟩

theorem acquire_gated (hlog : Checked call context log) :
    Gated gateway call context (gateway.acquire prepared context approvalId expected claimed)
      (fun log' r => ∀ owner, r = .ok owner → Checked call context log' ∧
        (prepared.tool.spec.approvalRequired = true →
          Approved gateway context prepared.call log')) log := by
  unfold ToolGateway.acquire
  split
  · refine (approve_gated hlog).mono fun log' r hr owner howner => ?_
    obtain ⟨hchecked, happroved⟩ := hr owner howner
    exact ⟨hchecked, fun _ => happroved⟩
  · rename_i hnot
    exact fun _ _ => ⟨hlog, fun hrequired => absurd hrequired hnot⟩

theorem executePrepared_gated (hprepared : gateway.prepare call context = .ok prepared)
    (hlog : Checked call context log) :
    Gated gateway call context (gateway.executePrepared prepared context approvalId expected)
      (fun _ _ => True) log := by
  refine .bind (check_gated hlog.quiet rfl) ?_ fun _ _ _ => trivial
  rintro _ claimed hanswer
  obtain ⟨hquiet, s, input, rfl, -⟩ := hanswer claimed rfl
  have hclaimed := hlog.append hquiet
  split
  · trivial
  · refine .bind (acquire_gated hclaimed) ?_ fun _ _ _ => trivial
    rintro log' owner howner
    obtain ⟨hchecked, happroved⟩ := howner owner rfl
    split
    · have hpassed : PassedGate gateway call context prepared.call log' :=
        ⟨prepared.tool, admits_of_prepare hprepared, hchecked.scope, happroved⟩
      exact executeOwned_gated hpassed hchecked.quiet
    · have hrule : GateRule gateway call context log' (.waitForTerminal prepared.call) :=
        ⟨by simp [checks], by simp⟩
      exact Process.Logged.perform hrule fun _ _ => trivial

theorem execute_gated :
    Gated gateway call context (gateway.execute call context approvalId expected)
      (fun _ _ => True) [] := by
  refine .bind (check_gated (by simp [Quiet]) rfl) ?_ fun _ _ _ => trivial
  rintro _ answer hanswer
  obtain ⟨hquiet, s, input, rfl, hscope⟩ := hanswer answer rfl
  have hchecked : Checked call context ([] ++ [⟨s, input, .validateContext call context⟩]) :=
    ⟨hquiet, _, mem_singleton_self _, inScope_of_answer hscope⟩
  cases hprepared : gateway.prepare call context with
  | error e => trivial
  | ok prepared => exact executePrepared_gated hprepared hchecked

end

/-- The executor runs behind the gate only, and a refused call does not get there. -/
structure GateKept (gateway : ToolGateway) (call : ToolCallRequest) (context : Context)
    (log : CallLog) : Prop where
  passed : ∀ before made after, log = before ++ made :: after → ∀ normalized attempts,
    made.action = .executor normalized attempts → PassedGate gateway call context normalized before
  refused : (∃ made ∈ log, made.action.checks = true ∧ ¬ Answers made) →
    ∀ made ∈ log, made.action.executes = false

theorem gateKept_of_traced
    (h : Traced act (gateway.execute call context approvalId expected) log p) :
    GateKept gateway call context log := by
  have hrule := (execute_gated.traced h).2
  refine ⟨fun before made after hsplit normalized attempts haction => ?_, ?_⟩
  · exact ((hrule before made after hsplit).2 normalized attempts haction).1
  · rintro ⟨check, hcheck, hchecks, hrefused⟩ made hmade
    by_contra hexecutes
    obtain ⟨before, after, rfl⟩ := append_of_mem hmade
    obtain ⟨normalized, attempts, haction⟩ : ∃ normalized attempts,
        made.action = .executor normalized attempts := by
      cases ha : made.action <;> simp [ha, executes] at hexecutes ⊢
    rcases mem_append.mp hcheck with hbefore | hafter
    · -- the refused check came first
      exact hrefused (((hrule _ _ _ rfl).2 normalized attempts haction).2 check hbefore hchecks)
    · rcases mem_cons.mp hafter with rfl | hafter
      · simp [haction, checks] at hchecks
      · -- no check comes after the executor
        obtain ⟨between, rest, rfl⟩ := append_of_mem hafter
        have hnone := (hrule (before ++ made :: between) check rest (by simp)).1 hchecks
        exact hexecutes (hnone made (by simp))

theorem executor_gated (gateway : ToolGateway) (call : ToolCallRequest) (context : Context)
    (approvalId : Option UUID) (expected : Option String) :
    (∀ log p, Traced act (gateway.execute call context approvalId expected) log p →
      GateKept gateway call context log) ∧
    ∀ (store : Store) (s : Calls) (i : Nat) (p : Task ToolCallResult),
      Reach callStep Always { store } s →
      s.procs i = some (.execute gateway call context approvalId expected, p) →
      ∃ log, Traced act (gateway.execute call context approvalId expected) log p ∧
        MadeIn gatewaySystem Always { store } s log ∧ GateKept gateway call context log := by
  refine ⟨fun log p => gateKept_of_traced, fun store s i p hreach hi => ?_⟩
  obtain ⟨log, htraced, hmade⟩ := Fleet.traced hreach i _ p hi
  exact ⟨log, htraced, hmade, gateKept_of_traced htraced⟩

def sampleSpec : ToolSpec where
  name := "read_file"
  version := "1.0"
  owningCapability := "repository-read"
  eligibleAgents := ["coder"]
  baseRisk := .LOW
  maxAttempts := 1
  replayPolicy := .NEVER
  networkProfile := .NONE
  sideEffect := .NONE
  approvalRequired := false
  attemptsInRange := by decide
  onceUnlessReplayable _ := rfl

/-- Every spelling of the path is normalised to one. -/
def sampleTool : RegisteredTool :=
  ⟨sampleSpec, fun _ _ => .ok [("path", .str "a")], fun output => .ok output⟩

def sampleGateway : ToolGateway where
  registry _ _ := some sampleTool
  approvals :=
    { callHash := fun _ _ _ _ _ => "", uuid5 := fun id _ => id, isoformat := fun _ => "" }
  calculateRisk base _ _ _ := base
  redactArguments _ := .null
  redactOutput output := output
  redactText text := text

def sampleContext : Context where
  projectId := 1
  repositoryId := 1
  runId := 2
  taskId := 3
  attemptId := 4
  baselineCommit := ""
  agentRole := "coder"
  agentCapabilities := ["repository-read"]
  riskCeiling := .LOW
  worktreeRoot := "/w"

def sampleCall (path : String) : ToolCallRequest where
  callId := 5
  runId := 2
  taskId := 3
  attemptId := 4
  requestedBy := "coder"
  toolName := "read_file"
  arguments := [("path", .str path)]
  idempotencyKey := "k"

def sampleDatabase : Database where
  tasks := insert ∅
    { id := 3, runId := 2, projectId := 1, repositoryId := 1, planRevision := 1, title := ""
      description := "", taskType := .VALIDATION, dependencies := [], priority := 0
      assignedCapability := "", acceptanceCriteria := [], allowedTools := [], riskCeiling := .LOW
      estimate := {}, state := .RUNNING, stateEnteredAt := 0, createdAt := 0 }
  attempts := insert ∅ { id := 4, taskId := 3, agentSpecHash := "", startedAt := 0 }
  runs := insert ∅
    { id := 2, projectId := 1, repositoryId := 1, goal := "", baselineCommit := "" }

/-- The executor fails. Then the call is completed from outside, and made again
with its path spelled in another way. -/
def sampleCalls : List CallEvent :=
  [.environment (.other sampleDatabase),
    .spawn 1 (.execute sampleGateway (sampleCall "./a") sampleContext none none), .resume 1 {},
    .resume 1 {}, .resume 1 { fault := some (.raised ⟨.runtimeError, "down"⟩), reached := true },
    .resume 1 {},
    .spawn 2 (.completeApproved sampleGateway (sampleCall "a") [] .HIGH), .resume 2 {},
    .spawn 3 (.execute sampleGateway (sampleCall "a/") sampleContext none none),
    .resume 3 {}, .resume 3 {}]

/-- The first call of `sampleCalls`, up to its executor. -/
theorem executor_gated_sample : ∃ (s : Calls) (p : Task ToolCallResult) (log : CallLog),
    Reach callStep Always { store := {} } s ∧
    s.procs 1 = some (.execute sampleGateway (sampleCall "./a") sampleContext none none, p) ∧
    s.store.invocations = [("k", 1)] ∧
    Traced act (sampleGateway.execute (sampleCall "./a") sampleContext none none) log p ∧
    GateKept sampleGateway (sampleCall "./a") sampleContext log := by
  have hinvoked : ((sampleCalls.take 5).foldlM callStep { store := {} }).map
      (fun s => s.store.invocations) = some [("k", 1)] := by decide +kernel
  have hjob : ((sampleCalls.take 5).foldlM callStep { store := {} }).map
      (fun s => (s.procs 1).map Prod.fst) =
        some (some (.execute sampleGateway (sampleCall "./a") sampleContext none none)) := by
    rfl
  obtain ⟨s, hs, hinvoked⟩ := map_eq_some_iff.mp hinvoked
  rw [hs] at hjob
  obtain ⟨⟨job, p⟩, hp, rfl⟩ := map_eq_some_iff.mp (some.inj hjob)
  have hreach : Reach callStep Always { store := {} } s :=
    Reach.foldlM .start _ (fun _ _ _ => trivial) hs
  have hgate := executor_gated sampleGateway (sampleCall "./a") sampleContext none none
  obtain ⟨log, htraced, -, -⟩ := hgate.2 {} s 1 p hreach hp
  exact ⟨s, p, log, hreach, hp, hinvoked, htraced, hgate.1 log p htraced⟩

end AutoSwe.Gateway
