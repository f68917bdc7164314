import AutoSwe.Domain.Values
import AutoSwe.Lib.Run

/-!
# The agent loop

An agent asks its model again and again until a reply passes validation. A reply either selects
tools, which are dispatched and answered, or it is the final output, which is parsed and checked by
the validator of the caller; a rejected output is sent back for repair. Budgets bound turns, tokens
and cost. An `Exchange` is one request with everything it led to.
-/

namespace AutoSwe

inductive FailureClass
  | TRANSIENT
  | PERMANENT
  | TIMEOUT
  | CANCELLED
  | CAPABILITY
  | BUDGET
deriving DecidableEq

structure ToolCall where
  callId : String
  name : String
  arguments : Json

/-- `cost` counts units of 10⁻⁸ dollars. -/
structure ModelUsage where
  inputTokens : Nat := 0
  outputTokens : Nat := 0
  cachedInputTokens : Nat := 0
  cost : Nat := 0
deriving DecidableEq

structure AgentSpec where
  role : String
  primaryModel : String
  fallbackModels : List String
  toolGrants : List String
  tokenBudget : Nat
  costBudget : Nat
  turnBudget : Nat
  turnBudget_pos : 1 ≤ turnBudget

def AgentSpec.models (spec : AgentSpec) : List String := spec.primaryModel :: spec.fallbackModels

/-- The part of a request that the loop decides on. -/
structure ModelRequest where
  model : String
  tools : List String
  maxOutputTokens : Nat

/-- `parsed` is the object that the schema accepts, or the messages it rejects
the text with. -/
structure ModelResponse (Output : Type) where
  model : String
  toolCalls : List ToolCall := []
  parsed : Except (List String) Output
  usage : ModelUsage := {}

structure AgentAttemptRecord where
  turn : Nat
  model : String
  usage : ModelUsage
  failureClass : Option FailureClass := none
  validationErrors : List String := []
  toolCallIds : List String := []

inductive AgentError
  | gateway (failureClass : FailureClass)
  | agentBudgetExceeded (message : String)
  | structuredOutputExhausted (attempts : List AgentAttemptRecord)
  | tool (error : Raised)

/-- One request and what came of it; `answers` are those of the tool gateway, in
the order of the calls. -/
inductive Exchange (Output A : Type)
  | failure (failureClass : FailureClass)
  | expired
  | response (response : ModelResponse Output) (answers : Nat → A)

/-- The variables of the loop, with the state of its tool dispatcher. -/
structure AgentState (D : Type) where
  turn : Nat := 1
  requestNumber : Nat := 0
  modelIndex : Nat := 0
  transientFailures : Nat := 0
  schemaFailures : Nat := 0
  usage : ModelUsage := {}
  attempts : List AgentAttemptRecord := []
  allCalls : List ToolCall := []
  successfulCalls : List String := []
  lastRepairInstructions : List String := []
  dispatcher : D

structure AgentRunResult (Output D : Type) where
  output : Output
  attempts : List AgentAttemptRecord
  usage : ModelUsage
  toolCalls : List ToolCall
  dispatcher : D

/-- What one exchange does to the loop. -/
inductive Outcome (Output D : Type)
  | continued (state : AgentState D)
  | raised (error : AgentError)
  | returned (result : AgentRunResult Output D)

/-- A configured runtime. `estimate` is the usage charged for a call that failed
after it may have been billed. -/
structure AgentRuntime (Output D A : Type) where
  spec : AgentSpec
  toolDefinitions : List String
  maxSchemaRepairs : Nat
  estimate : ModelUsage
  outputValidator : D → Output → Except String Unit
  dispatch : D → ToolCall → A → Except Raised (Json × D)

def maxSameModelRetries : Nat := 3
def minOutputTokens : Nat := 256
def maxOutputTokens : Nat := 16000

def FailureClass.billedOnFailure (failureClass : FailureClass) : Bool :=
  failureClass ∈ [.TRANSIENT, .TIMEOUT]

def ModelUsage.total (usage : ModelUsage) : Nat := usage.inputTokens + usage.outputTokens

def ModelUsage.add (usage more : ModelUsage) : ModelUsage where
  inputTokens := usage.inputTokens + more.inputTokens
  outputTokens := usage.outputTokens + more.outputTokens
  cachedInputTokens := usage.cachedInputTokens + more.cachedInputTokens
  cost := usage.cost + more.cost

def mentions (name text : String) : Bool := name.toList <:+: text.toList

namespace AgentRuntime

variable {Output D A : Type} (rt : AgentRuntime Output D A)

/-! ## The request -/

def definitionsIn (names : List String) : List String :=
  rt.toolDefinitions.filter (· ∈ names)

def lastSuccess (s : AgentState D) (name : String) : Option Nat :=
  (s.allCalls.zipIdx.filter fun call =>
    call.1.name = name ∧ call.1.callId ∈ s.successfulCalls).getLast?.map Prod.snd

def hasTests (s : AgentState D) : Bool :=
  match lastSuccess s "run_tests", lastSuccess s "apply_patch" with
  | none, _ => false
  | some _, none => true
  | some test, some patch => patch < test

def hasReads (s : AgentState D) : Bool :=
  s.allCalls.any fun call => call.name ∈ ["read_file", "search_code"]

def activeTools (s : AgentState D) : List String :=
  let grants := rt.spec.toolGrants
  if rt.toolDefinitions = [] then rt.toolDefinitions
  else if s.lastRepairInstructions.any (mentions "apply_patch") then
    rt.definitionsIn ["apply_patch", "read_file"]
  else if s.lastRepairInstructions.any (mentions "run_tests") then rt.definitionsIn ["run_tests"]
  else if "apply_patch" ∈ grants then
    if (lastSuccess s "apply_patch").isSome then
      if "run_tests" ∈ grants ∧ hasTests s = false then rt.definitionsIn ["run_tests"] else []
    else if hasReads s || hasTests s then rt.definitionsIn ["apply_patch", "read_file"]
    else rt.definitionsIn ["read_file", "search_code"]
  else if "run_tests" ∈ grants then
    if hasTests s then [] else rt.definitionsIn ["run_tests"]
  else if ("read_file" ∈ grants ∨ "search_code" ∈ grants) ∧ hasReads s then []
  else rt.toolDefinitions

/-- `models[min(model_index, len(models) - 1)]` -/
def modelAt (index : Nat) : String :=
  rt.spec.models.getD (min index rt.spec.fallbackModels.length) rt.spec.primaryModel

def request (s : AgentState D) : Except AgentError ModelRequest :=
  if rt.spec.turnBudget < s.turn then
    .error (.agentBudgetExceeded "agent exhausted its turn budget")
  else if rt.spec.tokenBudget ≤ s.usage.total then
    .error (.agentBudgetExceeded "agent token budget exceeded")
  else .ok
    { model := rt.modelAt s.modelIndex, tools := rt.activeTools s
      maxOutputTokens := max minOutputTokens
        (min AutoSwe.maxOutputTokens ((rt.spec.tokenBudget - s.usage.total) / 4)) }

/-! ## A failed request -/

def nextModel (s : AgentState D) : AgentState D :=
  { s with modelIndex := s.modelIndex + 1, transientFailures := 0 }

/-- A failed call is charged what it may have cost, but takes no turn: it is
tried again, then the next model is. -/
def onFailure (s : AgentState D) (request : ModelRequest) (failureClass : FailureClass) :
    Outcome Output D :=
  let usage := if failureClass.billedOnFailure then rt.estimate else {}
  let s := { s with
    attempts := s.attempts ++
      [{ turn := s.requestNumber, model := request.model, usage, failureClass }]
    usage := { s.usage with
      inputTokens := s.usage.inputTokens + usage.inputTokens
      outputTokens := s.usage.outputTokens + usage.outputTokens
      cost := s.usage.cost + usage.cost } }
  let fallback := s.modelIndex + 1 < rt.spec.models.length
  if failureClass ∈ [.TRANSIENT, .TIMEOUT] then
    if s.transientFailures < maxSameModelRetries then
      .continued { s with transientFailures := s.transientFailures + 1 }
    else if fallback then .continued (nextModel s)
    else .raised (.gateway failureClass)
  else if failureClass ∈ [.PERMANENT, .CAPABILITY] ∧ fallback then .continued (nextModel s)
  else .raised (.gateway failureClass)

/-! ## Tool calls -/

def notGranted (call : ToolCall) : Json :=
  .obj [("error", .str ("Tool '" ++ call.name ++ "' is not recognized or not granted to " ++
    "role '" ++ rt.spec.role ++ "'. Granted tools are: [" ++
    ", ".intercalate (rt.spec.toolGrants.map fun name => "'" ++ name ++ "'") ++ "]. " ++
    "If you are finished, stop calling tools and return ONLY the final" ++
    "JSON output object conforming to the schema."))]

def succeeded (result : Json) : Bool :=
  match result.get? "error" with
  | none | some .null => true
  | some _ => false

def dispatchTool (s : AgentState D) (call : ToolCall) (answer : A) :
    Except Raised (AgentState D) := do
  let (result, dispatcher) ←
    if call.name ∉ rt.spec.toolGrants then pure (rt.notGranted call, s.dispatcher)
    else rt.dispatch s.dispatcher call answer
  pure { s with
    dispatcher, allCalls := s.allCalls ++ [call]
    successfulCalls :=
      if succeeded result then s.successfulCalls ++ [call.callId] else s.successfulCalls }

def dispatchTools (answers : Nat → A) :
    List (ToolCall × Nat) → AgentState D → Except Raised (AgentState D)
  | [], s => pure s
  | (call, i) :: rest, s => do
    let s ← rt.dispatchTool s call (answers i)
    dispatchTools answers rest s

/-! ## Repair -/

def callApplyPatch : String :=
  "CRITICAL: You MUST call the 'apply_patch' tool to apply the" ++
    "required file changes before emitting the JSON response."

def callRunTests : String :=
  "CRITICAL: You MUST call the 'run_tests' tool to execute the" ++
    "test suite before emitting the JSON response."

def claimNothing : String :=
  "CRITICAL: Do not claim verification. Set'verification_passed': null in your JSON response " ++
    "becausethis stage does not run tests."

def callRunTestsNow : String :=
  "CRITICAL: You MUST call the 'run_tests' tool to execute the test" ++
    "suite before emitting the JSON response."

def repairFor (error : String) : List String :=
  if mentions "apply_patch" error then
    if "apply_patch" ∈ rt.spec.toolGrants then [callApplyPatch] else []
  else if mentions "run_tests" error then
    if "run_tests" ∈ rt.spec.toolGrants then [callRunTests] else [claimNothing]
  else []

def repairByTools (tools : List String) : List String :=
  if tools = [] then []
  else if "apply_patch" ∈ tools then [callApplyPatch]
  else if "run_tests" ∈ tools then [callRunTestsNow]
  else ["CRITICAL: Call one of the active tools (" ++
    ", ".intercalate (tools.map fun name => "'" ++ name ++ "'") ++
    ") to gather context or execute changes."]

def repairInstructions (errors tools : List String) : List String :=
  match errors.flatMap rt.repairFor with
  | [] => repairByTools tools
  | instructions => instructions

/-! ## A reply -/

def checkBudget (usage : ModelUsage) : Except AgentError Unit :=
  if rt.spec.tokenBudget < usage.total then
    .error (.agentBudgetExceeded "agent token budget exceeded")
  else if rt.spec.costBudget < usage.cost then
    .error (.agentBudgetExceeded "agent cost budget exceeded")
  else .ok ()

/-- The parsed output that the validator lets pass. -/
def validated (s : AgentState D) (response : ModelResponse Output) :
    Except (List String) Output :=
  match response.parsed with
  | .error messages => .error messages
  | .ok output =>
    match rt.outputValidator s.dispatcher output with
    | .ok () => .ok output
    | .error message => .error [message]

def attempt (s : AgentState D) (response : ModelResponse Output)
    (validationErrors : List String := []) : AgentAttemptRecord :=
  { turn := s.requestNumber, model := response.model, usage := response.usage, validationErrors
    toolCallIds := response.toolCalls.map ToolCall.callId }

def onToolCalls (s : AgentState D) (response : ModelResponse Output) (answers : Nat → A) :
    Outcome Output D :=
  let s := { s with attempts := s.attempts ++ [attempt s response] }
  match rt.checkBudget s.usage with
  | .error error => .raised error
  | .ok () =>
    match rt.dispatchTools answers response.toolCalls.zipIdx
        { s with schemaFailures := 0, lastRepairInstructions := [] } with
    | .error error => .raised (.tool error)
    | .ok s => .continued { s with turn := s.turn + 1 }

def onRejected (s : AgentState D) (request : ModelRequest) (response : ModelResponse Output)
    (errors : List String) : Outcome Output D :=
  let s := { s with attempts := s.attempts ++ [attempt s response errors] }
  match rt.checkBudget s.usage with
  | .error error => .raised error
  | .ok () =>
    if rt.maxSchemaRepairs ≤ s.schemaFailures then
      .raised (.structuredOutputExhausted s.attempts)
    else .continued { s with
      schemaFailures := s.schemaFailures + 1, turn := s.turn + 1
      lastRepairInstructions := rt.repairInstructions errors request.tools }

def onAccepted (s : AgentState D) (response : ModelResponse Output) (output : Output) :
    Outcome Output D :=
  let attempts := s.attempts ++ [attempt s response]
  match rt.checkBudget s.usage with
  | .error error => .raised error
  | .ok () => .returned
    { output, attempts, usage := s.usage, toolCalls := s.allCalls, dispatcher := s.dispatcher }

def onResponse (s : AgentState D) (request : ModelRequest) (response : ModelResponse Output)
    (answers : Nat → A) : Outcome Output D :=
  let s := { s with
    usage :=
      { inputTokens := s.usage.inputTokens + response.usage.inputTokens
        outputTokens := s.usage.outputTokens + response.usage.outputTokens
        cachedInputTokens := s.usage.cachedInputTokens + response.usage.cachedInputTokens
        cost := s.usage.cost + response.usage.cost } }
  if response.toolCalls ≠ [] then rt.onToolCalls s response answers
  else
    match rt.validated s response with
    | .error errors => rt.onRejected s request response errors
    | .ok output => rt.onAccepted s response output

def step (s : AgentState D) (exchange : Exchange Output A) : Outcome Output D :=
  match rt.request s with
  | .error error => .raised error
  | .ok request =>
    let s := { s with
      requestNumber := s.requestNumber + 1
      modelIndex := min s.modelIndex rt.spec.fallbackModels.length }
    match exchange with
    | .failure failureClass => rt.onFailure s request failureClass
    | .expired => .raised (.gateway .TIMEOUT)
    | .response response answers => rt.onResponse s request response answers

def next (s : AgentState D) (exchange : Exchange Output A) : Option (AgentState D) :=
  match rt.step s exchange with
  | .continued s => some s
  | _ => none

/-! ## What a step can be -/

def sent (s : AgentState D) : AgentState D :=
  { s with
    requestNumber := s.requestNumber + 1
    modelIndex := min s.modelIndex rt.spec.fallbackModels.length }

/-- What a failed request is recorded and charged with. -/
def charge (failureClass : FailureClass) : ModelUsage :=
  if failureClass.billedOnFailure then rt.estimate else {}

def charged (s : AgentState D) (request : ModelRequest) (failureClass : FailureClass) :
    AgentState D :=
  { s with
    attempts := s.attempts ++ [{ turn := s.requestNumber, model := request.model
                                 usage := rt.charge failureClass, failureClass }]
    usage := { s.usage with
      inputTokens := s.usage.inputTokens + (rt.charge failureClass).inputTokens
      outputTokens := s.usage.outputTokens + (rt.charge failureClass).outputTokens
      cost := s.usage.cost + (rt.charge failureClass).cost } }

def answered (s : AgentState D) (response : ModelResponse Output)
    (validationErrors : List String := []) : AgentState D :=
  { rt.sent s with
    usage := s.usage.add response.usage
    attempts := s.attempts ++ [attempt (rt.sent s) response validationErrors] }

inductive Steps (s : AgentState D) : Exchange Output A → Outcome Output D → Prop
  | raised : Steps s x (.raised error)
  | retried (hrequest : rt.request s = .ok asked)
      (hretry : s.transientFailures < maxSameModelRetries) :
      Steps s (.failure c) (.continued { rt.charged (rt.sent s) asked c with
        transientFailures := s.transientFailures + 1 })
  | fellBack (hrequest : rt.request s = .ok asked)
      (hmodel : s.modelIndex < rt.spec.fallbackModels.length) :
      Steps s (.failure c) (.continued (nextModel (rt.charged (rt.sent s) asked c)))
  | dispatched (hrequest : rt.request s = .ok asked) (hcalls : response.toolCalls ≠ [])
      (hbudget : rt.checkBudget (s.usage.add response.usage) = .ok ())
      (hdispatched : rt.dispatchTools answers response.toolCalls.zipIdx
        { rt.answered s response with
        schemaFailures := 0, lastRepairInstructions := [] } = .ok s') :
      Steps s (.response response answers) (.continued { s' with turn := s'.turn + 1 })
  | rejected (hrequest : rt.request s = .ok asked) (hcalls : response.toolCalls = [])
      (hvalidated : rt.validated s response = .error errors)
      (hbudget : rt.checkBudget (s.usage.add response.usage) = .ok ()) :
      Steps s (.response response answers) (.continued { rt.answered s response errors with
        schemaFailures := s.schemaFailures + 1, turn := s.turn + 1
        lastRepairInstructions := rt.repairInstructions errors asked.tools })
  | returned (hrequest : rt.request s = .ok asked) (hcalls : response.toolCalls = [])
      (hvalidated : rt.validated s response = .ok output)
      (hbudget : rt.checkBudget (s.usage.add response.usage) = .ok ()) :
      Steps s (.response response answers) (.returned
        { output, attempts := (rt.answered s response).attempts
          usage := s.usage.add response.usage, toolCalls := s.allCalls
          dispatcher := s.dispatcher })

theorem step_cases (s : AgentState D) (x : Exchange Output A) : rt.Steps s x (rt.step s x) := by
  unfold step
  split
  · exact .raised
  · rename_i request hrequest
    cases x with
    | expired => exact .raised
    | failure c =>
      simp only [onFailure]
      split
      · split
        · exact .retried hrequest ‹_›
        · split
          · rename_i hmodel
            exact .fellBack hrequest (by simpa [AgentSpec.models] using hmodel)
          · exact .raised
      · split
        · rename_i h
          exact .fellBack hrequest (by simpa [AgentSpec.models] using h.2)
        · exact .raised
    | response response answers =>
      simp only [onResponse]
      split
      · simp only [onToolCalls]
        split
        · exact .raised
        · split
          · exact .raised
          · exact .dispatched hrequest ‹_› ‹_› ‹_›
      · rename_i hcalls
        have hcalls : response.toolCalls = [] := by simpa using hcalls
        split
        · simp only [onRejected]
          split
          · exact .raised
          · split
            · exact .raised
            · exact .rejected hrequest hcalls ‹_› ‹_›
        · simp only [onAccepted]
          split
          · exact .raised
          · exact .returned hrequest hcalls ‹_› ‹_›

/-- The loop returns what the model replied, word for word: the validator can
only refuse it. -/
theorem step_returned (h : rt.step s exchange = .returned result) :
    ∃ response answers, exchange = .response response answers ∧
      response.parsed = .ok result.output ∧ result.dispatcher = s.dispatcher ∧
      rt.outputValidator s.dispatcher result.output = .ok () := by
  have hcases := rt.step_cases s exchange
  rw [h] at hcases
  cases hcases with
  | @returned _ response output answers _ _ hvalidated =>
    refine ⟨response, answers, rfl, ?_⟩
    unfold validated at hvalidated
    split at hvalidated
    · cases hvalidated
    · rename_i hparsed
      split at hvalidated <;> cases hvalidated
      exact ⟨hparsed, rfl, ‹_›⟩

end AgentRuntime

end AutoSwe
