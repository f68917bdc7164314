import AutoSwe.Lib.Latest
import AutoSwe.Worker.Tools

/-!
# Executing a workflow node

A node runs an agent with the tools that its policy grants. The output that the
agent returns is checked against the tool results and then persisted, redacted,
as the node-result artifact that the release gate reads.
-/

namespace AutoSwe

open EventLog LabelledRun

inductive Node
  | recall
  | investigate
  | evidence
  | synthesis
  | implement
  | targetedTest
  | review
  | generateTests
  | execute
  | establishInvariants
  | refactor
  | regressionVerify
  | draft
  | validateExamples
  | inspect
  | verify
deriving DecidableEq

namespace Node

def name : Node → String
  | .recall => "recall"
  | .investigate => "investigate"
  | .evidence => "evidence"
  | .synthesis => "synthesis"
  | .implement => "implement"
  | .targetedTest => "targeted_test"
  | .review => "review"
  | .generateTests => "generate_tests"
  | .execute => "execute"
  | .establishInvariants => "establish_invariants"
  | .refactor => "refactor"
  | .regressionVerify => "regression_verify"
  | .draft => "draft"
  | .validateExamples => "validate_examples"
  | .inspect => "inspect"
  | .verify => "verify"

def role : Node → String
  | .recall | .investigate | .synthesis => "researcher"
  | .evidence | .establishInvariants | .validateExamples | .inspect | .verify => "validation"
  | .implement | .refactor => "coder"
  | .targetedTest | .generateTests | .execute | .regressionVerify => "tester"
  | .review => "reviewer"
  | .draft => "documentation"

def toolPolicy : Node → List String
  | .recall | .evidence | .synthesis => []
  | .investigate | .inspect => ["read_file", "search_code"]
  | .implement | .generateTests | .refactor | .draft =>
    ["read_file", "search_code", "apply_patch", "run_tests"]
  | .targetedTest | .review | .execute | .establishInvariants | .regressionVerify
  | .validateExamples | .verify => ["read_file", "search_code", "run_tests"]

def mutates (node : Node) : Bool := node ∈ [.implement, .generateTests, .refactor, .draft]

def verifies (node : Node) : Bool :=
  node ∈ [.targetedTest, .execute, .regressionVerify, .verify, .validateExamples]

end Node

structure NodeAgentOutput where
  summary : String
  evidence : List String := []
  changedPaths : List String := []
  verificationPassed : Option Bool := none
deriving DecidableEq

def claimValue (claim : Option Bool) : Json :=
  match claim with
  | none => .null
  | some passed => .bool passed

def NodeAgentOutput.dump (output : NodeAgentOutput) : Json :=
  .obj [("schema_version", .str "1.0"), ("summary", .str output.summary),
    ("evidence", .arr (output.evidence.map .str)),
    ("changed_paths", .arr (output.changedPaths.map .str)),
    ("verification_passed", claimValue output.verificationPassed)]

/-! ## Evidence in the tool results -/

namespace ToolCallResult

variable (result : ToolCallResult)

def patches : Bool := result.toolName = "apply_patch"

def passed (result : ToolCallResult) : Option Bool :=
  match result.get? "passed" with
  | some (.bool passed) => some passed
  | _ => none

def path? : Option String :=
  match result.get? "path" with
  | some (.str path) => some path
  | _ => none

/-- A value that is put into a set has to be hashable. -/
def hashablePath : Except String (Option String) :=
  match result.get? "path" with
  | some (.arr _) => .error "unhashable type: 'list'"
  | some (.obj _) => .error "unhashable type: 'dict'"
  | _ => .ok result.path?

end ToolCallResult

variable (results : List ToolCallResult)

def patched : List ToolCallResult :=
  results.filter (·.completed "apply_patch")

def latestByTool (tool : String) : Option ToolCallResult :=
  results.reverse.find? (·.toolName = tool)

def unrecovered : List String :=
  ((results.map ToolCallResult.toolName).dedup.filter fun tool =>
    (latestByTool results tool).any fun result => result.status ≠ .COMPLETED).insertionSort (· ≤ ·)

def requirePatch (output : NodeAgentOutput) (results prior : List ToolCallResult) :
    Except String Unit := do
  unless (latestByTool results "apply_patch").any fun result => result.status = .COMPLETED do
    throw "mutation node requires a successful apply_patch result"
  let written ← (patched (prior ++ results)).mapM ToolCallResult.hashablePath
  if output.changedPaths.any fun path => some path ∉ written then
    throw "changed paths must match successful apply_patch results"

def requireVerdict (claim : Bool) (test : Option ToolCallResult) : Except String Unit :=
  match test.filter fun result => result.status = .COMPLETED with
  | none => throw "verification claim requires a governed run_tests result"
  | some result =>
    if result.passed ≠ some claim then
      throw "agent verification claim does not match the governed run_tests result"
    else pure ()

/-- Refuse claims that the tool results do not support. -/
def validateToolEvidence (node : Node) (output : NodeAgentOutput)
    (results prior : List ToolCallResult) : Except String Unit := do
  if node.mutates then requirePatch output results prior
  if unrecovered results ≠ [] then
    throw ("agent returned final output after an unrecovered tool failure: " ++
      ", ".intercalate (unrecovered results))
  if node = .investigate ∧ ¬ results.any fun result =>
      result.toolName ∈ ["read_file", "search_code"] then
    throw "investigation requires repository evidence from read_file or search_code"
  if node.verifies ∧ ¬ results.any fun result => result.toolName = "run_tests" then
    throw "verification stage requires a governed run_tests result"
  match output.verificationPassed with
  | none => pure ()
  | some claim =>
    requireVerdict claim
      (latestSince ToolCallResult.patches (·.toolName = "run_tests") (prior ++ results))

/-- The verdict of the latest completed test run since the last patch. -/
def governedVerdict : Option Bool :=
  (latestSince ToolCallResult.patches (·.completed "run_tests") results).bind ToolCallResult.passed

/-- The copy of an output that keeps only what the tool results back. -/
def correctedOutput (output : NodeAgentOutput) (results prior : List ToolCallResult) :
    NodeAgentOutput :=
  let writes := (patched (prior ++ results)).filterMap ToolCallResult.path?
  { output with
    changedPaths := output.changedPaths.filter (· ∈ writes)
    verificationPassed := governedVerdict (prior ++ results) }

/-- The validator that the runtime is given: it checks the corrected copy, and
the copy goes no further. -/
def requireEvidence (node : Node) (prior results : List ToolCallResult)
    (output : NodeAgentOutput) : Except String Unit :=
  validateToolEvidence node (correctedOutput output results prior) results prior

/-! ## The executor -/

/-- One execution of a node: what the executor was set up with, the tool results
of the attempt so far and the memories recalled for it. -/
structure NodeExecution where
  taskId : UUID
  node : Node
  allowedTools : List String
  primaryModel : String
  fallbackModels : List String
  estimate : ModelUsage
  dispatcher : GatewayToolDispatcher
  priorResults : List ToolCallResult
  memoryIds : List UUID

namespace NodeExecution

variable (execution : NodeExecution)

def toolNames : List String := execution.node.toolPolicy.filter (· ∈ execution.allowedTools)

def spec : AgentSpec where
  role := execution.node.role
  primaryModel := execution.primaryModel
  fallbackModels := execution.fallbackModels
  toolGrants := execution.toolNames
  tokenBudget := 250000
  costBudget := 2 * 10 ^ 8
  turnBudget := 20
  turnBudget_pos := by decide

def runtime : AgentRuntime NodeAgentOutput (List ToolCallResult) GatewayAnswer where
  spec := execution.spec
  toolDefinitions := execution.toolNames
  maxSchemaRepairs := 3
  estimate := execution.estimate
  outputValidator := requireEvidence execution.node execution.priorResults
  dispatch := execution.dispatcher.dispatch

def Running : AgentState (List ToolCallResult) → Prop :=
  Reach execution.runtime.next (fun _ _ => True) { dispatcher := [] }

/-- Changed paths are those that were written, whatever the model reported. -/
def invoked (result : AgentRunResult NodeAgentOutput (List ToolCallResult)) : NodeAgentOutput :=
  { result.output with
    changedPaths := ((patched result.dispatcher).filterMap ToolCallResult.path?).dedup.insertionSort
      (· ≤ ·) }

def dumpCall (call : ToolCall) : Json :=
  .obj [("call_id", .str call.callId), ("name", .str call.name), ("arguments", call.arguments)]

/-- The content of the node-result artifact. -/
def document (result : AgentRunResult NodeAgentOutput (List ToolCallResult)) : Json :=
  let text := execution.dispatcher.redactText
  .obj [("memory_ids", .arr (execution.memoryIds.map fun id => .str id.str)),
    ("node", .str execution.node.name), ("output", redact text (invoked result).dump),
    ("role", .str execution.node.role), ("schema_version", .str "1.0"),
    ("tool_calls", redact text (.arr (result.toolCalls.map dumpCall)))]

end NodeExecution

/-- What a node-result document says of its verification. -/
def persistedClaim (document : Json) : Option Json :=
  (document.get? "output").bind (·.get? "verification_passed")

theorem isSensitiveKey_verification : isSensitiveKey "verification_passed" = false := by
  decide +kernel

/-- The document carries the verdict of the output that the loop returned, and
redaction does not touch it. -/
theorem persistedClaim_document (execution : NodeExecution)
    (result : AgentRunResult NodeAgentOutput (List ToolCallResult)) :
    persistedClaim (execution.document result) =
      some (claimValue result.output.verificationPassed) := by
  have houtput : (execution.document result).get? "output" =
      some (redact execution.dispatcher.redactText (NodeExecution.invoked result).dump) := rfl
  have hclaim : (NodeExecution.invoked result).dump.get? "verification_passed" =
      some (claimValue result.output.verificationPassed) := rfl
  rw [persistedClaim, houtput, Option.bind_some, redact_get? _ isSensitiveKey_verification, hclaim]
  cases result.output.verificationPassed <;> rfl

end AutoSwe
