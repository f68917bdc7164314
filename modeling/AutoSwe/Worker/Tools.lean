import AutoSwe.Agents.Runtime
import AutoSwe.Domain.Enums
import AutoSwe.Policies.SecretRedactor

/-!
# Governed tool calls of a node

The dispatcher of a node passes every call on to the tool gateway and keeps the
results in order. A call that would repeat a test run or a read on unchanged
code is answered from the results it has.
-/

namespace AutoSwe

structure ToolCallResult where
  callId : UUID
  toolName : String
  toolVersion : String := "1.0"
  status : ToolExecutionStatus
  output : List (String × Json) := []
  error : Option String := none
  risk : RiskLevel
  attempts : Nat
  replayed : Bool := false

namespace ToolCallResult

def get? (result : ToolCallResult) (key : String) : Option Json := (Json.obj result.output).get? key

def completed (result : ToolCallResult) (tool : String) : Bool :=
  result.toolName = tool ∧ result.status = .COMPLETED

def dump (result : ToolCallResult) : Json :=
  .obj [("schema_version", .str "1.0"), ("call_id", .str result.callId.str),
    ("tool_name", .str result.toolName), ("tool_version", .str result.toolVersion),
    ("status", .str result.status.value), ("output", .obj result.output),
    ("error", .ofOption result.error), ("risk", .str result.risk.value),
    ("attempts", .num result.attempts), ("replayed", .bool result.replayed)]

end ToolCallResult

/-- `fields[key] = value` -/
def setField (fields : List (String × Json)) (key : String) (value : Json) :
    List (String × Json) :=
  if fields.any (·.1 = key) then
    fields.map fun field => if field.1 = key then (key, value) else field
  else fields ++ [(key, value)]

inductive GatewayAnswer
  | result (result : ToolCallResult)
  | approvalRequired
  /-- A `ValueError`, `PermissionError` or `LookupError` with this text. -/
  | denied (message : String)
  | raised (error : Raised)

/-- The dispatcher of one node. `callId` derives the id of a request, `pathText`
is the stripped text of a path argument, and `redactText` what the redactor
leaves of a text. -/
structure GatewayToolDispatcher where
  callId : ToolCall → UUID
  agentCapabilities : List String
  riskCeiling : RiskLevel
  pathText : Json → String
  redactText : String → String

namespace GatewayToolDispatcher

variable (dispatcher : GatewayToolDispatcher)

/-- A result that the dispatcher makes up itself. -/
def answered (call : ToolCall) (output : List (String × Json)) : ToolCallResult where
  callId := dispatcher.callId call
  toolName := call.name
  status := .COMPLETED
  output := output
  risk := dispatcher.riskCeiling
  attempts := 0

def refused (call : ToolCall) (message : String) : ToolCallResult where
  callId := dispatcher.callId call
  toolName := call.name
  status := .FAILED
  error := some message
  risk := dispatcher.riskCeiling
  attempts := 0

/-- The first result that `found` holds of after the last one that `changed` the
code. -/
def firstSince (changed found : ToolCallResult → Bool) (results : List ToolCallResult) :
    Option ToolCallResult :=
  ((results.reverse.takeWhile fun result => !changed result).reverse).find? found

def passedNote : String :=
  "Tests already passed successfully since the last code change. " ++
    "Verification is complete. Stop calling tools and immediately return " ++
    "the final NodeAgentOutput JSON."

def testedNote : String :=
  "Tests have already run on the current code. " ++
    "If you need to modify code to fix test failures, call 'apply_patch'. " ++
    "Otherwise, do not call further tools and return the final" ++ "NodeAgentOutput JSON."

variable (results : List ToolCallResult)

def cachedTest : Option (List (String × Json)) :=
  (firstSince (·.completed "apply_patch") (·.completed "run_tests") results).map fun result =>
    setField result.output "note"
      (.str (match result.get? "passed" with
        | some (.bool true) => passedNote
        | _ => testedNote))

def pathOf (value : Option Json) : String := (value.map dispatcher.pathText).getD ""

def alreadyRead (path : String) : String :=
  "File '" ++ path ++ "' has already been read into context. " ++
    if "apply_patch" ∈ dispatcher.agentCapabilities then
      "You MUST now call 'apply_patch' to apply your code changes. Do not" ++ "call read_file."
    else "Stop calling tools and immediately return the final NodeAgentOutput JSON."

def cachedRead (call : ToolCall) : Option (List (String × Json)) :=
  let path := dispatcher.pathOf (call.arguments.get? "path")
  let here (tool : String) (result : ToolCallResult) : Bool :=
    result.completed tool && dispatcher.pathOf (result.get? "path") = path
  (firstSince (here "apply_patch") (here "read_file") results).map fun _ =>
    [("path", .str path), ("error", .str (dispatcher.alreadyRead path))]

def cached (call : ToolCall) : Option (List (String × Json)) :=
  if call.name = "run_tests" then cachedTest results
  else if call.name = "read_file" then dispatcher.cachedRead results call
  else none

def execute (call : ToolCall) (answer : GatewayAnswer) : Except Raised ToolCallResult :=
  match answer with
  | .result result => .ok result
  | .approvalRequired => .ok (dispatcher.refused call
      ("tool requires exact-call human approval and is not " ++
        "executable inside an agent loop"))
  | .denied message =>
    .ok (dispatcher.refused call (String.ofList ((dispatcher.redactText message).toList.take 2000)))
  | .raised error => .error error

def dispatch (call : ToolCall) (answer : GatewayAnswer) :
    Except Raised (Json × List ToolCallResult) := do
  let result ←
    match dispatcher.cached results call with
    | some output => pure (dispatcher.answered call output)
    | none => dispatcher.execute call answer
  pure (result.dump, results ++ [result])

end GatewayToolDispatcher

end AutoSwe
