import AutoSwe.Domain.Values

/-!
# State machines of tasks, graph executions and runs

The enumerations and their transition tables, and the guards that every
writer of a state goes through.
-/

namespace AutoSwe

inductive TaskType
  | RESEARCH
  | IMPLEMENTATION
  | TEST
  | REFACTOR
  | DOCUMENTATION
  | VALIDATION
deriving DecidableEq

inductive RiskLevel
  | LOW
  | MEDIUM
  | HIGH
  | CRITICAL
deriving DecidableEq

inductive TaskStatus
  | PENDING
  | READY
  | LEASED
  | RUNNING
  | BLOCKED
  | COMPLETED
  | FAILED
  | CANCELLED
deriving DecidableEq

inductive GraphExecutionState
  | NOT_STARTED
  | RUNNING
  | WAITING_FOR_TOOL
  | WAITING_FOR_APPROVAL
  | WAITING_FOR_MEMORY
  | PAUSED
  | COMPLETED
  | FAILED
  | CANCELLED
  | NEEDS_RECONCILIATION
deriving DecidableEq

inductive RunStatus
  | PENDING
  | PLANNING
  | EXECUTING
  | WAITING_FOR_APPROVAL
  | WAITING_FOR_MEMORY
  | COMPLETED
  | FAILED
  | CANCELLED
deriving DecidableEq

/-- The status column of `run_stage_attempts`. -/
inductive StageStatus
  | RUNNING
  | COMPLETED
  | FAILED
  | CANCELLED
deriving DecidableEq

inductive RepairAction
  | COMPLETE
  | APPLY_MUTATION
  | TERMINATE
deriving DecidableEq

inductive ApprovalStatus
  | PENDING
  | APPROVED
  | REJECTED
  | EXPIRED
  | CANCELLED
deriving DecidableEq

inductive ToolExecutionStatus
  | WAITING_FOR_APPROVAL
  | CLAIMED
  | COMPLETED
  | FAILED
  | NEEDS_RECONCILIATION
deriving DecidableEq

inductive ArtifactState
  | PENDING
  | VALID
  | CORRUPT
  | QUARANTINED
deriving DecidableEq

/-- The status column of `memory_candidates`. -/
inductive CandidateStatus
  | PENDING
  | PROMOTING
  | WAITING_FOR_MEMORY
  | REJECTED
  | PROMOTED
deriving DecidableEq

inductive PromotionOutcome
  | REJECTED
  | WAITING_FOR_MEMORY
  | PROMOTED
deriving DecidableEq

/-! ## Values -/

def ApprovalStatus.value : ApprovalStatus → String
  | .PENDING => "PENDING"
  | .APPROVED => "APPROVED"
  | .REJECTED => "REJECTED"
  | .EXPIRED => "EXPIRED"
  | .CANCELLED => "CANCELLED"

def RepairAction.value : RepairAction → String
  | .COMPLETE => "COMPLETE"
  | .APPLY_MUTATION => "APPLY_MUTATION"
  | .TERMINATE => "TERMINATE"

def TaskType.value : TaskType → String
  | .RESEARCH => "RESEARCH"
  | .IMPLEMENTATION => "IMPLEMENTATION"
  | .TEST => "TEST"
  | .REFACTOR => "REFACTOR"
  | .DOCUMENTATION => "DOCUMENTATION"
  | .VALIDATION => "VALIDATION"

def RiskLevel.value : RiskLevel → String
  | .LOW => "LOW"
  | .MEDIUM => "MEDIUM"
  | .HIGH => "HIGH"
  | .CRITICAL => "CRITICAL"

def ToolExecutionStatus.value : ToolExecutionStatus → String
  | .WAITING_FOR_APPROVAL => "WAITING_FOR_APPROVAL"
  | .CLAIMED => "CLAIMED"
  | .COMPLETED => "COMPLETED"
  | .FAILED => "FAILED"
  | .NEEDS_RECONCILIATION => "NEEDS_RECONCILIATION"

def TaskStatus.value : TaskStatus → String
  | .PENDING => "PENDING"
  | .READY => "READY"
  | .LEASED => "LEASED"
  | .RUNNING => "RUNNING"
  | .BLOCKED => "BLOCKED"
  | .COMPLETED => "COMPLETED"
  | .FAILED => "FAILED"
  | .CANCELLED => "CANCELLED"

def GraphExecutionState.value : GraphExecutionState → String
  | .NOT_STARTED => "NOT_STARTED"
  | .RUNNING => "RUNNING"
  | .WAITING_FOR_TOOL => "WAITING_FOR_TOOL"
  | .WAITING_FOR_APPROVAL => "WAITING_FOR_APPROVAL"
  | .WAITING_FOR_MEMORY => "WAITING_FOR_MEMORY"
  | .PAUSED => "PAUSED"
  | .COMPLETED => "COMPLETED"
  | .FAILED => "FAILED"
  | .CANCELLED => "CANCELLED"
  | .NEEDS_RECONCILIATION => "NEEDS_RECONCILIATION"

def RunStatus.value : RunStatus → String
  | .PENDING => "PENDING"
  | .PLANNING => "PLANNING"
  | .EXECUTING => "EXECUTING"
  | .WAITING_FOR_APPROVAL => "WAITING_FOR_APPROVAL"
  | .WAITING_FOR_MEMORY => "WAITING_FOR_MEMORY"
  | .COMPLETED => "COMPLETED"
  | .FAILED => "FAILED"
  | .CANCELLED => "CANCELLED"

/-! ## Transition tables -/

def taskTransitions : TaskStatus → List TaskStatus
  | .PENDING => [.READY, .CANCELLED]
  | .READY => [.LEASED, .BLOCKED, .FAILED, .CANCELLED]
  | .LEASED => [.RUNNING, .READY, .FAILED, .CANCELLED]
  | .RUNNING => [.READY, .BLOCKED, .COMPLETED, .FAILED, .CANCELLED]
  | .BLOCKED => [.READY, .FAILED, .CANCELLED]
  | .COMPLETED => []
  | .FAILED => []
  | .CANCELLED => []

def graphExecutionTransitions : GraphExecutionState → List GraphExecutionState
  | .NOT_STARTED => [.RUNNING, .CANCELLED]
  | .RUNNING =>
    [.WAITING_FOR_TOOL, .WAITING_FOR_APPROVAL, .WAITING_FOR_MEMORY, .PAUSED, .COMPLETED, .FAILED,
      .CANCELLED, .NEEDS_RECONCILIATION]
  | .WAITING_FOR_TOOL => [.RUNNING, .FAILED, .CANCELLED, .NEEDS_RECONCILIATION]
  | .WAITING_FOR_APPROVAL => [.RUNNING, .FAILED, .CANCELLED]
  | .WAITING_FOR_MEMORY => [.RUNNING, .FAILED, .CANCELLED]
  | .PAUSED => [.RUNNING, .FAILED, .CANCELLED]
  | .COMPLETED => []
  | .FAILED => []
  | .CANCELLED => []
  | .NEEDS_RECONCILIATION => [.RUNNING, .COMPLETED, .FAILED, .CANCELLED]

def runTransitions : RunStatus → List RunStatus
  | .PENDING => [.PLANNING, .CANCELLED]
  | .PLANNING => [.EXECUTING, .FAILED, .CANCELLED]
  | .EXECUTING => [.WAITING_FOR_APPROVAL, .WAITING_FOR_MEMORY, .COMPLETED, .FAILED, .CANCELLED]
  | .WAITING_FOR_APPROVAL => [.WAITING_FOR_MEMORY, .COMPLETED, .FAILED, .CANCELLED]
  | .WAITING_FOR_MEMORY => [.COMPLETED, .FAILED, .CANCELLED]
  | .COMPLETED => []
  | .FAILED => []
  | .CANCELLED => []

def terminalTaskStates : List TaskStatus := [.COMPLETED, .FAILED, .CANCELLED]

def terminalGraphStates : List GraphExecutionState := [.COMPLETED, .FAILED, .CANCELLED]

def runTerminalStates : List RunStatus := [.COMPLETED, .FAILED, .CANCELLED]

/-- The states in which a dispatch holds the task. -/
def TaskStatus.held : TaskStatus → Bool
  | .LEASED | .RUNNING => true
  | _ => false

/-! ## Guards -/

def requireTaskTransition (current target : TaskStatus) : Except Raised Unit :=
  if target ∈ taskTransitions current then .ok ()
  else .error ⟨.invalidStateTransition,
    "illegal task transition: " ++ current.value ++ " -> " ++ target.value⟩

def requireGraphTransition (current target : GraphExecutionState) : Except Raised Unit :=
  if target ∈ graphExecutionTransitions current then .ok ()
  else .error ⟨.invalidStateTransition,
    "illegal graph transition: " ++ current.value ++ " -> " ++ target.value⟩

def requireRunTransition (current target : RunStatus) : Except Raised Unit :=
  if target ∈ runTransitions current then .ok ()
  else .error ⟨.invalidStateTransition,
    "illegal run transition: " ++ current.value ++ " -> " ++ target.value⟩

theorem requireTaskTransition_ok :
    requireTaskTransition current target = .ok u ↔ target ∈ taskTransitions current := by
  unfold requireTaskTransition
  split <;> simp [*]

theorem requireGraphTransition_ok :
    requireGraphTransition current target = .ok u ↔
      target ∈ graphExecutionTransitions current := by
  unfold requireGraphTransition
  split <;> simp [*]

theorem requireRunTransition_ok :
    requireRunTransition current target = .ok u ↔ target ∈ runTransitions current := by
  unfold requireRunTransition
  split <;> simp [*]

/-! ## Facts of the tables -/

theorem terminal_absorbing (h : state ∈ terminalTaskStates) : target ∉ taskTransitions state := by
  cases state <;> simp_all [terminalTaskStates, taskTransitions]

theorem not_pending_of_transition (h : target ∈ taskTransitions current) : target ≠ .PENDING := by
  cases current <;> rintro rfl <;> simp [taskTransitions] at h

end AutoSwe
