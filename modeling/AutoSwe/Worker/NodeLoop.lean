import AutoSwe.Scheduler.OperatorExit
import AutoSwe.Worker.Fleet

/-!
# The node loop and cancellation

`ainvoke` runs the nodes of the task's graph one after the other, and every node looks for a
cancellation before and after its work. `invokeNodes` is `invoke` with that loop in the place of the
awaited graph run. The runtime's activity check and the heartbeat make the runtime record
`CANCELLED`; the exception of a node is not one that the runtime takes for a cancellation.
-/

namespace AutoSwe

open Relational Transaction Coroutine Table

/-! ## The loop -/

def taskNodeSequences : TaskType → List String
  | .RESEARCH => ["recall", "investigate", "evidence", "synthesis"]
  | .IMPLEMENTATION => ["recall", "implement", "targeted_test", "review"]
  | .TEST => ["recall", "generate_tests", "execute", "review"]
  | .REFACTOR => ["recall", "establish_invariants", "refactor", "regression_verify", "review"]
  | .DOCUMENTATION => ["recall", "draft", "validate_examples", "review"]
  | .VALIDATION => ["recall", "inspect", "verify", "evidence"]

inductive NodeAwait
  | runtime (a : Await)
  | cancellationRequested (taskId : UUID)
  | execute (taskId : UUID) (node : String)
  | agetState

def NodeAwait.Result : NodeAwait → Type
  | .runtime a => a.Result
  | .cancellationRequested _ => Bool
  | .execute _ _ => Unit
  | .agetState => GraphSnapshot

abbrev NodeRun := Process NodeAwait NodeAwait.Result Failure

def awaitNode (a : NodeAwait) : NodeRun a.Result := Process.perform a

def workflowCancelled (taskId : UUID) (moment node : String) : Failure :=
  .raised ⟨.workflowCancelled, "task " ++ taskId.str ++ " was cancelled " ++ moment ++ " " ++ node⟩

def taskNode (taskId : UUID) (node : String) : NodeRun Unit := do
  let cancelled : Bool ← awaitNode (.cancellationRequested taskId)
  if cancelled then throw (workflowCancelled taskId "before" node)
  awaitNode (.execute taskId node)
  let cancelled : Bool ← awaitNode (.cancellationRequested taskId)
  if cancelled then throw (workflowCancelled taskId "after" node)

def ainvoke (taskId : UUID) : List String → NodeRun GraphSnapshot
  | [] => awaitNode .agetState
  | node :: rest => do
    taskNode taskId node
    ainvoke taskId rest

/-- The nodes that are left to run are the graph run that `invoke` awaits. -/
def expand (nodes : List String) : (a : Await) → NodeRun a.Result
  | .ainvoke identity => ainvoke identity.taskId nodes
  | a => awaitNode (.runtime a)

def invokeNodes (identity : CheckpointIdentity) (nodes : List String) :
    NodeRun CheckpointOutcome :=
  (invoke identity).interpret (expand nodes)

/-! ## The system -/

def Database.cancellationRequested (db : Database) (taskId : UUID) : Bool :=
  match db.tasks.get? taskId with
  | none => true
  | some task => task.state = .CANCELLED

def NodeAwait.act (service : SchedulerService) (db : Database) (input : Input) (a : NodeAwait) :
    Except Failure a.Result × Database :=
  match input.failure with
  | some failure => (.error failure, db)
  | none =>
    match a with
    | .runtime a => a.act service db input
    | .cancellationRequested taskId => (.ok (db.cancellationRequested taskId), db)
    | .execute _ _ => (.ok (), db)
    | .agetState => (.ok input.snapshot, db)

/-- A tool call of a node can end with an unknown outcome. -/
def NodeAwait.aside (db : Database) (input : Input) : NodeAwait → Database
  | .execute taskId _ => ((parkUncertain taskId input.draw).commit db).2
  | _ => db

/-- An invocation: whose, and the nodes that it still has to run. -/
abbrev Invocation := CheckpointIdentity × List String

def nodeWorkers (service : SchedulerService) :
    Coroutine.System Invocation Database NodeAwait NodeAwait.Result Failure CheckpointOutcome Input
      Operation where
  body m := invokeNodes m.1 m.2
  act := NodeAwait.act service
  aside := NodeAwait.aside
  environment := perform service

abbrev NodeWorkers :=
  Fleet Invocation Database NodeAwait NodeAwait.Result Failure CheckpointOutcome

abbrev NodeEvent := Coroutine.Event Invocation Input Operation

/-! ## What cancellations change -/

/-- Tasks are cancelled, runs keep what they are about, and nothing else changes
for an execution. -/
structure Cancelling (db db' : Database) : Prop where
  graphs : SameGraphs db db'
  attempts : db'.attempts = db.attempts
  runs : ∀ id run, db.runs.get? id = some run → ∃ run', db'.runs.get? id = some run' ∧
    run'.repositoryId = run.repositoryId ∧ run'.baselineCommit = run.baselineCommit
  tasks : ∀ t task, db.tasks.get? t = some task → ∃ task', db'.tasks.get? t = some task' ∧
    task'.projectId = task.projectId ∧ task'.runId = task.runId ∧
    task'.repositoryId = task.repositoryId ∧
    (task'.state = task.state ∨ task'.state = .CANCELLED)

theorem Cancelling.refl (db : Database) : Cancelling db db :=
  ⟨.refl db, rfl, fun _ run h => ⟨run, h, rfl, rfl⟩,
    fun _ task h => ⟨task, h, rfl, rfl, rfl, .inl rfl⟩⟩

theorem Cancelling.trans (h : Cancelling a b) (h' : Cancelling b c) : Cancelling a c := by
  refine ⟨h.graphs.trans h'.graphs, h'.attempts.trans h.attempts, ?_, ?_⟩
  · intro id run hrun
    obtain ⟨run₁, hrun₁, hrepository₁, hbaseline₁⟩ := h.runs id run hrun
    obtain ⟨run₂, hrun₂, hrepository₂, hbaseline₂⟩ := h'.runs id run₁ hrun₁
    exact ⟨run₂, hrun₂, hrepository₂.trans hrepository₁, hbaseline₂.trans hbaseline₁⟩
  · intro t task htask
    obtain ⟨task₁, htask₁, hproject₁, hrun₁, hrepository₁, hstate₁⟩ := h.tasks t task htask
    obtain ⟨task₂, htask₂, hproject₂, hrun₂, hrepository₂, hstate₂⟩ := h'.tasks t task₁ htask₁
    refine ⟨task₂, htask₂, hproject₂.trans hproject₁, hrun₂.trans hrun₁,
      hrepository₂.trans hrepository₁, ?_⟩
    rcases hstate₂ with hstate₂ | hstate₂
    · rw [hstate₂]
      exact hstate₁
    · exact .inr hstate₂

theorem cancelTask_cancelling :
    (cancelTask projectId t now draw).Refines (fun _ => True) Cancelling := by
  intro db u db' _ h
  obtain ⟨task, hrow, ⟨-, rfl⟩ | ⟨-, rfl⟩⟩ := cancelTask_ok h
  · exact ⟨rfl, rfl, fun _ run hrun => ⟨run, hrun, rfl, rfl⟩,
      fun _ other hother => ⟨other, hother, rfl, rfl, rfl, .inl rfl⟩⟩
  · have hmove := moveTask_updates hrow .CANCELLED draw
    refine ⟨rfl, rfl, fun _ run hrun => ⟨run, hrun, rfl, rfl⟩, fun k other hother => ?_⟩
    by_cases hk : k = t
    · subst hk
      cases hrow.symm.trans hother
      exact ⟨_, congrArg TaskView.row hmove.1, rfl, rfl, rfl, .inr rfl⟩
    · exact ⟨other, (congrArg TaskView.row (hmove.2 k hk)).trans hother, rfl, rfl, rfl, .inl rfl⟩

theorem cancelRun_cancelling : (cancelRun runId now draw).Refines (fun _ => True) Cancelling := by
  intro db resolved db' _ h
  rcases cancelRun_ok h with rfl | ⟨run, hrun, -, hruns, htasks, -, -, hgraphs, hattempts⟩
  · exact .refl _
  · obtain rfl : run.id = runId := key_of_get? hrun
    refine ⟨hgraphs, hattempts, ?_,
      fun t task htask => ⟨task, by rw [htasks, htask], rfl, rfl, rfl, .inl rfl⟩⟩
    intro id found hget
    rw [hruns]
    by_cases hid : id = run.id
    · subst hid
      rw [hrun] at hget
      cases hget
      exact ⟨_, get?_set_self hrun, rfl, rfl⟩
    · exact ⟨found, (get?_set_ne _ (by exact hid)).trans hget, rfl, rfl⟩

/-- A cancellation of tasks, or an operator's request recorded on runs. -/
def Operation.Cancels (db : Database) : Operation → Prop
  | .cancelTask .. | .cancelRequestedRuns .. => True
  | .ambient _ runs _ => ∀ id run, db.runs.get? id = some run → ∃ run', runs.get? id = some run' ∧
      run'.repositoryId = run.repositoryId ∧ run'.baselineCommit = run.baselineCommit
  | _ => False

theorem Operation.Cancels.cancelling (service : SchedulerService) (h : operation.Cancels db) :
    Cancelling db (perform service db operation) := by
  cases operation with
  | cancelTask projectId t now draw =>
    exact (cancelTask_cancelling).commit .refl trivial
  | cancelRequestedRuns limit now draws =>
    refine perform_moves Cancelling.refl Cancelling.trans (fun call hcall db => ?_) db
    rcases hcall with ⟨projectId, t, rfl⟩ | ⟨runId, rfl⟩
    · exact (cancelTask_cancelling).commit .refl trivial
    · simp only [Call.body, Prog.commit_discard]
      exact (cancelRun_cancelling).commit .refl trivial
  | ambient =>
    exact ⟨rfl, rfl, h, fun _ task htask => ⟨task, htask, rfl, rfl, rfl, .inl rfl⟩⟩
  | _ => cases h

end AutoSwe
