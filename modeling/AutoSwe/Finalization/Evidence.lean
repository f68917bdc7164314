import AutoSwe.Persistence.Tables
import AutoSwe.Worker.Nodes

/-!
# Verification evidence at the release gate

The gate reads the node-result artifacts of the latest plan revision. An output
that says `verification_passed: false` is a failure, one that says `true`
verifies its task, and the final validation task has to be verified. Nothing
else is asked of a verdict, so the gate is as good as what the nodes persist.
-/

namespace AutoSwe

open EventLog List Option

/-- `ORDER BY created_at, id` -/
def recordedBefore (a b : ArtifactRow) : Bool :=
  a.createdAt < b.createdAt || a.createdAt = b.createdAt && a.id.int ≤ b.id.int

/-- The final validation task that no other task depends on. -/
def integrationSink (tasks : List TaskRow) : Except Raised TaskRow :=
  let dependedOn := tasks.flatMap TaskRow.dependencies
  match tasks.filter fun task => task.id ∉ dependedOn ∧ task.taskType = .VALIDATION with
  | [sink] => .ok sink
  | _ => .error ⟨.runtimeError, "latest plan revision must have one final validation sink"⟩

structure Collected where
  failures : List String := []
  evidence : List UUID := []
  verifiedTasks : List UUID := []

/-- How the gate reads an artifact: `fetch` is the rehashed content, decoded if it
is JSON, or the class of the error; `str` is the text of any other value. -/
structure ArtifactReader where
  fetch : UUID → Except String (Option Json)
  str : Json → String

namespace ArtifactReader

variable (reader : ArtifactReader)

/-- `str(summary or "verification failed")` -/
def failureText (summary : Option Json) : String :=
  match summary with
  | none | some .null | some (.bool false) | some (.num 0) | some (.str "") | some (.arr [])
  | some (.obj []) => "verification failed"
  | some (.float summary) =>
    if summary.text = "0.0" ∨ summary.text = "-0.0" then "verification failed"
    else reader.str (.float summary)
  | some (.str summary) => summary
  | some summary => reader.str summary

def readOutput (collected : Collected) (row : ArtifactRow) (document : Json) : Collected :=
  match document.get? "output" with
  | some (.obj fields) =>
    match (Json.obj fields).get? "verification_passed" with
    | some (.bool false) => { collected with
        failures := collected.failures ++
          [reader.failureText ((Json.obj fields).get? "summary")] }
    | some (.bool true) =>
      { collected with verifiedTasks := collected.verifiedTasks ++ [row.taskId] }
    | _ => collected
  | _ => collected

def readArtifact (collected : Collected) (row : ArtifactRow) : Collected :=
  match reader.fetch row.id with
  | .error error => { collected with
      failures := collected.failures ++
        ["artifact " ++ row.id.str ++ " failed integrity verification: " ++ error] }
  | .ok content =>
    let collected := { collected with evidence := collected.evidence ++ [row.id] }
    match content with
    | none => collected
    | some document => reader.readOutput collected row document

def readAll (artifacts : List ArtifactRow) (tasks : List TaskRow) : Collected :=
  ((artifacts.filter fun row => row.taskId ∈ tasks.map TaskRow.id).insertionSort
    (recordedBefore · ·)).foldl reader.readArtifact {}

def verificationEvidence (artifacts : List ArtifactRow) (tasks : List TaskRow) :
    Except Raised (List String × List UUID) := do
  if tasks = [] then pure (["latest plan revision has no tasks"], [])
  else do
    let collected := reader.readAll artifacts tasks
    let sink ← integrationSink tasks
    let missing :=
      if collected.evidence = [] then ["latest plan revision produced no verified evidence"]
      else []
    let unverified :=
      if sink.id ∉ collected.verifiedTasks then
        ["final validation sink produced no passing verification evidence"]
      else []
    pure (collected.failures ++ missing ++ unverified, collected.evidence)

/-! ## What the gate counts -/

/-- A row whose document claims a passed verification. -/
def Passing (row : ArtifactRow) : Prop :=
  ∃ document, reader.fetch row.id = .ok (some document) ∧
    persistedClaim document = some (.bool true)

theorem readOutput_verified (h : t ∈ (reader.readOutput collected row document).verifiedTasks) :
    t ∈ collected.verifiedTasks ∨
      row.taskId = t ∧ persistedClaim document = some (.bool true) := by
  unfold readOutput at h
  split at h
  · rename_i fields houtput
    split at h
    · exact .inl h
    · rename_i hclaim
      rcases mem_append.mp h with h | h
      · exact .inl h
      · exact .inr ⟨(mem_singleton.mp h).symm, by rw [persistedClaim, houtput]; exact hclaim⟩
    · exact .inl h
  · exact .inl h

theorem readArtifact_verified (h : t ∈ (reader.readArtifact collected row).verifiedTasks) :
    t ∈ collected.verifiedTasks ∨ row.taskId = t ∧ reader.Passing row := by
  unfold readArtifact at h
  split at h
  · exact .inl h
  · rename_i content hfetch
    split at h
    · exact .inl h
    · rename_i document
      rcases reader.readOutput_verified h with h | ⟨htask, hclaim⟩
      · exact .inl h
      · exact .inr ⟨htask, document, hfetch, hclaim⟩

theorem foldl_verified (rows : List ArtifactRow) (collected : Collected)
    (h : t ∈ (rows.foldl reader.readArtifact collected).verifiedTasks) :
    t ∈ collected.verifiedTasks ∨ ∃ row ∈ rows, row.taskId = t ∧ reader.Passing row := by
  induction rows generalizing collected with
  | nil => exact .inl h
  | cons row rest ih =>
    rcases ih _ h with h | ⟨other, hother, hpassing⟩
    · rcases reader.readArtifact_verified h with h | hpassing
      · exact .inl h
      · exact .inr ⟨row, mem_cons_self, hpassing⟩
    · exact .inr ⟨other, mem_cons_of_mem row hother, hpassing⟩

/-- Every task that the gate counts as verified has an artifact that says so. -/
theorem readAll_verified (h : t ∈ (reader.readAll artifacts tasks).verifiedTasks) :
    ∃ row ∈ artifacts, row.taskId = t ∧ reader.Passing row := by
  rcases reader.foldl_verified _ _ h with h | ⟨row, hrow, hpassing⟩
  · cases h
  · exact ⟨row, (mem_filter.mp ((mem_insertionSort _).mp hrow)).1, hpassing⟩

/-- A row that rehashes and whose document claims no failed verification. -/
def Clean (row : ArtifactRow) : Prop :=
  ∃ content, reader.fetch row.id = .ok content ∧
    ∀ document, content = some document → persistedClaim document ≠ some (.bool false)

theorem readOutput_clean (h : (reader.readOutput collected row document).failures = []) :
    collected.failures = [] ∧ persistedClaim document ≠ some (.bool false) := by
  unfold readOutput at h
  cases houtput : document.get? "output" with
  | none =>
    rw [houtput] at h
    exact ⟨h, by simp [persistedClaim, houtput]⟩
  | some output =>
    rw [houtput] at h
    cases output with
    | obj fields =>
      rw [persistedClaim, houtput, bind_some]
      dsimp only at h
      split at h
      · simp at h
      · rename_i hclaim
        exact ⟨h, by simp [hclaim]⟩
      · rename_i hclaim _
        exact ⟨h, hclaim⟩
    | _ =>
      rw [persistedClaim, houtput, bind_some]
      exact ⟨h, by rintro ⟨⟩⟩

theorem readArtifact_clean (h : (reader.readArtifact collected row).failures = []) :
    collected.failures = [] ∧ reader.Clean row := by
  unfold readArtifact at h
  split at h
  · simp at h
  · rename_i content hfetch
    split at h
    · exact ⟨h, none, hfetch, by simp⟩
    · rename_i document
      obtain ⟨hcollected, hclaim⟩ := reader.readOutput_clean h
      exact ⟨hcollected, some document, hfetch, fun _ hdocument => by cases hdocument; exact hclaim⟩

theorem foldl_clean (rows : List ArtifactRow) (collected : Collected)
    (h : (rows.foldl reader.readArtifact collected).failures = []) :
    collected.failures = [] ∧ ∀ row ∈ rows, reader.Clean row := by
  induction rows generalizing collected with
  | nil => exact ⟨h, fun _ hrow => (not_mem_nil hrow).elim⟩
  | cons row rest ih =>
    obtain ⟨hread, hrest⟩ := ih _ h
    obtain ⟨hcollected, hclean⟩ := reader.readArtifact_clean hread
    exact ⟨hcollected, forall_mem_cons.mpr ⟨hclean, hrest⟩⟩

theorem verificationEvidence_clean
    (h : reader.verificationEvidence artifacts tasks = .ok ([], evidenceIds)) :
    (∃ sink, integrationSink tasks = .ok sink ∧
      ∃ row ∈ artifacts, row.taskId = sink.id ∧ reader.Passing row) ∧
    ∀ row ∈ artifacts, row.taskId ∈ tasks.map TaskRow.id → reader.Clean row := by
  unfold verificationEvidence at h
  split at h
  · cases h
  · cases hsink : integrationSink tasks with
    | error e =>
      rw [hsink] at h
      cases h
    | ok sink =>
      rw [hsink] at h
      have hnone := congrArg Prod.fst (Except.ok.inj h)
      obtain ⟨hfailures, hverified⟩ := append_eq_nil_iff.mp hnone
      have hpassing : sink.id ∈ (reader.readAll artifacts tasks).verifiedTasks := by
        by_contra hmissing
        rw [if_pos hmissing] at hverified
        cases hverified
      refine ⟨⟨sink, rfl, reader.readAll_verified hpassing⟩, fun row hrow htask => ?_⟩
      refine (reader.foldl_clean _ _ (append_eq_nil_iff.mp hfailures).1).2 row ?_
      exact (mem_insertionSort _).mpr (mem_filter.mpr ⟨hrow, decide_eq_true htask⟩)

end ArtifactReader

/-! ## What the nodes persist -/

/-- After the last patch there is a completed test run, and the latest one
reported `passed`. -/
def GovernedTest (results : List ToolCallResult) (passed : Bool) : Prop :=
  ∃ before test after, results = before ++ test :: after ∧
    test.completed "run_tests" = true ∧ test.passed = some passed ∧
    ∀ other ∈ after, other.toolName ≠ "apply_patch" ∧ other.completed "run_tests" = false

theorem governedVerdict_eq_some :
    governedVerdict results = some passed ↔ GovernedTest results passed := by
  have htest : ∀ test : ToolCallResult, test.completed "run_tests" = true →
      test.patches = false := by
    intro test htest
    simp only [ToolCallResult.completed, decide_eq_true_eq] at htest
    simp [ToolCallResult.patches, htest.1]
  simp only [governedVerdict, bind_eq_some_iff, latestSince_eq_some]
  constructor
  · rintro ⟨test, ⟨before, after, hresults, hcompleted, -, hafter⟩, hpassed⟩
    refine ⟨before, test, after, hresults, hcompleted, hpassed, fun other hother => ?_⟩
    obtain ⟨hpatch, hother⟩ := hafter other hother
    exact ⟨of_decide_eq_false hpatch, hother⟩
  · rintro ⟨before, test, after, hresults, hcompleted, hpassed, hafter⟩
    refine ⟨test, ⟨before, after, hresults, hcompleted, htest test hcompleted,
      fun other hother => ?_⟩, hpassed⟩
    obtain ⟨hpatch, hother⟩ := hafter other hother
    exact ⟨decide_eq_false hpatch, hother⟩

/-- A reply that the agent loop of a node accepted. -/
structure Acceptance where
  execution : NodeExecution
  state : AgentState (List ToolCallResult)
  running : execution.Running state
  response : ModelResponse NodeAgentOutput
  answers : Nat → GatewayAnswer
  result : AgentRunResult NodeAgentOutput (List ToolCallResult)
  returned : execution.runtime.step state (.response response answers) = .returned result

namespace Acceptance

variable (acceptance : Acceptance)

/-- The tool results of the attempt: of the earlier nodes, then of this one. -/
def results : List ToolCallResult :=
  acceptance.execution.priorResults ++ acceptance.state.dispatcher

def claim : Option Bool :=
  match acceptance.response.parsed with
  | .ok output => output.verificationPassed
  | .error _ => none

def document : Json := acceptance.execution.document acceptance.result

/-- The persisted verdict is `null`, or the one of a governed test run. -/
def Truthful : Prop :=
  persistedClaim acceptance.document = some .null ∨
    ∃ passed, persistedClaim acceptance.document = some (.bool passed) ∧
      GovernedTest acceptance.results passed

/-- The model claims nothing, or the verdict that the results support. -/
def Supported : Prop :=
  acceptance.claim = none ∨ acceptance.claim = governedVerdict acceptance.results

theorem persistedClaim_eq :
    persistedClaim acceptance.document = some (claimValue acceptance.claim) := by
  obtain ⟨response, answers, hexchange, hparsed, -⟩ :=
    acceptance.execution.runtime.step_returned acceptance.returned
  cases hexchange
  have hclaim : acceptance.claim = acceptance.result.output.verificationPassed := by
    simp only [claim, hparsed]
  rw [document, persistedClaim_document, hclaim]

theorem truthful_iff : acceptance.Truthful ↔ acceptance.Supported := by
  simp only [Truthful, Supported, persistedClaim_eq, ← governedVerdict_eq_some]
  cases acceptance.claim with
  | none => simp [claimValue]
  | some passed => simp [claimValue, eq_comm]

end Acceptance

/-- A verdict in this artifact was persisted by a node of the task, from a reply
whose claim the tool results support. -/
def ArtifactReader.Governed (reader : ArtifactReader) (row : ArtifactRow) : Prop :=
  ∀ document, reader.fetch row.id = .ok (some document) → persistedClaim document ≠ none →
    ∃ acceptance : Acceptance, acceptance.Supported ∧
      acceptance.execution.taskId = row.taskId ∧ acceptance.document = document

/-- A persisted verdict is one of a governed test run exactly when the claim of
the model was. Over such artifacts the gate counts no other passing
verification. -/
theorem persisted_verdict_iff (acceptance : Acceptance) (reader : ArtifactReader)
    (artifacts : List ArtifactRow) (tasks : List TaskRow) :
    (acceptance.Truthful ↔ acceptance.Supported) ∧
      ((∀ row ∈ artifacts, reader.Governed row) →
        ∀ t ∈ (reader.readAll artifacts tasks).verifiedTasks, ∃ acceptance : Acceptance,
          acceptance.execution.taskId = t ∧ GovernedTest acceptance.results true) := by
  refine ⟨acceptance.truthful_iff, fun hgoverned t ht => ?_⟩
  obtain ⟨row, hrow, rfl, document, hfetch, hpassing⟩ := reader.readAll_verified ht
  obtain ⟨acceptance, hsupported, htask, rfl⟩ :=
    hgoverned row hrow document hfetch (by simp [hpassing])
  refine ⟨acceptance, htask, ?_⟩
  rcases acceptance.truthful_iff.mpr hsupported with hnull | ⟨passed, hpassed, htest⟩
  · rw [hpassing] at hnull
    cases hnull
  · rw [hpassing] at hpassed
    cases hpassed
    exact htest

def sampleExecutor (node : Node) : NodeExecution where
  taskId := 1
  node := node
  allowedTools := ["read_file", "search_code", "run_tests"]
  primaryModel := "model"
  fallbackModels := []
  estimate := {}
  dispatcher := ⟨fun _ => 0, [], .LOW, fun _ => "", id⟩
  priorResults := []
  memoryIds := []

def sampleTestCall : ModelResponse NodeAgentOutput where
  model := "model"
  toolCalls := [⟨"call", "run_tests", .obj []⟩]
  parsed := .error []

def sampleTestResult : ToolCallResult where
  callId := 0
  toolName := "run_tests"
  status := .COMPLETED
  output := [("passed", .bool false)]
  risk := .LOW
  attempts := 1

variable (claim : Option Bool)

def sampleReply : ModelResponse NodeAgentOutput where
  model := "model"
  parsed := .ok { summary := "done", verificationPassed := claim }

def sampleTested : AgentState (List ToolCallResult) where
  turn := 2
  requestNumber := 1
  attempts := [⟨1, "model", {}, none, [], ["call"]⟩]
  allCalls := [⟨"call", "run_tests", .obj []⟩]
  successfulCalls := ["call"]
  dispatcher := [sampleTestResult]

theorem sampleTested_running : (sampleExecutor .verify).Running sampleTested := by
  refine .next (e := .response sampleTestCall fun _ => .result sampleTestResult) .start trivial ?_
  rfl

/-- Whatever the model claims after the failed tests is accepted. -/
def sampleAcceptance : Acceptance where
  execution := sampleExecutor .verify
  state := sampleTested
  running := sampleTested_running
  response := sampleReply claim
  answers := fun _ => .approvalRequired
  result :=
    { output := { summary := "done", verificationPassed := claim }
      attempts := sampleTested.attempts ++ [⟨2, "model", {}, none, [], []⟩]
      usage := {}, toolCalls := sampleTested.allCalls, dispatcher := [sampleTestResult] }
  returned := rfl

def sampleReader : ArtifactReader where
  fetch := fun _ => .ok (some (sampleAcceptance claim).document)
  str := fun _ => ""

def sampleArtifact : ArtifactRow where
  id := 60
  projectId := 20
  runId := 40
  taskId := 1
  sha256 := ""
  state := .VALID
  storageKey := ""
  sizeBytes := 0
  createdAt := 0
  verifiedAt := some 0

def sampleSink : TaskRow where
  id := 1
  runId := 40
  projectId := 20
  repositoryId := 30
  planRevision := 1
  title := "validate"
  description := "validate"
  taskType := .VALIDATION
  dependencies := []
  priority := 0
  assignedCapability := "verification"
  acceptanceCriteria := []
  allowedTools := ["read_file", "search_code", "run_tests"]
  riskCeiling := .LOW
  estimate := {}
  stateEnteredAt := 0
  createdAt := 0

theorem persisted_verdict_iff_sample :
    (sampleAcceptance (some false)).Truthful ∧ (sampleReader (some false)).Governed sampleArtifact ∧
      ∀ t ∈ ((sampleReader (some false)).readAll [sampleArtifact] [sampleSink]).verifiedTasks,
        ∃ acceptance : Acceptance,
          acceptance.execution.taskId = t ∧ GovernedTest acceptance.results true := by
  have hsupported : (sampleAcceptance (some false)).Supported := .inr rfl
  have hgoverned : (sampleReader (some false)).Governed sampleArtifact := by
    intro document hfetch _
    cases hfetch
    exact ⟨_, hsupported, rfl, rfl⟩
  obtain ⟨htruthful, hcounted⟩ := persisted_verdict_iff (sampleAcceptance (some false))
    (sampleReader (some false)) [sampleArtifact] [sampleSink]
  refine ⟨htruthful.mpr hsupported, hgoverned, hcounted ?_⟩
  intro row hrow
  rwa [mem_singleton.mp hrow]

/-- The tests failed, the model claims that they passed, and the gate has nothing
to object. -/
theorem ungoverned_verdict_passes :
    persistedClaim (sampleAcceptance (some true)).document = some (.bool true) ∧
      governedVerdict (sampleAcceptance (some true)).results = some false ∧
      ¬ (sampleAcceptance (some true)).Truthful ∧
      (sampleReader (some true)).verificationEvidence [sampleArtifact] [sampleSink] =
        .ok ([], [60]) := by
  refine ⟨(sampleAcceptance (some true)).persistedClaim_eq, rfl, ?_, ?_⟩
  · rw [Acceptance.truthful_iff]
    rintro (h | h) <;> cases h
  · rfl

end AutoSwe
