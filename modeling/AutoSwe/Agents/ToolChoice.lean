import AutoSwe.Agents.Budgets

/-!
# The tools a request offers

The loop offers `apply_patch` until a patch has succeeded, and `run_tests` until the
tests have run since. It knows a success by the id that the model gave the call.
-/

namespace AutoSwe

open List

namespace AgentRuntime

variable {Output D A : Type} (rt : AgentRuntime Output D A)

/-! ## Calls and their results -/

def results (s : AgentState D) : Exchange Output A → List (ToolCall × Json)
  | .response response answers => rt.dispatches answers response.toolCalls.zipIdx s.dispatcher
  | _ => []

/-- The state at the head of the loop after some exchanges, and the calls that were
dispatched until then. -/
def conversation : List (Exchange Output A) → AgentState D →
    Option (AgentState D × List (ToolCall × Json))
  | [], s => some (s, [])
  | x :: rest, s => do
    let next ← rt.next s x
    let (last, log) ← conversation rest next
    pure (last, rt.results s x ++ log)

/-- The loop has these calls, and these successes. -/
structure Remembers (s : AgentState D) (log : List (ToolCall × Json)) : Prop where
  calls : s.allCalls = log.map Prod.fst
  successful : s.successfulCalls = successes log

theorem Remembers.extend (h : Remembers s log)
    (hcalls : s'.allCalls = s.allCalls ++ new.map Prod.fst)
    (hsuccessful : s'.successfulCalls = s.successfulCalls ++ successes new) :
    Remembers s' (log ++ new) where
  calls := by rw [hcalls, h.calls, map_append]
  successful := by rw [hsuccessful, h.successful, successes_append]

theorem Remembers.step (hs : Remembers s log) (h : rt.step s x = .continued s') :
    Remembers s' (log ++ rt.results s x) := by
  have hcases := rt.step_cases s x
  rw [h] at hcases
  cases hcases with
  | retried | fellBack => exact hs.extend (append_nil _).symm (append_nil _).symm
  | dispatched _ _ _ hdispatched =>
    rw [rt.dispatchTools_ok hdispatched]
    exact hs.extend rfl rfl
  | rejected _ hnone =>
    rw [results, hnone]
    exact hs.extend (append_nil _).symm (append_nil _).symm

theorem Remembers.conversation (hs : Remembers s log)
    (h : rt.conversation exchanges s = some (s', log')) : Remembers s' (log ++ log') := by
  induction exchanges generalizing s log log' with
  | nil =>
    cases h
    exact hs.extend (append_nil _).symm (append_nil _).symm
  | cons x rest ih =>
    obtain ⟨next, hnext, h⟩ := Option.bind_eq_some_iff.mp h
    obtain ⟨⟨last, more⟩, hrest, h⟩ := Option.bind_eq_some_iff.mp h
    cases h
    rw [← append_assoc]
    exact ih (hs.step rt (rt.step_of_next hnext)) hrest

theorem conversation_remembers
    (h : rt.conversation exchanges { dispatcher } = some (s, log)) : Remembers s log := by
  have hstart : Remembers { dispatcher } [] := ⟨rfl, rfl⟩
  exact hstart.conversation rt h

/-! ## Successes -/

theorem mem_successes :
    callId ∈ successes log ↔ ∃ entry ∈ log, entry.1.callId = callId ∧ succeeded entry.2 := by
  simp only [successes, mem_map, mem_filter, and_assoc]
  exact exists_congr fun entry => and_congr_right fun _ => and_comm

/-- A call of the tool has the id of a call that succeeded. -/
def Counts (log : List (ToolCall × Json)) (name : String) : Prop :=
  ∃ entry ∈ log, entry.1.name = name ∧ entry.1.callId ∈ successes log

theorem lastSuccess_isSome (h : Remembers s log) (name : String) :
    (lastSuccess s name).isSome ↔ Counts log name := by
  have hsome : (lastSuccess s name).isSome ↔
      ∃ call ∈ s.allCalls, call.name = name ∧ call.callId ∈ s.successfulCalls := by
    rw [lastSuccess, Option.isSome_map, getLast?_isSome, ne_eq, filter_eq_nil_iff]
    simp [mem_iff_getElem?]
  rw [hsome, h.calls, h.successful]
  simp [Counts]

/-- A tool counts as done exactly if one of its calls succeeded, if and only if this holds
whenever one of its calls has the id of a call that succeeded. -/
theorem counts_done_iff (dispatcher : D) (exchanges : List (Exchange Output A))
    (h : rt.conversation exchanges { dispatcher } = some (s, log)) (name : String) :
    ((lastSuccess s name).isSome ↔ ∃ entry ∈ log, entry.1.name = name ∧ succeeded entry.2) ↔
      ∀ entry ∈ log, entry.1.name = name → ∀ other ∈ log, other.1.callId = entry.1.callId →
        succeeded other.2 → ∃ own ∈ log, own.1.name = name ∧ succeeded own.2 := by
  rw [lastSuccess_isSome (rt.conversation_remembers h)]
  constructor
  · intro hiff entry hentry hname other hother hid hsucceeded
    exact hiff.mp ⟨entry, hentry, hname, mem_successes.mpr ⟨other, hother, hid, hsucceeded⟩⟩
  · intro hown
    constructor
    · rintro ⟨entry, hentry, hname, hid⟩
      obtain ⟨other, hother, hid, hsucceeded⟩ := mem_successes.mp hid
      exact hown entry hentry hname other hother hid hsucceeded
    · rintro ⟨entry, hentry, hname, hsucceeded⟩
      exact ⟨entry, hentry, hname, mem_successes.mpr ⟨entry, hentry, rfl, hsucceeded⟩⟩

/-! ## After a test run -/

/-- The tests ran and did not pass. -/
def TestsFailed (entry : ToolCall × Json) : Prop :=
  entry.1.name = "run_tests" ∧ (entry.2.get? "output").bind (·.get? "passed") = some (.bool false)

theorem patch_mem_activeTools (hgranted : "apply_patch" ∈ rt.spec.toolGrants)
    (hdefined : "apply_patch" ∈ rt.toolDefinitions) (s : AgentState D) :
    "apply_patch" ∈ rt.activeTools s ↔ s.lastRepairInstructions.any (mentions "apply_patch") ∨
      ¬ s.lastRepairInstructions.any (mentions "run_tests") ∧
        ¬ (lastSuccess s "apply_patch").isSome ∧ (hasReads s ∨ hasTests s) := by
  have hmem : ∀ names, "apply_patch" ∈ rt.definitionsIn names ↔ "apply_patch" ∈ names := by
    simp [definitionsIn, hdefined]
  rw [activeTools, if_neg (ne_nil_of_mem hdefined)]
  split
  · simp_all
  · split
    · simp_all
    · split
      · split <;> simp_all
      · split <;> simp_all

/-- After a failed test run, a request offers `apply_patch` if and only if an instruction asks for
it, or none asks for the tests, no patch counts as done, and there is something to go by. -/
theorem offers_patch_iff (hgranted : "apply_patch" ∈ rt.spec.toolGrants)
    (hdefined : "apply_patch" ∈ rt.toolDefinitions) (dispatcher : D)
    (exchanges : List (Exchange Output A))
    (h : rt.conversation exchanges { dispatcher } = some (s, log))
    (hlast : log = earlier ++ [entry]) (hfailed : TestsFailed entry)
    (hrequest : rt.request s = .ok asked) :
    "apply_patch" ∈ asked.tools ↔ s.lastRepairInstructions.any (mentions "apply_patch") ∨
      ¬ s.lastRepairInstructions.any (mentions "run_tests") ∧ ¬ Counts log "apply_patch" ∧
        (succeeded entry.2 ∨ Counts log "run_tests" ∨
          ∃ read ∈ log, read.1.name ∈ ["read_file", "search_code"]) := by
  have hs := rt.conversation_remembers h
  have htools : asked.tools = rt.activeTools s := by
    unfold request at hrequest
    split at hrequest
    · cases hrequest
    · split at hrequest <;> cases hrequest
      rfl
  have hreads : hasReads s ↔ ∃ read ∈ log, read.1.name ∈ ["read_file", "search_code"] := by
    simp [hasReads, hs.calls]
  have hrun : succeeded entry.2 → Counts log "run_tests" := by
    intro hsucceeded
    have hentry : entry ∈ log := by simp [hlast]
    exact ⟨entry, hentry, hfailed.1, mem_successes.mpr ⟨entry, hentry, rfl, hsucceeded⟩⟩
  rw [htools, rt.patch_mem_activeTools hgranted hdefined]
  refine or_congr_right (and_congr_right fun _ => ?_)
  rw [← lastSuccess_isSome hs, ← lastSuccess_isSome hs, ← hreads]
  rw [← lastSuccess_isSome hs] at hrun
  refine and_congr_right fun hnone => ?_
  have htests : hasTests s = (lastSuccess s "run_tests").isSome := by
    unfold hasTests
    rw [Option.not_isSome_iff_eq_none.mp hnone]
    cases lastSuccess s "run_tests" <;> rfl
  rw [htests]
  tauto

end AgentRuntime

def sampleFailingTest (callId : String) : Exchange Unit Json :=
  sampleUse callId "run_tests" (.obj [("output", .obj [("passed", .bool false)])])

def sampleChecked : AgentState Unit where
  turn := 2
  requestNumber := 1
  attempts := [{ turn := 1, model := "model", usage := {}, toolCallIds := ["a"] }]
  allCalls := [⟨"a", "run_tests", .obj []⟩]
  successfulCalls := ["a"]
  dispatcher := ()

def sampleEntry : ToolCall × Json :=
  (⟨"a", "run_tests", .obj []⟩, .obj [("output", .obj [("passed", .bool false)])])

theorem sampleChecked_conversation : sampleTester.conversation [sampleFailingTest "a"]
    { dispatcher := () } = some (sampleChecked, [sampleEntry]) := rfl

theorem counts_done_iff_sample : (AgentRuntime.lastSuccess sampleChecked "run_tests").isSome ↔
    ∃ entry ∈ [sampleEntry], entry.1.name = "run_tests" ∧ AgentRuntime.succeeded entry.2 :=
  (sampleTester.counts_done_iff () _ sampleChecked_conversation "run_tests").mpr
    fun entry hentry hname _ _ _ _ => ⟨entry, hentry, hname, mem_singleton.mp hentry ▸ rfl⟩

theorem offers_patch_iff_sample : ∃ asked, sampleTester.request sampleChecked = .ok asked ∧
    AgentRuntime.TestsFailed sampleEntry ∧ "apply_patch" ∈ asked.tools :=
  ⟨_, rfl, ⟨rfl, rfl⟩, (sampleTester.offers_patch_iff (by decide) (by decide) () _
    sampleChecked_conversation (nil_append [sampleEntry]).symm ⟨rfl, rfl⟩ rfl).mpr
      (.inr ⟨by decide, by simp [AgentRuntime.Counts, sampleEntry], .inl rfl⟩)⟩

/-- The agent patches the code, the tests fail, and the next request offers no tool. -/
theorem offers_nothing_after_failed_tests :
    ((sampleTester.after [sampleUse "a" "apply_patch" (.obj []), sampleFailingTest "b"]
      { dispatcher := () }).bind fun s => (sampleTester.request s).toOption.map (·.tools)) =
      some [] := by
  decide +kernel

/-- A patch fails under the id of a read that succeeds, and counts as done. -/
theorem counts_failed_patch :
    ((sampleTester.conversation [sampleUse "a" "apply_patch" (.obj [("error", .str "e")]),
      sampleUse "a" "read_file" (.obj [])] { dispatcher := () }).map fun (s, log) =>
        ((AgentRuntime.lastSuccess s "apply_patch").isSome,
          log.map fun entry => (entry.1.name, AgentRuntime.succeeded entry.2))) =
      some (true, [("apply_patch", false), ("read_file", true)]) := by
  decide +kernel

end AutoSwe
