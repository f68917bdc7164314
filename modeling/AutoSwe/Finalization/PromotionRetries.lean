import AutoSwe.Finalization.Dispatchers
import AutoSwe.Lib.Trace

/-!
# Promotion after a crash

`promote` marks the candidate as being promoted, writes it to the memory and completes the promotion
under an event id that the memory and its revision determine. A crash in between is repaired by
promoting again, but not once the promotion has been completed: the candidate is marked again, and
the event is then found to be there (`promotion_survives_iff`).
-/

namespace AutoSwe

open Relational Transaction Coroutine Prog Table List Process Prod

/-! ## Events under one id -/

structure Unused (id : UUID) (db : Database) : Prop where
  audit : ∀ event ∈ db.auditEvents, event.id ≠ id
  outbox : ∀ message ∈ db.outbox, message.eventId ≠ id

/-- Events were added, but none under the id. -/
abbrev GrownPast (id : UUID) : Database → Database → Prop :=
  Grown (fun event => event.id ≠ id) fun message => message.eventId ≠ id

variable {eventId : UUID}

theorem Grown.unused_before (h : Grown P Q db db') (hunused : Unused eventId db') :
    Unused eventId db := by
  obtain ⟨⟨events, haudit, -⟩, messages, houtbox, -⟩ := h
  refine ⟨fun event hmem => hunused.audit event ?_, fun message hmem =>
    hunused.outbox message ?_⟩
  · exact haudit ▸ mem_append_left _ hmem
  · exact houtbox ▸ mem_append_left _ hmem

theorem GrownPast.unused (h : GrownPast eventId db db') (hunused : Unused eventId db) :
    Unused eventId db' := by
  obtain ⟨⟨events, haudit, hevents⟩, messages, houtbox, hmessages⟩ := h
  refine ⟨fun event hmem => ?_, fun message hmem => ?_⟩
  · rw [haudit] at hmem
    exact (mem_append.mp hmem).elim (hunused.audit event) (hevents event)
  · rw [houtbox] at hmem
    exact (mem_append.mp hmem).elim (hunused.outbox message) (hmessages message)

/-- A drawn id is no `uuid5`: the versions of the two differ. -/
structure Draw.Avoids (draw : Draw) (id : UUID) : Prop where
  event : draw.eventId ≠ id
  rollover : draw.rolloverId ≠ id

/-- A write of a graph row and what it publishes. -/
structure GraphStep (eventId : UUID) (db db' : Database) : Prop where
  candidates : db'.memoryCandidates = db.memoryCandidates
  threads : DistinctThreads db → DistinctThreads db'
  events : GrownPast eventId db db'

theorem GraphStep.refl (db : Database) : GraphStep eventId db db := ⟨rfl, id, .refl db⟩

theorem transitionGraphExecution_step {threadId} (hdraw : draw.Avoids eventId)
    (h : (transitionGraphExecution taskId identity threadId target checkpointId draw).run db =
      .ok (row, db')) : GraphStep eventId db db' := by
  obtain ⟨-, -, -, -, haudit, houtbox, _, _, _, hdb'⟩ := transitionGraphExecution_did h
  have hother : ∀ event ∈ graphEvents threadId target identity.runId draw
      (db.graphs.get? taskId) row, event.id ≠ eventId := by
    rintro event hmem rfl
    exact (mem_graphEvents hmem).elim hdraw.event.symm hdraw.rollover.symm
  refine ⟨by rw [hdb'], fun hthreads => hthreads.write h, ⟨_, haudit, hother⟩, _, houtbox, ?_⟩
  intro message hmem
  obtain ⟨event, hevent, rfl⟩ := mem_map.mp hmem
  exact hother event hevent

/-! ## The sessions of a promotion -/

namespace PromotionService

/-- `event_id` of `_complete`. -/
def promotedId (service : PromotionService) (candidate : MemoryCandidate) (revisionId : String) :
    UUID :=
  service.uuid5 namespaceUrl ("autoswe:memory-promoted:" ++
    (service.deterministicMemoryId candidate).str ++ ":" ++ revisionId)

def Promoted (candidate : MemoryCandidate) (db : Database) : Prop :=
  ∃ row, db.memoryCandidates.get? candidate.candidateId = some row ∧ row.status = .PROMOTED

structure Stored (candidate : MemoryCandidate) (db : Database) : Prop where
  row : ∃ row, db.memoryCandidates.get? candidate.candidateId = some row
  threads : DistinctThreads db

variable {service : PromotionService} {candidate : MemoryCandidate} {db db' : Database}

theorem not_promoted (h : db.memoryCandidates.get? candidate.candidateId = some row)
    (hstatus : row.status ≠ .PROMOTED) : ¬ Promoted candidate db := by
  rintro ⟨row', hrow', hpromoted⟩
  rw [h] at hrow'
  cases hrow'
  exact hstatus hpromoted

theorem get?_setCandidate (h : db.memoryCandidates.get? candidate.candidateId = some old)
    (hkey : row.id = candidate.candidateId) :
    (db.setCandidate row).memoryCandidates.get? candidate.candidateId = some row := by
  rw [← hkey] at h ⊢
  exact get?_set_self h

theorem waitForMemory_step (hdraw : draw.Avoids eventId)
    (h : (waitForMemory taskId draw).run db = .ok (u, db')) : GraphStep eventId db db' := by
  have h := after h rfl
  split at h
  · cases h
    exact .refl db
  · split at h
    · obtain ⟨moved, db₁, hmoved, h⟩ := bind_ok.mp h
      cases h
      exact transitionGraphExecution_step hdraw hmoved
    · cases h
      exact .refl db

theorem resumeGraph_step (hdraw : draw.Avoids eventId) (hthreads : DistinctThreads db) :
    ∃ db', (resumeGraph candidateId taskId now draw).run db = .ok ((), db') ∧
      GraphStep eventId db db' := by
  cases hgraph : db.graphs.get? taskId with
  | none =>
    refine ⟨db, ?_, .refl db⟩
    simp [resumeGraph, hgraph]
  | some graph =>
    by_cases hstate : graph.state = .WAITING_FOR_MEMORY
    · obtain rfl : graph.taskId = taskId := key_of_get? hgraph
      -- the stay is recorded before the row is written
      obtain ⟨_, db₁, hstay, hdb₁⟩ : ∃ u db₁, (recordStateDuration "uams" candidateId
          "WAITING_FOR_MEMORY" graph.stateEnteredAt now).run db = .ok (u, db₁) ∧
          ∃ durations, db₁ = { db with stateDurations := durations } := ⟨_, _, rfl, _, rfl⟩
      obtain ⟨durations, rfl⟩ := hdb₁
      have hgraph₁ : ({ db with stateDurations := durations } : Database).graphs.get?
        graph.taskId = some graph := hgraph
      have hlegal : GraphExecutionState.RUNNING ∈ graphExecutionTransitions graph.state := by
        rw [hstate]
        decide
      obtain ⟨moved, db', hmoved⟩ := transitionGraphExecution_advances hgraph₁ (.inr hlegal)
        (hthreads _ _ hgraph) graph.checkpointId draw
      refine ⟨db', ?_, ?_⟩
      · simp only [resumeGraph, Prog.run_bind, run_selectGraphForUpdate, hgraph, hstate, if_true]
        simp only [Prog.discard, hstay, hmoved, Prog.run_bind, Prog.run_pure]
      · obtain ⟨hcandidates, hkeeps, hevents⟩ := transitionGraphExecution_step hdraw hmoved
        have hstay : GrownPast eventId db { db with stateDurations := durations } :=
          .of_same rfl rfl
        exact ⟨hcandidates, fun h => hkeeps h, hstay.trans hevents⟩
    · refine ⟨db, ?_, .refl db⟩
      simp [resumeGraph, hgraph, hstate]

variable (service) in
theorem setLocalState_promoting (hstored : Stored candidate db) :
    ∃ db', (service.setLocalState candidate .PROMOTING none none draw).commit db = (.ok (), db') ∧
      Stored candidate db' ∧ ¬ Promoted candidate db' ∧
      db'.auditEvents = db.auditEvents ∧ db'.outbox = db.outbox := by
  obtain ⟨row, hrow⟩ := hstored.row
  let marked : MemoryCandidateRow := { row with
    status := .PROMOTING
    deterministicMemoryId := some (service.deterministicMemoryId candidate)
    lastError := none }
  have hmarked : (db.setCandidate marked).memoryCandidates.get? candidate.candidateId =
      some marked := get?_setCandidate hrow (key_of_get? hrow :)
  refine ⟨db.setCandidate marked, ?_, ⟨⟨marked, hmarked⟩, hstored.threads⟩,
    not_promoted hmarked (by simp [marked]), rfl, rfl⟩
  refine commit_of_ok ?_
  simp [setLocalState, hrow, marked]

theorem setLocalState_waiting (hstored : Stored candidate db) (hopen : ¬ Promoted candidate db)
    (hdraw : draw.Avoids eventId)
    (hcommit : ((service.setLocalState candidate .WAITING_FOR_MEMORY error revisionId draw).commit
      db).2 = db') :
    Stored candidate db' ∧ ¬ Promoted candidate db' ∧ GrownPast eventId db db' := by
  obtain ⟨row, hrow⟩ := hstored.row
  subst hcommit
  refine (service.setLocalState candidate .WAITING_FOR_MEMORY error revisionId draw).commit_cases db
    ⟨hstored, hopen, .refl db⟩ fun u db' hrun => ?_
  simp only [setLocalState, run_bind, run_query, hrow, run_execute,
    if_true] at hrun
  obtain ⟨hcandidates, hthreads, hevents⟩ := waitForMemory_step hdraw hrun
  have hset : ∀ row, GrownPast eventId db (db.setCandidate row) := fun _ => .of_same rfl rfl
  obtain ⟨waiting, hwaiting, hstatus⟩ : ∃ waiting,
      db'.memoryCandidates.get? candidate.candidateId = some waiting ∧
      waiting.status = .WAITING_FOR_MEMORY := by
    rw [hcandidates]
    exact ⟨_, get?_setCandidate hrow (key_of_get? hrow :), rfl⟩
  exact ⟨⟨⟨waiting, hwaiting⟩, hthreads hstored.threads⟩,
    not_promoted hwaiting (by simp [hstatus]), (hset _).trans hevents⟩

variable (service candidate) in
def promotedEvent (revisionId : String) : AuditEventRow :=
  ⟨service.promotedId candidate revisionId, "memory.promoted", "memory_candidate",
    candidate.candidateId,
    promotedPayload candidate (service.deterministicMemoryId candidate) revisionId,
    candidate.sourceRunId, candidate.candidateId⟩

variable (service candidate) in
def promotedMessage (revisionId : String) : OutboxRow :=
  ⟨service.promotedId candidate revisionId, "memory-promoted",
    promotedPayload candidate (service.deterministicMemoryId candidate) revisionId⟩

variable (service candidate) in
/-- What `_complete` publishes. -/
def announce (revisionId : String) : Session Unit := do
  appendNamedAudit (service.promotedEvent candidate revisionId)
  enqueueNamedEvent (service.promotedMessage candidate revisionId)

theorem announce_ok : (service.announce candidate revisionId).run db = .ok (u, db') ↔
    Unused (service.promotedId candidate revisionId) db ∧ db' = { db with
      auditEvents := db.auditEvents ++ [service.promotedEvent candidate revisionId]
      outbox := db.outbox ++ [service.promotedMessage candidate revisionId] } := by
  constructor
  · intro h
    obtain ⟨_, db₁, haudit, h⟩ := bind_ok.mp h
    obtain ⟨hnew, rfl⟩ := appendNamedAudit_ok.mp haudit
    obtain ⟨hnew', rfl⟩ := enqueueNamedEvent_ok.mp h
    exact ⟨⟨hnew, hnew'⟩, rfl⟩
  · rintro ⟨hunused, rfl⟩
    exact bind_ok.mpr ⟨(), _, appendNamedAudit_ok.mpr ⟨hunused.audit, rfl⟩,
      enqueueNamedEvent_ok.mpr ⟨hunused.outbox, rfl⟩⟩

theorem run_complete (hstored : Stored candidate db) (hopen : ¬ Promoted candidate db)
    (hdraw : draw.Avoids eventId) :
    ∃ db₁, Stored candidate db₁ ∧ Promoted candidate db₁ ∧ GrownPast eventId db db₁ ∧
      (service.complete candidate revisionId now draw).run db =
        (service.announce candidate revisionId).run db₁ := by
  obtain ⟨row, hrow⟩ := hstored.row
  have hstatus : row.status ≠ .PROMOTED := fun h => hopen ⟨row, hrow, h⟩
  let promoted : MemoryCandidateRow := { row with
    status := .PROMOTED, deterministicMemoryId := some (service.deterministicMemoryId candidate),
    revisionId := some revisionId, promotedAt := some now, lastError := none }
  have hpromoted : (db.setCandidate promoted).memoryCandidates.get? candidate.candidateId =
      some promoted := get?_setCandidate hrow (key_of_get? hrow :)
  have hthreads : DistinctThreads (db.setCandidate promoted) := hstored.threads
  have hset : GrownPast eventId db (db.setCandidate promoted) := .of_same rfl rfl
  obtain ⟨db₁, hresumed, hcandidates, hkeeps, hevents⟩ :=
    resumeGraph_step hdraw hthreads
  rw [← hcandidates] at hpromoted
  refine ⟨db₁, ⟨⟨promoted, hpromoted⟩, hkeeps hthreads⟩, ⟨promoted, hpromoted, rfl⟩,
    hset.trans hevents, ?_⟩
  simp only [complete, announce, promotedEvent, promotedMessage, promotedId, run_bind,
    run_query, hrow, hstatus, false_and, if_false, run_execute]
  rw [hresumed]

theorem complete_records
    (h : (service.complete candidate revisionId now draw).run db = .ok (u, db')) :
    ∃ row, db'.memoryCandidates.get? candidate.candidateId = some row ∧
      row.revisionId = some revisionId := by
  have h := after h rfl
  cases hrow : db.memoryCandidates.get? candidate.candidateId with
  | none =>
    simp only [hrow] at h
    cases h
  | some row =>
    simp only [hrow] at h
    split at h
    · rename_i hdone
      cases h
      exact ⟨row, hrow, hdone.2⟩
    · have h := after h rfl
      obtain ⟨_, db₁, hresumed, h⟩ := bind_ok.mp h
      obtain ⟨_, db₂, haudit, h⟩ := bind_ok.mp h
      obtain ⟨-, rfl⟩ := appendNamedAudit_ok.mp haudit
      obtain ⟨-, rfl⟩ := enqueueNamedEvent_ok.mp h
      have hsame := Touches.refines Logs.resumeGraph.writes trivial hresumed .memoryCandidates
        (by decide)
      change ∃ row, db₁.memoryCandidates.get? candidate.candidateId = some row ∧ _
      rw [show db₁.memoryCandidates = _ from hsame]
      exact ⟨_, get?_setCandidate hrow (key_of_get? hrow :), rfl⟩

def Announced (eventId : UUID) (db : Database) : Prop :=
  (db.auditEvents.filter fun event => event.id = eventId).length = 1 ∧
    (db.outbox.filter fun message => message.eventId = eventId).length = 1

theorem Announced.used (h : Announced eventId db) : ¬ Unused eventId db := by
  intro hunused
  have hnone : (db.auditEvents.filter fun event => event.id = eventId) = [] := by
    simpa [filter_eq_nil_iff] using hunused.audit
  simp [Announced, hnone] at h

/-- Completing a promotion succeeds unless its event is there. -/
theorem complete_cases (hid : service.promotedId candidate revisionId = eventId)
    (hstored : Stored candidate db) (hopen : ¬ Promoted candidate db)
    (hdraw : draw.Avoids eventId) :
    (Unused eventId db ∧
      ∃ db', (service.complete candidate revisionId now draw).commit db = (.ok (), db') ∧
        Stored candidate db' ∧ Promoted candidate db' ∧ Announced eventId db') ∨
    (¬ Unused eventId db ∧
      ∃ e, (service.complete candidate revisionId now draw).commit db = (.error e, db)) := by
  subst hid
  obtain ⟨db₁, hstored₁, hpromoted, hgrown, hrun⟩ :=
    run_complete hstored hopen hdraw
  by_cases hunused : Unused (service.promotedId candidate revisionId) db
  · have hunused₁ := GrownPast.unused hgrown hunused
    refine .inl ⟨hunused, _, commit_of_ok (hrun.trans (announce_ok.mpr ⟨hunused₁, rfl⟩)),
      ⟨hstored₁.row, hstored₁.threads⟩, hpromoted, ?_, ?_⟩
    · have hnone : (db₁.auditEvents.filter fun event =>
          event.id = service.promotedId candidate revisionId) = [] := by
        simpa [filter_eq_nil_iff] using hunused₁.audit
      simp [filter_append, hnone, promotedEvent]
    · have hnone : (db₁.outbox.filter fun message =>
          message.eventId = service.promotedId candidate revisionId) = [] := by
        simpa [filter_eq_nil_iff] using hunused₁.outbox
      simp [filter_append, hnone, promotedMessage]
  · cases hannounced : (service.announce candidate revisionId).run db₁ with
    | error e => exact .inr ⟨hunused, e, commit_of_error (hrun.trans hannounced)⟩
    | ok result =>
      obtain ⟨u, db'⟩ := result
      exact absurd (hgrown.unused_before (announce_ok.mp hannounced).1) hunused

end PromotionService

/-! ## Attempts -/

/-- A call of `promote` that a crash ends after so many steps. -/
structure PromotionAttempt where
  answers : Activity → Answer
  steps : Nat

/-- The memory has the revision, and finds it. -/
def Answer.Searchable (answer : Answer) (revisionId : String) : Prop :=
  ∃ receipt, answer.receipt = .ok receipt ∧ receipt.searchable = true ∧
    receipt.revisionId = some revisionId ∧ revisionId ≠ ""

/-- The crash came after the commit of `_complete`. -/
def PromotionAttempt.Completes (attempt : PromotionAttempt) (candidate : MemoryCandidate)
    (revisionId : String) : Prop :=
  3 ≤ attempt.steps ∧ (attempt.answers (.remember candidate)).Searchable revisionId

/-- The database does its work, no drawn id is the given one, and if the memory finds
a revision of the candidate, it is the given one. -/
structure MemorySteady (candidate : MemoryCandidate) (eventId : UUID) (revisionId : String)
    (answers : Activity → Answer) : Prop where
  works : ∀ a, (answers a).failure = none
  draws : ∀ a, (answers a).draw.Avoids eventId
  revision : ∀ found, (answers (.remember candidate)).Searchable found → found = revisionId

namespace RunFinalizationService

open PromotionService (Promoted Stored Announced)

section
variable (service : RunFinalizationService) (candidate : MemoryCandidate)
  (review : PromotionReview)

def attempted : List PromotionAttempt → Platform → Platform
  | [], s => s
  | attempt :: rest, s => attempted rest
      ((service.promote candidate review).cutOff (Activity.act service) attempt.answers
        attempt.steps s)

def StaysPromoted (s s' : Platform) : Prop :=
  Promoted candidate s.db → Promoted candidate s'.db

/-- After the attempts one more call, which nothing ends, promotes the candidate: it
reports so, the event of the revision is stored once, and the candidate has not
left the status at any time. -/
structure Survives (revisionId : String) (attempts : List PromotionAttempt)
    (answers : Activity → Answer) (s : Platform) : Prop where
  promoted : ((service.promote candidate review).runAlone (Activity.act service) answers
    (service.attempted candidate review attempts s)).1 = .ok .PROMOTED
  announced : Announced (service.promotion.promotedId candidate revisionId)
    ((service.promote candidate review).runAlone (Activity.act service) answers
      (service.attempted candidate review attempts s)).2.db
  stays : ∀ before attempt after, attempts ++ [⟨answers, 3⟩] = before ++ attempt :: after →
    (service.promote candidate review).Along (StaysPromoted candidate) (Activity.act service)
      attempt.answers attempt.steps (service.attempted candidate review before s)

/-- What `promote` does once the memory has answered. -/
def settle : Except String MemoryReceipt → Dispatching PromotionOutcome
  | .error unavailable => waitForUams candidate unavailable none
  | .ok receipt =>
    match receipt.revisionId with
    | some revisionId =>
      if receipt.searchable ∧ revisionId ≠ "" then do
        activity (.complete candidate revisionId)
        pure .PROMOTED
      else
        waitForUams candidate ("UAMS revision is not searchable: " ++ receipt.status)
          receipt.revisionId
    | none => waitForUams candidate ("UAMS revision is not searchable: " ++ receipt.status) none

/-- What is left of `promote` once the memory has been asked. -/
abbrev settled (answers : Activity → Answer) : Dispatching PromotionOutcome :=
  settle candidate (answers (.remember candidate)).receipt

end

variable {service : RunFinalizationService} {candidate : MemoryCandidate}
  {review : PromotionReview} {answers : Activity → Answer} {revisionId : String} {s : Platform}

theorem promote_eq (haccepted : service.promotion.gate.evaluate candidate review = []) :
    service.promote candidate review = (do
      activity (.setLocalState candidate .PROMOTING none none)
      let receipt ← activity (.remember candidate)
      settle candidate receipt) := by
  simp only [promote, haccepted]
  refine congrArg _ (funext fun _ => congrArg _ (funext fun receipt => ?_))
  cases receipt <;> rfl

theorem settle_searchable {answer : Answer} (h : answer.Searchable revisionId) :
    settle candidate answer.receipt = (do
      activity (.complete candidate revisionId)
      pure .PROMOTED) := by
  obtain ⟨receipt, hreceipt, hsearchable, hrevision, hsome⟩ := h
  simp [settle, hreceipt, hrevision, hsearchable, hsome]

variable (candidate) in
theorem settle_waiting {answer : Answer} (h : ∀ revisionId, ¬ answer.Searchable revisionId) :
    ∃ error revisionId,
      settle candidate answer.receipt = waitForUams candidate error revisionId := by
  cases hreceipt : answer.receipt with
  | error unavailable => exact ⟨_, _, rfl⟩
  | ok receipt =>
    cases hrevision : receipt.revisionId with
    | none => exact ⟨_, none, by simp only [settle, hrevision]; rfl⟩
    | some revisionId =>
      have hclosed : ¬ (receipt.searchable = true ∧ revisionId ≠ "") :=
        fun ⟨hsearchable, hsome⟩ => h revisionId ⟨receipt, hreceipt, hsearchable, hrevision, hsome⟩
      exact ⟨_, some revisionId, by simp only [settle, hrevision, if_neg hclosed]; rfl⟩

/-- Whatever went on before, a promotion is one of a searchable revision, which is
recorded. -/
theorem promote_records (h : (service.promote candidate review).runAlone (Activity.act service)
      answers s = (.ok .PROMOTED, s')) :
    ∃ revisionId, (answers (.remember candidate)).failure = none ∧
      (answers (.remember candidate)).Searchable revisionId ∧
      ∃ row, s'.db.memoryCandidates.get? candidate.candidateId = some row ∧
        row.revisionId = some revisionId := by
  by_cases haccepted : service.promotion.gate.evaluate candidate review = []
  · rw [promote_eq haccepted] at h
    obtain ⟨_, s₁, -, h⟩ := runAlone_bind_ok.mp h
    obtain ⟨receipt, s₂, hasked, h⟩ := runAlone_bind_ok.mp h
    rw [activity, runAlone_perform] at hasked
    cases hfailure : (answers (.remember candidate)).failure with
    | some error => simp [Activity.act, hfailure] at hasked
    | none =>
      obtain ⟨rfl, rfl⟩ : (answers (.remember candidate)).receipt = receipt ∧ s₁ = s₂ := by
        simpa [Activity.act, hfailure, Activity.start, Activity.carryOut] using hasked
      by_cases hfound : ∃ revisionId, (answers (.remember candidate)).Searchable revisionId
      · obtain ⟨revisionId, hfound⟩ := hfound
        rw [settle_searchable hfound] at h
        obtain ⟨_, s₃, hcompleted, h⟩ := runAlone_bind_ok.mp h
        cases h
        rw [activity, runAlone_perform] at hcompleted
        refine ⟨revisionId, rfl, hfound, ?_⟩
        cases hfailed : (answers (.complete candidate revisionId)).failure with
        | some error => simp [Activity.act, hfailed] at hcompleted
        | none =>
          simp only [Activity.act, hfailed, Activity.start, Activity.carryOut] at hcompleted
          have hrun := Platform.transact_ok (congrArg fst hcompleted)
          rw [hcompleted] at hrun
          exact PromotionService.complete_records hrun
      · obtain ⟨error, revisionId, hwaits⟩ := settle_waiting candidate (not_exists.mp hfound)
        rw [hwaits] at h
        obtain ⟨_, s₃, -, h⟩ := runAlone_bind_ok.mp h
        cases h
  · have hrejected : service.promote candidate review = (do
        activity (.setLocalState candidate .REJECTED (some (String.intercalate ", "
          (service.promotion.gate.evaluate candidate review))) none)
        pure .REJECTED) := by
      unfold promote
      split
      · exact absurd ‹_› haccepted
      · rfl
    rw [hrejected] at h
    obtain ⟨_, s₁, -, h⟩ := runAlone_bind_ok.mp h
    cases h

/-! ## One attempt -/

/-- The candidate of `s` is marked in `s'`, and that is all. -/
structure Marks (candidate : MemoryCandidate) (s s' : Platform) : Prop where
  stored : Stored candidate s'.db
  unpromoted : ¬ Promoted candidate s'.db
  audit : s'.db.auditEvents = s.db.auditEvents
  outbox : s'.db.outbox = s.db.outbox

theorem Marks.grown (h : Marks candidate s s') : Grown P Q s.db s'.db :=
  .of_same h.audit h.outbox

/-- An accepted candidate is marked, the memory is asked, and then the answer counts. -/
theorem promote_marks (haccepted : service.promotion.gate.evaluate candidate review = [])
    (hworks : ∀ a, (answers a).failure = none) (hstored : Stored candidate s.db) :
    ∃ s₁, Marks candidate s s₁ ∧
      (service.promote candidate review).cutOff (Activity.act service) answers 1 s = s₁ ∧
      (∀ n, (service.promote candidate review).cutOff (Activity.act service) answers (n + 2) s =
        (settled candidate answers).cutOff (Activity.act service) answers n s₁) ∧
      (∀ R, (service.promote candidate review).Along R (Activity.act service) answers 1 s ↔
        R s s₁) ∧
      (∀ R n, (service.promote candidate review).Along R (Activity.act service) answers (n + 2) s ↔
        R s s₁ ∧ R s₁ s₁ ∧
          (settled candidate answers).Along R (Activity.act service) answers n s₁) ∧
      (service.promote candidate review).runAlone (Activity.act service) answers s =
        (settled candidate answers).runAlone (Activity.act service) answers s₁ := by
  let mark : Activity := .setLocalState candidate .PROMOTING none none
  obtain ⟨db₁, hcommit, hstored₁, hopen, haudit, houtbox⟩ :=
    PromotionService.setLocalState_promoting service.promotion hstored
  let s₁ : Platform := { s with db := db₁, promotions := s.promotions ++ [candidate.sourceRunId] }
  have hmark : Activity.act service s (answers mark) mark = (.ok (), s₁) := by
    simp only [Activity.act, hworks, mark, Activity.start, Activity.carryOut, Platform.transact]
    rw [hcommit]
  have hask : Activity.act service s₁ (answers (.remember candidate)) (.remember candidate) =
      (.ok (answers (.remember candidate)).receipt, s₁) := by
    simp only [Activity.act, hworks, Activity.start, Activity.carryOut]
  rw [promote_eq haccepted]
  refine ⟨s₁, ⟨hstored₁, hopen, haudit, houtbox⟩, cutOff_ok hmark 0, fun n => ?_,
    fun R => ?_, fun R n => ?_, ?_⟩
  · exact (cutOff_ok hmark (n + 1)).trans (cutOff_ok hask n)
  · exact (along_ok hmark 0).trans (and_iff_left trivial)
  · exact (along_ok hmark (n + 1)).trans (and_congr_right' (along_ok hask n))
  · exact (runAlone_ok hmark).trans (runAlone_ok hask)

variable {attempt : PromotionAttempt} {attempts : List PromotionAttempt} {s' : Platform}

theorem settle_open (hsteady : MemorySteady candidate eventId revisionId answers)
    (hsilent : ∀ found, ¬ (answers (.remember candidate)).Searchable found)
    (hstored : Stored candidate s.db) (hopen : ¬ Promoted candidate s.db) :
    ∃ s', Stored candidate s'.db ∧ ¬ Promoted candidate s'.db ∧ GrownPast eventId s.db s'.db ∧
      (∀ n, (settled candidate answers).cutOff (Activity.act service) answers (n + 1) s = s') ∧
      ∀ R n, (settled candidate answers).Along R (Activity.act service) answers (n + 1) s ↔
        R s s' := by
  obtain ⟨error, revisionId, hsettle⟩ := settle_waiting candidate hsilent
  let wait : Activity := .setLocalState candidate .WAITING_FOR_MEMORY (some error) revisionId
  have hact : (Activity.act service s (answers wait) wait).2.db =
      ((service.promotion.setLocalState candidate .WAITING_FOR_MEMORY (some error) revisionId
        (answers wait).draw).commit s.db).2 := by
    simp only [Activity.act, hsteady.works, wait, Activity.start, Activity.carryOut,
      Platform.transact]
  obtain ⟨hstored', hopen', hgrown⟩ :=
    PromotionService.setLocalState_waiting hstored hopen (hsteady.draws wait) hact.symm
  rw [settled, hsettle]
  exact ⟨_, hstored', hopen', hgrown, fun n => cutOff_last n _,
    fun R n => along_last n _⟩

theorem settle_complete (hid : service.promotion.promotedId candidate revisionId = eventId)
    (hsteady : MemorySteady candidate eventId revisionId answers)
    (hfound : (answers (.remember candidate)).Searchable revisionId)
    (hstored : Stored candidate s.db) (hopen : ¬ Promoted candidate s.db) :
    (Unused eventId s.db ∧ ∃ s',
      Stored candidate s'.db ∧ Promoted candidate s'.db ∧ Announced eventId s'.db ∧
      (∀ n, (settled candidate answers).cutOff (Activity.act service) answers (n + 1) s = s') ∧
      (settled candidate answers).runAlone (Activity.act service) answers s =
        (.ok .PROMOTED, s')) ∨
    (¬ Unused eventId s.db ∧
      (∀ n, (settled candidate answers).cutOff (Activity.act service) answers (n + 1) s = s) ∧
      ∃ e, (settled candidate answers).runAlone (Activity.act service) answers s =
        (.error e, s)) := by
  let finish : Activity := .complete candidate revisionId
  have hact : Activity.act service s (answers finish) finish = s.transact
      (service.promotion.complete candidate revisionId (answers finish).now
        (answers finish).draw) := by
    simp only [Activity.act, hsteady.works, finish, Activity.start, Activity.carryOut]
  rw [settled, settle_searchable hfound]
  rcases PromotionService.complete_cases hid hstored hopen (hsteady.draws finish) with
    ⟨hunused, db', hcommit, hstored', hpromoted, hannounced⟩ | ⟨hused, e, hcommit⟩
  · rw [Platform.transact, hcommit] at hact
    refine .inl ⟨hunused, { s with db := db' }, hstored', hpromoted, hannounced, fun n => ?_, ?_⟩
    · exact (cutOff_last n _).trans (congrArg snd hact)
    · exact runAlone_ok hact
  · rw [Platform.transact, hcommit] at hact
    refine .inr ⟨hused, fun n => ?_, e, ?_⟩
    · exact (cutOff_last n _).trans (congrArg snd hact)
    · exact runAlone_error hact

/-- An attempt keeps the event of the revision, and puts it there if it completes. Cut off
before that, it leaves the promotion open. -/
theorem attempt_leaves (haccepted : service.promotion.gate.evaluate candidate review = [])
    (hid : service.promotion.promotedId candidate revisionId = eventId)
    (hsteady : MemorySteady candidate eventId revisionId attempt.answers)
    (hstored : Stored candidate s.db)
    (hs' : (service.promote candidate review).cutOff (Activity.act service) attempt.answers
      attempt.steps s = s') :
    Stored candidate s'.db ∧
      (¬ Unused eventId s.db ∨ attempt.Completes candidate revisionId → ¬ Unused eventId s'.db) ∧
      (¬ attempt.Completes candidate revisionId → ¬ Promoted candidate s.db →
        ¬ Promoted candidate s'.db ∧ GrownPast eventId s.db s'.db ∧
        (service.promote candidate review).Along (StaysPromoted candidate) (Activity.act service)
          attempt.answers attempt.steps s) := by
  obtain ⟨answers, steps⟩ := attempt
  obtain ⟨s₁, hmarks, hone, hmore, halong, halongs, -⟩ :=
    promote_marks haccepted hsteady.works hstored
  have hmarked : Unused eventId s₁.db → Unused eventId s.db :=
    fun hunused => ⟨hmarks.audit ▸ hunused.audit, hmarks.outbox ▸ hunused.outbox⟩
  have hstay : ¬ Promoted candidate s.db → StaysPromoted candidate s s₁ :=
    fun hopen hpromoted => absurd hpromoted hopen
  -- the cases are the points at which the crash can come
  match steps with
  | 0 =>
    obtain rfl : s = s' := hs'
    refine ⟨hstored, fun hused => hused.resolve_right fun h => absurd h.1 (by simp), ?_⟩
    exact fun _ hopen => ⟨hopen, .refl _, trivial⟩
  | 1 =>
    obtain rfl : s₁ = s' := hone.symm.trans hs'
    refine ⟨hmarks.stored, fun hused hunused => ?_, fun _ hopen => ?_⟩
    · exact hused.elim (· (hmarked hunused)) fun h => absurd h.1 (by simp)
    · exact ⟨hmarks.unpromoted, hmarks.grown, (halong _).mpr (hstay hopen)⟩
  | 2 =>
    obtain rfl : s₁ = s' := (hmore 0).symm.trans hs'
    refine ⟨hmarks.stored, fun hused hunused => ?_, fun _ hopen => ?_⟩
    · exact hused.elim (· (hmarked hunused)) fun h => absurd h.1 (by simp)
    · exact ⟨hmarks.unpromoted, hmarks.grown, (halongs _ 0).mpr ⟨hstay hopen, id, trivial⟩⟩
  | n + 3 =>
    by_cases hfound : (answers (.remember candidate)).Searchable revisionId
    · have hcompletes : PromotionAttempt.Completes ⟨answers, n + 3⟩ candidate revisionId :=
        ⟨Nat.le_add_left 3 n, hfound⟩
      rcases settle_complete hid hsteady hfound hmarks.stored hmarks.unpromoted with
        ⟨-, last, hstored', -, hannounced, hlast, -⟩ | ⟨hthere, hlast, -⟩
      · obtain rfl : last = s' := ((hmore (n + 1)).trans (hlast n)).symm.trans hs'
        exact ⟨hstored', fun _ => hannounced.used, (absurd hcompletes ·)⟩
      · obtain rfl : s₁ = s' := ((hmore (n + 1)).trans (hlast n)).symm.trans hs'
        exact ⟨hmarks.stored, fun _ => hthere, (absurd hcompletes ·)⟩
    · have hsilent : ∀ found, ¬ (answers (.remember candidate)).Searchable found := by
        intro found h
        obtain rfl := hsteady.revision found h
        exact hfound h
      obtain ⟨last, hstored', hopen', hgrown, hlast, halongLast⟩ :=
        settle_open hsteady hsilent hmarks.stored hmarks.unpromoted
      obtain rfl : last = s' := ((hmore (n + 1)).trans (hlast n)).symm.trans hs'
      refine ⟨hstored', fun hused hunused => ?_, fun _ hopen => ⟨hopen',
        hmarks.grown.trans hgrown, (halongs _ (n + 1)).mpr ⟨hstay hopen, id, ?_⟩⟩⟩
      · exact hused.elim (· (hmarked (hgrown.unused_before hunused))) fun h => hfound h.2
      · exact (halongLast _ n).mpr fun hpromoted => absurd hpromoted hmarks.unpromoted

/-! ## Attempt after attempt -/

theorem attempted_leaves (haccepted : service.promotion.gate.evaluate candidate review = [])
    (hid : service.promotion.promotedId candidate revisionId = eventId)
    (hsteady : ∀ attempt ∈ attempts, MemorySteady candidate eventId revisionId attempt.answers)
    (hstored : Stored candidate s.db)
    (hs' : service.attempted candidate review attempts s = s') :
    Stored candidate s'.db ∧
      (¬ Unused eventId s.db ∨ (∃ attempt ∈ attempts, attempt.Completes candidate revisionId) →
        ¬ Unused eventId s'.db) ∧
      ((∀ attempt ∈ attempts, ¬ attempt.Completes candidate revisionId) →
        ¬ Promoted candidate s.db →
          ¬ Promoted candidate s'.db ∧ GrownPast eventId s.db s'.db) := by
  induction attempts generalizing s with
  | nil =>
    obtain rfl : s = s' := hs'
    exact ⟨hstored, fun hused => hused.resolve_right (by simp), fun _ hopen => ⟨hopen, .refl _⟩⟩
  | cons attempt rest ih =>
    simp only [forall_mem_cons] at hsteady ⊢
    obtain ⟨hstored₁, hfirst, hcut⟩ := attempt_leaves haccepted hid hsteady.1 hstored rfl
    obtain ⟨hstored', hrest, hcuts⟩ := ih hsteady.2 hstored₁ hs'
    refine ⟨hstored', fun hused => hrest ?_, fun hcompletes hopen => ?_⟩
    · rw [exists_mem_cons_iff] at hused
      rcases hused with hthere | hcompletes | hlater
      · exact .inl (hfirst (.inl hthere))
      · exact .inl (hfirst (.inr hcompletes))
      · exact .inr hlater
    · obtain ⟨hopen₁, hgrown, -⟩ := hcut hcompletes.1 hopen
      obtain ⟨hopen', hgrown'⟩ := hcuts hcompletes.2 hopen₁
      exact ⟨hopen', hgrown.trans hgrown'⟩

theorem attempted_append (before after : List PromotionAttempt) :
    service.attempted candidate review (before ++ after) s =
      service.attempted candidate review after (service.attempted candidate review before s) := by
  induction before generalizing s with
  | nil => rfl
  | cons attempt rest ih => exact ih

theorem promoted_throughout (hpromoted : Promoted candidate s.db)
    (hstays : ∀ before attempt after, attempts = before ++ attempt :: after →
      (service.promote candidate review).Along (StaysPromoted candidate) (Activity.act service)
        attempt.answers attempt.steps (service.attempted candidate review before s)) :
    Promoted candidate (service.attempted candidate review attempts s).db := by
  induction attempts using reverseRecOn with
  | nil => exact hpromoted
  | append_singleton attempts last ih =>
    have hbefore := ih fun before attempt after hsplit =>
      hstays before attempt (after ++ [last]) (by simp [hsplit])
    rw [attempted_append]
    exact Along.cutOff (R := StaysPromoted candidate) (fun _ => id) (fun h h' => h' ∘ h)
      (hstays attempts last [] rfl) hbefore

/-- A promotion survives just if it was never completed before: the candidate is not
promoted, no event of the revision is there, and no attempt got past `_complete`. -/
theorem promotion_survives_iff (haccepted : service.promotion.gate.evaluate candidate review = [])
    (hstored : Stored candidate s.db)
    (hsteady : ∀ attempt ∈ attempts ++ [⟨answers, 3⟩], MemorySteady candidate
      (service.promotion.promotedId candidate revisionId) revisionId attempt.answers)
    (hfound : (answers (.remember candidate)).Searchable revisionId) :
    service.Survives candidate review revisionId attempts answers s ↔
      ¬ Promoted candidate s.db ∧
      Unused (service.promotion.promotedId candidate revisionId) s.db ∧
      ∀ attempt ∈ attempts, ¬ attempt.Completes candidate revisionId := by
  have hearlier := fun attempt hmem => hsteady attempt (mem_append_left _ hmem)
  have hlast : MemorySteady _ _ _ answers := hsteady ⟨answers, 3⟩ (by simp)
  obtain ⟨hstored', hused, hcuts⟩ := attempted_leaves haccepted rfl hearlier hstored rfl
  obtain ⟨s₁, hmarks, -, -, -, halong, hrun⟩ := promote_marks haccepted hlast.works hstored'
  constructor
  · rintro ⟨hpromoted, -, hstays⟩
    refine ⟨fun hstart => ?_, ?_⟩
    · -- the last call marks the candidate, promoted or not
      have hbefore : Promoted candidate (service.attempted candidate review attempts s).db :=
        promoted_throughout hstart fun before attempt after hsplit =>
          hstays before attempt (after ++ [⟨answers, 3⟩]) (by simp [hsplit])
      obtain ⟨hstay, -⟩ := (halong _ 1).mp (hstays attempts ⟨answers, 3⟩ [] rfl)
      exact hmarks.unpromoted (hstay hbefore)
    · -- with the event there, the last call fails
      by_contra hcontra
      have hthere := hused ((not_and_or.mp hcontra).imp_right fun h => by simpa using h)
      rcases settle_complete rfl hlast hfound hmarks.stored hmarks.unpromoted with
        ⟨hunused, -⟩ | ⟨-, -, e, herror⟩
      · exact hthere ⟨hmarks.audit ▸ hunused.audit, hmarks.outbox ▸ hunused.outbox⟩
      · rw [hrun, herror] at hpromoted
        cases hpromoted
  · rintro ⟨hopen, hunused, hcut⟩
    obtain ⟨hopen', hgrown⟩ := hcuts hcut hopen
    have hunused₁ : Unused (service.promotion.promotedId candidate revisionId) s₁.db :=
      GrownPast.unused (hgrown.trans hmarks.grown) hunused
    rcases settle_complete rfl hlast hfound hmarks.stored hmarks.unpromoted with
      ⟨-, s', -, hpromoted, hannounced, hcutOff, hfinal⟩ | ⟨hthere, -⟩
    · refine ⟨by rw [hrun, hfinal], by rw [hrun, hfinal]; exact hannounced, ?_⟩
      intro before attempt after hsplit
      rcases eq_nil_or_concat after with rfl | ⟨after, last, rfl⟩
      · obtain ⟨rfl, hattempt⟩ := append_inj' hsplit rfl
        cases hattempt
        refine (halong _ 1).mpr ⟨fun h => absurd h hopen', id, ?_⟩
        rw [settled, settle_searchable hfound]
        exact (along_last 0 _).mpr fun h => absurd h hmarks.unpromoted
      · rw [concat_eq_append, ← cons_append, ← append_assoc] at hsplit
        obtain ⟨rfl, -⟩ := append_inj' hsplit rfl
        simp only [forall_mem_append, forall_mem_cons] at hearlier hcut
        obtain ⟨hstored₀, -, hopen₀⟩ := attempted_leaves haccepted rfl hearlier.1 hstored rfl
        obtain ⟨-, -, hattempt⟩ := attempt_leaves haccepted rfl hearlier.2.1 hstored₀ rfl
        exact (hattempt hcut.2.1 (hopen₀ hcut.1 hopen).1).2.2
    · exact absurd hunused₁ hthere

def sampleCandidate : MemoryCandidate where
  candidateId := 90
  projectId := 20
  sourceRunId := 40
  sourceTaskId := 1
  sourceAttemptId := 50
  classification := "procedural"
  content := "note"
  originatingMessageIds := [91]
  artifactHashes := ["hash"]
  verificationCommands := [["git", "rev-parse", "HEAD"]]
  confidence := 1

def sampleProposal : PromotionReview where
  outcomeVerified := true
  artifactEvidenceVerified := true
  verificationPassed := true
  structuralQuality := 1
  evidenceQuality := 1
  sourceKind := "distilled"

def sampleUnpromoted : Platform where
  db := { memoryCandidates := empty.insert { candidate := sampleCandidate, createdAt := 0 } }

def sampleFound : Activity → Answer := fun _ =>
  { draw := { eventId := 7, rolloverId := 8 }, receipt := .ok ⟨true, some "1", "indexed"⟩ }

theorem sample_accepted :
    sampleFinalizer.promotion.gate.evaluate sampleCandidate sampleProposal = [] := by
  decide +kernel

theorem sample_steady : MemorySteady sampleCandidate
    (sampleFinalizer.promotion.promotedId sampleCandidate "1") "1" sampleFound := by
  refine ⟨fun _ => rfl, fun _ => ⟨?_, ?_⟩, ?_⟩
  · change (7 : UUID) ≠ _
    decide +kernel
  · change (8 : UUID) ≠ _
    decide +kernel
  · rintro found ⟨receipt, hreceipt, -, hrevision, -⟩
    cases hreceipt
    cases hrevision
    rfl

theorem sample_stored : Stored sampleCandidate sampleUnpromoted.db :=
  ⟨⟨_, rfl⟩, fun _ _ h => by cases h⟩

/-- The crash came before the promotion was completed. -/
theorem promotion_survives_sample : sampleFinalizer.Survives sampleCandidate sampleProposal "1"
    [⟨sampleFound, 2⟩] sampleFound sampleUnpromoted := by
  refine (promotion_survives_iff sample_accepted sample_stored ?_
    ⟨_, rfl, rfl, rfl, by decide⟩).mpr ⟨?_, ⟨?_, ?_⟩, ?_⟩
  · intro attempt hmem
    simp only [cons_append, nil_append, mem_cons, not_mem_nil, or_false] at hmem
    rcases hmem with rfl | rfl <;> exact sample_steady
  · rintro ⟨row, hrow, hpromoted⟩
    cases hrow
    cases hpromoted
  · simp [sampleUnpromoted]
  · simp [sampleUnpromoted]
  · simp [PromotionAttempt.Completes]

/-- The crash came right after that: the next call fails and leaves the promoted
candidate marked. -/
theorem promotion_repeated_fails :
    let attempts : List PromotionAttempt := [⟨sampleFound, 3⟩]
    let s := sampleFinalizer.attempted sampleCandidate sampleProposal attempts sampleUnpromoted
    let again := (sampleFinalizer.promote sampleCandidate sampleProposal).runAlone
      (Activity.act sampleFinalizer) sampleFound s
    sampleFinalizer.promotion.gate.evaluate sampleCandidate sampleProposal = [] ∧
      (s.db.memoryCandidates.get? 90).map MemoryCandidateRow.status = some .PROMOTED ∧
      again.1 = .error ⟨.integrityError, "audit_events_pkey"⟩ ∧
      (again.2.db.memoryCandidates.get? 90).map MemoryCandidateRow.status = some .PROMOTING := by
  decide +kernel

end RunFinalizationService

end AutoSwe
