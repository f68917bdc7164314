import AutoSwe.Messaging.Store

/-!
# The outbox publisher

A publisher claims due rows under a fresh token and a time limit, publishes each
of them and records the outcome, where every update asks for the token of its
claim. The updates of this module are single transactions on the store; the loop
of `publish_batch` over them is in `Messaging.System`.
-/

namespace AutoSwe.Messaging

open Relational Table List

structure OutboxPublisher where
  publisherId : String
  claimTtl : Time := 30000000
  retryBase : Time := 1000000
  retryMax : Time := 300000000
  maxAttempts : Int := 8

/-- The `WHERE` clause of `_claim`. -/
def OutboxRow.claimable (now : Time) (row : OutboxRow) : Bool :=
  row.publishedAt.isNone && row.deadLetteredAt.isNone && decide (row.nextAttemptAt ≤ now) &&
    row.claimedUntil.all fun until_ => decide (until_ ≤ now)

/-- `ORDER BY created_at, event_id` -/
def claimedBefore (row other : OutboxRow) : Prop :=
  row.createdAt < other.createdAt ∨
    row.createdAt = other.createdAt ∧ row.eventId.int ≤ other.eventId.int

instance : DecidableRel claimedBefore := fun row other =>
  inferInstanceAs (Decidable (row.createdAt < other.createdAt ∨
    row.createdAt = other.createdAt ∧ row.eventId.int ≤ other.eventId.int))

def OutboxRow.claimed (publisher : OutboxPublisher) (token : UUID) (now : Time) (row : OutboxRow) :
    OutboxRow :=
  { row with
    attempts := row.attempts + 1
    publisher := some publisher.publisherId
    claimToken := some token
    claimedUntil := some (now + publisher.claimTtl) }

def OutboxRow.released (row : OutboxRow) : OutboxRow :=
  { row with publisher := none, claimToken := none, claimedUntil := none }

@[simp] theorem OutboxRow.claimed_eventId (publisher : OutboxPublisher) (token : UUID) (now : Time)
    (row : OutboxRow) : (row.claimed publisher token now).eventId = row.eventId := rfl

@[simp] theorem OutboxRow.released_eventId (row : OutboxRow) :
    row.released.eventId = row.eventId := rfl

def OutboxRow.carries (event : ClaimedEvent) (row : OutboxRow) : Bool :=
  decide (row.eventId = event.eventId ∧ row.claimToken = some event.claimToken)

namespace Store

/-- The rows that a claim would take if it had no limit, in their order. -/
def dueEvents (s : Store) (now : Time) : List OutboxRow :=
  (s.outbox.rows.filter (·.claimable now)).insertionSort claimedBefore

def selectDue (s : Store) (limit : Int) (now : Time) : List OutboxRow :=
  if limit < 1 then [] else (s.dueEvents now).take limit.toNat

end Store

namespace OutboxPublisher

variable (publisher : OutboxPublisher)

/-- `_claim`; `tokens` are the drawn claim tokens. -/
def claim (limit : Int) (now : Time) (tokens : UUID → UUID) (s : Store) :
    List ClaimedEvent × Store :=
  let rows := s.selectDue limit now
  let events := rows.map fun row => (⟨row.eventId, row.topic, row.payload, row.attempts + 1,
    tokens row.eventId⟩ : ClaimedEvent)
  (events, { s with
    outbox := s.outbox.updateWhere (fun row => decide (row.eventId ∈ rows.map (·.eventId)))
      (fun row => row.claimed publisher (tokens row.eventId) now)
      fun row => row.claimed_eventId publisher (tokens row.eventId) now
    history := { s.history with claims := s.history.claims ++ events } })

variable (event : ClaimedEvent)

def markPublished (now : Time) (s : Store) : Bool × Store :=
  let current (row : OutboxRow) := row.carries event && row.publishedAt.isNone
  (s.outbox.rows.any current, { s with
    outbox := s.outbox.updateWhere current
      (fun row => { row with publishedAt := some now, lastError := none }.released)
      fun _ => OutboxRow.released_eventId _ })

def retryDelay (attempt : Nat) : Time :=
  min (publisher.retryBase * 2 ^ (attempt - 1)) publisher.retryMax

/-- The transaction of `_mark_failed` for an event that is tried again. -/
def retryLater (error : String) (now : Time) (s : Store) : Bool × Store :=
  (s.outbox.rows.any (·.carries event), { s with
    outbox := s.outbox.updateWhere (·.carries event)
      (fun row => { row with
        nextAttemptAt := now + publisher.retryDelay event.attempt
        lastError := some (errorColumn error) }.released)
      fun _ => OutboxRow.released_eventId _ })

/-- The name under which a publisher records dead letters. -/
def deadLetterConsumer : String := "outbox:" ++ publisher.publisherId

/-- `_dead_letter`: the update of the row asks for the claim, the insertion of the
dead letter does not. -/
def deadLetter (error : String) (now : Time) (id : UUID) (s : Store) : Store :=
  { s with
    outbox := s.outbox.updateWhere (·.carries event)
      (fun row => { row with
        deadLetteredAt := some now
        lastError := some (errorColumn error) }.released)
      fun _ => OutboxRow.released_eventId _
    deadLetters := s.deadLetters.insert {
      id, eventId := event.eventId, consumer := publisher.deadLetterConsumer
      topic := event.topic, payload := event.payload, attempts := event.attempt
      lastError := errorColumn error, causationChain := [event.eventId.str] } }

end OutboxPublisher

def requeue (eventId : UUID) (now : Time) (s : Store) : Bool × Store :=
  (s.outbox.rows.any fun row => decide (row.eventId = eventId), { s with
    outbox := s.outbox.updateWhere (fun row => decide (row.eventId = eventId))
      (fun row => { row with publishedAt := none, nextAttemptAt := now }.released)
      fun _ => OutboxRow.released_eventId _ })

/-! ## What a claim takes -/

theorem OutboxRow.claimable_iff {row : OutboxRow} : row.claimable now = true ↔
    row.publishedAt = none ∧ row.deadLetteredAt = none ∧ row.nextAttemptAt ≤ now ∧
      ∀ until_, row.claimedUntil = some until_ → until_ ≤ now := by
  cases h : row.claimedUntil <;> simp [OutboxRow.claimable, h, and_assoc]

namespace Store

theorem eventId_of_get? {s : Store} (h : s.outbox.get? k = some row) : row.eventId = k :=
  (get?_eq_some.mp h).2

theorem mem_dueEvents {s : Store} :
    row ∈ s.dueEvents now ↔
      s.outbox.get? row.eventId = some row ∧ row.claimable now = true := by
  rw [dueEvents, mem_insertionSort, mem_filter, get?_eq_some]
  simp

theorem selectDue_sublist (s : Store) (limit : Int) (now : Time) :
    (s.selectDue limit now).Sublist (s.dueEvents now) := by
  unfold selectDue
  split
  · exact nil_sublist _
  · exact take_sublist _ _

theorem selectDue_all {s : Store} (h : ((s.dueEvents now).length : Int) ≤ limit) :
    s.selectDue limit now = s.dueEvents now := by
  unfold selectDue
  split
  · have hnone : (s.dueEvents now).length = 0 := by omega
    exact (length_eq_zero_iff.mp hnone).symm
  · exact take_of_length_le (by omega)

end Store

theorem OutboxPublisher.mem_claim {publisher : OutboxPublisher} :
    (∃ event ∈ (publisher.claim limit now tokens s).1, event.eventId = k) ↔
      ∃ row ∈ s.selectDue limit now, row.eventId = k := by
  simp [OutboxPublisher.claim]

theorem requeue_row (h : s.outbox.get? k = some row) (now : Time) :
    (requeue k now s).2.outbox.get? k =
      some { row with publishedAt := none, nextAttemptAt := now }.released := by
  have hkey := Store.eventId_of_get? h
  rw [requeue, get?_updateWhere, h, Option.map_some, if_pos (by simp [hkey])]

/-- A requeued row is claimable at every later time, unless it is parked:
`requeue` leaves `dead_lettered_at` as it is. -/
theorem requeued_claimable {row : OutboxRow} (h : now ≤ later) :
    OutboxRow.claimable later { row with publishedAt := none, nextAttemptAt := now }.released =
      true ↔ row.deadLetteredAt = none := by
  simp [OutboxRow.claimable_iff, OutboxRow.released, h]

/-- `requeue` reports that it found the event. A claim at any later time that is
not cut short by its limit takes the event exactly if it is not dead-lettered. -/
theorem requeue_effective_iff (publisher : OutboxPublisher) (s : Store) (k : UUID)
    (now later : Time) (limit : Int) (tokens : UUID → UUID)
    (hrow : s.outbox.get? k = some row) (hlater : now ≤ later)
    (hlimit : (((requeue k now s).2.dueEvents later).length : Int) ≤ limit) :
    (requeue k now s).1 = true ∧
      ((∃ event ∈ (publisher.claim limit later tokens (requeue k now s).2).1, event.eventId = k) ↔
        row.deadLetteredAt = none) := by
  have hkey := Store.eventId_of_get? hrow
  constructor
  · rw [requeue, any_eq_true]
    exact ⟨row, mem_of_get? hrow, by simp [hkey]⟩
  rw [OutboxPublisher.mem_claim, Store.selectDue_all hlimit, ← requeued_claimable hlater]
  have hafter := requeue_row hrow now
  constructor
  · rintro ⟨due, hdue, hk⟩
    obtain ⟨hget, hclaimable⟩ := Store.mem_dueEvents.mp hdue
    rw [hk, hafter] at hget
    cases hget
    exact hclaimable
  · intro hclaimable
    refine ⟨_, Store.mem_dueEvents.mpr ⟨?_, hclaimable⟩, hkey⟩
    exact (congrArg _ hkey).trans hafter

def sampleEvent : AutoSwe.OutboxRow := ⟨1, "task-state", .obj [("task_id", .str "t")]⟩

def sampleEnqueued : Store := (enqueueEvent sampleEvent 0 {}).getD {}

def samplePublisher : OutboxPublisher := { publisherId := "p", maxAttempts := 1 }

/-- The publication of the sample event failed, and the publisher parked it. -/
def sampleDeadLettered : Store :=
  let (events, claimed) := samplePublisher.claim 10 0 (fun _ => 7) sampleEnqueued
  events.foldl (fun s event => samplePublisher.deadLetter event "refused" 1 8 s) claimed

/-- The sample event is delayed by nothing but its time. -/
theorem requeue_effective_iff_sample :
    (∃ row, sampleEnqueued.outbox.get? 1 = some row ∧ row.deadLetteredAt = none) ∧
      ∃ event ∈ (samplePublisher.claim 1 6 (fun _ => 7) (requeue 1 5 sampleEnqueued).2).1,
        event.eventId = 1 := by
  have hrow : (sampleEnqueued.outbox.get? 1).any fun row => row.deadLetteredAt.isNone := by
    decide +kernel
  obtain ⟨row, hget, hopen⟩ := Option.any_eq_true _ _ |>.mp hrow
  have hnone : row.deadLetteredAt = none := Option.isNone_iff_eq_none.mp hopen
  refine ⟨⟨row, hget, hnone⟩, ?_⟩
  exact (requeue_effective_iff samplePublisher sampleEnqueued 1 5 6 1 (fun _ => 7) hget (by decide)
    (by decide +kernel)).2.mpr hnone

/-- The parked event is found by `requeue`, and is not due at any time after. -/
theorem requeue_of_parked_event : (requeue 1 5 sampleDeadLettered).1 = true ∧
    ((requeue 1 5 sampleDeadLettered).2.dueEvents 6).length = 0 ∧
      (samplePublisher.claim 1 6 (fun _ => 9) (requeue 1 5 sampleDeadLettered).2).1.length = 0 := by
  decide +kernel

end AutoSwe.Messaging
