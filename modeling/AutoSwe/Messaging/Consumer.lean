import AutoSwe.Messaging.Store

/-!
# The delivery consumer

A delivery claims the receipt of its group and event and runs the handler in one
transaction; a failure is counted in another. `sweep_stalled` dead-letters the
deliveries whose retry is overdue, and `replay_dead_letter` enqueues what a dead
letter holds under a new event id.
-/

namespace Json

/-- The values that a `for` statement goes through; `TypeError` for what is not
iterable. -/
def iterate : Json → Except String (List Json)
  | .arr items => .ok items
  | .str text => .ok (text.toList.map fun c => .str (String.ofList [c]))
  | .obj fields => .ok (fields.map fun field => .str field.1)
  | .null => .error "\x27NoneType\x27 object is not iterable"
  | .bool _ => .error "\x27bool\x27 object is not iterable"
  | .num _ => .error "\x27int\x27 object is not iterable"
  | .float _ => .error "\x27float\x27 object is not iterable"

/-- `{**document, key: value}`; the order of the keys of an object means nothing. -/
def updated (document : Json) (key : String) (value : Json) : Json :=
  match document with
  | .obj fields => .obj (fields.filter (fun field => field.1 ≠ key) ++ [(key, value)])
  | _ => .obj [(key, value)]

end Json

namespace AutoSwe

namespace Messaging

open Relational

structure DeliveryRetryPolicy where
  maxAttempts : Int := 8
  baseDelay : Time := 1000000
  maxDelay : Time := 300000000
  jitter : Bool := true

/-- `delay_for`; `uniform` is what the generator draws up to a ceiling. -/
def DeliveryRetryPolicy.delayFor (policy : DeliveryRetryPolicy) (attempt : Nat)
    (uniform : Time → Time) : Time :=
  let candidate := policy.baseDelay * 2 ^ (attempt - 1)
  let ceiling := if candidate ≤ policy.maxDelay then candidate else policy.maxDelay
  if policy.jitter then uniform ceiling else ceiling

structure DeliveryConsumer where
  stream : String
  group : String
  consumer : String
  retryPolicy : DeliveryRetryPolicy := {}

/-- `causation_chain`; `uuidOf` is `UUID(str(value))` where that does not raise. -/
def causationChain (uuidOf : Json → Option UUID) (eventId : UUID) (payload : Json) :
    Except String (List UUID) := do
  let values ← ((payload.get? "causation_chain").getD (.arr [])).iterate
  let result := (values.filterMap uuidOf).foldl
    (fun result parsed => if parsed ∈ result then result else result ++ [parsed]) []
  pure (if eventId ∈ result then result else result ++ [eventId])

def claimConsumerReceipt (consumer : String) (eventId : UUID) (s : Store) : Bool × Store :=
  match s.receipts.get? (consumer, eventId) with
  | some _ => (false, s)
  | none => (true, { s with receipts := s.receipts.insert ⟨consumer, eventId⟩ })

def ConsumerDeliveryRow.stalled (horizon : Time) (row : ConsumerDeliveryRow) : Bool :=
  decide (row.status = .RETRY ∧ row.nextAttemptAt ≤ horizon)

namespace DeliveryConsumer

variable (consumer : DeliveryConsumer)

def isDeferred (eventId : UUID) (now : Time) (s : Store) : Bool :=
  (s.deliveries.get? (consumer.group, eventId)).any fun delivery =>
    decide (delivery.status = .RETRY ∧ now < delivery.nextAttemptAt)

/-- The first transaction of `process`: whether the event was new, or what the
handler raised. -/
def applyEvent (record : RedisStreamRecord) (handlerError : Option String) (s : Store) :
    Except String Bool × Store :=
  match claimConsumerReceipt consumer.group record.eventId s with
  | (false, _) => (.ok false, s)
  | (true, claimed) =>
    match handlerError with
    | some error => (.error error, s)
    | none => (.ok true, { claimed with
        history := { claimed.history with
          effects := claimed.history.effects ++ [(consumer.group, record.eventId)] } })

/-- The upsert of `_record_failure`. -/
def countFailure (record : RedisStreamRecord) (error : String) (now : Time) (s : Store) :
    ConsumerDeliveryRow :=
  match s.deliveries.get? (consumer.group, record.eventId) with
  | none =>
    { consumer := consumer.group, eventId := record.eventId, topic := record.topic, attempts := 1
      status := .RETRY, nextAttemptAt := now, lastError := errorColumn error }
  | some row => { row with attempts := row.attempts + 1, lastError := errorColumn error }

/-- `_record_failure`; `id` is the id of a new dead letter. -/
def recordFailure (uuidOf : Json → Option UUID) (record : RedisStreamRecord) (error : String)
    (now : Time) (id : UUID) (uniform : Time → Time) (s : Store) : Except String Nat × Store :=
  let delivery := consumer.countFailure record error now s
  let history := { s.history with
    failures := s.history.failures ++ [(consumer.group, record.eventId)] }
  if consumer.retryPolicy.maxAttempts ≤ delivery.attempts then
    match causationChain uuidOf record.eventId record.payload with
    | .error raised => (.error raised, s)
    | .ok chain => (.ok delivery.attempts, { s with
        deliveries := s.deliveries.put
          { delivery with status := .DEAD_LETTERED, nextAttemptAt := now }
        deadLetters := s.deadLetters.insert {
          id, eventId := record.eventId, consumer := consumer.consumer, topic := record.topic
          payload := record.payload, attempts := delivery.attempts
          lastError := delivery.lastError, causationChain := chain.map UUID.str }
        history })
  else
    (.ok delivery.attempts, { s with
      deliveries := s.deliveries.put
        { delivery with
          status := .RETRY
          nextAttemptAt := now + consumer.retryPolicy.delayFor delivery.attempts uniform }
      history })

/-- What `sweep_stalled` makes of a delivery. -/
def swept (row : ConsumerDeliveryRow) : ConsumerDeliveryRow :=
  { row with
    status := .DEAD_LETTERED
    attempts := max row.attempts consumer.retryPolicy.maxAttempts.toNat }

theorem swept_key (row : ConsumerDeliveryRow) :
    ((consumer.swept row).consumer, (consumer.swept row).eventId) = (row.consumer, row.eventId) :=
  rfl

/-- The dead letter of `sweep_stalled`. -/
def stalledLetter (id : UUID) (row : ConsumerDeliveryRow) : DeadLetterRow :=
  { id, eventId := row.eventId, consumer := consumer.consumer, topic := row.topic
    payload := .obj [], attempts := max row.attempts consumer.retryPolicy.maxAttempts.toNat
    lastError := "stalled in RETRY past its backoff horizon: " ++
      (if row.lastError = "" then "unknown" else row.lastError)
    causationChain := [row.eventId.str] }

/-- The deliveries of all groups that a sweep selects. -/
def stalledDeliveries (now : Time) (s : Store) : List ConsumerDeliveryRow :=
  s.deliveries.rows.filter (·.stalled (now - consumer.retryPolicy.maxDelay))

/-- `sweep_stalled`; `ids` are the ids of the new dead letters. -/
def sweepStalled (now : Time) (ids : Subscription → UUID) (s : Store) : Nat × Store :=
  let stalled := consumer.stalledDeliveries now s
  (stalled.length, { s with
    deliveries := s.deliveries.updateWhere (·.stalled (now - consumer.retryPolicy.maxDelay))
      consumer.swept consumer.swept_key
    deadLetters := stalled.foldl (fun letters row =>
      letters.insert (consumer.stalledLetter (ids (row.consumer, row.eventId)) row))
      s.deadLetters })

end DeliveryConsumer

def replayMarker : String := "replayed_dead_letter_id"

/-- `replay_dead_letter`; `eventId` is the drawn id of the new event. -/
def replayDeadLetter (deadLetterId eventId : UUID) (now : Time) (s : Store) :
    Except Raised Store :=
  match s.deadLetters.rows.find? fun row => decide (row.id = deadLetterId) with
  | none => .error ⟨.httpException, "404: dead letter not found"⟩
  | some row =>
    if row.resolvedAt.isSome then .ok s
    else
      let event : AutoSwe.OutboxRow :=
        ⟨eventId, row.topic, row.payload.updated replayMarker (.str row.id.str)⟩
      match enqueueEvent event now s with
      | none => .error ⟨.integrityError, "duplicate key value violates unique constraint"⟩
      | some enqueued => .ok { enqueued with
          deadLetters := enqueued.deadLetters.set { row with resolvedAt := some now }
          history := { enqueued.history with
            origin := Function.update enqueued.history.origin eventId
              (enqueued.history.origin row.eventId) } }

/-! ## What the transactions of a delivery leave -/

/-- The outcomes of the first transaction of `process`. -/
inductive Applied (consumer : DeliveryConsumer) (record : RedisStreamRecord)
    (handlerError : Option String) (s : Store) : Except String Bool × Store → Prop
  | duplicate (hreceipt : (s.receipts.get? (consumer.group, record.eventId)).isSome) :
      Applied consumer record handlerError s (.ok false, s)
  | failed (error : String) (herror : handlerError = some error) :
      Applied consumer record handlerError s (.error error, s)
  | applied (hnew : s.receipts.get? (consumer.group, record.eventId) = none)
      (hok : handlerError = none) :
      Applied consumer record handlerError s (.ok true, { s with
        receipts := s.receipts.insert ⟨consumer.group, record.eventId⟩
        history := { s.history with
          effects := s.history.effects ++ [(consumer.group, record.eventId)] } })

theorem applyEvent_applied (consumer : DeliveryConsumer) (record : RedisStreamRecord)
    (handlerError : Option String) (s : Store) :
    Applied consumer record handlerError s (consumer.applyEvent record handlerError s) := by
  unfold DeliveryConsumer.applyEvent claimConsumerReceipt
  cases hreceipt : s.receipts.get? (consumer.group, record.eventId) with
  | some row => exact .duplicate (by rw [hreceipt]; rfl)
  | none =>
    cases handlerError with
    | some error => exact .failed error rfl
    | none => exact .applied hreceipt rfl

def Store.countedFailures (s : Store) (subscription : Subscription) : Nat :=
  (s.deliveries.get? subscription).elim 0 ConsumerDeliveryRow.attempts

section
variable (consumer : DeliveryConsumer) (record : RedisStreamRecord) (error : String) (now : Time)
  (s : Store)

theorem countFailure_key : ((consumer.countFailure record error now s).consumer,
    (consumer.countFailure record error now s).eventId) = (consumer.group, record.eventId) := by
  unfold DeliveryConsumer.countFailure
  split
  · rfl
  · rename_i row hrow
    have hkey := Table.key_of_get? hrow
    exact hkey

theorem countFailure_attempts : (consumer.countFailure record error now s).attempts =
    s.countedFailures (consumer.group, record.eventId) + 1 := by
  unfold DeliveryConsumer.countFailure Store.countedFailures
  split
  · rename_i hnone
    rw [hnone]
    rfl
  · rename_i row hrow
    rw [hrow]
    rfl

end

/-- The outcomes of `_record_failure`. A payload whose causation chain is not
iterable cannot be dead-lettered. -/
inductive FailureRecorded (consumer : DeliveryConsumer) (record : RedisStreamRecord) (s : Store) :
    Except String Nat × Store → Prop
  | refused (raised : String) : FailureRecorded consumer record s (.error raised, s)
  | retry (row : ConsumerDeliveryRow)
      (hkey : (row.consumer, row.eventId) = (consumer.group, record.eventId))
      (hattempts : row.attempts = s.countedFailures (consumer.group, record.eventId) + 1)
      (hbelow : (row.attempts : Int) < consumer.retryPolicy.maxAttempts) :
      FailureRecorded consumer record s (.ok row.attempts, { s with
        deliveries := s.deliveries.put row
        history := { s.history with
          failures := s.history.failures ++ [(consumer.group, record.eventId)] } })
  | deadLettered (row : ConsumerDeliveryRow) (letter : DeadLetterRow)
      (hkey : (row.consumer, row.eventId) = (consumer.group, record.eventId))
      (hattempts : row.attempts = s.countedFailures (consumer.group, record.eventId) + 1)
      (hreached : consumer.retryPolicy.maxAttempts ≤ row.attempts)
      (hletter : (letter.consumer, letter.eventId) = (consumer.consumer, record.eventId))
      (hpayload : letter.payload = record.payload) :
      FailureRecorded consumer record s (.ok row.attempts, { s with
        deliveries := s.deliveries.put row
        deadLetters := s.deadLetters.insert letter
        history := { s.history with
          failures := s.history.failures ++ [(consumer.group, record.eventId)] } })

theorem recordFailure_recorded (uuidOf : Json → Option UUID) (consumer : DeliveryConsumer)
    (record : RedisStreamRecord) (error : String) (now : Time) (id : UUID)
    (uniform : Time → Time) (s : Store) : FailureRecorded consumer record s
      (consumer.recordFailure uuidOf record error now id uniform s) := by
  have hkey := countFailure_key consumer record error now s
  have hattempts := countFailure_attempts consumer record error now s
  unfold DeliveryConsumer.recordFailure
  by_cases hreached :
      consumer.retryPolicy.maxAttempts ≤ (consumer.countFailure record error now s).attempts
  · simp only [if_pos hreached]
    split
    · exact .refused _
    · exact .deadLettered { consumer.countFailure record error now s with
        status := .DEAD_LETTERED, nextAttemptAt := now } _ hkey hattempts hreached rfl rfl
  · simp only [if_neg hreached]
    exact .retry { consumer.countFailure record error now s with
      status := .RETRY, nextAttemptAt := _ } hkey hattempts (by simpa using hreached)

end Messaging

end AutoSwe
