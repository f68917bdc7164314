import AutoSwe.Persistence.Tables

/-!
# Outbox, deliveries and dead letters

The rows that the publishers of the outbox and the consumers of its topics read
and write. `Store` holds the five tables, the entries of the streams, and the
history of what was claimed, sent, applied and recorded as failed, which no step
reads.
-/

namespace AutoSwe.Messaging

open Relational

/-- An enqueued event with the columns of its publication. -/
structure OutboxRow extends AutoSwe.OutboxRow where
  attempts : Nat := 0
  nextAttemptAt : Time
  publishedAt : Option Time := none
  deadLetteredAt : Option Time := none
  lastError : Option String := none
  publisher : Option String := none
  claimToken : Option UUID := none
  claimedUntil : Option Time := none
  createdAt : Time

structure ClaimedEvent where
  eventId : UUID
  topic : String
  payload : Json
  attempt : Nat
  claimToken : UUID

structure RedisStreamRecord where
  stream : String
  streamId : String
  eventId : UUID
  topic : String
  payload : Json

structure ConsumerReceiptRow where
  consumer : String
  eventId : UUID
deriving DecidableEq

inductive DeliveryStatus
  | RETRY
  | DEAD_LETTERED
deriving DecidableEq

structure ConsumerDeliveryRow where
  consumer : String
  eventId : UUID
  topic : String
  attempts : Nat
  status : DeliveryStatus
  nextAttemptAt : Time
  lastError : String
deriving DecidableEq

structure DeadLetterRow where
  id : UUID
  eventId : UUID
  consumer : String
  topic : String
  payload : Json
  attempts : Nat
  lastError : String
  causationChain : List String
  resolvedAt : Option Time := none

/-- A consumer, or a group of consumers, and an event. -/
abbrev Subscription := String × UUID

/-- What happened so far. `origin` leads from a replayed event to the event whose
dead letter was replayed, and from there on to the one that was enqueued first. -/
structure History where
  claims : List ClaimedEvent := []
  sent : List ClaimedEvent := []
  effects : List Subscription := []
  failures : List Subscription := []
  origin : UUID → UUID := id

structure Store where
  outbox : Table UUID OutboxRow (·.eventId) := ∅
  stream : List RedisStreamRecord := []
  receipts : Table Subscription ConsumerReceiptRow fun row => (row.consumer, row.eventId) := ∅
  deliveries : Table Subscription ConsumerDeliveryRow fun row => (row.consumer, row.eventId) := ∅
  deadLetters : Table Subscription DeadLetterRow fun row => (row.consumer, row.eventId) := ∅
  history : History := {}

/-- `str(error)[:20_000]` -/
def errorColumn (error : String) : String := String.ofList (error.toList.take 20000)

/-- `enqueue_event`; the primary key refuses an id that is taken. -/
def enqueueEvent (event : AutoSwe.OutboxRow) (now : Time) (s : Store) : Option Store :=
  match s.outbox.get? event.eventId with
  | some _ => none
  | none => some { s with
      outbox := s.outbox.insert { event with nextAttemptAt := now, createdAt := now } }

end AutoSwe.Messaging
