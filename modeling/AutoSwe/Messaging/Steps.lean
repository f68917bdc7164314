import AutoSwe.Messaging.System

/-!
# What a step does to one row

Where a row of the outbox or a dead letter comes from, for every awaited action
(`effect_row`, `effect_letter`) and every operation (`Performed.outboxRow`,
`Performed.letterRow`): it was there before, or the step wrote it under the guard of
its statement.
-/

namespace AutoSwe.Messaging

open Relational Table List Option Await

/-! ## The consumers leave the publication alone -/

structure SamePublication (s s' : Store) : Prop where
  outbox : s'.outbox = s.outbox
  stream : s'.stream = s.stream
  claims : s'.history.claims = s.history.claims
  sent : s'.history.sent = s.history.sent
  origin : s'.history.origin = s.history.origin

def Await.consumes : Await → Prop
  | .applyEvent .. | .recordFailure .. => True
  | _ => False

theorem effect_publication {a : Await} (h : a.consumes) :
    SamePublication s (a.effect uuidOf s input).2 := by
  cases a with
  | applyEvent consumer record =>
    have happlied := applyEvent_applied consumer record input.handlerError s
    simp only [effect, raising]
    generalize consumer.applyEvent record input.handlerError s = result at happlied
    cases happlied <;> exact ⟨rfl, rfl, rfl, rfl, rfl⟩
  | recordFailure consumer record error now =>
    have hrecorded := recordFailure_recorded uuidOf consumer record error now input.letterId
      input.uniform s
    simp only [effect, raising]
    generalize consumer.recordFailure uuidOf record error now input.letterId input.uniform s =
      result at hrecorded
    cases hrecorded <;> exact ⟨rfl, rfl, rfl, rfl, rfl⟩
  | _ => cases h

/-! ## Rows of the outbox -/

/-- What an awaited action makes of a row of the outbox. -/
inductive RowStep (tokens : UUID → UUID) (a : Await) (old : OutboxRow) : OutboxRow → Prop
  | same : RowStep tokens a old old
  | claimed (publisher : OutboxPublisher) (limit : Int) (now : Time)
      (ha : a = .claim publisher limit now) (hdue : old.claimable now = true) :
      RowStep tokens a old (old.claimed publisher (tokens old.eventId) now)
  | published (event : ClaimedEvent) (now : Time) (ha : a = .markPublished event now)
      (hclaim : old.carries event = true) (hopen : old.publishedAt = none) :
      RowStep tokens a old { old with publishedAt := some now, lastError := none }.released
  | delayed (publisher : OutboxPublisher) (event : ClaimedEvent) (error : String) (now : Time)
      (ha : a = .retryLater publisher event error now) (hclaim : old.carries event = true) :
      RowStep tokens a old { old with
        nextAttemptAt := now + publisher.retryDelay event.attempt
        lastError := some (errorColumn error) }.released
  | parked (publisher : OutboxPublisher) (event : ClaimedEvent) (error : String) (now : Time)
      (ha : a = .deadLetter publisher event error now) (hclaim : old.carries event = true) :
      RowStep tokens a old { old with
        deadLetteredAt := some now
        lastError := some (errorColumn error) }.released

theorem effect_row (h : (a.effect uuidOf s input).2.outbox.get? k = some row) :
    ∃ old, s.outbox.get? k = some old ∧ RowStep input.tokens a old row := by
  by_cases hother : a.consumes
  · exact ⟨row, (effect_publication hother).outbox ▸ h, .same⟩
  cases a with
  | claim publisher limit now =>
    simp only [effect, OutboxPublisher.claim, get?_updateWhere,
      map_eq_some_iff] at h
    obtain ⟨old, hold, rfl⟩ := h
    refine ⟨old, hold, ?_⟩
    split
    · rename_i hselected
      obtain ⟨due, hdue, hkey⟩ := mem_map.mp (of_decide_eq_true hselected)
      obtain ⟨hrow, hclaimable⟩ :=
        Store.mem_dueEvents.mp ((s.selectDue_sublist limit now).subset hdue)
      rw [hkey, Store.eventId_of_get? hold, hold] at hrow
      cases hrow
      exact .claimed publisher limit now rfl hclaimable
    · exact .same
  | publish event => exact ⟨row, h, .same⟩
  | markPublished event now =>
    simp only [effect, OutboxPublisher.markPublished, get?_updateWhere,
      map_eq_some_iff] at h
    obtain ⟨old, hold, rfl⟩ := h
    refine ⟨old, hold, ?_⟩
    split
    · rename_i hguard
      obtain ⟨hclaim, hopen⟩ := Bool.and_eq_true_iff.mp hguard
      exact .published event now rfl hclaim (isNone_iff_eq_none.mp hopen)
    · exact .same
  | retryLater publisher event error now =>
    simp only [effect, OutboxPublisher.retryLater, get?_updateWhere,
      map_eq_some_iff] at h
    obtain ⟨old, hold, rfl⟩ := h
    refine ⟨old, hold, ?_⟩
    split
    · exact .delayed publisher event error now rfl ‹_›
    · exact .same
  | deadLetter publisher event error now =>
    simp only [effect, OutboxPublisher.deadLetter, get?_updateWhere,
      map_eq_some_iff] at h
    obtain ⟨old, hold, rfl⟩ := h
    refine ⟨old, hold, ?_⟩
    split
    · exact .parked publisher event error now rfl ‹_›
    · exact .same
  | isDeferred => exact ⟨row, h, .same⟩
  | applyEvent | recordFailure => exact absurd trivial hother
  | acknowledge => exact ⟨row, h, .same⟩

theorem effect_row_isSome (uuidOf : Json → Option UUID) (s : Store) (input : Input) (a : Await)
    (k : UUID) :
    ((a.effect uuidOf s input).2.outbox.get? k).isSome = (s.outbox.get? k).isSome := by
  by_cases hother : a.consumes
  · rw [(effect_publication hother).outbox]
  cases a with
  | claim | markPublished | retryLater | deadLetter =>
    simp [effect, OutboxPublisher.claim, OutboxPublisher.markPublished,
      OutboxPublisher.retryLater, OutboxPublisher.deadLetter, get?_updateWhere]
  | applyEvent | recordFailure => exact absurd trivial hother
  | publish | isDeferred | acknowledge => rfl

def Await.handsOut (s : Store) (input : Input) : Await → List ClaimedEvent
  | .claim publisher limit now => (publisher.claim limit now input.tokens s).1
  | _ => []

theorem effect_claims (uuidOf : Json → Option UUID) (s : Store) (input : Input) (a : Await) :
    (a.effect uuidOf s input).2.history.claims = s.history.claims ++ a.handsOut s input := by
  cases a with
  | claim => rfl
  | applyEvent | recordFailure =>
    exact (effect_publication (by trivial)).claims.trans (append_nil _).symm
  | _ => exact (append_nil _).symm

def Await.sends : Await → List ClaimedEvent
  | .publish event => [event]
  | _ => []

theorem effect_sent (uuidOf : Json → Option UUID) (s : Store) (input : Input) (a : Await) :
    (a.effect uuidOf s input).2.history.sent = s.history.sent ++ a.sends := by
  cases a with
  | publish event => rfl
  | applyEvent | recordFailure =>
    exact (effect_publication (by trivial)).sent.trans (append_nil _).symm
  | _ => exact (append_nil _).symm

/-! ## The operations -/

inductive Performed (s : Store) : Operation → Store → Prop
  | refused (operation : Operation) : Performed s operation s
  | enqueued (event : AutoSwe.OutboxRow) (now : Time)
      (hnew : s.outbox.get? event.eventId = none) :
      Performed s (.enqueue event now) { s with
        outbox := s.outbox.insert { event with nextAttemptAt := now, createdAt := now } }
  | requeued (eventId : UUID) (now : Time) :
      Performed s (.requeue eventId now) (requeue eventId now s).2
  | swept (consumer : DeliveryConsumer) (now : Time) (ids : Subscription → UUID) :
      Performed s (.sweepStalled consumer now ids) (consumer.sweepStalled now ids s).2
  | replayed (deadLetterId eventId : UUID) (now : Time) (letter : DeadLetterRow)
      (hletter : letter ∈ s.deadLetters.rows) (hid : letter.id = deadLetterId)
      (hopen : letter.resolvedAt = none) (hnew : s.outbox.get? eventId = none) :
      Performed s (.replayDeadLetter deadLetterId eventId now) { s with
        outbox := s.outbox.insert {
          eventId, topic := letter.topic
          payload := letter.payload.updated replayMarker (.str letter.id.str)
          nextAttemptAt := now, createdAt := now }
        deadLetters := s.deadLetters.set { letter with resolvedAt := some now }
        history := { s.history with
          origin := Function.update s.history.origin eventId
            (s.history.origin letter.eventId) } }

theorem enqueueEvent_ok (h : enqueueEvent event now s = some s') :
    s.outbox.get? event.eventId = none ∧ s' = { s with
      outbox := s.outbox.insert { event with nextAttemptAt := now, createdAt := now } } := by
  unfold enqueueEvent at h
  split at h
  · cases h
  · rename_i hnew
    exact ⟨hnew, (some.inj h).symm⟩

theorem replayDeadLetter_performed
    (h : replayDeadLetter deadLetterId eventId now s = .ok s') :
    Performed s (.replayDeadLetter deadLetterId eventId now) s' := by
  unfold replayDeadLetter at h
  split at h
  · cases h
  rename_i letter hfind
  have hid : letter.id = deadLetterId := by simpa using find?_some hfind
  by_cases hresolved : letter.resolvedAt.isSome
  · rw [if_pos hresolved] at h
    cases h
    exact .refused _
  · rw [if_neg hresolved] at h
    simp only at h
    split at h
    · cases h
    · rename_i enqueued hok
      obtain ⟨hnew, rfl⟩ := enqueueEvent_ok hok
      cases h
      exact .replayed deadLetterId eventId now letter (mem_of_find?_eq_some hfind) hid
        (by simpa using hresolved) hnew

theorem Operation.performed (operation : Operation) (s : Store) :
    Performed s operation (operation.perform s) := by
  cases operation with
  | enqueue event now =>
    simp only [Operation.perform]
    cases hok : enqueueEvent event now s with
    | none => exact .refused _
    | some s' =>
      obtain ⟨hnew, rfl⟩ := enqueueEvent_ok hok
      exact .enqueued event now hnew
  | requeue eventId now => exact .requeued eventId now
  | sweepStalled consumer now ids => exact .swept consumer now ids
  | replayDeadLetter =>
    simp only [Operation.perform]
    split
    · rename_i s' hok
      exact replayDeadLetter_performed hok
    · exact .refused _

theorem Performed.history (h : Performed s operation s') :
    s'.history.claims = s.history.claims ∧ s'.history.sent = s.history.sent := by
  cases h <;> exact ⟨rfl, rfl⟩

theorem Performed.stream (h : Performed s operation s') : s'.stream = s.stream := by
  cases h <;> rfl

def Operation.now : Operation → Time
  | .enqueue _ now | .requeue _ now | .sweepStalled _ now _ | .replayDeadLetter _ _ now => now

inductive OperationRow (operation : Operation) (s : Store) (k : UUID) : OutboxRow → Prop
  | same (hrow : s.outbox.get? k = some row) : OperationRow operation s k row
  | enqueued (event : AutoSwe.OutboxRow) (hnew : s.outbox.get? k = none) :
      OperationRow operation s k
        { event with nextAttemptAt := operation.now, createdAt := operation.now }
  | requeued (old : OutboxRow) (ho : operation = .requeue k operation.now)
      (hold : s.outbox.get? k = some old) :
      OperationRow operation s k
        { old with publishedAt := none, nextAttemptAt := operation.now }.released

theorem Performed.outboxRow (hperformed : Performed s operation s')
    (h : s'.outbox.get? k = some row) : OperationRow operation s k row := by
  cases hperformed with
  | refused => exact .same h
  | enqueued event now hnew =>
    rw [get?_insert hnew] at h
    split at h
    · rename_i hk
      cases h
      exact .enqueued event (hk ▸ hnew)
    · exact .same h
  | requeued eventId now =>
    simp only [requeue, get?_updateWhere, map_eq_some_iff] at h
    obtain ⟨old, hold, rfl⟩ := h
    split
    · rename_i hk
      obtain rfl : k = eventId := (Store.eventId_of_get? hold).symm.trans (of_decide_eq_true hk)
      exact .requeued old rfl hold
    · exact .same hold
  | swept => exact .same h
  | replayed deadLetterId eventId now letter _ _ _ hnew =>
    rw [get?_insert hnew] at h
    split at h
    · rename_i hk
      cases h
      exact .enqueued ⟨eventId, _, _⟩ (hk ▸ hnew)
    · exact .same h

theorem Performed.row_isSome (hperformed : Performed s operation s')
    (h : s.outbox.get? k = some old) : (s'.outbox.get? k).isSome := by
  cases hperformed with
  | refused => simp [h]
  | enqueued => simp [get?_insert_of_some h]
  | requeued => simp [requeue, get?_updateWhere, h]
  | swept => simp [DeliveryConsumer.sweepStalled, h]
  | replayed => simp [get?_insert_of_some h]

/-! ## Dead letters -/

/-- The dead letters that an awaited action writes. -/
inductive LetterWritten (s : Store) (a : Await) (letter : DeadLetterRow) : Prop
  | publisher (publisher : OutboxPublisher) (event : ClaimedEvent) (error : String) (now : Time)
      (ha : a = .deadLetter publisher event error now)
      (hletter : (letter.consumer, letter.eventId) =
        (publisher.deadLetterConsumer, event.eventId))
      (hpayload : letter.payload = event.payload)
  | consumer (consumer : DeliveryConsumer) (record : RedisStreamRecord) (error : String)
      (now : Time) (ha : a = .recordFailure consumer record error now)
      (hletter : (letter.consumer, letter.eventId) = (consumer.consumer, record.eventId))
      (hpayload : letter.payload = record.payload)
      (hreached : consumer.retryPolicy.maxAttempts ≤
        (s.countedFailures (consumer.group, record.eventId) + 1 : Nat))

theorem effect_letter (h : (a.effect uuidOf s input).2.deadLetters.get? key = some letter) :
    s.deadLetters.get? key = some letter ∨ LetterWritten s a letter := by
  cases a with
  | deadLetter publisher event error now =>
    simp only [effect, OutboxPublisher.deadLetter] at h
    rcases get?_insert_cases s.deadLetters _ key with hsame | hnew
    · exact .inl (hsame.symm.trans h)
    · cases hnew.symm.trans h
      exact .inr (.publisher publisher event error now rfl rfl rfl)
  | applyEvent consumer record =>
    have happlied := applyEvent_applied consumer record input.handlerError s
    simp only [effect, raising] at h
    generalize consumer.applyEvent record input.handlerError s = result at happlied h
    cases happlied <;> exact .inl h
  | recordFailure consumer record error now =>
    have hrecorded := recordFailure_recorded uuidOf consumer record error now input.letterId
      input.uniform s
    simp only [effect, raising] at h
    generalize consumer.recordFailure uuidOf record error now input.letterId input.uniform s =
      result at hrecorded h
    cases hrecorded with
    | refused => exact .inl h
    | retry => exact .inl h
    | deadLettered row written _ hattempts hreached hletter hpayload =>
      rcases get?_insert_cases s.deadLetters written key with hsame | hnew
      · exact .inl (hsame.symm.trans h)
      · cases hnew.symm.trans h
        exact .inr (.consumer consumer record error now rfl hletter hpayload (hattempts ▸ hreached))
  | _ => exact .inl h

inductive OperationLetter (operation : Operation) (s : Store) (key : Subscription) :
    DeadLetterRow → Prop
  | same (hletter : s.deadLetters.get? key = some letter) : OperationLetter operation s key letter
  | resolved (old : DeadLetterRow) (now : Time) (hold : s.deadLetters.get? key = some old) :
      OperationLetter operation s key { old with resolvedAt := some now }
  | swept (consumer : DeliveryConsumer) (now : Time) (ids : Subscription → UUID)
      (row : ConsumerDeliveryRow) (ho : operation = .sweepStalled consumer now ids)
      (hrow : row ∈ consumer.stalledDeliveries now s) :
      OperationLetter operation s key
        (consumer.stalledLetter (ids (row.consumer, row.eventId)) row)

theorem Performed.letterRow (hperformed : Performed s operation s')
    (h : s'.deadLetters.get? key = some letter) : OperationLetter operation s key letter := by
  cases hperformed with
  | refused => exact .same h
  | enqueued => exact .same h
  | requeued => exact .same h
  | swept consumer now ids =>
    rcases get?_foldl_insert _ _ h with hbefore | ⟨row, hrow, rfl⟩
    · exact .same hbefore
    · exact .swept consumer now ids row rfl hrow
  | replayed deadLetterId eventId now old hold =>
    simp only [get?_set] at h
    split at h
    · rename_i hkey
      have hget : s.deadLetters.get? key = some old := hkey ▸ get?_of_mem hold
      rw [hget] at h
      cases h
      exact .resolved old now hget
    · exact .same h

end AutoSwe.Messaging
