import AutoSwe.Lib.Growth
import AutoSwe.Messaging.Consumer
import AutoSwe.Messaging.Outbox

/-!
# Publishers and consumers over one store

`publish_batch` and `process` as processes: every transaction and every call of
the transport is one awaited action, and any number of batches and deliveries
run at once. An action can fail before or after it took effect, and a process
that is never resumed has crashed.
-/

namespace AutoSwe.Messaging

open Coroutine Process

inductive Fault
  | raised (error : String)
  | cancelled

inductive Await
  | claim (publisher : OutboxPublisher) (limit : Int) (now : Time)
  | publish (event : ClaimedEvent)
  | markPublished (event : ClaimedEvent) (now : Time)
  | retryLater (publisher : OutboxPublisher) (event : ClaimedEvent) (error : String) (now : Time)
  | deadLetter (publisher : OutboxPublisher) (event : ClaimedEvent) (error : String) (now : Time)
  | isDeferred (consumer : DeliveryConsumer) (eventId : UUID) (now : Time)
  | applyEvent (consumer : DeliveryConsumer) (record : RedisStreamRecord)
  | recordFailure (consumer : DeliveryConsumer) (record : RedisStreamRecord) (error : String)
      (now : Time)
  | acknowledge (consumer : DeliveryConsumer) (streamId : String)

@[reducible] def Await.Result : Await → Type
  | .claim .. => List ClaimedEvent
  | .publish .. => String
  | .markPublished .. | .retryLater .. | .isDeferred .. | .applyEvent .. | .acknowledge .. => Bool
  | .deadLetter .. => Unit
  | .recordFailure .. => Nat

abbrev Task := Process Await Await.Result Fault

def await (a : Await) : Task a.Result := perform a

/-- `try` with `except Exception`: a cancellation goes through. -/
def attempt (p : Task α) : Task (Except String α) :=
  tryCatch (do return .ok (← p)) fun
    | .raised error => pure (.error error)
    | .cancelled => throw .cancelled

/-! ## The two programs -/

namespace OutboxPublisher

variable (publisher : OutboxPublisher)

def markFailed (event : ClaimedEvent) (error : String) (now : Time) : Task Bool := do
  if publisher.maxAttempts ≤ event.attempt then
    await (.deadLetter publisher event error now)
    return false
  else await (.retryLater publisher event error now)

/-- The loop of `publish_batch`. -/
def publishEach (now : Time) : List ClaimedEvent → (published : Nat) → Task Nat
  | [], published => pure published
  | event :: rest, published => do
    match ← attempt (await (.publish event)) with
    | .error error => do
      let _ ← publisher.markFailed event error now
      publishEach now rest published
    | .ok _ => do
      let marked : Bool ← await (.markPublished event now)
      publishEach now rest (if marked then published + 1 else published)

def publishBatch (limit : Int) (now : Time) : Task Nat := do
  let claimed : List ClaimedEvent ← await (.claim publisher limit now)
  publisher.publishEach now claimed 0

end OutboxPublisher

inductive DeliveryOutcome
  | APPLIED
  | DUPLICATE
  | DEFERRED
  | RETRY
  | DEAD_LETTERED
deriving DecidableEq

def DeliveryConsumer.process (consumer : DeliveryConsumer) (record : RedisStreamRecord)
    (now : Time) : Task DeliveryOutcome := do
  let deferred : Bool ← await (.isDeferred consumer record.eventId now)
  if deferred then return .DEFERRED
  let applied : Except String Bool ← attempt (await (.applyEvent consumer record))
  match applied with
  | .error error => do
    let attempts : Nat ← await (.recordFailure consumer record error now)
    if consumer.retryPolicy.maxAttempts ≤ attempts then
      let _ ← await (.acknowledge consumer record.streamId)
      return .DEAD_LETTERED
    return .RETRY
  | .ok claimed => do
    let _ ← await (.acknowledge consumer record.streamId)
    return if claimed = true then .APPLIED else .DUPLICATE

/-! ## The system -/

/-- What the outside decides about one step: the drawn ids, the id that the
transport gives to an entry, what the handler raises, and a fault of the step
with whether the step took effect before. -/
structure Input where
  tokens : UUID → UUID := id
  letterId : UUID := 0
  streamId : String := ""
  handlerError : Option String := none
  uniform : Time → Time := fun ceiling => ceiling
  fault : Option Fault := none
  reached : Bool := false

/-- `RedisStreamsTransport.publish` -/
def publishRecord (event : ClaimedEvent) (streamId : String) (s : Store) : Store :=
  { s with
    stream := s.stream ++ [⟨event.topic, streamId, event.eventId, event.topic, event.payload⟩]
    history := { s.history with sent := s.history.sent ++ [event] } }

def raising (result : Except String α × Store) : Except Fault α × Store :=
  (result.1.mapError .raised, result.2)

def Await.effect (uuidOf : Json → Option UUID) (s : Store) (input : Input) :
    (a : Await) → Except Fault a.Result × Store
  | .claim publisher limit now =>
    let (events, store) := publisher.claim limit now input.tokens s
    (.ok events, store)
  | .publish event => (.ok input.streamId, publishRecord event input.streamId s)
  | .markPublished event now =>
    let (marked, store) := OutboxPublisher.markPublished event now s
    (.ok marked, store)
  | .retryLater publisher event error now =>
    let (marked, store) := publisher.retryLater event error now s
    (.ok marked, store)
  | .deadLetter publisher event error now =>
    (.ok (), publisher.deadLetter event error now input.letterId s)
  | .isDeferred consumer eventId now => (.ok (consumer.isDeferred eventId now s), s)
  | .applyEvent consumer record => raising (consumer.applyEvent record input.handlerError s)
  | .recordFailure consumer record error now =>
    raising (consumer.recordFailure uuidOf record error now input.letterId input.uniform s)
  | .acknowledge _ _ => (.ok true, s)

/-- One awaited action, with its fault. -/
def Await.act (uuidOf : Json → Option UUID) (s : Store) (input : Input) (a : Await) :
    Except Fault a.Result × Store :=
  match input.fault with
  | none => a.effect uuidOf s input
  | some fault => (.error fault, if input.reached then (a.effect uuidOf s input).2 else s)

inductive Job
  | publishBatch (publisher : OutboxPublisher) (limit : Int) (now : Time)
  | process (consumer : DeliveryConsumer) (record : RedisStreamRecord) (now : Time)

def Job.body : Job → Task Unit
  | .publishBatch publisher limit now => do
    let _ ← publisher.publishBatch limit now
  | .process consumer record now => do
    let _ ← consumer.process record now

/-- The single transactions of the other services. -/
inductive Operation
  | enqueue (event : AutoSwe.OutboxRow) (now : Time)
  | requeue (eventId : UUID) (now : Time)
  | sweepStalled (consumer : DeliveryConsumer) (now : Time) (ids : Subscription → UUID)
  | replayDeadLetter (deadLetterId eventId : UUID) (now : Time)

def Operation.perform (s : Store) : Operation → Store
  | .enqueue event now => (enqueueEvent event now s).getD s
  | .requeue eventId now => (Messaging.requeue eventId now s).2
  | .sweepStalled consumer now ids => (consumer.sweepStalled now ids s).2
  | .replayDeadLetter deadLetterId eventId now =>
    match Messaging.replayDeadLetter deadLetterId eventId now s with
    | .ok store => store
    | .error _ => s

def messaging (uuidOf : Json → Option UUID) :
    System Job Store Await Await.Result Fault Unit Input Operation where
  body := Job.body
  act := Await.act uuidOf
  aside s _ _ := s
  environment := Operation.perform

abbrev Messages := Fleet Job Store Await Await.Result Fault Unit

abbrev MessageEvent := Event Job Input Operation

/-! ## What one step can do -/

inductive MessageWrite (uuidOf : Json → Option UUID) (s : Messages) (e : MessageEvent) :
    Store → Prop
  | none : MessageWrite uuidOf s e s.store
  | perform (operation : Operation) (he : e = .environment operation) :
      MessageWrite uuidOf s e (operation.perform s.store)
  | effect (i : Nat) (input : Input) (job : Job) (a : Await)
      (next : Except Fault a.Result → Task Unit) (he : e = .resume i input)
      (hproc : s.procs i = some (job, .await a next))
      (htook : input.fault.isNone ∨ input.reached) :
      MessageWrite uuidOf s e (a.effect uuidOf s.store input).2

theorem messaging_step (hstep : Fleet.step (messaging uuidOf) s e = some s') :
    MessageWrite uuidOf s e s'.store := by
  cases Fleet.step_cases hstep with
  | environment operation => exact .perform operation rfl
  | spawn => exact .none
  | aside => exact .none
  | @resume i input job a next hproc =>
    change MessageWrite uuidOf s _ (a.act uuidOf s.store input).2
    unfold Await.act
    split
    · rename_i hnone
      exact .effect i input job a next rfl hproc (.inl (by rw [hnone]; rfl))
    · split
      · rename_i hreached
        exact .effect i input job a next rfl hproc (.inr hreached)
      · exact .none

/-! ## What the programs await -/

section
variable {g : Growth Store Await Await.Result}

theorem attempt_keeps {p : Task α} {Q : Store → α → Prop} (h : p.Keeps g Q s) :
    (attempt p).Keeps g (fun s r => ∀ a, r = .ok a → Q s a) s := by
  unfold attempt
  refine Keeps.tryCatch (h.bind fun a s' _ ha => ?_) fun fault s' _ => ?_
  · rintro _ ⟨⟩
    exact ha
  · cases fault with
    | raised error =>
      rintro _ ⟨⟩
    | cancelled => trivial

/-- A fault hides the answer of an action and perhaps its effect. -/
theorem act_growth
    (h : g.le s (a.effect uuidOf s input).2 ∧ ∀ b, (a.effect uuidOf s input).1 = .ok b →
      g.returns (a.effect uuidOf s input).2 a b) :
    g.le s (a.act uuidOf s input).2 ∧ ∀ b, (a.act uuidOf s input).1 = .ok b →
      g.returns (a.act uuidOf s input).2 a b := by
  unfold Await.act
  split
  · exact h
  · refine ⟨?_, fun b hb => by cases hb⟩
    split
    · exact h.1
    · exact g.refl s

/-- One event of a batch, whose publication may fail. -/
structure HandlesEvent (g : Growth Store Await Await.Result) (publisher : OutboxPublisher)
    (now : Time) (event : ClaimedEvent) (s : Store) : Prop where
  publish : ∀ s', g.le s s' → g.awaits s' (.publish event)
  markPublished : ∀ s' b, g.le s s' → g.returns s' (.publish event) b →
    ∀ s'', g.le s' s'' → g.awaits s'' (.markPublished event now)
  retryLater : ∀ s' error, g.le s s' → g.awaits s' (.retryLater publisher event error now)
  deadLetter : ∀ s' error, g.le s s' → publisher.maxAttempts ≤ event.attempt →
    g.awaits s' (.deadLetter publisher event error now)

theorem HandlesEvent.grow (h : HandlesEvent g publisher now event s) (hs : g.le s s') :
    HandlesEvent g publisher now event s' where
  publish s'' hs' := h.publish s'' (g.trans hs hs')
  markPublished s'' b hs' := h.markPublished s'' b (g.trans hs hs')
  retryLater s'' error hs' := h.retryLater s'' error (g.trans hs hs')
  deadLetter s'' error hs' := h.deadLetter s'' error (g.trans hs hs')

theorem HandlesEvent.markFailed (h : HandlesEvent g publisher now event s) (error : String) :
    (publisher.markFailed event error now).Keeps g (fun _ _ => True) s := by
  unfold OutboxPublisher.markFailed
  by_cases hlast : publisher.maxAttempts ≤ event.attempt
  · rw [if_pos hlast]
    refine Keeps.bind (Keeps.perform fun s' hs => ?_) fun _ _ _ _ => trivial
    exact h.deadLetter s' error hs hlast
  · rw [if_neg hlast]
    exact (Keeps.perform (h.retryLater · error)).mono fun _ _ _ => trivial

theorem publishEach_keeps {publisher : OutboxPublisher} (events : List ClaimedEvent)
    (published : Nat) (h : ∀ event ∈ events, HandlesEvent g publisher now event s) :
    (publisher.publishEach now events published).Keeps g (fun _ _ => True) s := by
  induction events generalizing published s with
  | nil => trivial
  | cons event rest ih =>
    obtain ⟨hevent, hrest⟩ := List.forall_mem_cons.mp h
    have hlater : ∀ {s'} (published : Nat), g.le s s' →
        (publisher.publishEach now rest published).Keeps g (fun _ _ => True) s' :=
      fun published hs => ih published fun other hother => (hrest other hother).grow hs
    unfold OutboxPublisher.publishEach
    refine (attempt_keeps (Keeps.perform hevent.publish)).bind fun result s₁ hs₁ hsent => ?_
    cases result with
    | error error =>
      refine ((hevent.grow hs₁).markFailed error).bind fun _ s₂ hs₂ _ => ?_
      exact hlater published (g.trans hs₁ hs₂)
    | ok streamId =>
      refine (Keeps.perform ?_).bind fun marked s₂ hs₂ _ => hlater _ (g.trans hs₁ hs₂)
      exact hevent.markPublished s₁ streamId hs₁ (hsent streamId rfl)

theorem publishBatch_keeps (hclaim : ∀ s', g.le s s' → g.awaits s' (.claim publisher limit now))
    (hevents : ∀ s' (events : List ClaimedEvent), g.le s s' →
      g.returns s' (.claim publisher limit now) events →
      ∀ event ∈ events, HandlesEvent g publisher now event s') :
    (publisher.publishBatch limit now).Keeps g (fun _ _ => True) s := by
  refine (Keeps.perform hclaim).bind fun events s' hs hreturned => ?_
  exact publishEach_keeps events 0 (hevents s' events hs hreturned)

theorem process_keeps {consumer : DeliveryConsumer} {record : RedisStreamRecord}
    (hdeferred : ∀ s', g.le s s' → g.awaits s' (.isDeferred consumer record.eventId now))
    (happly : ∀ s', g.le s s' → g.awaits s' (.applyEvent consumer record))
    (hfailure : ∀ s' error, g.le s s' → g.awaits s' (.recordFailure consumer record error now))
    (hacknowledge : ∀ s', g.le s s' → g.awaits s' (.acknowledge consumer record.streamId)) :
    (consumer.process record now).Keeps g (fun _ _ => True) s := by
  have hack : ∀ {s' : Store} (outcome : DeliveryOutcome), g.le s s' →
      (do let _ ← await (.acknowledge consumer record.streamId); return outcome :
        Task DeliveryOutcome).Keeps g (fun _ _ => True) s' := fun outcome hs =>
    (Keeps.perform fun s'' hs' => hacknowledge s'' (g.trans hs hs')).bind
      fun _ _ _ _ => trivial
  refine (Keeps.perform hdeferred).bind fun deferred s₁ hs₁ _ => ?_
  cases deferred with
  | true => trivial
  | false =>
    refine (attempt_keeps (Keeps.perform fun s' hs => happly s' (g.trans hs₁ hs))).bind
      fun result s₂ hs₂ _ => ?_
    have hs₂ := g.trans hs₁ hs₂
    cases result with
    | ok claimed => exact hack _ hs₂
    | error error =>
      refine (Keeps.perform fun s' hs => hfailure s' error (g.trans hs₂ hs)).bind
        fun attempts s₃ hs₃ _ => ?_
      by_cases hlast : consumer.retryPolicy.maxAttempts ≤ (attempts : Nat)
      · rw [if_pos hlast]
        exact hack _ (g.trans hs₂ hs₃)
      · rw [if_neg hlast]
        trivial

end

end AutoSwe.Messaging
