import AutoSwe.Messaging.Effects

/-!
# Replayed dead letters

`replay_dead_letter` enqueues what the dead letter holds, under a new event id.
The dead letters of publishers and of failed deliveries hold the payload of their
event; `sweep_stalled` writes an empty one. And the receipts know nothing of the
new id, so an event that was applied after all, or is replayed from two dead
letters, has its effects committed again (`replay_loses_and_repeats`).
-/

namespace AutoSwe.Messaging

open Relational Coroutine LabelledRun Table List Option Fleet

/-! ## Payloads are those that were enqueued -/

/-- The payload is that of the enqueued event. -/
def Store.Genuine (s : Store) (eventId : UUID) (payload : Json) : Prop :=
  ∃ row, s.outbox.get? eventId = some row ∧ row.payload = payload

theorem RowStep.payload (h : RowStep tokens a old row) : row.payload = old.payload := by
  cases h <;> rfl

theorem Store.Genuine.effect (h : s.Genuine eventId payload)
    (uuidOf : Json → Option UUID) (input : Input) (a : Await) :
    (a.effect uuidOf s input).2.Genuine eventId payload := by
  obtain ⟨old, hold, hpayload⟩ := h
  have hsome : ((a.effect uuidOf s input).2.outbox.get? eventId).isSome := by
    rw [effect_row_isSome, hold]
    rfl
  obtain ⟨row, hrow⟩ := isSome_iff_exists.mp hsome
  obtain ⟨old', hold', hmove⟩ := effect_row hrow
  rw [hold] at hold'
  cases hold'
  exact ⟨row, hrow, hmove.payload.trans hpayload⟩

theorem Store.Genuine.perform (h : s.Genuine eventId payload)
    (operation : Operation) : (operation.perform s).Genuine eventId payload := by
  obtain ⟨old, hold, hpayload⟩ := h
  obtain ⟨row, hrow⟩ := isSome_iff_exists.mp ((operation.performed s).row_isSome hold)
  refine ⟨row, hrow, ?_⟩
  cases (operation.performed s).outboxRow hrow with
  | same hsame =>
    rw [hold] at hsame
    cases hsame
    exact hpayload
  | enqueued event hnew =>
    rw [hold] at hnew
    cases hnew
  | requeued old' ho hold' =>
    rw [hold] at hold'
    cases hold'
    exact hpayload

/-- Publishers and consumers handle the payloads that were enqueued. -/
def payloadJournal : Growth Store Await Await.Result where
  le s s' := ∀ eventId payload, s.Genuine eventId payload → s'.Genuine eventId payload
  refl _ _ _ := id
  trans h h' eventId payload hs := h' eventId payload (h eventId payload hs)
  awaits
    | s, .publish event | s, .deadLetter _ event _ _ => s.Genuine event.eventId event.payload
    | s, .applyEvent _ record | s, .recordFailure _ record _ _ =>
      s.Genuine record.eventId record.payload
    | _, _ => True
  returns
    | s, .claim .., events => ∀ event ∈ events, s.Genuine event.eventId event.payload
    | _, _, _ => True

/-- A payload that has nothing but the marker of a replay. -/
def onlyMarker : Json → Bool
  | .obj fields => fields.all fun field => field.1 = replayMarker
  | _ => true

theorem updated_of_onlyMarker (h : onlyMarker payload = true) :
    payload.updated replayMarker value = .obj [(replayMarker, value)] := by
  cases payload with
  | obj fields =>
    have hnone : fields.filter (fun field => field.1 ≠ replayMarker) = [] := by
      refine filter_eq_nil_iff.mpr fun field hfield => ?_
      simpa using all_eq_true.mp h field hfield
    simp only [Json.updated, hnone, nil_append]
  | _ => rfl

structure Store.Traceable (s : Store) : Prop where
  stream : ∀ record ∈ s.stream, s.Genuine record.eventId record.payload
  deliveries : ∀ key row, s.deliveries.get? key = some row →
    ∃ payload, s.Genuine row.eventId payload
  letters : ∀ key letter, s.deadLetters.get? key = some letter →
    ∃ payload, s.Genuine letter.eventId payload ∧ ∀ value,
      letter.payload.updated replayMarker value = payload.updated replayMarker value
  effects : ∀ subscription ∈ s.history.effects, ∃ payload, s.Genuine subscription.2 payload
  receipted : s.Receipted
  once : (s.history.effects.map fun subscription =>
    (subscription.1, s.history.origin subscription.2)).Nodup

theorem effect_stream {uuidOf : Json → Option UUID} {input : Input} {a : Await}
    (h : record ∈ (a.effect uuidOf s input).2.stream) :
    record ∈ s.stream ∨ ∃ event, a = .publish event ∧
      (record.eventId, record.payload) = (event.eventId, event.payload) := by
  by_cases hother : a.consumes
  · exact .inl ((effect_publication hother).stream ▸ h)
  cases a with
  | publish event =>
    rcases mem_append.mp h with hold | hnew
    · exact .inl hold
    · refine .inr ⟨event, rfl, ?_⟩
      rw [mem_singleton.mp hnew]
  | applyEvent | recordFailure => exact absurd trivial hother
  | _ => exact .inl h

theorem effect_origin {s : Store} {a : Await} :
    (a.effect uuidOf s input).2.history.origin = s.history.origin := by
  cases a with
  | applyEvent | recordFailure => exact (effect_publication (by trivial)).origin
  | _ => rfl

theorem Performed.origin (hperformed : Performed s operation s')
    (h : s.outbox.get? k ≠ none) : s'.history.origin k = s.history.origin k := by
  cases hperformed with
  | replayed deadLetterId eventId now letter _ _ _ hnew =>
    refine Function.update_of_ne ?_ _ _
    rintro rfl
    exact h hnew
  | refused | enqueued | requeued | swept => rfl

theorem perform_delivery {operation : Operation}
    (h : (operation.perform s).deliveries.get? key = some row) :
    ∃ old, s.deliveries.get? key = some old ∧ row.eventId = old.eventId := by
  rcases (operation.performed s).consumption with hsame | ⟨consumer, now, ids, rfl⟩
  · exact ⟨row, hsame.deliveries ▸ h, rfl⟩
  · simp only [Operation.perform, DeliveryConsumer.sweepStalled, get?_updateWhere,
      map_eq_some_iff] at h
    obtain ⟨old, hold, rfl⟩ := h
    refine ⟨old, hold, ?_⟩
    split <;> rfl

namespace Store.Traceable

variable {s : Store}

theorem effect (h : s.Traceable) (uuidOf : Json → Option UUID) (input : Input) {a : Await}
    (hawaits : payloadJournal.awaits s a)
    (happly : ∀ consumer record, a = .applyEvent consumer record → input.handlerError = none →
      s.receipts.get? (consumer.group, record.eventId) = none → ∀ other,
        s.receipts.get? (consumer.group, other) ≠ none →
          s.history.origin other ≠ s.history.origin record.eventId) :
    (a.effect uuidOf s input).2.Traceable := by
  have hkeep : ∀ {eventId payload}, s.Genuine eventId payload →
      (a.effect uuidOf s input).2.Genuine eventId payload := fun hs => hs.effect uuidOf input a
  have hconsumed := effect_consumed uuidOf s input a
  constructor
  · intro record hrecord
    rcases effect_stream hrecord with hold | ⟨event, rfl, hevent⟩
    · exact hkeep (h.stream record hold)
    · obtain ⟨hid, hpayload⟩ := Prod.mk.inj hevent
      rw [hid, hpayload]
      exact hkeep hawaits
  · intro key row hrow
    rcases hconsumed.delivery hrow with hold | ⟨consumer, record, error, now, rfl, hevent⟩
    · obtain ⟨payload, hgenuine⟩ := h.deliveries key row hold
      exact ⟨payload, hkeep hgenuine⟩
    · rw [hevent]
      exact ⟨record.payload, hkeep hawaits⟩
  · intro key letter hletter
    rcases effect_letter hletter with hold | hwritten
    · obtain ⟨payload, hgenuine, hreplay⟩ := h.letters key letter hold
      exact ⟨payload, hkeep hgenuine, hreplay⟩
    · cases hwritten with
      | publisher publisher event error now ha hkey hpayload =>
        subst ha
        rw [(Prod.mk.inj hkey).2, hpayload]
        exact ⟨event.payload, hkeep hawaits, fun _ => rfl⟩
      | consumer consumer record error now ha hkey hpayload =>
        subst ha
        rw [(Prod.mk.inj hkey).2, hpayload]
        exact ⟨record.payload, hkeep hawaits, fun _ => rfl⟩
  · intro subscription hmem
    rcases hconsumed.effects with hsame | ⟨consumer, record, rfl, -, -, happend⟩
    · obtain ⟨payload, hgenuine⟩ := h.effects subscription (hsame ▸ hmem)
      exact ⟨payload, hkeep hgenuine⟩
    · rw [happend] at hmem
      rcases mem_append.mp hmem with hold | hnew
      · obtain ⟨payload, hgenuine⟩ := h.effects subscription hold
        exact ⟨payload, hkeep hgenuine⟩
      · rw [mem_singleton.mp hnew]
        exact ⟨record.payload, hkeep hawaits⟩
  · exact hconsumed.receipted h.receipted
  · rw [effect_origin]
    rcases hconsumed.effects with hsame | ⟨consumer, record, rfl, hok, hnew, happend⟩
    · rw [hsame]
      exact h.once
    · rw [happend, map_append]
      refine Nodup.append h.once (nodup_singleton _) ?_
      -- an effect of the same origin has a receipt, which the condition excludes
      intro pair hold hlast
      obtain ⟨⟨group, other⟩, hmem, rfl⟩ := mem_map.mp hold
      obtain ⟨hgroup, horigin⟩ := Prod.mk.inj (mem_singleton.mp hlast)
      obtain rfl : group = consumer.group := hgroup
      exact happly consumer record rfl hok hnew other (h.receipted.receipt _ hmem) horigin

theorem perform (h : s.Traceable) {operation : Operation}
    (hsweep : ∀ consumer now ids, operation = .sweepStalled consumer now ids →
      ∀ row ∈ consumer.stalledDeliveries now s, ∀ event,
        s.outbox.get? row.eventId = some event → onlyMarker event.payload = true) :
    (operation.perform s).Traceable := by
  have hkeep : ∀ {eventId payload}, s.Genuine eventId payload →
      (operation.perform s).Genuine eventId payload := fun hs => hs.perform operation
  have heffects := (perform_receipts operation s).2
  constructor
  · intro record hrecord
    rw [(operation.performed s).stream] at hrecord
    exact hkeep (h.stream record hrecord)
  · intro key row hrow
    obtain ⟨old, hold, hevent⟩ := perform_delivery hrow
    obtain ⟨payload, hgenuine⟩ := h.deliveries key old hold
    exact ⟨payload, hkeep (hevent ▸ hgenuine)⟩
  · intro key letter hletter
    cases (operation.performed s).letterRow hletter with
    | same hold =>
      obtain ⟨payload, hgenuine, hreplay⟩ := h.letters key letter hold
      exact ⟨payload, hkeep hgenuine, hreplay⟩
    | resolved old now hold =>
      obtain ⟨payload, hgenuine, hreplay⟩ := h.letters key old hold
      exact ⟨payload, hkeep hgenuine, hreplay⟩
    | swept consumer now ids row ho hrow =>
      have hget := get?_of_mem (mem_filter.mp hrow).1
      obtain ⟨payload, event, hevent, rfl⟩ := h.deliveries _ row hget
      refine ⟨event.payload, hkeep ⟨event, hevent, rfl⟩, fun value => ?_⟩
      rw [updated_of_onlyMarker (hsweep consumer now ids ho row hrow event hevent)]
      rfl
  · intro subscription hmem
    rw [heffects] at hmem
    obtain ⟨payload, hgenuine⟩ := h.effects subscription hmem
    exact ⟨payload, hkeep hgenuine⟩
  · exact h.receipted.perform operation
  · rw [heffects]
    have hsame : s.history.effects.map (fun subscription =>
        (subscription.1, (operation.perform s).history.origin subscription.2)) =
          s.history.effects.map fun subscription =>
            (subscription.1, s.history.origin subscription.2) := by
      refine map_congr_left fun subscription hmem => ?_
      obtain ⟨payload, row, hrow, -⟩ := h.effects subscription hmem
      rw [(operation.performed s).origin (by rw [hrow]; simp)]
    rw [hsame]
    exact h.once

end Store.Traceable

end AutoSwe.Messaging
