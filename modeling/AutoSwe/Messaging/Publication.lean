import AutoSwe.Messaging.Steps

/-!
# Publication

A claim of an outbox row is its token: every later update of the claimant asks for it, and whatever
takes the row over or settles it removes it. So a row is published only by the holder of its claim
after the transport took the event, never together with being dead-lettered, and an open row is
claimable again after a bounded time (`outbox_neither_loses_nor_invents`). The dead letter of a
publisher is the one write without that guard (`late_failure_dead_letters`).
-/

namespace AutoSwe.Messaging

open Relational Coroutine LabelledRun Option

/-! ## One row -/

/-- A claimed row is open, and no row is both published and dead-lettered. -/
structure OutboxRow.Coherent (row : OutboxRow) : Prop where
  claimed : row.claimToken ≠ none → row.publishedAt = none ∧ row.deadLetteredAt = none
  settledOnce : row.publishedAt = none ∨ row.deadLetteredAt = none

/-- The times that keep an open row from being claimed are over. -/
def OutboxRow.DueBy (bound : Time) (row : OutboxRow) : Prop :=
  row.nextAttemptAt ≤ bound ∧ ∀ until_, row.claimedUntil = some until_ → until_ ≤ bound

theorem OutboxRow.carries_iff {row : OutboxRow} {event : ClaimedEvent} :
    row.carries event = true ↔
      row.eventId = event.eventId ∧ row.claimToken = some event.claimToken := by
  simp [OutboxRow.carries]

theorem OutboxRow.Coherent.open_of_carries {row : OutboxRow} (h : row.Coherent)
    (hcarries : row.carries event = true) :
    row.publishedAt = none ∧ row.deadLetteredAt = none :=
  h.claimed (by rw [(OutboxRow.carries_iff.mp hcarries).2]; simp)

theorem RowStep.coherent (h : RowStep tokens a old row) (hold : old.Coherent) : row.Coherent := by
  cases h with
  | same => exact hold
  | claimed publisher limit now ha hdue =>
    obtain ⟨hpublished, hdead, -⟩ := OutboxRow.claimable_iff.mp hdue
    exact ⟨fun _ => ⟨hpublished, hdead⟩, .inl hpublished⟩
  | published event now ha hclaim hopen =>
    exact ⟨fun h => absurd rfl h, .inr (hold.open_of_carries hclaim).2⟩
  | delayed publisher event error now ha hclaim =>
    exact ⟨fun h => absurd rfl h, .inl (hold.open_of_carries hclaim).1⟩
  | parked publisher event error now ha hclaim =>
    exact ⟨fun h => absurd rfl h, .inl (hold.open_of_carries hclaim).1⟩

theorem OperationRow.coherent (h : OperationRow operation s k row)
    (hbefore : ∀ old, s.outbox.get? k = some old → old.Coherent) : row.Coherent := by
  cases h with
  | same hrow => exact hbefore row hrow
  | enqueued => exact ⟨fun h => absurd rfl h, .inl rfl⟩
  | requeued => exact ⟨fun h => absurd rfl h, .inl rfl⟩

theorem coherent_of_step (h : ∀ k row, s.store.outbox.get? k = some row → row.Coherent)
    (hstep : Fleet.step (messaging uuidOf) s e = some s') :
    ∀ k row, s'.store.outbox.get? k = some row → row.Coherent := by
  intro k row hrow
  have hwrite := messaging_step hstep
  generalize s'.store = store at hwrite hrow
  cases hwrite with
  | none => exact h k row hrow
  | perform operation => exact ((operation.performed s.store).outboxRow hrow).coherent (h k)
  | effect =>
    obtain ⟨old, hold, hmove⟩ := effect_row hrow
    exact hmove.coherent (h k old hold)

/-! ## What a publisher knows of its claims -/

/-- The actions of a publisher are about claims it was given, and it marks an
event as published after the transport took it. `fits` is what is known of the
publisher and the clock of its batch, `named` of a consumer. -/
def claimJournal (fits : OutboxPublisher → Time → Prop) (named : DeliveryConsumer → Prop) :
    Growth Store Await Await.Result where
  le s s' := s.history.claims ⊆ s'.history.claims ∧ s.history.sent ⊆ s'.history.sent
  refl _ := ⟨fun _ => id, fun _ => id⟩
  trans h h' := ⟨fun _ hc => h'.1 (h.1 hc), fun _ hc => h'.2 (h.2 hc)⟩
  awaits
    | _, .claim publisher _ now => fits publisher now
    | s, .publish event => event ∈ s.history.claims
    | s, .markPublished event _ => event ∈ s.history.claims ∧ event ∈ s.history.sent
    | s, .retryLater publisher event _ now => event ∈ s.history.claims ∧ fits publisher now
    | s, .deadLetter publisher event _ now => event ∈ s.history.claims ∧ fits publisher now
    | _, .recordFailure consumer _ _ _ => named consumer
    | _, _ => True
  returns
    | s, .claim .., events => ∀ event ∈ events, event ∈ s.history.claims
    | s, .publish event, _ => event ∈ s.history.sent
    | _, _, _ => True

section
variable {fits : OutboxPublisher → Time → Prop} {named : DeliveryConsumer → Prop}

theorem publishBatch_journal (hfits : fits publisher now) :
    (publisher.publishBatch limit now).Keeps (claimJournal fits named) (fun _ _ => True) s := by
  refine publishBatch_keeps (fun _ _ => hfits) fun s₁ events _ hclaimed event hevent => ?_
  have hheld := hclaimed event hevent
  exact {
    publish := fun s₂ hs => hs.1 hheld
    markPublished := fun s₂ _ hs hsent s₃ hs' => ⟨hs'.1 (hs.1 hheld), hs'.2 hsent⟩
    retryLater := fun s₂ _ hs => ⟨hs.1 hheld, hfits⟩
    deadLetter := fun s₂ _ hs _ => ⟨hs.1 hheld, hfits⟩ }

theorem process_journal (hnamed : named consumer) :
    (consumer.process record now).Keeps (claimJournal fits named) (fun _ _ => True) s :=
  process_keeps (fun _ _ => trivial) (fun _ _ => trivial) (fun _ _ _ => hnamed) fun _ _ => trivial

theorem effect_journal :
    (claimJournal fits named).le s (a.effect uuidOf s input).2 ∧
      ∀ b, (a.effect uuidOf s input).1 = .ok b →
        (claimJournal fits named).returns (a.effect uuidOf s input).2 a b := by
  constructor
  · constructor
    · rw [effect_claims]
      exact List.subset_append_left _ _
    · rw [effect_sent]
      exact List.subset_append_left _ _
  · cases a with
    | claim =>
      rintro _ ⟨⟩ event hevent
      exact List.mem_append_right _ hevent
    | publish event =>
      exact fun _ _ => List.mem_append_right _ (List.mem_singleton_self event)
    | _ => exact fun _ _ => trivial

theorem perform_journal {operation : Operation} :
    (claimJournal fits named).le s (operation.perform s) := by
  obtain ⟨hclaims, hsent⟩ := (operation.performed s).history
  exact ⟨fun _ h => hclaims ▸ h, fun _ h => hsent ▸ h⟩

theorem messages_journal (hbatch : ∀ s i publisher limit now,
      permitted s (.spawn i (.publishBatch publisher limit now)) → fits publisher now)
    (hconsumer : ∀ s i consumer record now,
      permitted s (.spawn i (.process consumer record now)) → named consumer)
    (h : Reach (Fleet.step (messaging uuidOf)) permitted { store } s) :
    ∀ i m p, s.procs i = some (m, p) →
      p.Keeps (claimJournal fits named) (fun _ _ => True) s.store := by
  refine (Fleet.keeps (g := fun _ => claimJournal fits named) (J := fun _ => True)
    (Q := fun _ _ _ => True) (fun _ _ _ _ _ _ => trivial) trivial ?_ ?_ ?_ ?_ h).2
  · intro s i job hpermitted _
    cases job with
    | publishBatch publisher limit now =>
      refine (publishBatch_journal (hbatch s i _ _ _ hpermitted)).bind ?_
      exact fun _ _ _ _ => trivial
    | process consumer record now =>
      refine (process_journal (hconsumer s i _ _ _ hpermitted)).bind ?_
      exact fun _ _ _ _ => trivial
  · exact fun s operation _ _ => ⟨fun _ => perform_journal, trivial⟩
  · intro s i input job a next _ _ _ _
    obtain ⟨hle, hreturns⟩ := act_growth effect_journal
    exact ⟨⟨fun _ => hle, hreturns⟩, trivial⟩
  · exact fun s _ _ _ _ _ _ _ _ => ⟨fun _ => (claimJournal fits named).refl s.store, trivial⟩

end

/-! ## Runs -/

def Store.issued (s : Store) : List UUID := s.history.claims.map ClaimedEvent.claimToken

/-- The updates of the claimant still find its row. -/
def Store.live (s : Store) (event : ClaimedEvent) : Bool :=
  (s.outbox.get? event.eventId).any (·.carries event)

/-- No clock is past `now`, no publisher keeps an event for longer than `delay`,
and drawn tokens are new. -/
def Timely (now delay : Time) (s : Messages) : MessageEvent → Prop
  | .environment operation => operation.now ≤ now
  | .spawn _ (.publishBatch publisher _ started) =>
    started ≤ now ∧ publisher.claimTtl ≤ delay ∧ publisher.retryMax ≤ delay
  | .resume _ input =>
    (∀ row ∈ s.store.outbox.rows, input.tokens row.eventId ∉ s.store.issued) ∧
      (s.store.outbox.rows.map fun row => input.tokens row.eventId).Nodup
  | _ => True

/-- What a timely run keeps of the store. -/
structure Store.Orderly (bound : Time) (s : Store) : Prop where
  coherent : ∀ k row, s.outbox.get? k = some row → row.Coherent
  dueBy : ∀ k row, s.outbox.get? k = some row → row.DueBy bound
  issued : s.issued.Nodup

theorem issued_effect (uuidOf : Json → Option UUID) (s : Store) (input : Input) (a : Await)
    (hnew : ∀ row ∈ s.outbox.rows, input.tokens row.eventId ∉ s.issued)
    (hdistinct : (s.outbox.rows.map fun row => input.tokens row.eventId).Nodup)
    (h : s.issued.Nodup) : (a.effect uuidOf s input).2.issued.Nodup := by
  rw [Store.issued, effect_claims, List.map_append]
  cases a with
  | claim publisher limit now =>
    have hselected : (s.selectDue limit now).Sublist
        ((s.outbox.rows.filter (·.claimable now)).insertionSort claimedBefore) :=
      s.selectDue_sublist limit now
    have htokens : ((s.selectDue limit now).map fun row => input.tokens row.eventId).Nodup := by
      refine (hselected.map _).nodup ?_
      refine ((List.perm_insertionSort _ _).map _).nodup_iff.mpr ?_
      exact (List.filter_sublist.map _).nodup hdistinct
    have hhanded :
        ((Await.claim publisher limit now).handsOut s input).map ClaimedEvent.claimToken =
          (s.selectDue limit now).map fun row => input.tokens row.eventId := by
      simp [Await.handsOut, OutboxPublisher.claim, Function.comp_def]
    rw [hhanded]
    refine List.Nodup.append h htokens ?_
    intro token hissued hdrawn
    obtain ⟨row, hrow, rfl⟩ := List.mem_map.mp hdrawn
    have hdue := (s.selectDue_sublist limit now).subset hrow
    exact hnew row (Table.mem_of_get? (Store.mem_dueEvents.mp hdue).1) hissued
  | _ => simpa [Await.handsOut, Store.issued] using h

theorem RowStep.dueBy (h : RowStep tokens a old row) (hold : old.DueBy bound)
    (hclaim : ∀ publisher limit now, a = .claim publisher limit now →
      now + publisher.claimTtl ≤ bound)
    (hretry : ∀ publisher event error now, a = .retryLater publisher event error now →
      now + publisher.retryMax ≤ bound) : row.DueBy bound := by
  cases h with
  | same => exact hold
  | claimed publisher limit now ha =>
    refine ⟨hold.1, ?_⟩
    rintro _ ⟨⟩
    exact hclaim publisher limit now ha
  | published | parked => exact ⟨hold.1, fun _ h => by cases h⟩
  | delayed publisher event error now ha =>
    refine ⟨?_, fun _ h => by cases h⟩
    have hdelay : publisher.retryDelay event.attempt ≤ publisher.retryMax := min_le_right _ _
    exact (Int.add_le_add_left hdelay now).trans (hretry publisher event error now ha)

theorem OperationRow.dueBy (h : OperationRow operation s k row) (hnow : operation.now ≤ bound)
    (hbefore : ∀ old, s.outbox.get? k = some old → old.DueBy bound) : row.DueBy bound := by
  cases h with
  | same hrow => exact hbefore row hrow
  | enqueued => exact ⟨hnow, fun _ h => by cases h⟩
  | requeued => exact ⟨hnow, fun _ h => by cases h⟩

section
variable {uuidOf : Json → Option UUID} {now delay : Time} {s : Messages}

theorem timely_awaits (h : Reach (Fleet.step (messaging uuidOf)) (Timely now delay) { store } s)
    (hproc : s.procs i = some (job, .await a next)) :
    (claimJournal (fun publisher started =>
      started ≤ now ∧ publisher.claimTtl ≤ delay ∧ publisher.retryMax ≤ delay)
      fun _ => True).awaits s.store a :=
  Fleet.awaits (messages_journal (fun _ _ _ _ _ h => h) (fun _ _ _ _ _ _ => trivial) h) hproc

theorem orderly_of_reach (hdelay : 0 ≤ delay)
    (h : Reach (Fleet.step (messaging uuidOf)) (Timely now delay) { store := {} } s) :
    s.store.Orderly (now + delay) := by
  induction h with
  | start =>
    refine ⟨?_, ?_, List.nodup_nil⟩ <;>
    · intro k row h
      cases h
  | @next s s' e hbefore hpermitted hstep ih =>
    have hwrite := messaging_step hstep
    refine ⟨coherent_of_step ih.coherent hstep, ?_, ?_⟩
    · intro k row hrow
      generalize s'.store = store at hwrite hrow
      cases hwrite with
      | none => exact ih.dueBy k row hrow
      | perform operation he =>
        subst he
        refine ((operation.performed s.store).outboxRow hrow).dueBy (hpermitted.trans ?_)
          (ih.dueBy k)
        exact Int.le_add_of_nonneg_right hdelay
      | effect i input job a next he hproc =>
        obtain ⟨old, hold, hmove⟩ := effect_row hrow
        have hawaits := timely_awaits hbefore hproc
        refine hmove.dueBy (ih.dueBy k old hold) ?_ ?_
        · rintro publisher limit started rfl
          obtain ⟨hnow, httl, -⟩ := hawaits
          exact Int.add_le_add hnow httl
        · rintro publisher event error started rfl
          obtain ⟨-, hnow, -, hretry⟩ := hawaits
          exact Int.add_le_add hnow hretry
    · generalize s'.store = store at hwrite
      cases hwrite with
      | none => exact ih.issued
      | perform operation he =>
        rw [Store.issued, ((operation.performed s.store).history).1]
        exact ih.issued
      | effect i input job a next he hproc =>
        subst he
        exact issued_effect uuidOf s.store input a hpermitted.1 hpermitted.2 ih.issued

end

theorem Store.live_iff {s : Store} {event : ClaimedEvent} : s.live event = true ↔
    ∃ row, s.outbox.get? event.eventId = some row ∧ row.claimToken = some event.claimToken := by
  rw [Store.live, any_eq_true]
  constructor
  · rintro ⟨row, hrow, hcarries⟩
    exact ⟨row, hrow, (OutboxRow.carries_iff.mp hcarries).2⟩
  · rintro ⟨row, hrow, htoken⟩
    exact ⟨row, hrow, OutboxRow.carries_iff.mpr ⟨Store.eventId_of_get? hrow, htoken⟩⟩

/-- An open row is claimed by a publisher that comes late enough. -/
theorem OutboxRow.DueBy.claimed (h : OutboxRow.DueBy bound row)
    (hrow : s.outbox.get? k = some row) (hpublished : row.publishedAt = none)
    (hdead : row.deadLetteredAt = none) (hlater : bound ≤ later)
    (hlimit : ((s.dueEvents later).length : Int) ≤ limit) (publisher : OutboxPublisher)
    (tokens : UUID → UUID) :
    ∃ event ∈ (publisher.claim limit later tokens s).1, event.eventId = k := by
  have hkey := Store.eventId_of_get? hrow
  rw [OutboxPublisher.mem_claim, Store.selectDue_all hlimit]
  refine ⟨row, Store.mem_dueEvents.mpr ⟨hkey ▸ hrow, ?_⟩, hkey⟩
  exact OutboxRow.claimable_iff.mpr ⟨hpublished, hdead, h.1.trans hlater,
    fun until_ huntil => (h.2 until_ huntil).trans hlater⟩

/-- In every state of a run in which no clock is past `now` and no publisher
keeps or delays an event for longer than `delay`: a step that publishes a row is
of the holder of the row's claim, after the transport took the event; no row is
both published and dead-lettered; at most one of the claims of an event is live;
and from `now + delay` on every open row is claimed. -/
theorem outbox_neither_loses_nor_invents (uuidOf : Json → Option UUID) (now delay : Time)
    (hdelay : 0 ≤ delay) {s : Messages}
    (hreach : Reach (Fleet.step (messaging uuidOf)) (Timely now delay) { store := {} } s) :
    (∀ e s', Timely now delay s e → Fleet.step (messaging uuidOf) s e = some s' →
      ∀ k row, s'.store.outbox.get? k = some row → row.publishedAt ≠ none →
        ∃ old, s.store.outbox.get? k = some old ∧ (old.publishedAt ≠ none ∨
          ∃ event ∈ s.store.history.sent, event ∈ s.store.history.claims ∧ event.eventId = k ∧
            old.claimToken = some event.claimToken)) ∧
    (∀ k row, s.store.outbox.get? k = some row →
      row.publishedAt = none ∨ row.deadLetteredAt = none) ∧
    (∀ event ∈ s.store.history.claims, ∀ other ∈ s.store.history.claims,
      event.eventId = other.eventId → s.store.live event = true → s.store.live other = true →
        event = other) ∧
    ∀ k row, s.store.outbox.get? k = some row → row.publishedAt = none →
      row.deadLetteredAt = none → ∀ later, now + delay ≤ later → ∀ limit : Int,
        (s.store.dueEvents later).length ≤ limit → ∀ publisher tokens,
          ∃ event ∈ (OutboxPublisher.claim publisher limit later tokens s.store).1,
            event.eventId = k := by
  have horderly := orderly_of_reach hdelay hreach
  refine ⟨?_, fun k row hrow => (horderly.coherent k row hrow).settledOnce, ?_, ?_⟩
  · intro e s' _ hstep k row hrow hpublished
    have hwrite := messaging_step hstep
    generalize s'.store = store at hwrite hrow
    cases hwrite with
    | none => exact ⟨row, hrow, .inl hpublished⟩
    | perform operation =>
      cases (operation.performed s.store).outboxRow hrow with
      | same hsame => exact ⟨row, hsame, .inl hpublished⟩
      | enqueued => exact absurd rfl hpublished
      | requeued => exact absurd rfl hpublished
    | effect i input job a next he hproc =>
      obtain ⟨old, hold, hmove⟩ := effect_row hrow
      refine ⟨old, hold, ?_⟩
      cases hmove with
      | published event started ha hclaim hopen =>
        subst ha
        obtain ⟨hclaimed, hsent⟩ := timely_awaits hreach hproc
        obtain ⟨hevent, htoken⟩ := OutboxRow.carries_iff.mp hclaim
        exact .inr ⟨event, hsent, hclaimed,
          hevent.symm.trans (Store.eventId_of_get? hold), htoken⟩
      | same | claimed | delayed | parked => exact .inl hpublished
  · intro event hevent other hother hsame hlive hlive'
    obtain ⟨row, hrow, htoken⟩ := Store.live_iff.mp hlive
    obtain ⟨row', hrow', htoken'⟩ := Store.live_iff.mp hlive'
    rw [← hsame, hrow] at hrow'
    cases hrow'
    have htokens : event.claimToken = other.claimToken :=
      some.inj (htoken.symm.trans htoken')
    exact List.inj_on_of_nodup_map horderly.issued hevent hother htokens
  · intro k row hrow hpublished hdead later hlater limit hlimit publisher tokens
    exact (horderly.dueBy k row hrow).claimed hrow hpublished hdead hlater hlimit publisher tokens

instance (now delay : Time) (s : Messages) (e : MessageEvent) : Decidable (Timely now delay s e) :=
  match e with
  | .environment operation => inferInstanceAs (Decidable (operation.now ≤ now))
  | .spawn _ (.publishBatch publisher _ started) => inferInstanceAs
      (Decidable (started ≤ now ∧ publisher.claimTtl ≤ delay ∧ publisher.retryMax ≤ delay))
  | .resume _ input => inferInstanceAs (Decidable (
      (∀ row ∈ s.store.outbox.rows, input.tokens row.eventId ∉ s.store.issued) ∧
        (s.store.outbox.rows.map fun row => input.tokens row.eventId).Nodup))
  | .spawn _ (.process _ _ _) => isTrue trivial
  | .aside _ _ => isTrue trivial

def sampleMessages : Messages → MessageEvent → Option Messages :=
  Fleet.step (messaging fun _ => none)

/-- A publisher claims the sample event and crashes. -/
def sampleCrash : List MessageEvent :=
  [.environment (.enqueue sampleEvent 0), .spawn 1 (.publishBatch samplePublisher 10 0),
    .resume 1 { tokens := fun _ => 7 }]

/-- Five minutes after the crash the event is claimed again. -/
theorem outbox_neither_loses_nor_invents_sample : ∃ s : Messages,
    (s.store.outbox.get? 1).any (fun row => row.claimToken = some 7) ∧
      ∃ event ∈ (samplePublisher.claim 1 300000000 (fun _ => 8) s.store).1, event.eventId = 1 := by
  obtain ⟨-, -, -, hclaimed⟩ := outbox_neither_loses_nor_invents (fun _ => none) 0 300000000
    (by decide) (.checked (fun _ _ => of_decide_eq_true) sampleCrash (by decide +kernel))
  exact ⟨_, by decide +kernel, hclaimed 1 _ (eq_some_get (by decide +kernel)) (by decide +kernel)
    (by decide +kernel) 300000000 (by decide) 1 (by decide +kernel) samplePublisher fun _ => 8⟩

/-! ## Dead letters of publishers -/

/-- A publisher's dead letter is of an event that is parked and not published. -/
def Store.LettersParked (s : Store) : Prop :=
  ∀ key letter, s.deadLetters.get? key = some letter →
    (∃ publisher : OutboxPublisher, letter.consumer = publisher.deadLetterConsumer) →
      ∃ row, s.outbox.get? letter.eventId = some row ∧ row.deadLetteredAt ≠ none ∧
        row.publishedAt = none

/-- A publisher dead-letters an event while its claim is live, and consumers do
not use the names of publishers. -/
def ParksOwnClaim (s : Messages) : MessageEvent → Prop
  | .resume i input => ∀ job publisher event error now next,
      s.procs i = some (job, .await (.deadLetter publisher event error now) next) →
        (input.fault.isNone ∨ input.reached) → s.store.live event = true
  | .spawn _ (.process consumer _ _) | .environment (.sweepStalled consumer _ _) =>
      ∀ publisher : OutboxPublisher, consumer.consumer ≠ publisher.deadLetterConsumer
  | _ => True

theorem RowStep.eq_of_parked (h : RowStep tokens a old row) (hold : old.Coherent)
    (hdead : old.deadLetteredAt ≠ none) : row = old := by
  cases h with
  | same => rfl
  | claimed publisher limit now ha hdue =>
    exact absurd (OutboxRow.claimable_iff.mp hdue).2.1 hdead
  | published event now ha hclaim => exact absurd (hold.open_of_carries hclaim).2 hdead
  | delayed publisher event error now ha hclaim =>
    exact absurd (hold.open_of_carries hclaim).2 hdead
  | parked publisher event error now ha hclaim =>
    exact absurd (hold.open_of_carries hclaim).2 hdead

/-- A parked row stays parked and unpublished. -/
theorem parked_of_effect {uuidOf : Json → Option UUID} {input : Input} {a : Await}
    (hrow : s.outbox.get? k = some row) (hcoherent : row.Coherent)
    (hdead : row.deadLetteredAt ≠ none) : (a.effect uuidOf s input).2.outbox.get? k = some row := by
  have hsome : ((a.effect uuidOf s input).2.outbox.get? k).isSome := by
    rw [effect_row_isSome, hrow]
    rfl
  obtain ⟨row', hrow'⟩ := isSome_iff_exists.mp hsome
  obtain ⟨old, hold, hmove⟩ := effect_row hrow'
  rw [hrow] at hold
  cases hold
  rw [hrow', hmove.eq_of_parked hcoherent hdead]

theorem parked_of_perform (operation : Operation) (hrow : s.outbox.get? k = some row)
    (hdead : row.deadLetteredAt ≠ none) (hpublished : row.publishedAt = none) :
    ∃ row', (operation.perform s).outbox.get? k = some row' ∧ row'.deadLetteredAt ≠ none ∧
      row'.publishedAt = none := by
  obtain ⟨row', hrow'⟩ := isSome_iff_exists.mp ((operation.performed s).row_isSome hrow)
  refine ⟨row', hrow', ?_⟩
  cases (operation.performed s).outboxRow hrow' with
  | same hsame =>
    rw [hrow] at hsame
    cases hsame
    exact ⟨hdead, hpublished⟩
  | enqueued event hnew =>
    rw [hrow] at hnew
    cases hnew
  | requeued old ho hold =>
    rw [hrow] at hold
    cases hold
    exact ⟨hdead, rfl⟩

theorem deadLetter_parks {publisher : OutboxPublisher} {error : String} {now : Time} {id : UUID}
    (hlive : s.live event = true) (hcoherent : ∀ k row, s.outbox.get? k = some row → row.Coherent) :
    ∃ row, (publisher.deadLetter event error now id s).outbox.get? event.eventId = some row ∧
      row.deadLetteredAt ≠ none ∧ row.publishedAt = none := by
  obtain ⟨row, hrow, htoken⟩ := Store.live_iff.mp hlive
  have hcarries : row.carries event = true :=
    OutboxRow.carries_iff.mpr ⟨Store.eventId_of_get? hrow, htoken⟩
  have hopen := (hcoherent _ row hrow).open_of_carries hcarries
  refine ⟨{ row with
    deadLetteredAt := some now, lastError := some (errorColumn error) }.released, ?_, ?_, hopen.1⟩
  · rw [OutboxPublisher.deadLetter, Table.get?_updateWhere, hrow, map_some, if_pos hcarries]
  · simp [OutboxRow.released]

theorem consumer_named (h : Reach (Fleet.step (messaging uuidOf)) ParksOwnClaim { store } s)
    (hproc : s.procs i = some (job, .await (.recordFailure consumer record error now) next))
    {publisher : OutboxPublisher} : consumer.consumer ≠ publisher.deadLetterConsumer := by
  have hjournal : ∀ i m p, s.procs i = some (m, p) → p.Keeps (claimJournal (fun _ _ => True)
      fun consumer => ∀ publisher : OutboxPublisher,
        consumer.consumer ≠ publisher.deadLetterConsumer) (fun _ _ => True) s.store :=
    messages_journal (fun _ _ _ _ _ _ => trivial) (fun _ _ _ _ _ h => h) h
  exact Fleet.awaits hjournal hproc publisher

/-- Over every run of publishers, consumers, requeues and replays in which a
publisher dead-letters only under a live claim, a publisher's dead letter belongs
to an event that is dead-lettered and not published. -/
theorem publisher_letters_parked (uuidOf : Json → Option UUID) {s : Messages}
    (hreach : Reach (Fleet.step (messaging uuidOf)) ParksOwnClaim { store := {} } s) :
    s.store.LettersParked := by
  have hinvariant : (∀ k row, s.store.outbox.get? k = some row → row.Coherent) ∧
      s.store.LettersParked := by
    induction hreach with
    | start =>
      constructor
      · intro k row h
        cases h
      · intro key letter h
        cases h
    | @next s s' e hbefore hpermitted hstep ih =>
      obtain ⟨hcoherent, hparked⟩ := ih
      refine ⟨coherent_of_step hcoherent hstep, fun key letter hletter hpublisher => ?_⟩
      have hwrite := messaging_step hstep
      generalize s'.store = store at hwrite hletter
      cases hwrite with
      | none => exact hparked key letter hletter hpublisher
      | perform operation he =>
        subst he
        cases (operation.performed s.store).letterRow hletter with
        | same hold =>
          obtain ⟨row, hrow, hdead, hopen⟩ := hparked key letter hold hpublisher
          exact parked_of_perform operation hrow hdead hopen
        | resolved old now hold =>
          obtain ⟨row, hrow, hdead, hopen⟩ := hparked key old hold hpublisher
          exact parked_of_perform operation hrow hdead hopen
        | swept consumer now ids row ho hrow =>
          subst ho
          obtain ⟨publisher, hname⟩ := hpublisher
          exact absurd hname (hpermitted publisher)
      | effect i input job a next he hproc htook =>
        subst he
        rcases effect_letter hletter with hold | hwritten
        · obtain ⟨row, hrow, hdead, hopen⟩ := hparked key letter hold hpublisher
          exact ⟨row, parked_of_effect hrow (hcoherent _ row hrow) hdead, hdead,
            hopen⟩
        · cases hwritten with
          | publisher publisher event error now ha hwritten =>
            subst ha
            have hlive := hpermitted job publisher event error now next hproc htook
            have hevent : letter.eventId = event.eventId := congrArg Prod.snd hwritten
            rw [hevent]
            exact deadLetter_parks hlive hcoherent
          | consumer consumer record error now ha hwritten =>
            subst ha
            obtain ⟨publisher, hname⟩ := hpublisher
            exact absurd ((congrArg Prod.fst hwritten).symm.trans hname)
              (consumer_named hbefore hproc)
  exact hinvariant.2

/-- The publisher of the crash resumes after its claim was taken over. -/
def sampleTakenOver : List MessageEvent :=
  sampleCrash ++ [.spawn 2 (.publishBatch { publisherId := "q" } 10 40000000),
    .resume 2 { tokens := fun _ => 8 }, .resume 2 {}, .resume 2 {}]

def sampleLateFailure : List MessageEvent :=
  sampleTakenOver ++ [.resume 1 { fault := some (.raised "refused") }, .resume 1 { letterId := 9 }]

def parksOwnClaim (s : Messages) : MessageEvent → Bool
  | .resume i _ =>
    match s.procs i with
    | some (_, .await (.deadLetter _ event _ _) _) => s.store.live event
    | _ => true
  | .spawn _ (.process _ _ _) | .environment (.sweepStalled _ _ _) => false
  | _ => true

theorem parksOwnClaim_of_check (s : Messages) (e : MessageEvent) (h : parksOwnClaim s e = true) :
    ParksOwnClaim s e := by
  cases e with
  | environment operation => cases operation <;> trivial
  | spawn i job => cases job <;> trivial
  | resume =>
    intro job publisher event error now next hproc _
    simpa only [parksOwnClaim, hproc] using h
  | aside => trivial

/-- A publisher gives up within its claim. -/
theorem publisher_letters_parked_sample : ∃ s : Messages,
    (s.store.deadLetters.get? ("outbox:p", 1)).isSome ∧ s.store.LettersParked := by
  refine ⟨_, ?_, publisher_letters_parked (fun _ => none)
    (.checked parksOwnClaim_of_check (sampleCrash ++
      [.resume 1 { fault := some (.raised "refused") }, .resume 1 { letterId := 9 }]) ?_)⟩
  on_goal 2 => decide +kernel
  decide +kernel

/-- The event that the first publisher gives up on was published by the second. -/
theorem late_failure_dead_letters : ∃ s : Messages,
    Reach sampleMessages (fun _ _ => True) { store := {} } s ∧
      (s.store.deadLetters.get? (samplePublisher.deadLetterConsumer, 1)).isSome ∧
      ∃ row, s.store.outbox.get? 1 = some row ∧ row.deadLetteredAt = none ∧
        row.publishedAt = some 40000000 :=
  ⟨_, .run sampleLateFailure (fun _ _ _ => trivial) (by decide +kernel), by decide +kernel, _,
    eq_some_get (by decide +kernel), by decide +kernel, by decide +kernel⟩

end AutoSwe.Messaging
