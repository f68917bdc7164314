import AutoSwe.Persistence.GraphExecutions
import AutoSwe.Persistence.Writes

/-!
# The events that a session adds

Audit events and outbox messages are only ever added. `Grown P Q` says that every
audit event that was added is like `P`, and every message like `Q`.
-/

namespace AutoSwe

open List

/-- The events of `db` are still there, and the new ones are like `P` and `Q`. -/
structure Grown (P : AuditEventRow → Prop) (Q : OutboxRow → Prop) (db db' : Database) :
    Prop where
  audit : ∃ events, db'.auditEvents = db.auditEvents ++ events ∧ ∀ event ∈ events, P event
  outbox : ∃ messages, db'.outbox = db.outbox ++ messages ∧ ∀ message ∈ messages, Q message

namespace Grown

variable {P : AuditEventRow → Prop} {Q : OutboxRow → Prop}

theorem of_same (haudit : db'.auditEvents = db.auditEvents)
    (houtbox : db'.outbox = db.outbox) : Grown P Q db db' :=
  ⟨⟨[], by simp [haudit]⟩, [], by simp [houtbox]⟩

theorem refl (db : Database) : Grown P Q db db := of_same rfl rfl

theorem trans (h : Grown P Q a b) (h' : Grown P Q b c) : Grown P Q a c := by
  obtain ⟨⟨events, haudit, hevents⟩, messages, houtbox, hmessages⟩ := h
  obtain ⟨⟨events', haudit', hevents'⟩, messages', houtbox', hmessages'⟩ := h'
  refine ⟨⟨events ++ events', by rw [haudit', haudit, append_assoc], ?_⟩,
    messages ++ messages', by rw [houtbox', houtbox, append_assoc], ?_⟩
  · exact fun event hmem => (mem_append.mp hmem).elim (hevents event) (hevents' event)
  · exact fun message hmem => (mem_append.mp hmem).elim (hmessages message)
      (hmessages' message)

theorem appendAudit (db : Database) (h : P row) :
    Grown P Q db { db with auditEvents := db.auditEvents ++ [row] } :=
  ⟨⟨[row], rfl, by simpa using h⟩, [], by simp⟩

theorem enqueueEvent (db : Database) (h : Q row) :
    Grown P Q db { db with outbox := db.outbox ++ [row] } :=
  ⟨⟨[], by simp⟩, [row], rfl, by simpa using h⟩

end Grown

end AutoSwe
