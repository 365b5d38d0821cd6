import EventLedger.EventGateway.Consistency

namespace EventLedger.EventGateway
open Library Python

variable {storage : Storage} {settings : Settings} {db next : Database} {process : Process}

/-- A delivery matches its event in every transaction field. -/
structure PendingDelivery.Matches (delivery : PendingDelivery) (event : Event) : Prop where
  eventId : delivery.eventId = event.eventId
  accountId : delivery.accountId = event.accountId
  payloadEventId : delivery.payloadJson.eventId = event.eventId
  payloadAccountId : delivery.payloadJson.accountId = event.accountId
  payloadType : delivery.payloadJson.type = event.type
  payloadAmount : delivery.payloadJson.amount = event.amount
  payloadCurrency : delivery.payloadJson.currency = event.currency

/-- An entry is matching when its event holds the payload of its delivery. -/
def Entry.Matching (storage : Storage) (entry : Entry) : Prop :=
  ∀ event delivery, entry.event = some event → entry.delivery = some delivery →
    delivery.eventId = event.eventId ∧ delivery.accountId = event.accountId ∧
      event.Holds storage delivery.payloadJson

/-- Every move keeps entries matching. -/
theorem Entry.Move.matching {before after : Entry} (move : Entry.Move storage before after)
    (matching : before.Matching storage) : after.Matching storage := by
  intro event delivery present queued
  cases move with
  | insert | settle | dequeue => cases queued
  | queue submission now =>
      obtain rfl := Option.some.inj present
      obtain rfl := Option.some.inj queued
      exact ⟨rfl, rfl, (submission.row_holds storage).withStatus .queued⟩
  | reschedule _ earlier =>
      obtain rfl := Option.some.inj present
      obtain rfl := Option.some.inj queued
      exact matching _ earlier rfl rfl

theorem Database.Moves.matching (moves : db.Moves storage next)
    (matching : ∀ eventId, (db.entry eventId).Matching storage) (eventId : String) :
    (next.entry eventId).Matching storage := by
  rcases moves with same | ⟨moved, move, others⟩
  · rw [same]
    exact matching eventId
  · by_cases own : eventId = moved
    · subst own
      exact move.matching (matching eventId)
    · rw [others eventId own]
      exact matching eventId

theorem matching_of_reachable (reached : (gateway storage settings).Reachable process)
    (eventId : String) : (process.db.entry eventId).Matching storage := by
  refine reached.invariant (fun process => ∀ eventId, (process.db.entry eventId).Matching storage)
    (fun eventId event _ present => by cases present)
    (fun state action after before matching taken => ?_) eventId
  exact ((consistent_of_reachable before).step taken).2.matching matching

/-- The worker sends the payload of the event that it holds. -/
theorem eventId_of_held {delivery : PendingDelivery} {event : Event}
    (reached : (gateway storage settings).Reachable process)
    (held : process.worker.held = some (delivery, event)) :
    event.eventId = delivery.payloadJson.eventId := by
  have current := ((consistent_of_reachable reached).current delivery event held).2
  obtain ⟨_, _, holds⟩ := matching_of_reachable reached event.eventId event delivery
    (congrArg Entry.event current) (congrArg Entry.delivery current)
  exact holds.eventId

/-- A column that keeps amounts lets the delivery match its event in every field. -/
theorem Event.Holds.matches (lossless : storage.Exact) {event : Event} {delivery : PendingDelivery}
    (own : delivery.eventId = event.eventId) (account : delivery.accountId = event.accountId)
    (holds : event.Holds storage delivery.payloadJson) : delivery.Matches event :=
  ⟨own, account, holds.eventId.symm, holds.accountId.symm, holds.type.symm,
    by rw [holds.amount, lossless], holds.currency.symm⟩

/-- The queue holds exactly the queued events, each delivery matches its event, and the worker
never finds a delivery without its event. -/
structure Database.QueueConsistent (db : Database) : Prop where
  queued : ∀ eventId, (∃ delivery, db.deliveries.get eventId = some delivery) ↔
    ∃ event, db.events.get eventId = some event ∧ event.processingStatus = .queued
  matching : ∀ eventId event delivery, db.events.get eventId = some event →
    db.deliveries.get eventId = some delivery → delivery.Matches event
  noOrphan : ∀ eventId work, take db eventId ≠ .orphan work

/-- The queue is consistent in every reachable state. -/
theorem queue_consistent (lossless : storage.Exact)
    (reached : (gateway storage settings).Reachable process) : process.db.QueueConsistent := by
  have valid := (consistent_of_reachable reached).valid
  refine ⟨fun eventId => ?_, fun eventId event delivery present queued => ?_,
    fun eventId work orphan => ?_⟩
  · rw [← Option.isSome_iff_exists]
    exact valid eventId
  · obtain ⟨own, account, holds⟩ :=
      matching_of_reachable reached eventId event delivery present queued
    exact holds.matches lossless own account
  · unfold take at orphan
    split at orphan
    · cases orphan
    · next delivery present =>
        split at orphan
        · next missing =>
            have empty := congrArg Entry.delivery ((valid eventId).absent missing)
            exact absurd (present.symm.trans empty) (by simp)
        · cases orphan

/-- The event is queued, its first attempt is rescheduled, and the process restarts. -/
def queuedThenCrashed : List Action :=
  [.arrive 0 ⟨creditX.event, "trace"⟩, .advance 0, .advance 0, .advance 0,
    .resume 0 (.unavailable "timeout") 0, .poll 0, .take "fresh",
    .deliver (.unavailable "timeout") 0 .zero, .crash]

theorem queue_consistent_crashed : ∃ state,
    (gateway .wallClock .default).run (gateway .wallClock .default).initial queuedThenCrashed = some state ∧
      state.db.QueueConsistent := by
  obtain ⟨state, ran⟩ := Option.isSome_iff_exists.mp
    (show ((gateway .wallClock .default).run (gateway .wallClock .default).initial
      queuedThenCrashed).isSome by decide)
  exact ⟨state, ran,
    queue_consistent Storage.wallClock_exact (Machine.reachable_of_run queuedThenCrashed .initial ran)⟩

end EventLedger.EventGateway
