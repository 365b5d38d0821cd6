import EventLedger.EventGateway.EventService

namespace EventLedger.EventGateway
open Library Python

variable {storage : Storage} {db next : Database} {eventId : String}

/-- An entry holds what the two tables know about one event id. -/
@[ext] structure Entry where
  event : Option Event
  delivery : Option PendingDelivery

def Database.entry (db : Database) (eventId : String) : Entry :=
  ⟨db.events.get eventId, db.deliveries.get eventId⟩

/-- An entry is valid when it has a delivery exactly while its event is `QUEUED`. -/
def Entry.Valid (entry : Entry) : Prop :=
  entry.delivery.isSome ↔ ∃ event, entry.event = some event ∧ event.processingStatus = .queued

/-- An applied or failed event is final. -/
def ProcessingStatus.final : ProcessingStatus → Bool
  | .applied | .failed => true
  | .pending | .queued => false

/-- This delivery enters the queue when a submit finds the Account Service unavailable. -/
def Submission.delivery (submission : Submission) (now : Rat) : PendingDelivery where
  eventId := submission.command.eventId
  accountId := submission.command.accountId
  payloadJson := submission.payload
  traceId := submission.traceId
  attemptCount := 0
  nextAttemptAt := now
  lastError := none

/-- This row is what a submit reads back after it stored its event. -/
def Submission.row (storage : Storage) (submission : Submission) : Event :=
  submission.event.stored storage

def Event.withStatus (event : Event) (status : ProcessingStatus) : Event :=
  { event with processingStatus := status }

/-- An event holds the transaction data of a payload as the columns store them. -/
structure Event.Holds (storage : Storage) (event : Event) (payload : Payload) : Prop where
  eventId : event.eventId = payload.eventId
  accountId : event.accountId = payload.accountId
  type : event.type = payload.type
  amount : event.amount = storage.numeric payload.amount
  currency : event.currency = payload.currency

theorem Submission.row_holds (storage : Storage) (submission : Submission) :
    (submission.row storage).Holds storage submission.payload :=
  ⟨rfl, rfl, rfl, rfl, rfl⟩

/-- An event in a later status holds the same data. -/
theorem Event.Holds.withStatus {event : Event} {payload : Payload}
    (holds : event.Holds storage payload) (status : ProcessingStatus) :
    (event.withStatus status).Holds storage payload :=
  ⟨holds.eventId, holds.accountId, holds.type, holds.amount, holds.currency⟩

/-- The life of an event has these five moves. -/
inductive Entry.Move (storage : Storage) : Entry → Entry → Prop where
  | insert (submission : Submission) :
      Move storage ⟨none, none⟩ ⟨some (submission.row storage), none⟩
  | settle (submission : Submission) (status : ProcessingStatus) (final : status.final) :
      Move storage ⟨some (submission.row storage), none⟩
        ⟨some ((submission.row storage).withStatus status), none⟩
  | queue (submission : Submission) (now : Rat) :
      Move storage ⟨some (submission.row storage), none⟩
        ⟨some ((submission.row storage).withStatus .queued), some (submission.delivery now)⟩
  | reschedule (event : Event) (delivery : PendingDelivery) (attemptCount : Nat)
      (lastError : String) (nextAttemptAt : Rat) (queued : event.processingStatus = .queued) :
      Move storage ⟨some event, some delivery⟩
        ⟨some event, some { delivery with
          attemptCount := attemptCount
          lastError := some lastError
          nextAttemptAt := nextAttemptAt }⟩
  | dequeue (event : Event) (delivery : PendingDelivery) (status : ProcessingStatus)
      (queued : event.processingStatus = .queued) (final : status.final) :
      Move storage ⟨some event, some delivery⟩ ⟨some (event.withStatus status), none⟩

/-- One commit moves at most one entry. -/
def Database.Moves (storage : Storage) (db next : Database) : Prop :=
  (∀ eventId, next.entry eventId = db.entry eventId) ∨
    ∃ eventId, Entry.Move storage (db.entry eventId) (next.entry eventId) ∧
      ∀ other, other ≠ eventId → next.entry other = db.entry other

theorem Entry.valid_empty : (Entry.mk none none).Valid := by
  simp [Valid]

/-- Every move leads to a valid entry. -/
theorem Entry.Move.valid {before after : Entry} (move : Entry.Move storage before after) :
    after.Valid := by
  cases move with
  | insert submission => simp [Valid, Submission.row, Event.stored, Submission.event]
  | settle submission status final =>
      cases status <;> simp_all [Valid, Event.withStatus, ProcessingStatus.final]
  | queue submission now => simp [Valid, Event.withStatus]
  | reschedule event delivery _ _ _ queued => simp [Valid, queued]
  | dequeue event delivery status queued final =>
      cases status <;> simp_all [Valid, Event.withStatus, ProcessingStatus.final]

/-- A valid entry without an event has no delivery. -/
theorem Entry.Valid.absent {entry : Entry} (valid : entry.Valid) (absent : entry.event = none) :
    entry = ⟨none, none⟩ := by
  refine Entry.ext absent ?_
  cases queued : entry.delivery with
  | none => rfl
  | some delivery =>
      obtain ⟨event, present, _⟩ := valid.mp (by rw [queued]; rfl)
      rw [absent] at present
      cases present

/-- A valid entry with a delivery has a queued event. -/
theorem Entry.Valid.queued {event : Event} {delivery : PendingDelivery}
    (valid : (Entry.mk (some event) (some delivery)).Valid) :
    event.processingStatus = .queued := by
  obtain ⟨other, present, queued⟩ := valid.mp rfl
  obtain rfl := Option.some.inj present
  exact queued

/-- A valid entry whose event is not queued has no delivery. -/
theorem Entry.Valid.unqueued {event : Event} {delivery : Option PendingDelivery}
    (valid : (Entry.mk (some event) delivery).Valid)
    (other : event.processingStatus ≠ .queued) : delivery = none := by
  cases delivery with
  | none => rfl
  | some delivery => exact absurd valid.queued other

/-- A commit flushes both tables and appends its records. -/
theorem Database.commit_eq_some {work : Work} (committed : db.commit storage work = some next) :
    EventWrite.flush storage db.events work.event = some next.events ∧
      DeliveryWrite.flush db.deliveries work.delivery = some next.deliveries ∧
      next.audit = db.audit ++ work.records := by
  obtain ⟨events, eventsFlushed, rest⟩ := Option.bind_eq_some_iff.mp committed
  obtain ⟨deliveries, deliveriesFlushed, same⟩ := Option.bind_eq_some_iff.mp rest
  obtain rfl := Option.some.inj same
  exact ⟨eventsFlushed, deliveriesFlushed, rfl⟩

/-- Audit records alone move no entry. -/
theorem Database.commit_records {records : List AuditRecord}
    (committed : db.commit storage ⟨none, none, records⟩ = some next) (eventId : String) :
    next.entry eventId = db.entry eventId := by
  obtain ⟨events, deliveries, _⟩ := Database.commit_eq_some committed
  rw [entry, ← Option.some.inj events, ← Option.some.inj deliveries]
  rfl

/-- An assigned status changes one read only. -/
theorem EventWrite.get_assign {events later : Table Event.eventId} {status : ProcessingStatus}
    (flushed : EventWrite.flush storage events (some (.assign eventId status)) = some later)
    (other : String) :
    later.get other =
      if other = eventId then (events.get eventId).map fun row => row.withStatus status
      else events.get other := by
  obtain ⟨_, rfl⟩ := Table.update_eq_some.mp flushed
  exact events.get_modify eventId (fun row => row.withStatus status) (fun _ => rfl) other

/-- The commit of a new event fills an entry without an event. -/
theorem Database.commit_insert {submission : Submission}
    (committed : db.commit storage ⟨some (.insert submission.event), none, []⟩ = some next) :
    db.events.get submission.command.eventId = none ∧ ∀ eventId, next.entry eventId =
      if submission.command.eventId = eventId then
        ⟨some (submission.row storage), db.deliveries.get eventId⟩
      else db.entry eventId := by
  obtain ⟨inserted, deliveries, _⟩ := Database.commit_eq_some committed
  have fresh : db.events.insert (submission.row storage) = some next.events := inserted
  refine ⟨Table.get_of_insert fresh, fun eventId => ?_⟩
  have read := Table.get_insert fresh eventId
  rw [entry, ← Option.some.inj deliveries, read]
  have own : (submission.row storage).eventId = submission.command.eventId := rfl
  rw [own]
  split <;> rfl

/-- The commit of a settled status changes one entry. -/
theorem Database.commit_settle {event : Event} {status : ProcessingStatus}
    {records : List AuditRecord} (present : db.events.get eventId = some event)
    (committed : db.commit storage ⟨some (.assign eventId status), none, records⟩ = some next)
    (other : String) : next.entry other =
      if other = eventId then ⟨some (event.withStatus status), db.deliveries.get other⟩
      else db.entry other := by
  obtain ⟨assigned, deliveries, _⟩ := Database.commit_eq_some committed
  rw [entry, ← Option.some.inj deliveries, EventWrite.get_assign assigned, present]
  split <;> rfl

/-- The commit of a queued event adds its delivery. -/
theorem Database.commit_queue {event : Event} {delivery : PendingDelivery}
    {records : List AuditRecord} (present : db.events.get eventId = some event)
    (own : delivery.eventId = eventId)
    (committed : db.commit storage
      ⟨some (.assign eventId .queued), some (.insert delivery), records⟩ = some next)
    (other : String) : next.entry other =
      if other = eventId then ⟨some (event.withStatus .queued), some delivery⟩
      else db.entry other := by
  obtain ⟨assigned, deliveries, _⟩ := Database.commit_eq_some committed
  have inserted : db.deliveries.insert delivery = some next.deliveries := deliveries
  rw [entry, EventWrite.get_assign assigned, Table.get_insert inserted, present, own]
  by_cases same : other = eventId
  · rw [if_pos same, if_pos same, if_pos same.symm]
    rfl
  · rw [if_neg same, if_neg same, if_neg (Ne.symm same)]
    rfl

/-- The commit of a retry changes the delivery of one entry. -/
theorem Database.commit_reschedule {delivery : PendingDelivery} {attemptCount : Nat}
    {lastError : String} {nextAttemptAt : Rat} {records : List AuditRecord}
    (present : db.deliveries.get eventId = some delivery)
    (committed : db.commit storage
      ⟨none, some (.reschedule eventId attemptCount lastError nextAttemptAt), records⟩ = some next)
    (other : String) : next.entry other =
      if other = eventId then
        ⟨db.events.get other, some { delivery with
          attemptCount := attemptCount
          lastError := some lastError
          nextAttemptAt := nextAttemptAt }⟩
      else db.entry other := by
  obtain ⟨events, rescheduled, _⟩ := Database.commit_eq_some committed
  obtain ⟨_, modified⟩ := Table.update_eq_some.mp rescheduled
  rw [entry, ← Option.some.inj events, ← modified, Table.get_modify, present]
  split <;> rfl

/-- The commit of a processed delivery settles its event and deletes the delivery. -/
theorem Database.commit_dequeue {event : Event} {status : ProcessingStatus}
    {records : List AuditRecord} (present : db.events.get eventId = some event)
    (committed : db.commit storage
      ⟨some (.assign eventId status), some (.delete eventId), records⟩ = some next)
    (other : String) : next.entry other =
      if other = eventId then ⟨some (event.withStatus status), none⟩
      else db.entry other := by
  obtain ⟨assigned, deleted, _⟩ := Database.commit_eq_some committed
  rw [entry, EventWrite.get_assign assigned, ← Option.some.inj deleted, Table.get_erase, present]
  split <;> rfl

end EventLedger.EventGateway
