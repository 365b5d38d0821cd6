import EventLedger.Library.Table
import EventLedger.Python.Storage
import EventLedger.Schema

namespace EventLedger.EventGateway
open Library Python

inductive ProcessingStatus where
  | pending
  | queued
  | applied
  | failed
  deriving DecidableEq

structure Event where
  eventId : String
  accountId : String
  type : TransactionType
  amount : Decimal
  currency : String
  eventTimestamp : Datetime
  metadataJson : Option (List (String × Json))
  processingStatus : ProcessingStatus

/-- The queue keeps the payload of the synchronous attempt and counts only its own attempts. The time
of the next one is in seconds, and no time is too late for a datetime. -/
structure PendingDelivery where
  eventId : String
  accountId : String
  payloadJson : Payload
  traceId : String
  attemptCount : Nat
  nextAttemptAt : Rat
  lastError : Option String
  deriving DecidableEq

inductive AuditAction where
  | eventStored
  | eventReplayed
  | eventConflictRejected
  | eventProcessingFailed
  | eventQueued
  | eventApplied
  | eventQueueRetryScheduled
  | eventQueueRejected
  | eventAppliedFromQueue
  deriving DecidableEq

inductive AuditOutcome where
  | success
  | replay
  | failure
  | queued
  | retry
  deriving DecidableEq

inductive AuditDetails where
  | reason (text : String)
  | downstreamStatus (statusCode : Nat)
  | retry (attempt : Nat) (nextAttemptAt : Rat)
  | attempts (count : Nat)
  deriving DecidableEq

structure AuditRecord where
  action : AuditAction
  outcome : AuditOutcome
  traceId : String
  eventId : String
  accountId : String
  details : Option AuditDetails
  deriving DecidableEq

/-- The Event Gateway owns two keyed tables and an audit log in insertion order. -/
structure Database where
  events : Table Event.eventId
  deliveries : Table PendingDelivery.eventId
  audit : List AuditRecord

def Database.empty : Database := ⟨Table.empty _, Table.empty _, []⟩

/-- A session adds a new event or assigns a status to the event that it loaded. -/
inductive EventWrite where
  | insert (event : Event)
  | assign (eventId : String) (processingStatus : ProcessingStatus)

/-- A session adds a delivery, rewrites the one that it loaded, or deletes it. -/
inductive DeliveryWrite where
  | insert (delivery : PendingDelivery)
  | requeue (eventId : String) (payload : Payload) (traceId : String) (nextAttemptAt : Rat)
  | reschedule (eventId : String) (attemptCount : Nat) (lastError : String) (nextAttemptAt : Rat)
  | delete (eventId : String)

/-- The pending work of a session is flushed by one commit. -/
structure Work where
  event : Option EventWrite
  delivery : Option DeliveryWrite
  records : List AuditRecord

/-- The session writes a status only when it differs from the one that it loaded. -/
def Event.assign (event : Event) (status : ProcessingStatus) : Option EventWrite :=
  if event.processingStatus = status then none else some (.assign event.eventId status)

/-- The columns convert the written values. -/
def Event.stored (storage : Storage) (event : Event) : Event :=
  { event with
    amount := storage.numeric event.amount
    eventTimestamp := storage.dateTime event.eventTimestamp }

/-- The events statement of a commit fails on a duplicate key or on a missing row. -/
def EventWrite.flush (storage : Storage) (events : Table Event.eventId) :
    Option EventWrite → Option (Table Event.eventId)
  | none => some events
  | some (.insert event) => events.insert (event.stored storage)
  | some (.assign eventId processingStatus) => events.update eventId fun row =>
      { row with processingStatus := processingStatus }

/-- The deliveries statement of a commit fails alike, but the delete of a missing row succeeds. -/
def DeliveryWrite.flush (deliveries : Table PendingDelivery.eventId) :
    Option DeliveryWrite → Option (Table PendingDelivery.eventId)
  | none => some deliveries
  | some (.insert delivery) => deliveries.insert delivery
  | some (.requeue eventId payload traceId nextAttemptAt) => deliveries.update eventId fun row =>
      { row with payloadJson := payload, traceId := traceId, nextAttemptAt := nextAttemptAt }
  | some (.reschedule eventId attemptCount lastError nextAttemptAt) =>
      deliveries.update eventId fun row =>
        { row with
          attemptCount := attemptCount
          lastError := some lastError
          nextAttemptAt := nextAttemptAt }
  | some (.delete eventId) => some (deliveries.erase eventId)

/-- One commit writes all the work, or raises an error and writes nothing. -/
def Database.commit (storage : Storage) (db : Database) (work : Work) : Option Database := do
  let events ← EventWrite.flush storage db.events work.event
  let deliveries ← DeliveryWrite.flush db.deliveries work.delivery
  return ⟨events, deliveries, db.audit ++ work.records⟩

end EventLedger.EventGateway
