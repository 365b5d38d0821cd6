import EventLedger.EventGateway.EventService
import EventLedger.Tracing
import Mathlib.Algebra.Order.Ring.Rat
import Mathlib.Data.List.Sort

namespace EventLedger.EventGateway
open Library Python

/-- A uniform draw scales a number between zero and one. -/
abbrev Draw := {value : Rat // 0 ≤ value ∧ value ≤ 1}

def Draw.zero : Draw := ⟨0, by decide, by decide⟩

/-- The backoff doubles with each attempt up to a bound, and a jitter is added. -/
def backoffSeconds (settings : Settings) (attemptCount : Nat) (draw : Draw) : Rat :=
  let exponent := min (attemptCount - 1) 16
  let base := settings.asyncFallbackBaseBackoffSeconds * 2 ^ exponent
  min base settings.asyncFallbackMaxBackoffSeconds +
    settings.asyncFallbackJitterSeconds * draw.val

/-- The due deliveries are ordered by their time and then by their event id. -/
def PendingDelivery.before (first second : PendingDelivery) : Prop :=
  first.nextAttemptAt < second.nextAttemptAt ∨
    first.nextAttemptAt = second.nextAttemptAt ∧ first.eventId ≤ second.eventId

instance : DecidableRel PendingDelivery.before :=
  fun _ _ => inferInstanceAs (Decidable (_ ∨ _ ∧ _))

/-- A negative limit means no limit. -/
def dueEventIds (deliveries : Table PendingDelivery.eventId) (limit : Int) (now : Rat) :
    List String :=
  let due := (deliveries.rows.filter fun row => decide (row.nextAttemptAt ≤ now)).insertionSort
    PendingDelivery.before
  (if limit < 0 then due else due.take limit.toNat).map PendingDelivery.eventId

/-- A pass attempts its event ids in turn and holds its copies of one delivery across the await. -/
inductive Worker where
  | idle
  | passing (remaining : List String) (processed : Nat)
  | calling (delivery : PendingDelivery) (event : Event) (traceId : String)
      (remaining : List String) (processed : Nat)

/-- The worker reads a delivery and its event, and deletes a delivery without an event. -/
inductive Taken where
  | absent
  | orphan (work : Work)
  | calling (delivery : PendingDelivery) (event : Event)

def take (db : Database) (eventId : String) : Taken :=
  match db.deliveries.get eventId with
  | none => .absent
  | some delivery =>
      match db.events.get eventId with
      | none => .orphan ⟨none, some (.delete delivery.eventId), []⟩
      | some event => .calling delivery event

/-- The worker records under the trace id of the delivery. -/
def workerRecord (event : Event) (traceId : String) (action : AuditAction) (outcome : AuditOutcome)
    (details : Option AuditDetails) : AuditRecord :=
  ⟨action, outcome, traceId, event.eventId, event.accountId, details⟩

/-- The end of the await prepares one commit and tells whether the delivery is processed. -/
def deliver (settings : Settings) (delivery : PendingDelivery) (event : Event) (traceId : String)
    (now : Rat) (draw : Draw) : CallOutcome → Option (Work × Bool)
  | .unavailable message =>
      let attemptCount := delivery.attemptCount + 1
      let nextAttemptAt := now + backoffSeconds settings attemptCount draw
      some (⟨none, some (.reschedule delivery.eventId attemptCount message nextAttemptAt),
        [workerRecord event traceId .eventQueueRetryScheduled .retry
          (some (.retry attemptCount nextAttemptAt))]⟩, false)
  | .response response =>
      if 400 ≤ response.statusCode then
        some (⟨event.assign .failed, some (.delete delivery.eventId),
          [workerRecord event traceId .eventQueueRejected .failure
            (some (.downstreamStatus response.statusCode))]⟩, true)
      else
        some (⟨event.assign .applied, some (.delete delivery.eventId),
          [workerRecord event traceId .eventAppliedFromQueue .success
            (some (.attempts (delivery.attemptCount + 1)))]⟩, true)
  | .raised => none

end EventLedger.EventGateway
