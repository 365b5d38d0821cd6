import EventLedger.EventGateway.Database

namespace EventLedger.EventGateway
open Library Python

/-- These settings govern the deliveries of the gateway. -/
structure Settings where
  accountServiceMaxAttempts : Int
  circuitBreakerFailureThreshold : Int
  circuitBreakerRecoverySeconds : Rat
  asyncFallbackEnabled : Bool
  asyncFallbackBatchSize : Int
  asyncFallbackBaseBackoffSeconds : Rat
  asyncFallbackMaxBackoffSeconds : Rat
  asyncFallbackJitterSeconds : Rat

/-- The defaults of the gateway. -/
def Settings.default : Settings where
  accountServiceMaxAttempts := 3
  circuitBreakerFailureThreshold := 5
  circuitBreakerRecoverySeconds := 30
  asyncFallbackEnabled := true
  asyncFallbackBatchSize := 25
  asyncFallbackBaseBackoffSeconds := 1
  asyncFallbackMaxBackoffSeconds := 60
  asyncFallbackJitterSeconds := 1 / 4

/-- The client decodes and parses the body only on demand, and either may fail. -/
structure Response where
  statusCode : Nat
  contentType : String
  text : Option String
  json : Option Json

/-- The parser runs only on a body that is labelled as JSON. -/
def Response.detail (response : Response) : Option Json :=
  if response.contentType.startsWith "application/json" then response.json
  else response.text.map fun text => .obj [("message", .str text)]

/-- A downstream call returns a response, raises `AccountServiceUnavailable` or lets another
exception through. -/
inductive CallOutcome where
  | response (response : Response)
  | unavailable (message : String)
  | raised

/-- A submit returns an event, raises an HTTP exception with this detail or lets another exception
escape. -/
inductive Answer where
  | returned (event : Event) (created : Bool)
  | httpException (status : Nat) (detail : Json)
  | unhandled
  | databaseError

/-- The route and the exception handlers map each answer to an HTTP status, once its exception has been
constructed. -/
def Answer.status : Answer → Nat
  | .returned event true => if event.processingStatus = .queued then 202 else 201
  | .returned _ false => 200
  | .httpException status _ => status
  | .unhandled => 500
  | .databaseError => 503

/-- The web framework gives an HTTP exception without a detail one of its own, or its constructor
raises on the status. -/
abbrev DefaultDetail : Type := Nat → Option String

/-- The constructor of an HTTP exception replaces only a missing detail. -/
def Answer.constructed (defaultDetail : DefaultDetail) : Answer → Answer
  | .httpException status .null =>
      match defaultDetail status with
      | some text => .httpException status (.str text)
      | none => .unhandled
  | answer => answer

/-- The detail of a downstream rejection is its error member or else its whole body. -/
def Answer.rejected (status : Nat) : Json → Answer
  | .obj entries => .httpException status ((entries.lookup "error").getD (.obj entries))
  | _ => .unhandled

def eventIdConflict (message : String) : Answer :=
  .httpException 409 (.obj [("code", .str "EVENT_ID_CONFLICT"), ("message", .str message)])

def accountServiceUnavailable : Answer :=
  .httpException 503 (.obj [("code", .str "ACCOUNT_SERVICE_UNAVAILABLE"),
    ("message", .str "Account processing is temporarily unavailable"), ("retryable", .bool true)])

/-- The comparison is undefined when the conversion of a timestamp overflows. -/
def sameEvent (event : Event) (command : EventCreate) : Option Bool :=
  if event.accountId = command.accountId ∧ event.type = command.type ∧
      event.amount = command.amount ∧ event.currency = command.currency then do
    let stored ← event.eventTimestamp.utcNaive
    let received ← command.eventTimestamp.utcNaive
    return decide (stored = received) &&
      Json.pyEqOption (Json.orNone event.metadataJson) command.metadata
  else some false

/-- A submission carries the validated command and its trace id. -/
structure Submission where
  command : EventCreate
  traceId : String

namespace Submission

/-- A new event is stored as `PENDING`. -/
def event (submission : Submission) : Event where
  eventId := submission.command.eventId
  accountId := submission.command.accountId
  type := submission.command.type
  amount := submission.command.amount
  currency := submission.command.currency
  eventTimestamp := submission.command.eventTimestamp
  metadataJson := submission.command.metadata
  processingStatus := .pending

/-- The payload carries the transaction fields of the command. -/
def payload (submission : Submission) : Payload where
  eventId := submission.command.eventId
  accountId := submission.command.accountId
  type := submission.command.type
  amount := submission.command.amount
  currency := submission.command.currency
  eventTimestamp := submission.command.eventTimestamp

/-- The trace id comes from the request context. -/
def record (submission : Submission) (action : AuditAction) (outcome : AuditOutcome)
    (details : Option AuditDetails) : AuditRecord :=
  ⟨action, outcome, submission.traceId, submission.command.eventId, submission.command.accountId,
    details⟩

end Submission

/-- A submit stops before each commit and at its await. -/
inductive Submit where
  | idle
  | received (submission : Submission)
  | inserting (submission : Submission)
  | conflicted (submission : Submission)
  | stored (submission : Submission) (event : Event)
  | calling (submission : Submission) (event : Event)
  | recording (record : AuditRecord) (answer : Answer)
  | answered (answer : Answer)

namespace Submission

/-- A replay records itself and returns the stored event. -/
def replay (submission : Submission) (existing : Event) : Submit :=
  .recording (submission.record .eventReplayed .replay none) (.returned existing false)

def conflict (submission : Submission) (details : Option AuditDetails) (message : String) : Submit :=
  .recording (submission.record .eventConflictRejected .failure details) (eventIdConflict message)

/-- The first part of `submit` looks the event id up. -/
def lookup (submission : Submission) (db : Database) : Submit :=
  match db.events.get submission.command.eventId with
  | some existing =>
      match sameEvent existing submission.command with
      | none => .answered .unhandled
      | some false => submission.conflict
          (some (.reason "eventId already exists with different event data"))
          "eventId already exists with different event data"
      | some true => submission.replay existing
  | none => .inserting submission

/-- The handler of `IntegrityError` looks the event id up again after the rollback. -/
def relookup (submission : Submission) (db : Database) : Submit :=
  match db.events.get submission.command.eventId with
  | some existing =>
      match sameEvent existing submission.command with
      | none => .answered .unhandled
      | some true => submission.replay existing
      | some false => submission.conflict none "eventId already exists"
  | none => submission.conflict none "eventId already exists"

/-- The queue rewrites an existing delivery of the event or adds a new one. -/
def enqueue (submission : Submission) (db : Database) (now : Rat) : DeliveryWrite :=
  match db.deliveries.get submission.command.eventId with
  | some _ => .requeue submission.command.eventId submission.payload submission.traceId now
  | none => .insert {
      eventId := submission.command.eventId
      accountId := submission.command.accountId
      payloadJson := submission.payload
      traceId := submission.traceId
      attemptCount := 0
      nextAttemptAt := now
      lastError := none }

/-- The body of a rejection is parsed after the event is saved as `FAILED`. -/
def rejected (submission : Submission) (response : Response) : Submit :=
  match response.detail with
  | none => .answered .unhandled
  | some detail => .recording
      (submission.record .eventProcessingFailed .failure
        (some (.downstreamStatus response.statusCode)))
      (.rejected response.statusCode detail)

/-- The end of the await prepares the next commit and names what follows it. -/
def settle (settings : Settings) (submission : Submission) (event : Event) (db : Database)
    (now : Rat) : CallOutcome → Option (Work × Submit)
  | .response response =>
      if 400 ≤ response.statusCode then
        some (⟨event.assign .failed, none, []⟩, submission.rejected response)
      else
        some (⟨event.assign .applied, none, []⟩,
          .recording (submission.record .eventApplied .success none)
            (.returned { event with processingStatus := .applied } true))
  | .unavailable _ =>
      if settings.asyncFallbackEnabled then
        some (⟨event.assign .queued, some (submission.enqueue db now),
            [submission.record .eventQueued .queued (some (.reason "account service unavailable"))]⟩,
          .answered (.returned { event with processingStatus := .queued } true))
      else
        some (⟨event.assign .failed, none, []⟩,
          .recording
            (submission.record .eventProcessingFailed .failure
              (some (.reason "account service unavailable")))
            accountServiceUnavailable)
  | .raised => none

end Submission
end EventLedger.EventGateway
