import EventLedger.AccountService.Service
import EventLedger.EventGateway.AccountClient
import EventLedger.EventGateway.Process

namespace EventLedger.Delivery
open Library Python EventGateway

/-- The two services have their own columns, and the path of a request carries the account id through
the URL. -/
structure Environment where
  unicode : Unicode
  settings : Settings
  gatewayStorage : Storage
  accountStorage : Storage
  path : String → String

/-- A submit or the worker makes a downstream call. -/
inductive Caller where
  | submit (call : Nat)
  | worker
  deriving DecidableEq

/-- A client call waits for the answer to one request at a time. -/
inductive Client where
  | idle
  | waiting (attempt tag : Nat)
  | sleeping (attempt : Nat)
  | finished (outcome : CallOutcome)

/-- A delivery request is processed at most once, and it is lost when it is never processed. -/
structure Message where
  payload : Payload
  traceId : String
  answer : Option AccountService.Answer
  deriving DecidableEq

/-- A request created a transaction when its answer is 201. -/
def Message.created (message : Message) : Bool :=
  match message.answer with
  | some answer => answer.status == 201
  | none => false

/-- The state covers the gateway process, its client, the requests sent so far and the ledger. -/
structure System where
  gateway : Process
  breaker : CircuitBreaker
  clients : Caller → Client
  network : List Message
  account : AccountService.Database

inductive Action where
  | arrive (call : Nat) (body : Payload) (metadata : Option (List (String × Json)))
      (traceId : String)
  | advance (call : Nat)
  | poll (now : Rat)
  | take (fresh : String)
  | rest
  | call (caller : Caller) (now : Rat)
  | receive (caller : Caller) (response : Response) (now : Rat)
  | interrupt (caller : Caller) (outcome : AttemptOutcome) (now : Rat)
  | wake (caller : Caller)
  | resume (caller : Caller) (now : Rat) (draw : Draw)
  | process (tag : Nat) (fresh : String)
  | direct (accountId : String) (body : Payload) (traceId : String)
  | crash

/-- The route validates the body and calls `apply` with the account id of the path. -/
def handle (environment : Environment) (accountId : String) (body : Payload) (traceId : String)
    (db : AccountService.Database) : AccountService.Database × AccountService.Answer :=
  match TransactionCreate.validate environment.unicode body with
  | none => (db, .httpException 422 "VALIDATION_ERROR" "Request validation failed")
  | some command =>
      AccountService.Request.apply environment.accountStorage ⟨accountId, command, traceId⟩ db

/-- A caller at its await sends its payload under its trace id. -/
def calling (process : Process) : Caller → Option (Payload × String)
  | .submit i =>
      match process.submits i with
      | .calling submission _ => some (submission.payload, submission.traceId)
      | _ => none
  | .worker =>
      match process.worker with
      | .calling delivery _ traceId _ _ => some (delivery.payloadJson, traceId)
      | _ => none

/-- The end of the await hands the outcome of the call to its caller. -/
def Caller.resume (outcome : CallOutcome) (now : Rat) (draw : Draw) : Caller → EventGateway.Action
  | .submit i => .resume i outcome now
  | .worker => .deliver outcome now draw

namespace System

/-- The gateway process takes one of its steps. -/
def act (environment : Environment) (system : System) (action : EventGateway.Action) :
    Option System :=
  (system.gateway.step environment.gatewayStorage environment.settings action).map fun gateway =>
    { system with gateway := gateway }

def setClient (system : System) (caller : Caller) (client : Client) : System :=
  { system with clients := Function.update system.clients caller client }

/-- A call that starts an attempt sends its request. -/
def enter (system : System) (caller : Caller) (payload : Payload) (traceId : String) :
    ClientRequest → System
  | .attempting attempt =>
      { system.setClient caller (.waiting attempt system.network.length) with
        network := system.network ++ [⟨payload, traceId, none⟩] }
  | .sleeping attempt => system.setClient caller (.sleeping attempt)
  | .finished outcome => system.setClient caller (.finished outcome)

/-- The end of an attempt updates the breaker and the call. -/
def endAttempt (environment : Environment) (system : System) (caller : Caller) (payload : Payload)
    (traceId : String) (attempt : Nat) (now : Rat) (outcome : AttemptOutcome) : System :=
  let ended := ClientRequest.attemptEnds environment.settings system.breaker attempt now outcome
  { system with breaker := ended.1 }.enter caller payload traceId ended.2

/-- A proxy answers with a transient status, or the attempt ends in an exception. -/
def interrupts : AttemptOutcome → Bool
  | .response response => ClientRequest.transient response.statusCode
  | .timeout _ | .connectError _ | .raised => true

/-- The Account Service processes one delivery request atomically. -/
def process (environment : Environment) (system : System) (tag : Nat) (message : Message)
    (fresh : String) : System :=
  let handled := handle environment (environment.path message.payload.accountId) message.payload
    (normalizeTraceId (some message.traceId) fresh) system.account
  { system with
    network := system.network.set tag { message with answer := some handled.2 }
    account := handled.1 }

def step (environment : Environment) (system : System) : Action → Option System
  | .arrive i body metadata traceId => do
      let command ← EventCreate.validate environment.unicode body metadata
      system.act environment (.arrive i ⟨command, traceId⟩)
  | .advance i => system.act environment (.advance i)
  | .poll now => system.act environment (.poll now)
  | .take fresh => system.act environment (.take fresh)
  | .rest => system.act environment .rest
  | .call caller now =>
      match system.clients caller, calling system.gateway caller with
      | .idle, some (payload, traceId) => some (system.enter caller payload traceId
          (ClientRequest.start environment.settings system.breaker now))
      | _, _ => none
  | .receive caller response now =>
      match system.clients caller, calling system.gateway caller with
      | .waiting attempt tag, some (payload, traceId) =>
          match system.network[tag]? with
          | some message =>
              if message.answer.map AccountService.Answer.status = some response.statusCode then
                some (system.endAttempt environment caller payload traceId attempt now
                  (.response response))
              else none
          | none => none
      | _, _ => none
  | .interrupt caller outcome now =>
      match system.clients caller, calling system.gateway caller with
      | .waiting attempt _, some (payload, traceId) =>
          if interrupts outcome then
            some (system.endAttempt environment caller payload traceId attempt now outcome)
          else none
      | _, _ => none
  | .wake caller =>
      match system.clients caller, calling system.gateway caller with
      | .sleeping attempt, some (payload, traceId) =>
          some (system.enter caller payload traceId (.attempting (attempt + 1)))
      | _, _ => none
  | .resume caller now draw =>
      match system.clients caller with
      | .finished outcome => (system.act environment (caller.resume outcome now draw)).map
          fun next => next.setClient caller .idle
      | _ => none
  | .process tag fresh =>
      match system.network[tag]? with
      | some message =>
          match message.answer with
          | none => some (system.process environment tag message fresh)
          | some _ => none
      | none => none
  | .direct accountId body traceId =>
      some { system with account := (handle environment accountId body traceId system.account).1 }
  | .crash => some { system with
      gateway := .crashed system.gateway.db
      breaker := .closed
      clients := fun _ => .idle }

end System

/-- The two services start with empty databases and no requests between them. -/
def twoServices (environment : Environment) : Machine System Action where
  initial := {
    gateway := .crashed .empty
    breaker := .closed
    clients := fun _ => .idle
    network := []
    account := .empty }
  step := System.step environment

end EventLedger.Delivery
