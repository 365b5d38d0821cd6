import EventLedger.Delivery.System
import EventLedger.EventGateway.Steps

namespace EventLedger.Delivery
open Library Python EventGateway

variable {environment : Environment} {system next : System} {action : Action}

/-- A local action of the gateway ends no await and does not crash. -/
inductive Local (unicode : Unicode) : EventGateway.Action → Prop where
  | arrive (i : Nat) (submission : Submission)
      (upper : unicode.upper submission.command.currency = submission.command.currency) :
      Local unicode (.arrive i submission)
  | advance (i : Nat) : Local unicode (.advance i)
  | poll (now : Rat) : Local unicode (.poll now)
  | take (fresh : String) : Local unicode (.take fresh)
  | rest : Local unicode .rest

/-- An attempt ends early, or with the answer to its own request. -/
def Ends (system : System) (tag : Nat) (outcome : AttemptOutcome) : Prop :=
  System.interrupts outcome ∨ ∃ response message, outcome = .response response ∧
    system.network[tag]? = some message ∧
    message.answer.map AccountService.Answer.status = some response.statusCode

/-- This relation lists every step of the two services. -/
inductive System.Step (environment : Environment) (system : System) : Action → System → Prop where
  | act (action : Action) (inner : EventGateway.Action) (gateway : Process)
      (stays : Local environment.unicode inner)
      (stepped : system.gateway.step environment.gatewayStorage environment.settings inner =
        some gateway) :
      Step environment system action { system with gateway := gateway }
  | start (caller : Caller) (now : Rat) (payload : Payload) (traceId : String)
      (request : ClientRequest) (idle : system.clients caller = .idle)
      (calls : calling system.gateway caller = some (payload, traceId))
      (unanswered : ∀ response, request ≠ .finished (.response response)) :
      Step environment system (.call caller now) (system.enter caller payload traceId request)
  | wake (caller : Caller) (payload : Payload) (traceId : String) (attempt : Nat)
      (asleep : system.clients caller = .sleeping attempt)
      (calls : calling system.gateway caller = some (payload, traceId)) :
      Step environment system (.wake caller)
        (system.enter caller payload traceId (.attempting (attempt + 1)))
  | ended (action : Action) (caller : Caller) (payload : Payload) (traceId : String)
      (attempt tag : Nat) (now : Rat) (outcome : AttemptOutcome)
      (waits : system.clients caller = .waiting attempt tag)
      (calls : calling system.gateway caller = some (payload, traceId))
      (ends : Ends system tag outcome) :
      Step environment system action
        (system.endAttempt environment caller payload traceId attempt now outcome)
  | resume (caller : Caller) (outcome : CallOutcome) (now : Rat) (draw : Draw) (gateway : Process)
      (finished : system.clients caller = .finished outcome)
      (stepped : system.gateway.step environment.gatewayStorage environment.settings
        (caller.resume outcome now draw) = some gateway) :
      Step environment system (.resume caller now draw)
        ({ system with gateway := gateway }.setClient caller .idle)
  | process (tag : Nat) (fresh : String) (message : Message)
      (found : system.network[tag]? = some message) (waits : message.answer = none) :
      Step environment system (.process tag fresh) (system.process environment tag message fresh)
  | direct (accountId : String) (body : Payload) (traceId : String) :
      Step environment system (.direct accountId body traceId)
        { system with account := (handle environment accountId body traceId system.account).1 }
  | crash : Step environment system .crash
      { system with
        gateway := .crashed system.gateway.db
        breaker := .closed
        clients := fun _ => .idle }

/-- An open call is that of a submit or of the worker at its await. -/
inductive Calls (process : Process) : Caller → Payload → String → Prop where
  | submit (i : Nat) (submission : Submission) (event : Event)
      (awaits : process.submits i = .calling submission event) :
      Calls process (.submit i) submission.payload submission.traceId
  | worker (delivery : PendingDelivery) (event : Event) (traceId : String)
      (remaining : List String) (processed : Nat)
      (awaits : process.worker = .calling delivery event traceId remaining processed) :
      Calls process .worker delivery.payloadJson traceId

theorem calls_of_calling {process : Process} {caller : Caller} {payload : Payload}
    {traceId : String} (calls : calling process caller = some (payload, traceId)) :
    Calls process caller payload traceId := by
  cases caller with
  | submit i =>
      simp only [calling] at calls
      split at calls
      · next submission event awaits =>
          obtain ⟨rfl, rfl⟩ := Prod.mk.inj (Option.some.inj calls)
          exact .submit i submission event awaits
      · cases calls
  | worker =>
      simp only [calling] at calls
      split at calls
      · next delivery event _ remaining processed awaits =>
          obtain ⟨rfl, rfl⟩ := Prod.mk.inj (Option.some.inj calls)
          exact .worker delivery event _ remaining processed awaits
      · cases calls

/-- A call starts with its first attempt or without an attempt. -/
theorem start_unanswered (settings : Settings) (breaker : CircuitBreaker) (now : Rat)
    (response : Response) : ClientRequest.start settings breaker now ≠ .finished (.response response) := by
  unfold ClientRequest.start
  split
  · split <;> simp
  · simp

/-- A step of the gateway process is a step of the system. -/
theorem System.step_of_act {inner : EventGateway.Action} (stays : Local environment.unicode inner)
    (taken : system.act environment inner = some next) :
    System.Step environment system action next := by
  obtain ⟨gateway, stepped, rfl⟩ := Option.map_eq_some_iff.mp taken
  exact .act action inner gateway stays stepped

theorem System.step_cases (taken : system.step environment action = some next) :
    System.Step environment system action next := by
  cases action with
  | arrive i body metadata traceId =>
      obtain ⟨command, accepted, taken⟩ := Option.bind_eq_some_iff.mp taken
      have currency := (EventCreate.validate_eq_some accepted).2.2.2.2.1
      refine System.step_of_act (.arrive i ⟨command, traceId⟩ ?_) taken
      rw [currency, environment.unicode.upperIdempotent]
  | advance i => exact System.step_of_act (.advance i) taken
  | poll now => exact System.step_of_act (.poll now) taken
  | take fresh => exact System.step_of_act (.take fresh) taken
  | rest => exact System.step_of_act .rest taken
  | call caller now =>
      simp only [step] at taken
      split at taken
      · next payload traceId idle calls =>
          obtain rfl := Option.some.inj taken
          exact .start caller now payload traceId _ idle calls (start_unanswered _ _ _)
      · cases taken
  | receive caller response now =>
      simp only [step] at taken
      split at taken
      · next attempt tag payload traceId waits calls =>
          split at taken
          · next message found =>
              obtain ⟨answered, same⟩ := Option.ite_none_right_eq_some.mp taken
              obtain rfl := Option.some.inj same
              exact .ended _ caller payload traceId attempt tag now (.response response) waits calls
                (.inr ⟨response, message, rfl, found, answered⟩)
          · cases taken
      · cases taken
  | interrupt caller outcome now =>
      simp only [step] at taken
      split at taken
      · next attempt tag payload traceId waits calls =>
          obtain ⟨interrupts, same⟩ := Option.ite_none_right_eq_some.mp taken
          obtain rfl := Option.some.inj same
          exact .ended _ caller payload traceId attempt tag now outcome waits calls (.inl interrupts)
      · cases taken
  | wake caller =>
      simp only [step] at taken
      split at taken
      · next attempt payload traceId asleep calls =>
          obtain rfl := Option.some.inj taken
          exact .wake caller payload traceId attempt asleep calls
      · cases taken
  | resume caller now draw =>
      simp only [step] at taken
      split at taken
      · next outcome finished =>
          obtain ⟨acted, actedTo, rfl⟩ := Option.map_eq_some_iff.mp taken
          obtain ⟨gateway, stepped, rfl⟩ := Option.map_eq_some_iff.mp actedTo
          exact .resume caller outcome now draw gateway finished stepped
      · cases taken
  | process tag fresh =>
      simp only [step] at taken
      split at taken
      · next message found =>
          split at taken
          · next waits =>
              obtain rfl := Option.some.inj taken
              exact .process tag fresh message found waits
          · cases taken
      · cases taken
  | direct accountId body traceId =>
      obtain rfl := Option.some.inj taken
      exact .direct accountId body traceId
  | crash =>
      obtain rfl := Option.some.inj taken
      exact .crash

/-- The client never changes the gateway process or the ledger. -/
@[simp] theorem System.enter_gateway (system : System) (caller : Caller) (payload : Payload)
    (traceId : String) (request : ClientRequest) :
    (system.enter caller payload traceId request).gateway = system.gateway := by
  cases request <;> rfl

@[simp] theorem System.enter_account (system : System) (caller : Caller) (payload : Payload)
    (traceId : String) (request : ClientRequest) :
    (system.enter caller payload traceId request).account = system.account := by
  cases request <;> rfl

@[simp] theorem System.endAttempt_gateway (environment : Environment) (system : System)
    (caller : Caller) (payload : Payload) (traceId : String) (attempt : Nat) (now : Rat)
    (outcome : AttemptOutcome) :
    (system.endAttempt environment caller payload traceId attempt now outcome).gateway =
      system.gateway := System.enter_gateway ..

@[simp] theorem System.endAttempt_account (environment : Environment) (system : System)
    (caller : Caller) (payload : Payload) (traceId : String) (attempt : Nat) (now : Rat)
    (outcome : AttemptOutcome) :
    (system.endAttempt environment caller payload traceId attempt now outcome).account =
      system.account := System.enter_account ..

/-- The gateway process takes at most one of its own steps. -/
theorem System.Step.gateway (step : System.Step environment system action next) :
    next.gateway = system.gateway ∨ ∃ inner, system.gateway.step environment.gatewayStorage
      environment.settings inner = some next.gateway := by
  cases step with
  | act _ inner gateway _ stepped => exact .inr ⟨inner, stepped⟩
  | resume caller outcome now draw gateway _ stepped => exact .inr ⟨_, stepped⟩
  | start | wake => exact .inl (System.enter_gateway ..)
  | ended => exact .inl (System.endAttempt_gateway ..)
  | process | direct => exact .inl rfl
  | crash => exact .inr ⟨.crash, rfl⟩

/-- The gateway of a reachable system is a reachable gateway process. -/
theorem gateway_reachable (reached : (twoServices environment).Reachable system) :
    (gateway environment.gatewayStorage environment.settings).Reachable system.gateway :=
  Machine.Reachable.project System.gateway rfl
    (fun _ _ _ taken => (System.step_cases taken).gateway) reached

end EventLedger.Delivery
