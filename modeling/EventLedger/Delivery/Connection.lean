import EventLedger.Delivery.Steps

namespace EventLedger.Delivery
open Library Python EventGateway

variable {environment : Environment} {system next : System} {action : Action}

/-- A later network keeps each request with its payload and its answer. -/
def Extends (before after : List Message) : Prop :=
  ∀ (tag : Nat) (message : Message), before[tag]? = some message → ∃ later : Message,
    after[tag]? = some later ∧ later.payload = message.payload ∧
      ∀ answer, message.answer = some answer → later.answer = some answer

theorem Extends.refl (network : List Message) : Extends network network :=
  fun _ message found => ⟨message, found, rfl, fun _ answered => answered⟩

/-- A new request extends the network. -/
theorem extends_append (network : List Message) (message : Message) :
    Extends network (network ++ [message]) := by
  intro tag earlier found
  have below : tag < network.length := (List.getElem?_eq_some_iff.mp found).1
  exact ⟨earlier, by rw [List.getElem?_append_left below, found], rfl, fun _ answered => answered⟩

/-- The answer to a request extends the network. -/
theorem extends_set {network : List Message} {tag : Nat} {message : Message}
    (found : network[tag]? = some message) (waits : message.answer = none)
    (answer : AccountService.Answer) :
    Extends network (network.set tag { message with answer := some answer }) := by
  intro other earlier present
  by_cases same : tag = other
  · subst same
    obtain rfl := Option.some.inj (found.symm.trans present)
    refine ⟨{ message with answer := some answer }, ?_, rfl, fun other answered => ?_⟩
    · exact List.getElem?_set_self (List.getElem?_eq_some_iff.mp found).1
    · rw [waits] at answered
      cases answered
  · exact ⟨earlier, by rw [List.getElem?_set_ne same, present], rfl, fun _ answered => answered⟩

theorem System.enter_extends (system : System) (caller : Caller) (payload : Payload)
    (traceId : String) (request : ClientRequest) :
    Extends system.network (system.enter caller payload traceId request).network := by
  cases request with
  | attempting attempt => exact extends_append _ _
  | sleeping | finished => exact .refl _

/-- A call that starts an attempt sends one request, which has no answer yet. -/
theorem System.enter_sent {caller : Caller} {payload : Payload} {traceId : String}
    {request : ClientRequest} {message : Message}
    (sent : message ∈ (system.enter caller payload traceId request).network) :
    message ∈ system.network ∨ message = ⟨payload, traceId, none⟩ := by
  cases request with
  | attempting attempt => exact (List.mem_append.mp sent).imp_right List.mem_singleton.mp
  | sleeping | finished => exact .inl sent

theorem System.endAttempt_extends (system : System) (caller : Caller) (payload : Payload)
    (traceId : String) (attempt : Nat) (now : Rat) (outcome : AttemptOutcome) :
    Extends system.network
      (system.endAttempt environment caller payload traceId attempt now outcome).network :=
  let ended := ClientRequest.attemptEnds environment.settings system.breaker attempt now outcome
  System.enter_extends { system with breaker := ended.1 } caller payload traceId ended.2

/-- Every step extends the network. -/
theorem System.Step.extends (step : System.Step environment system action next) :
    Extends system.network next.network := by
  cases step with
  | start | wake => exact System.enter_extends _ _ _ _ _
  | ended => exact System.endAttempt_extends _ _ _ _ _ _ _
  | process tag fresh message found waits => exact extends_set found waits _
  | act | resume | direct | crash => exact .refl _

/-- A call stays open until its own resume or a crash. -/
theorem calling_kept {storage : Storage} {settings : Settings} {process after : Process}
    {inner : EventGateway.Action} (taken : process.step storage settings inner = some after)
    {caller : Caller} {call : Payload × String} (calls : calling process caller = some call) :
    calling after caller = some call ∨
      (∃ outcome now draw, inner = caller.resume outcome now draw) ∨ inner = .crash := by
  obtain ⟨payload, traceId⟩ := call
  have awaiting := calls_of_calling calls
  rcases Process.step_cases taken with
    ⟨i, submit, step, submits, worker⟩ | ⟨step, submits⟩ | ⟨crashed, _⟩
  · cases caller with
    | worker => exact .inl (by rw [calling, worker]; exact calls)
    | submit j =>
        by_cases own : j = i
        · subst own
          cases awaiting with
          | submit _ submission event awaits =>
              obtain ⟨outcome, now, rfl⟩ := step.resumes awaits
              exact .inr (.inl ⟨outcome, now, .zero, rfl⟩)
        · exact .inl (by rw [calling, submits, Function.update_of_ne own]; exact calls)
  · cases caller with
    | submit j => exact .inl (by rw [calling, submits]; exact calls)
    | worker =>
        cases awaiting with
        | worker _ _ _ _ _ awaits =>
            obtain ⟨outcome, now, draw, rfl⟩ := step.delivers awaits
            exact .inr (.inl ⟨outcome, now, draw, rfl⟩)
  · exact .inr (.inr crashed)

/-- A local action keeps every open call. -/
theorem Local.calling {unicode : Unicode} {storage : Storage} {settings : Settings}
    {process after : Process} {inner : EventGateway.Action} (stays : Local unicode inner)
    (taken : process.step storage settings inner = some after) {caller : Caller}
    {call : Payload × String} (calls : calling process caller = some call) :
    Delivery.calling after caller = some call := by
  rcases calling_kept taken calls with kept | ⟨outcome, now, draw, rfl⟩ | rfl
  · exact kept
  · cases caller <;> cases stays
  · cases stays

/-- The resume of one call keeps every other open call. -/
theorem resume_calling {storage : Storage} {settings : Settings} {process after : Process}
    {caller other : Caller} {outcome : CallOutcome} {now : Rat} {draw : Draw}
    (taken : process.step storage settings (caller.resume outcome now draw) = some after)
    (different : other ≠ caller) {call : Payload × String} (calls : calling process other = some call) :
    calling after other = some call := by
  rcases calling_kept taken calls with kept | ⟨_, _, _, same⟩ | crash
  · exact kept
  · cases other <;> cases caller <;> cases same <;> exact absurd rfl different
  · cases caller <;> cases crash

/-- A client call is connected to the open call of its caller and to its own request. -/
def Client.Connected (network : List Message) (call : Option (Payload × String)) : Client → Prop
  | .idle => True
  | .waiting _ tag => ∃ payload traceId message, call = some (payload, traceId) ∧
      network[tag]? = some message ∧ message.payload = payload
  | .sleeping _ => ∃ payload traceId, call = some (payload, traceId)
  | .finished outcome => ∃ payload traceId, call = some (payload, traceId) ∧
      ∀ response, outcome = .response response → ∃ message ∈ network, message.payload = payload ∧
        message.answer.map AccountService.Answer.status = some response.statusCode

def System.Connected (system : System) : Prop :=
  ∀ caller, (system.clients caller).Connected system.network (calling system.gateway caller)

/-- A connected client stays connected while its call is open and the network grows. -/
theorem Client.Connected.extend {client : Client} {before after : List Message}
    {call later : Option (Payload × String)} (connected : client.Connected before call)
    (grows : Extends before after) (kept : ∀ value, call = some value → later = some value) :
    client.Connected after later := by
  cases client with
  | idle => trivial
  | waiting attempt tag =>
      obtain ⟨payload, traceId, message, calls, found, same⟩ := connected
      obtain ⟨extended, present, payloads, _⟩ := grows tag message found
      exact ⟨payload, traceId, extended, kept _ calls, present, payloads.trans same⟩
  | sleeping attempt =>
      obtain ⟨payload, traceId, calls⟩ := connected
      exact ⟨payload, traceId, kept _ calls⟩
  | finished outcome =>
      obtain ⟨payload, traceId, calls, answered⟩ := connected
      refine ⟨payload, traceId, kept _ calls, fun response same => ?_⟩
      obtain ⟨message, member, own, status⟩ := answered response same
      obtain ⟨tag, found⟩ := List.mem_iff_getElem?.mp member
      obtain ⟨extended, present, payloads, answers⟩ := grows tag message found
      refine ⟨extended, List.mem_iff_getElem?.mpr ⟨tag, present⟩, payloads.trans own, ?_⟩
      obtain ⟨answer, given, same⟩ := Option.map_eq_some_iff.mp status
      rw [answers answer given, Option.map_some, same]

/-- An entered call is connected. -/
theorem System.enter_connected {caller : Caller} {payload : Payload} {traceId : String}
    {request : ClientRequest} (connected : system.Connected)
    (calls : calling system.gateway caller = some (payload, traceId))
    (answered : ∀ response, request = .finished (.response response) →
      ∃ message ∈ system.network, message.payload = payload ∧
        message.answer.map AccountService.Answer.status = some response.statusCode) :
    (system.enter caller payload traceId request).Connected := by
  intro other
  rw [System.enter_gateway]
  have grows := system.enter_extends caller payload traceId request
  by_cases own : other = caller
  · subst own
    cases request with
    | attempting attempt =>
        simp only [enter, setClient, Function.update_self]
        exact ⟨payload, traceId, _, calls, List.getElem?_concat_length, rfl⟩
    | sleeping attempt =>
        simp only [enter, setClient, Function.update_self]
        exact ⟨payload, traceId, calls⟩
    | finished outcome =>
        simp only [enter, setClient, Function.update_self]
        exact ⟨payload, traceId, calls, fun response same => answered response (same ▸ rfl)⟩
  · have kept := (connected other).extend grows fun _ calls => calls
    cases request with
    | attempting | sleeping | finished =>
        simp only [enter, setClient, Function.update_of_ne own] at kept ⊢
        exact kept

/-- A call that ends with a response ends with the answer to its own request. -/
theorem attemptEnds_response {settings : Settings} {breaker : CircuitBreaker} {attempt : Nat}
    {now : Rat} {outcome : AttemptOutcome} {response : Response}
    (ended : (ClientRequest.attemptEnds settings breaker attempt now outcome).2 =
      .finished (.response response)) :
    outcome = .response response ∧ ClientRequest.transient response.statusCode = false := by
  have failed (message : String) :
      (ClientRequest.failed settings breaker attempt now message).2 ≠
        .finished (.response response) := by
    unfold ClientRequest.failed
    split <;> simp
  cases outcome with
  | response received =>
      simp only [ClientRequest.attemptEnds] at ended
      split at ended
      · exact absurd ended (failed _)
      · next final =>
          cases ended
          exact ⟨rfl, by simpa using final⟩
  | timeout message | connectError message => exact absurd ended (failed _)
  | raised => cases ended

/-- Every step keeps the clients connected. -/
theorem System.Connected.step (connected : system.Connected)
    (step : System.Step environment system action next) : next.Connected := by
  have grows := step.extends
  cases step with
  | act _ inner gateway stays stepped =>
      exact fun caller => (connected caller).extend grows fun _ => stays.calling stepped
  | start caller now payload traceId request _ calls unanswered =>
      exact System.enter_connected connected calls
        fun response same => absurd same (unanswered response)
  | wake caller payload traceId attempt _ calls =>
      exact System.enter_connected connected calls fun _ same => by cases same
  | ended _ caller payload traceId attempt tag now outcome waits calls ends =>
      refine System.enter_connected connected calls fun response same => ?_
      obtain ⟨rfl, final⟩ := attemptEnds_response same
      rcases ends with interrupts | ⟨_, message, same, found, status⟩
      · rw [System.interrupts, final] at interrupts
        cases interrupts
      · have waiting := connected caller
        rw [waits] at waiting
        obtain ⟨own, _, sent, opened, present, payloads⟩ := waiting
        obtain ⟨rfl, _⟩ := Prod.mk.inj (Option.some.inj (calls.symm.trans opened))
        obtain rfl := Option.some.inj (found.symm.trans present)
        cases same
        exact ⟨message, List.mem_iff_getElem?.mpr ⟨tag, found⟩, payloads, status⟩
  | resume caller outcome now draw gateway finished stepped =>
      intro other
      by_cases own : other = caller
      · subst own
        simp only [setClient, Function.update_self]
        trivial
      · simp only [setClient, Function.update_of_ne own]
        exact (connected other).extend grows fun _ => resume_calling stepped own
  | process | direct => exact fun caller => (connected caller).extend grows fun _ calls => calls
  | crash => exact fun _ => trivial

theorem connected_of_reachable (reached : (twoServices environment).Reachable system) :
    system.Connected :=
  reached.invariant _ (fun _ => trivial)
    fun _ _ _ _ connected taken => connected.step (System.step_cases taken)

end EventLedger.Delivery
